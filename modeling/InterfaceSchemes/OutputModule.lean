import InterfaceSchemes.Scheme.Registry

/-!
# Output modules

The emitted schemes of one source make up one output module. Its imports are merged: what the module
itself declares is not imported, and of the imports with one leading symbol the first stays.

* `OutputModule.group` collects schemes into modules;
* `OutputModule.render` writes the text of a module.
-/

namespace InterfaceSchemes

/-- A module to write. -/
structure OutputModule where
  /-- The path of the module. -/
  path : Text
  /-- The imports, no two with one leading symbol. -/
  imports : List Import
  /-- The schemes in the order in which they were emitted. -/
  schemes : List SchemeDecl
deriving DecidableEq

namespace OutputModule

/-- The import of the validation library. -/
def libraryImport : Import := ⟨["z"], "zod", false⟩

/-- The module of a source before any scheme is added. -/
def start (settings : Settings) (source : Text) : OutputModule where
  path := settings.outputPath source
  imports := if settings.zodImport then [libraryImport] else []
  schemes := []

/-- Whether an import names the module itself. -/
def isSelfImport (path : Text) (i : Import) : Bool := i.origin ++ Path.extension path == path

/-- The imports of the module at `path` with one more, unless it names the module itself or its
leading symbol is there already. -/
def addImport (path : Text) (imports : List Import) (i : Import) : List Import :=
  if isSelfImport path i then imports
  else if imports.any fun known => known.leadingSymbol? == i.leadingSymbol? then imports
  else imports ++ [i]

/-- The module with one more scheme. -/
def add (m : OutputModule) (decl : SchemeDecl) : OutputModule where
  path := m.path
  imports := decl.imports.foldl (addImport m.path) m.imports
  schemes := m.schemes ++ [decl]

/-- Adds a scheme to the module of its source, which is put at the end if it is new. -/
def insert (settings : Settings) (decl : SchemeDecl) :
    List (Text × OutputModule) → List (Text × OutputModule)
  | [] => [(decl.sourcePath, (start settings decl.sourcePath).add decl)]
  | (source, m) :: modules =>
    if source = decl.sourcePath then (source, m.add decl) :: modules
    else (source, m) :: insert settings decl modules

/-- One module for each source, in the order in which the sources first occur. -/
def group (settings : Settings) (decls : List SchemeDecl) : List OutputModule :=
  (decls.foldl (fun modules decl => insert settings decl modules) []).map Prod.snd

/-- The line of an import in the module at `path`. -/
def importLine (settings : Settings) (path : Text) (i : Import) : Except Error Text := do
  let origin ← if i.resolveRelative then settings.importPath path i.origin else .ok i.origin
  return "import \x7b " ++ Text.joinWith ", " i.symbols ++ " \x7d from '" ++ origin ++ "';"

/-- The text of a module: the imports, a blank line if there are any, and the schemes with a blank
line between neighbours. -/
def render (settings : Settings) (m : OutputModule) : Except Error Text := do
  let lines ← m.imports.mapM (importLine settings m.path)
  let blank : Text := if m.imports.isEmpty then [] else "\n"
  return lines.flatMap (· ++ ['\n']) ++ blank
    ++ Text.joinWith "\n\n" (m.schemes.map SchemeDecl.raw) ++ "\n"

end OutputModule

end InterfaceSchemes
