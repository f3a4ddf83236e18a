import InterfaceSchemes.Error
import InterfaceSchemes.Path.Relative
import InterfaceSchemes.Settings

/-!
# Where output modules go

The output module of a source stands in a directory beside the source, under the name of the source
with an infix before its extension. Imports between output modules are spelled relative to the
importing module.
-/

namespace InterfaceSchemes.Settings

/-- The place of the schemes of a source: the path of its output module without the extension. -/
def schemeBase (s : Settings) (source : Text) : Text :=
  Path.directory source ++ "/" ++ s.schemesDir ++ "/" ++ (Path.stem? source).getD []
    ++ "." ++ s.schemeInfix

/-- The path of the output module of a source. -/
def outputPath (s : Settings) (source : Text) : Text :=
  s.schemeBase source ++ Path.extension source

/-- The path from `base` to `target`, or the error that there is none. -/
def relativePath (base target : Text) : Except Error Text :=
  match Path.relative? base target with
  | some path => .ok path
  | none => .error (.unrelatedPaths base target)

/-- Whether a path begins with a step upward. -/
def startsUpward (path : Text) : Bool := List.isPrefixOf "../" path

/-- How the module at `importer` spells an import from the place `target`. With the leading dot
stripped the path starts at the file itself, and its first step upward becomes the step into the
directory of the file. Otherwise the path starts at that directory and is marked as relative. -/
def importPath (s : Settings) (importer target : Text) : Except Error Text :=
  if s.stripLeadingDot then do
    let path ← relativePath importer target
    return if startsUpward path then path.drop 1 else path
  else do
    let path ← relativePath (Path.directory importer) target
    return if startsUpward path then path else "./" ++ path

end InterfaceSchemes.Settings
