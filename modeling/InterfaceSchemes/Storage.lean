import InterfaceSchemes.Error
import InterfaceSchemes.FileTree.Access
import InterfaceSchemes.Record
import InterfaceSchemes.Settings.Reader

/-!
# What a run reads and writes

Sources and settings come from a file tree, output modules go to one.
-/

namespace InterfaceSchemes.FileTree

/-- The text of a file of a run. -/
def readInput (t : FileTree) (path : Text) : Except Error Text :=
  (t.readText path).mapError (Error.file path)

/-- Reads a source; it keeps the spelling of its path. -/
def readSource (t : FileTree) (path : Text) : Except Error Source := do
  let contents ← t.readInput path
  return ⟨path, contents⟩

/-- Reads sources in order, up to the first that cannot be read. -/
def readSources (t : FileTree) (paths : List Text) : Except Error (List Source) :=
  paths.mapM t.readSource

/-- Reads a settings document. -/
def readSettings (t : FileTree) (path : Text) : Except Error Settings := do
  let document ← t.readInput path
  (Settings.ofJson document).mapError (Error.settings path)

/-- Makes the directories that a file at `path` needs. -/
def makeParents (t : FileTree) (path : Text) : Except Error Unit × FileTree :=
  match Path.parent? path with
  | none => (.ok (), t)
  | some parent =>
    match t.makeDirectories parent with
    | (.ok (), t) => (.ok (), t)
    | (.error failure, t) => (.error (.file parent failure), t)

/-- Writes a file and makes the directories that it needs. -/
def writeOutput (t : FileTree) (path text : Text) : Except Error Unit × FileTree :=
  match t.makeParents path with
  | (.error error, t) => (.error error, t)
  | (.ok (), t) =>
    match t.writeFile path text with
    | .error failure => (.error (.file path failure), t)
    | .ok t => (.ok (), t)

/-- Writes files in order. The files before one that cannot be written stay. -/
def writeOutputs (t : FileTree) : List (Text × Text) → Except Error (List Text) × FileTree
  | [] => (.ok [], t)
  | (path, text) :: outputs =>
    match t.writeOutput path text with
    | (.error error, t) => (.error error, t)
    | (.ok (), t) =>
      let (written, t) := t.writeOutputs outputs
      (written.map (path :: ·), t)

/-- The tree with a directory at `path` and those above it, as far as there is room for them. -/
def addDirectory (t : FileTree) (path : Text) : FileTree := (t.makeDirectories path).2

/-- The tree with a file at `path` and the directories that it needs, as far as there is room for
them. -/
def addFile (t : FileTree) (path : Text) (bytes : ByteArray) : FileTree :=
  let t := (t.makeParents path).2
  match t.writeBytes path bytes with
  | .ok t => t
  | .error _ => t

/-- What stands in `t` and did not stand so in `before`, each directory before what it holds. -/
def changesSince (t before : FileTree) : List (Location × Node) :=
  t.entries.filter fun entry => before.node? entry.1 != some entry.2

/-- Whether the path of one entry of a listing comes before that of another. -/
def listedBefore (a b : Text × Option ByteArray) : Bool := !decide (b.1 < a.1)

/-- All that the home directory holds, in the order of the paths: directories with a separator at
the end, files with their bytes. -/
def listing (t : FileTree) : List (Text × Option ByteArray) :=
  ((t.below t.home).map fun entry =>
    let path := Text.joinWith "/" entry.1
    match entry.2 with
    | .directory => (path ++ ['/'], none)
    | .file bytes => (path, some bytes)).mergeSort listedBefore

end InterfaceSchemes.FileTree
