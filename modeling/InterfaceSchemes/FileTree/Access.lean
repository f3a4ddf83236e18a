import InterfaceSchemes.FileTree.Basic
import InterfaceSchemes.Path.Basic

/-!
# Operations on paths in a file tree

A path is followed piece by piece. A void piece stays where it is, a step upward goes to the
directory above, a name goes to what is there under that name; only from a directory does a path go
on.

* `FileTree.locate` follows a path to what exists;
* `FileTree.readText` reads a file, `FileTree.writeFile` writes one;
* `FileTree.makeDirectory` makes one directory, `FileTree.makeDirectories` also those above it.
-/

namespace InterfaceSchemes.FileTree

/-- Follows pieces of a path from a directory. -/
def follow (t : FileTree) (loc : Location) : List Text → Except FileFailure (Location × Node)
  | [] => .ok (loc, .directory)
  | piece :: pieces =>
    if Path.isVoid piece then follow t loc pieces
    else if piece = Path.up then follow t loc.dropLast pieces
    else
      match t.node? (loc ++ [piece]) with
      | none => .error .notFound
      | some .directory => follow t (loc ++ [piece]) pieces
      | some (.file bytes) =>
        if pieces.isEmpty then .ok (loc ++ [piece], .file bytes) else .error .notDirectory

/-- The directory at which a path starts. -/
def startOf (t : FileTree) (path : Text) : Location :=
  if Path.isRooted path then [] else t.home

/-- The location of a path and what stands there. -/
def locate (t : FileTree) (path : Text) : Except FileFailure (Location × Node) :=
  if path.isEmpty then .error .notFound
  else t.follow (t.startOf path) (Text.splitAt '/' path)

/-- Whether a path leads to a directory. -/
def isDirectory (t : FileTree) (path : Text) : Bool :=
  match t.locate path with
  | .ok (_, .directory) => true
  | _ => false

/-- Whether a path leads to a file. -/
def isFile (t : FileTree) (path : Text) : Bool :=
  match t.locate path with
  | .ok (_, .file _) => true
  | _ => false

/-- The text of the file at a path. -/
def readText (t : FileTree) (path : Text) : Except FileFailure Text :=
  match t.locate path with
  | .error failure => .error failure
  | .ok (_, .directory) => .error .isDirectory
  | .ok (_, .file bytes) =>
    match Text.ofBytes? bytes with
    | some text => .ok text
    | none => .error .notText

/-- The place that a path names, which need not exist: an existing directory, and a name in it.
Without a name the path leads to the directory itself. -/
structure Slot where
  /-- The directory. -/
  directory : Location
  /-- The name in the directory. -/
  name? : Option Text
  /-- Whether separators follow the name. -/
  closed : Bool

/-- The place that a path names. All but its last piece must exist. -/
def slot (t : FileTree) (path : Text) : Except FileFailure Slot :=
  if path.isEmpty then .error .notFound
  else
    let backward := (Text.splitAt '/' path).reverse
    match backward.dropWhile List.isEmpty with
    | [] => .ok ⟨[], none, true⟩
    | last :: above =>
      match t.follow (t.startOf path) above.reverse with
      | .error failure => .error failure
      | .ok (_, .file _) => .error .notDirectory
      | .ok (loc, .directory) =>
        let named := !Path.isVoid last && last != Path.up
        .ok ⟨loc, if named then some last else none, backward.head? == some []⟩

/-- Writes a file, in place of one that is there. -/
def writeBytes (t : FileTree) (path : Text) (bytes : ByteArray) : Except FileFailure FileTree :=
  match t.slot path with
  | .error failure => .error failure
  | .ok ⟨loc, some name, false⟩ =>
    if t.node? (loc ++ [name]) = some .directory then .error .isDirectory
    else .ok (t.put (loc ++ [name]) (.file bytes))
  | .ok _ => .error .isDirectory

/-- Writes a file that holds a text. -/
def writeFile (t : FileTree) (path text : Text) : Except FileFailure FileTree :=
  t.writeBytes path (Text.toBytes text)

/-- Makes a directory where nothing is. -/
def makeDirectory (t : FileTree) (path : Text) : Except FileFailure FileTree :=
  match t.slot path with
  | .error failure => .error failure
  | .ok ⟨loc, some name, _⟩ =>
    if (t.node? (loc ++ [name])).isSome then .error .alreadyExists
    else .ok (t.put (loc ++ [name]) .directory)
  | .ok _ => .error .alreadyExists

/-- Makes a directory, or is content with one that is there. -/
def ensureDirectory (t : FileTree) (path : Text) : Except FileFailure FileTree :=
  match t.makeDirectory path with
  | .ok t => .ok t
  | .error failure => if t.isDirectory path then .ok t else .error failure

/-- Makes the first of some paths a directory, each of which is the directory above the one before
it, and those of the others that it needs. What has been made stays, also if the last step fails. -/
def makeAlong (t : FileTree) : List Text → Except FileFailure Unit × FileTree
  | [] => (.ok (), t)
  | path :: above =>
    match t.ensureDirectory path with
    | .ok t => (.ok (), t)
    | .error .notFound =>
      match makeAlong t above with
      | (.error failure, t) => (.error failure, t)
      | (.ok (), t) =>
        match t.ensureDirectory path with
        | .ok t => (.ok (), t)
        | .error failure => (.error failure, t)
    | .error failure => (.error failure, t)

/-- Makes a directory and the directories above it, as far as they are missing. -/
def makeDirectories (t : FileTree) (path : Text) : Except FileFailure Unit × FileTree :=
  t.makeAlong (Path.ancestors path)

end InterfaceSchemes.FileTree
