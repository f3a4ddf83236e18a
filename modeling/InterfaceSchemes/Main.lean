import InterfaceSchemes.Command.Run
import InterfaceSchemes.Fixture.Report

/-!
# Running the commands

The commands work on a file tree that holds what standard input lists, one path a line, where a
separator at the end marks a directory. What a command changes in the tree is written back.

There are two programs, one for requests and one that checks fixtures. They are one executable, and
the name that it is installed under says which of them runs.
-/

namespace InterfaceSchemes.Disk

/-- The lines of a stream. -/
partial def readLines (input : IO.FS.Stream) : IO (List Text) := do
  let line ← input.getLine
  if line.isEmpty then return []
  let rest ← readLines input
  return Text.trimEnd (· == '\n') line.toList :: rest

/-- The tree with what stands at a listed path, if it can be read. -/
def load (t : FileTree) (path : Text) : IO FileTree := do
  if path.getLast? = some '/' then return t.addDirectory path
  try
    let bytes ← IO.FS.readBinFile (String.ofList path)
    return t.addFile path bytes
  catch _ => return t

/-- The tree of the listed paths and of some further ones. -/
def loadAll (further : List Text) : IO FileTree := do
  let current := (toString (← IO.currentDir)).toList
  let listed ← readLines (← IO.getStdin)
  (listed ++ further).foldlM load (FileTree.empty (Path.names current))

/-- Writes one change back. -/
def store (change : Location × Node) : IO Unit := do
  let path := String.ofList ('/' :: Text.joinWith "/" change.1)
  match change.2 with
  | .directory => IO.FS.createDirAll path
  | .file bytes => IO.FS.writeBinFile path bytes

/-- Shows how a command ended. -/
def finish (outcome : Outcome) : IO UInt32 := do
  IO.print (String.ofList outcome.stdout)
  IO.eprint (String.ofList outcome.stderr)
  return outcome.exitCode.toUInt32

/-- Checks the fixtures that the arguments name. -/
def checkFixtures (args : List String) : IO UInt32 := do
  let t ← loadAll []
  finish (Fixture.run t (args.map String.toList))

/-- Carries out the request that the arguments make. -/
def carryOut (args : List String) : IO UInt32 := do
  let request := Request.ofArguments (args.map String.toList)
  let before ← loadAll request.settingsPath?.toList
  let (outcome, after) := request.run before
  (after.changesSince before).forM store
  finish outcome

/-- The name of the program that checks fixtures. -/
def checkerName : Text := "dev-test-runner"

end InterfaceSchemes.Disk

open InterfaceSchemes in
/-- Does what the arguments ask the program of this name for. -/
def main (args : List String) : IO UInt32 := do
  let program := (toString (← IO.appPath)).toList
  if Path.stem? program = some Disk.checkerName then Disk.checkFixtures args
  else Disk.carryOut args
