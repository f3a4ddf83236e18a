import InterfaceSchemes.Batch
import InterfaceSchemes.Discovery
import InterfaceSchemes.Fixture.ErrorPattern
import InterfaceSchemes.Storage

/-!
# Fixture cases

A case is a directory with sources and either the output modules that they should give, at their
places, or the error that they should end in. A case passes if it has no problems.
-/

namespace InterfaceSchemes.Fixture

/-- What a case says about itself. -/
structure Terms where
  /-- The settings of the case. -/
  settings : Settings := {}
  /-- The pattern of the expected error. -/
  expectError? : Option Text := none

/-- The parts of the document in which a case says so. -/
def Terms.shape : List (Json.Member Terms) :=
  [Json.member "settings" Settings.reader fun value terms => { terms with settings := value },
    Json.member "expectError" (Json.optional Json.text) fun value terms =>
      { terms with expectError? := value }]

/-- Reads the terms of a case. -/
def Terms.reader : Json.Reader Terms := Json.shaped "CaseFile" Terms.shape {}

/-- The terms of the case in a directory; a case need not have any. -/
def terms (t : FileTree) (dir : Text) : Except Text Terms :=
  let path := Path.join dir "case.json"
  if t.isFile path then
    match t.readText path with
    | .error failure => .error (path ++ ": " ++ failure.message)
    | .ok document =>
      (Json.read Terms.reader document).mapError fun fault => path ++ ": " ++ fault.message
  else .ok {}

/-- What the sources of a case give. -/
def generated (t : FileTree) (dir : Text) (settings : Settings) :
    Except Error (List (Text × Text)) := do
  let filter ← SourceFilter.ofPatterns settings []
  let paths ← t.findSources filter dir true
  let sources ← t.readSources paths
  Batch.generate settings sources

/-- The output modules that a directory holds. -/
def expectedOutputs (t : FileTree) (dir : Text) (settings : Settings) : List Text :=
  match t.filesBelow dir true with
  | .error _ => []
  | .ok paths => paths.filter (SourceFilter.isMarked (SourceFilter.markerOf settings))

/-- The problem of one output module, if it has one. -/
def outputProblem? (t : FileTree) (path text : Text) : Option Text :=
  match t.readText path with
  | .error _ => some (path ++ ": no expected file")
  | .ok expected =>
    if expected = text then none
    else some (path ++ ": output differs\n--- expected\n" ++ expected ++ "--- actual\n" ++ text)

/-- The problem of an output module that the sources do not give. -/
def missingProblem (path : Text) : Text := path ++ ": expected but not generated"

/-- The problems of a case that should give output modules. -/
def outputProblems (t : FileTree) (dir : Text) (settings : Settings)
    (outputs : List (Text × Text)) : List Text :=
  let produced := outputs.map fun output => Path.components output.1
  let missing := (expectedOutputs t dir settings).filter fun path =>
    !produced.contains (Path.components path)
  (if outputs.isEmpty then ["nothing was generated".toList] else [])
    ++ missing.map missingProblem
    ++ outputs.filterMap fun output => outputProblem? t output.1 output.2

/-- The problems of a case that ended in an error. -/
def errorProblems (error : Error) (expected? : Option Text) : List Text :=
  match expected? with
  | none => ["unexpected " ++ error.kind ++ " error: " ++ error.message]
  | some expected =>
    match ErrorPattern.read? expected with
    | none => ["invalid expectError: " ++ expected]
    | some pattern =>
      if pattern.occursIn error.message then []
      else ["error `" ++ error.message ++ "` does not match /" ++ expected ++ "/"]

/-- The problems of the case in a directory. -/
def problems (t : FileTree) (dir : Text) : List Text :=
  match terms t dir with
  | .error problem => [problem]
  | .ok terms =>
    match generated t dir terms.settings, terms.expectError? with
    | .error error, expected? => errorProblems error expected?
    | .ok _, some expected => ["expected an error matching /" ++ expected ++ "/"]
    | .ok outputs, none => outputProblems t dir terms.settings outputs

end InterfaceSchemes.Fixture
