import InterfaceSchemes.Command.Arguments
import InterfaceSchemes.Command.Outcome
import InterfaceSchemes.Fixture.Case
import InterfaceSchemes.Json.Layout

/-!
# Checking fixtures

Every directory directly in the fixture directory is a case. The report names each case and its
problems, and the check fails if one case does.
-/

namespace InterfaceSchemes.Fixture

/-- What was found about a case. -/
structure CaseReport where
  /-- The name of the directory of the case. -/
  name : Text
  /-- Its problems. -/
  problems : List Text

/-- Whether the case passes. -/
def CaseReport.passed (r : CaseReport) : Bool := r.problems.isEmpty

/-- The directory with the fixtures as a rooted path without steps upward, if it exists. -/
def canonical (t : FileTree) (root : Text) : Text :=
  match t.locate root with
  | .ok (loc, _) => '/' :: Text.joinWith "/" loc
  | .error _ => root

/-- The reports of all cases in the fixture directory, in the order of their names. -/
def reports (t : FileTree) (root : Text) : Except FileFailure (List CaseReport) :=
  match t.locate root with
  | .error failure => .error failure
  | .ok (_, .file _) => .ok []
  | .ok (loc, .directory) =>
    .ok ((t.below loc).filterMap fun entry =>
      match entry with
      | ([name], .directory) => some ⟨name, problems t (Path.join root name)⟩
      | _ => none)

/-- The written form of a report; a case without problems lists none. -/
def reportLayout (r : CaseReport) : Json.Layout :=
  let head : List Json.Layout :=
    [.member "name" (.string r.name), .member "passed" (.boolean r.passed)]
  .object (if r.passed then head else head ++ [.member "problems" (.list .string r.problems)])

/-- The lines of a report. -/
def reportLines (r : CaseReport) : List Text :=
  if r.passed then ["✅ " ++ r.name]
  else ("❌ " ++ r.name) :: r.problems.map fun problem => "   ".toList ++ problem

/-- The line that counts the cases. -/
def countLine (reports : List CaseReport) : Text :=
  let failed := (reports.filter fun r => !r.passed).length
  "—— " ++ Text.ofNat (reports.length - failed) ++ " passed, " ++ Text.ofNat failed ++ " failed ——"

/-- The end of a check. -/
def outcome (json : Bool) (reports : List CaseReport) : Outcome where
  exitCode := if reports.all CaseReport.passed then 0 else 1
  stdout := if json then (Json.Layout.list reportLayout reports).text ++ ['\n'] else []
  stderr :=
    (if json then [] else lines (reports.flatMap reportLines)) ++ lines [countLine reports]

/-- Checks the fixtures in a directory. -/
def check (t : FileTree) (json : Bool) (directory : Text) : Outcome :=
  let root := canonical t directory
  match reports t root with
  | .error failure =>
    { exitCode := 1
      stderr := lines ["❌ cannot read " ++ root ++ ": " ++ Error.searchMessage root failure] }
  | .ok reports => outcome json reports

/-- The flags of the check. -/
def flags : List Flag := [{ name := "json", kind := .switch }]

/-- The directory of a check that names none. -/
def defaultDirectory : Text := "fixtures"

/-- How the check is asked for. -/
def summary : Text := "Usage: dev-test-runner [--json] [FIXTURES]\n"

/-- What the arguments of the check are. -/
def arguments (args : List Text) : Except Refusal Arguments := Arguments.read flags 1 args

/-- The directory with the fixtures. -/
def directory (a : Arguments) : Text := a.operands.head?.getD defaultDirectory

/-- Carries out the check that arguments ask for. -/
def run (t : FileTree) (args : List Text) : Outcome :=
  match arguments args with
  | .error .usage => .usage summary
  | .error .help => { stdout := summary }
  | .ok a => check t (a.has "json") (directory a)

end InterfaceSchemes.Fixture
