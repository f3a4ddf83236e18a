import InterfaceSchemes.Batch
import InterfaceSchemes.Command.Arguments
import InterfaceSchemes.Command.Outcome
import InterfaceSchemes.Discovery
import InterfaceSchemes.Json.Layout
import InterfaceSchemes.Storage

/-!
# The command line

Two commands work on the sources below a directory: one writes their output modules, the other shows
the records that they declare.

* `Request.ofArguments` understands the arguments;
* `Request.run` carries a request out on a file tree.
-/

namespace InterfaceSchemes

/-- Which sources a command works on. -/
structure InputOptions where
  /-- The directory to search. -/
  workingDir : Text
  /-- Whether the directories in it are searched as well. -/
  recursive : Bool
  /-- The patterns of the sources. -/
  patterns : List Text
  /-- The settings document. -/
  config? : Option Text
deriving DecidableEq

/-- What the command line asks for. -/
inductive Request where
  /-- Write the output modules, or show them in a dry run. -/
  | generate (input : InputOptions) (zodImport keepLeadingDot dryRun : Bool)
  /-- Show the declared records, or write them to a file. -/
  | inspect (input : InputOptions) (out? : Option Text)
  /-- Show the version. -/
  | version
  /-- Show what can be asked for. -/
  | help
  /-- Something that cannot be understood. -/
  | usage
deriving DecidableEq

namespace Request

/-- The flag that asks for detailed log records. An `Outcome` holds none, so the flag is read and
has no further effect. -/
def verboseFlag : Flag := { name := "verbose", kind := .switch }

/-- The flags of both commands. -/
def inputFlags : List Flag :=
  [verboseFlag,
    { name := "workingDir", kind := .path },
    { name := "recursive", kind := .switch },
    { name := "files", kind := .text, alias? := some "file", repeatable := true },
    { name := "config", kind := .path }]

/-- The flags for writing output modules. -/
def generateFlags : List Flag :=
  inputFlags ++
    [{ name := "zod-import", kind := .switch },
      { name := "keep-leading-dot", kind := .switch },
      { name := "dry-run", kind := .switch }]

/-- The flags for showing records. -/
def inspectFlags : List Flag :=
  inputFlags ++ [{ name := "out", kind := .path, letter? := some 'o' }]

/-- The sources that the flags ask for. -/
def inputOptions (a : Arguments) : InputOptions where
  workingDir := (a.value? "workingDir").getD "."
  recursive := a.has "recursive"
  patterns := a.values "files"
  config? := a.value? "config"

/-- The request that a command makes of its arguments; there are no operands. -/
def ofCommand (known : List Flag) (request : Arguments → Request) (args : List Text) : Request :=
  match Arguments.read known 0 args with
  | .error .usage => .usage
  | .error .help => .help
  | .ok a => request a

/-- The request to write output modules. -/
def ofGenerate (a : Arguments) : Request :=
  .generate (inputOptions a) (a.has "zod-import") (a.has "keep-leading-dot") (a.has "dry-run")

/-- The request to show records. -/
def ofInspect (a : Arguments) : Request := .inspect (inputOptions a) (a.value? "out")

/-- The names of the commands. -/
def commands : List Text := ["generate", "inspect", "help"]

/-- The request for help, in general or on a command. -/
def ofHelp (args : List Text) : Request :=
  match args with
  | [] => .help
  | [command] => if commands.contains command then .help else .usage
  | _ => .usage

/-- The request that arguments make, after a flag for log records or without one. -/
def ofArgumentsAfter (verbose : Bool) : List Text → Request
  | [] => .usage
  | arg :: args =>
    if arg = "--verbose" then
      if verbose then .usage else ofArgumentsAfter true args
    else if arg = "--version" ∨ List.isPrefixOf "-V" arg then .version
    else if arg = "--help" ∨ List.isPrefixOf "-h" arg then .help
    else if arg = "help" then ofHelp args
    else if arg = "generate" then ofCommand generateFlags ofGenerate args
    else if arg = "inspect" then ofCommand inspectFlags ofInspect args
    else .usage

/-- The request that arguments make. -/
def ofArguments (args : List Text) : Request := ofArgumentsAfter false args

/-- The settings document that a request names. -/
def settingsPath? : Request → Option Text
  | .generate input _ _ _ => input.config?
  | .inspect input _ => input.config?
  | _ => none

/-- The settings of a command. -/
def settings (t : FileTree) (input : InputOptions) : Except (List Text) Settings :=
  match input.config? with
  | none => .ok {}
  | some path => (t.readSettings path).mapError Error.reasons

/-- The sources of a command. That there is none is no failure: it is worth a warning, which is a
log record and not part of an `Outcome`. -/
def loadSources (t : FileTree) (input : InputOptions) (settings : Settings) :
    Except (List Text) (List Source) := do
  let filter ← (SourceFilter.ofPatterns settings input.patterns).mapError Error.reasons
  let paths ← (t.findSources filter input.workingDir input.recursive).mapError fun e =>
    ("failed to search " ++ input.workingDir) :: e.reasons
  (t.readSources paths).mapError Error.reasons

/-- The settings of a run that writes output modules: flags go before the document. -/
def generateSettings (settings : Settings) (zodImport keepLeadingDot : Bool) : Settings :=
  { settings with
    zodImport := settings.zodImport || zodImport
    stripLeadingDot := settings.stripLeadingDot && !keepLeadingDot }

/-- The output modules of a run. -/
def rendered (t : FileTree) (input : InputOptions) (zodImport keepLeadingDot : Bool) :
    Except (List Text) (List (Text × Text)) := do
  let chosen ← settings t input
  let chosen := generateSettings chosen zodImport keepLeadingDot
  let sources ← loadSources t input chosen
  (Batch.generate chosen sources).mapError Error.reasons

/-- The output modules as a dry run shows them: the paths on one stream, the texts on the other. -/
def dryOutcome (outputs : List (Text × Text)) : Outcome where
  stdout := outputs.flatMap Prod.snd
  stderr := lines (outputs.map fun output => "==> ".toList ++ output.1)

/-- Writes output modules and tells which. -/
def writeOutcome (t : FileTree) (outputs : List (Text × Text)) : Outcome × FileTree :=
  match t.writeOutputs outputs with
  | (.error error, t) => (.failure error.reasons, t)
  | (.ok paths, t) => ({ stderr := lines (paths.map fun path => "wrote ".toList ++ path) }, t)

/-- The written form of a field. -/
def fieldLayout (f : Field) : Json.Layout :=
  .object
    [.member "name" (.string f.name), .member "types" (.list .string f.types),
      .member "nullable" (.boolean f.nullable), .member "isArray" (.boolean f.isArray),
      .member "dependsOn" (.list .string f.dependsOn)]

/-- The written form of a record. -/
def recordLayout (r : Record) : Json.Layout :=
  .object
    [.member "name" (.string r.name), .member "sourcePath" (.string r.sourcePath),
      .member "fields" (.list fieldLayout r.fields),
      .member "dependsOn" (.list .string r.dependsOn)]

/-- The written form of the records of a source. -/
def sourceLayout (s : SourceRecords) : Json.Layout :=
  .object
    [.member "sourcePath" (.string s.sourcePath), .member "models" (.list recordLayout s.records)]

/-- The declared records in their written form. -/
def inspected (t : FileTree) (input : InputOptions) : Except (List Text) Text := do
  let chosen ← settings t input
  let sources ← loadSources t input chosen
  let files ← (Batch.parse sources).mapError Error.reasons
  return (Json.Layout.list sourceLayout files).text

/-- Writes a text to a file that a command names. -/
def writeOut (t : FileTree) (path text : Text) : Outcome × FileTree :=
  let parent := (Path.parent? path).getD []
  match t.makeDirectories parent with
  | (.error failure, t) => (.failure ["failed to create " ++ parent, failure.message], t)
  | (.ok (), t) =>
    match t.writeFile path text with
    | .error failure => (.failure ["failed to write " ++ path, failure.message], t)
    | .ok t => ({}, t)

/-- What can be asked for. -/
def summary : Text :=
  "Usage: zodgen [--verbose] <generate|inspect> [OPTIONS]\n"

/-- Carries a request out. -/
def run (t : FileTree) : Request → Outcome × FileTree
  | .generate input zodImport keepLeadingDot dryRun =>
    match rendered t input zodImport keepLeadingDot with
    | .error reasons => (.failure reasons, t)
    | .ok outputs => if dryRun then (dryOutcome outputs, t) else writeOutcome t outputs
  | .inspect input out? =>
    match inspected t input, out? with
    | .error reasons, _ => (.failure reasons, t)
    | .ok text, none => ({ stdout := text ++ ['\n'] }, t)
    | .ok text, some path => writeOut t path text
  | .version => ({ stdout := "zodgen 0.1.0\n" }, t)
  | .help => ({ stdout := summary }, t)
  | .usage => (.usage summary, t)

end Request

end InterfaceSchemes
