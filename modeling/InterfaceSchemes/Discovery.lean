import InterfaceSchemes.Error
import InterfaceSchemes.FileTree.Access
import InterfaceSchemes.Settings

/-!
# Finding sources

The sources of a run are the files below a directory whose name, or whose path from that directory,
fits one of the patterns of the run. Output modules are never sources.

* `SourceFilter.accepts` decides about one file;
* `FileTree.findSources` lists the sources below a directory.
-/

namespace InterfaceSchemes

/-- Which files are sources. -/
structure SourceFilter where
  /-- The patterns, of which one has to fit. -/
  patterns : List Glob.Pattern
  /-- How the stem of an output module ends. -/
  marker : Text

namespace SourceFilter

/-- The pattern of a run that gives none. -/
def defaultPattern : Text := "*.ts"

/-- Reads a pattern. -/
def pattern (text : Text) : Except Error Glob.Pattern :=
  (Glob.compile text).mapError (Error.pattern text)

/-- The ending of the stem by which output modules are known. -/
def markerOf (settings : Settings) : Text := '.' :: settings.schemeInfix

/-- The filter with the given patterns. -/
def ofPatterns (settings : Settings) (patterns : List Text) : Except Error SourceFilter := do
  let patterns ← (if patterns.isEmpty then [defaultPattern] else patterns).mapM pattern
  return ⟨patterns, markerOf settings⟩

/-- Whether a path has the stem of an output module. -/
def isMarked (marker path : Text) : Bool :=
  match Path.stem? path with
  | some stem => marker.isSuffixOf stem
  | none => false

/-- Whether the file at `path`, found below `root`, is a source. -/
def accepts (filter : SourceFilter) (root path : Text) : Bool :=
  match Path.fileName? path with
  | none => false
  | some name =>
    !isMarked filter.marker path &&
      filter.patterns.any fun p =>
        p.accepts name || p.accepts ((Path.below? root path).getD path)

end SourceFilter

namespace FileTree

/-- The paths of the files below the directory at `root`, spelled with `root` in front, in the
order of their names; only those directly in it unless `recursive`. -/
def filesBelow (t : FileTree) (root : Text) (recursive : Bool) : Except FileFailure (List Text) :=
  match t.locate root with
  | .error failure => .error failure
  | .ok (_, .file _) => .ok []
  | .ok (loc, .directory) =>
    .ok ((t.below loc).filterMap fun entry =>
      match entry.2 with
      | .directory => none
      | .file _ =>
        if recursive || entry.1.length == 1 then some (entry.1.foldl Path.join root) else none)

/-- The paths of the sources below the directory at `root`. -/
def findSources (t : FileTree) (filter : SourceFilter) (root : Text) (recursive : Bool) :
    Except Error (List Text) :=
  match t.filesBelow root recursive with
  | .error failure => .error (.search root failure)
  | .ok paths => .ok (paths.filter (filter.accepts root))

end FileTree

end InterfaceSchemes
