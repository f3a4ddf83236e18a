import InterfaceSchemes.FileTree.Failure
import InterfaceSchemes.Glob.Pattern
import InterfaceSchemes.Json.Fault

/-!
# Errors

Every way in which a run can fail, each with its wording in one place. An error stops the run.
-/

namespace InterfaceSchemes

/-- Why a run fails. -/
inductive Error where
  /-- A file cannot be read or written. -/
  | file (path : Text) (failure : FileFailure)
  /-- A directory cannot be searched. -/
  | search (path : Text) (failure : FileFailure)
  /-- A declaration holds a group in braces. -/
  | nestedGroup (path declaration : Text)
  /-- A field of a declaration is not a name and its types. -/
  | malformedField (path field : Text)
  /-- A record uses a record that is not declared. -/
  | missingDependency (name requiredBy : Text)
  /-- Records use each other in a circle, which is given from a record back to itself. -/
  | cyclicDependency (cycle : List Text)
  /-- There is no scheme for a type. -/
  | unknownType (name : Text)
  /-- Two records have one name; the paths are those of their sources. -/
  | duplicateRecord (name first second : Text)
  /-- No relative path leads from one place to the other. -/
  | unrelatedPaths (base target : Text)
  /-- A settings document has a fault. -/
  | settings (path : Text) (fault : Json.Fault)
  /-- A text is no glob pattern. -/
  | pattern (text : Text) (fault : Glob.Fault)
deriving DecidableEq

namespace Error

/-- The name of the kind of error. -/
def kind : Error → Text
  | .file .. => "io"
  | .search .. => "io"
  | .nestedGroup .. => "malformed-interface"
  | .malformedField .. => "malformed-field"
  | .missingDependency .. => "missing-dependency"
  | .cyclicDependency .. => "cyclic-dependency"
  | .unknownType .. => "unknown-type"
  | .duplicateRecord .. => "duplicate-model"
  | .unrelatedPaths .. => "unrelated-paths"
  | .settings .. => "config"
  | .pattern .. => "glob"

/-- The wording of a failed search. -/
def searchMessage (path : Text) (failure : FileFailure) : Text :=
  "IO error for operation on " ++ path ++ ": " ++ failure.message

/-- The wording of an error. -/
def message : Error → Text
  | .file path failure => path ++ ": " ++ failure.message
  | .search path failure => path ++ ": " ++ searchMessage path failure
  | .nestedGroup path declaration =>
    "malformed interface in " ++ path ++ ": nested object literal in `" ++ declaration ++ "`"
  | .malformedField path field => "malformed field in " ++ path ++ ": `" ++ field ++ "`"
  | .missingDependency name requiredBy =>
    "not found interface for `" ++ name ++ "` (required by `" ++ requiredBy ++ "`)"
  | .cyclicDependency cycle => "cyclic dependency: " ++ Text.joinWith " -> " cycle
  | .unknownType name => "cannot find scheme for type `" ++ name ++ "`"
  | .duplicateRecord name first second =>
    "interface `" ++ name ++ "` declared twice (" ++ first ++ " and " ++ second ++ ")"
  | .unrelatedPaths base target =>
    "cannot express `" ++ target ++ "` relative to `" ++ base ++ "`"
  | .settings path fault => "invalid config " ++ path ++ ": " ++ fault.message
  | .pattern text fault => "invalid glob pattern `" ++ text ++ "`: " ++ fault.message

/-- The wordings of what an error goes back to, from the outside in. -/
def causes : Error → List Text
  | .file _ failure => [failure.message]
  | .search path failure => [searchMessage path failure, failure.message]
  | .pattern _ fault => [fault.message]
  | _ => []

end Error

end InterfaceSchemes
