import InterfaceSchemes.Text.Basic

/-!
# Failures of file operations

Why an operation on a file tree cannot be carried out, with the wording of the operating system.
-/

namespace InterfaceSchemes

/-- Why a file operation fails. -/
inductive FileFailure where
  /-- Nothing is there. -/
  | notFound
  /-- A directory is to be made where a file is. -/
  | alreadyExists
  /-- A file stands where a directory is needed. -/
  | notDirectory
  /-- A directory stands where a file is needed. -/
  | isDirectory
  /-- The bytes of the file are no text. -/
  | notText
deriving DecidableEq

/-- The wording of a failure. -/
def FileFailure.message : FileFailure → Text
  | .notFound => "No such file or directory (os error 2)"
  | .alreadyExists => "File exists (os error 17)"
  | .notDirectory => "Not a directory (os error 20)"
  | .isDirectory => "Is a directory (os error 21)"
  | .notText => "stream did not contain valid UTF-8"

end InterfaceSchemes
