import InterfaceSchemes.Error

/-!
# What a command leaves behind

A command ends with an exit code and has written to its two output streams. Log records are not
part of what it leaves behind: each bears the time at which it was written.
-/

namespace InterfaceSchemes

/-- The end of a command. -/
structure Outcome where
  /-- The exit code. -/
  exitCode : Nat := 0
  /-- What was written to standard output. -/
  stdout : Text := []
  /-- What was written to standard error, without the log records that stand between its lines. -/
  stderr : Text := []

namespace Outcome

/-- A command that was not understood. -/
def usage (hint : Text) : Outcome := { exitCode := 2, stderr := hint }

/-- A command that failed, for reasons given from the outside in. -/
def failure (reasons : List Text) : Outcome where
  exitCode := 1
  stderr := "error: " ++ Text.joinWith ": " reasons ++ "\n"

end Outcome

/-- An error and what it goes back to. -/
def Error.reasons (e : Error) : List Text := e.message :: e.causes

/-- Lines of text. -/
def lines (texts : List Text) : Text := texts.flatMap (· ++ ['\n'])

end InterfaceSchemes
