import InterfaceSchemes.Json.Number
import InterfaceSchemes.Text.Quoted

/-!
# Faults of a JSON document

What is wrong with a document that is read for a known purpose, and where in the document that is.
-/

namespace InterfaceSchemes.Json

/-- One step from a value into a part of it. -/
inductive Step where
  /-- To the member with this key. -/
  | key (key : Text)
  /-- To the element at this position. -/
  | index (position : Nat)
  /-- To a member whose key could not be read. -/
  | unknown
deriving DecidableEq

/-- What stands where something else is expected. -/
inductive Found where
  /-- The null value. -/
  | null
  /-- A truth value. -/
  | boolean (value : Bool)
  /-- A number. -/
  | number (value : Number)
  /-- A quoted text. -/
  | string (value : Text)
  /-- A list. -/
  | sequence
  /-- An object. -/
  | map
deriving DecidableEq

/-- What can be wrong with a document. -/
inductive Problem where
  /-- It is not JSON. -/
  | malformed
  /-- A value of one kind stands where another is expected. -/
  | invalidType (found : Found) (expected : Text)
  /-- A key is none of the known ones. -/
  | unknownField (key : Text) (known : List Text)
  /-- A key occurs twice. -/
  | duplicateField (key : Text)
deriving DecidableEq

/-- A problem and its place, as the steps that lead there from the whole document. -/
structure Fault where
  /-- The steps from the outside in. -/
  place : List Step
  /-- What is wrong there. -/
  problem : Problem
deriving DecidableEq

/-- The fault seen from one step further out. -/
def Fault.under (step : Step) (f : Fault) : Fault := { f with place := step :: f.place }

/-- The text of one step. -/
def Step.text : Step → Text
  | .key name => name
  | .index position => "[" ++ Text.ofNat position ++ "]"
  | .unknown => "?"

/-- The steps after the first: a dot stands before each step that is not a position. -/
def laterSteps : List Step → Text
  | [] => []
  | .index position :: steps => (Step.index position).text ++ laterSteps steps
  | step :: steps => '.' :: step.text ++ laterSteps steps

/-- The text of a place; the whole document is a dot. -/
def placeText : List Step → Text
  | [] => "."
  | step :: steps => step.text ++ laterSteps steps

/-- What was found, in words. -/
def Found.message : Found → Text
  | .null => "null"
  | .boolean true => "boolean `true`"
  | .boolean false => "boolean `false`"
  | .number (.integer value) => "integer `" ++ Text.ofInt value ++ "`"
  | .number (.real negative magnitude) =>
    "floating point `" ++ magnitude.text negative ++ "`"
  | .string value => "string " ++ Text.quoted value
  | .sequence => "sequence"
  | .map => "map"

/-- The known keys, in words. -/
def knownText (known : List Text) : Text :=
  let marked := known.map fun (name : Text) => "`" ++ name ++ "`"
  match marked with
  | [] => "there are no fields"
  | [only] => "expected " ++ only
  | [first, second] => "expected " ++ first ++ " or " ++ second
  | many => "expected one of " ++ Text.joinWith ", " many

/-- What is wrong, in words. -/
def Problem.message : Problem → Text
  | .malformed => "syntax error"
  | .invalidType found expected =>
    "invalid type: " ++ found.message ++ ", expected " ++ expected
  | .unknownField key known => "unknown field `" ++ key ++ "`, " ++ knownText known
  | .duplicateField key => "duplicate field `" ++ key ++ "`"

/-- The fault, in words. -/
def Fault.message (f : Fault) : Text :=
  "at JSON path " ++ placeText f.place ++ " → " ++ f.problem.message

end InterfaceSchemes.Json
