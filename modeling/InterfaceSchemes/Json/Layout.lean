import InterfaceSchemes.Text.Basic

/-!
# Writing JSON

A value is written over several lines, each level two blanks further in. What is written depends on
how far in it starts, so a value is a function of that.
-/

namespace InterfaceSchemes.Json

/-- A value to write, given the blanks before its lines. -/
abbrev Layout := Text → Text

namespace Layout

/-- A character inside a quoted text. -/
def escape (c : Char) : Text :=
  match c with
  | '"' => "\\\""
  | '\\' => "\\\\"
  | '\x08' => "\\b"
  | '\x0c' => "\\f"
  | '\n' => "\\n"
  | '\r' => "\\r"
  | '\t' => "\\t"
  | c =>
    if c.toNat < 0x10 then "\\u000" ++ Nat.toDigits 16 c.toNat
    else if c.toNat < 0x20 then "\\u00" ++ Nat.toDigits 16 c.toNat
    else [c]

/-- A quoted text. -/
def quote (s : Text) : Text := '"' :: (s.flatMap escape ++ ['"'])

/-- A text. -/
def string (s : Text) : Layout := fun _ => quote s

/-- A truth value. -/
def boolean (b : Bool) : Layout := fun _ => if b then "true" else "false"

/-- Items on lines of their own, further in than the brackets around them. -/
def block (opening closing : Char) (items : List Layout) : Layout := fun blanks =>
  match items with
  | [] => [opening, closing]
  | items =>
    let inner := blanks ++ [' ', ' ']
    let lines := items.map fun item => inner ++ item inner
    opening :: '\n' :: (Text.joinWith ",\n" lines ++ '\n' :: (blanks ++ [closing]))

/-- A list. -/
def list {α : Type} (item : α → Layout) (items : List α) : Layout :=
  block '[' ']' (items.map item)

/-- A member of an object. -/
def member (key : Text) (value : Layout) : Layout := fun blanks =>
  quote key ++ ": " ++ value blanks

/-- An object. -/
def object (members : List Layout) : Layout := block '\x7b' '\x7d' members

/-- The text of a value. -/
def text (value : Layout) : Text := value []

end Layout

end InterfaceSchemes.Json
