import InterfaceSchemes.Text.Printable

/-!
# Quoted texts

A text shown between quotes, with backslash escapes for quotes, backslashes and the common controls
and with the code point of every other character that cannot be shown.
-/

namespace InterfaceSchemes.Text

/-- A character inside quotes. -/
def escapeChar (c : Char) : Text :=
  match c with
  | '\x00' => "\\0"
  | '\t' => "\\t"
  | '\r' => "\\r"
  | '\n' => "\\n"
  | '\\' => "\\\\"
  | '"' => "\\\""
  | c => if isPrintable c then [c] else "\\u\x7b" ++ Nat.toDigits 16 c.toNat ++ "\x7d"

/-- A text between quotes. -/
def quoted (s : Text) : Text := '"' :: (s.flatMap escapeChar ++ ['"'])

end InterfaceSchemes.Text
