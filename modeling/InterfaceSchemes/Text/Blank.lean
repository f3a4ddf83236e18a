import InterfaceSchemes.Text.Basic

/-!
# Blanks

The characters that separate words: those with the Unicode property `White_Space`.
-/

namespace InterfaceSchemes.Text

/-- The `White_Space` characters. -/
def blankRanges : CodeRanges :=
  [(0x9, 0xd), (0x20, 0x20), (0x85, 0x85), (0xa0, 0xa0), (0x1680, 0x1680), (0x2000, 0x200a),
    (0x2028, 0x2029), (0x202f, 0x202f), (0x205f, 0x205f), (0x3000, 0x3000)]

/-- Whether a character is a blank. -/
def isBlank (c : Char) : Bool := blankRanges.contains c

/-- The text without the blanks at its two ends. -/
def trim (s : Text) : Text := trimEnds isBlank s

end InterfaceSchemes.Text
