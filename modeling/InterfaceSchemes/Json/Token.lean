import InterfaceSchemes.Json.Number

/-!
# JSON tokens

A JSON text is read as a list of tokens. Where the text stops being JSON the list ends in an
`unreadable` token, so what stands before can still be used; a text that simply ends gives a list
that simply ends.

* `Json.readString` reads a quoted text;
* `Json.tokens` reads all tokens of a text.
-/

namespace InterfaceSchemes.Json

/-- A token of JSON. -/
inductive Token where
  /-- The opening brace of an object. -/
  | openBrace
  /-- The closing brace of an object. -/
  | closeBrace
  /-- The opening bracket of a list. -/
  | openBracket
  /-- The closing bracket of a list. -/
  | closeBracket
  /-- The colon after a key. -/
  | colon
  /-- The comma between members or elements. -/
  | comma
  /-- A quoted text. -/
  | string (value : Text)
  /-- A number. -/
  | number (value : Number)
  /-- A truth value. -/
  | boolean (value : Bool)
  /-- The null value. -/
  | null
  /-- Something that is no token. -/
  | unreadable
deriving DecidableEq

/-- The blanks of JSON. -/
def isBlank (c : Char) : Bool := c == ' ' || c == '\n' || c == '\t' || c == '\r'

/-- The value of a hexadecimal digit. -/
def hexValue? (c : Char) : Option Nat :=
  if '0' ≤ c ∧ c ≤ '9' then some (c.toNat - '0'.toNat)
  else if 'a' ≤ c ∧ c ≤ 'f' then some (c.toNat - 'a'.toNat + 10)
  else if 'A' ≤ c ∧ c ≤ 'F' then some (c.toNat - 'A'.toNat + 10)
  else none

/-- The value of four hexadecimal digits. -/
def hexQuad? (a b c d : Char) : Option Nat := do
  let high := 16 * (← hexValue? a) + (← hexValue? b)
  let low := 16 * (← hexValue? c) + (← hexValue? d)
  return 256 * high + low

/-- The character that stands for itself, or for a control, after a backslash. -/
def unescape? : Char → Option Char
  | '"' => some '"'
  | '\\' => some '\\'
  | '/' => some '/'
  | 'b' => some '\x08'
  | 'f' => some '\x0c'
  | 'n' => some '\n'
  | 'r' => some '\r'
  | 't' => some '\t'
  | _ => none

/-- A part of a quoted text: a character, or a 16-bit unit written in hexadecimal. -/
inductive Part where
  /-- A character. -/
  | char (c : Char)
  /-- A unit, which may be half of a character. -/
  | unit (code : Nat)
deriving DecidableEq

/-- Reads the parts of a quoted text up to the closing quote. -/
def readParts : Text → Option (List Part × Text)
  | '"' :: s => some ([], s)
  | '\\' :: 'u' :: a :: b :: c :: d :: s =>
    match hexQuad? a b c d with
    | some code => (readParts s).map fun read => (.unit code :: read.1, read.2)
    | none => none
  | '\\' :: e :: s =>
    match unescape? e with
    | some c => (readParts s).map fun read => (.char c :: read.1, read.2)
    | none => none
  | c :: s =>
    if c.toNat < 0x20 then none
    else (readParts s).map fun read => (.char c :: read.1, read.2)
  | [] => none

/-- Whether a unit is the first half of a character. -/
def isHighHalf (code : Nat) : Bool := 0xd800 ≤ code && code < 0xdc00

/-- Whether a unit is the second half of a character. -/
def isLowHalf (code : Nat) : Bool := 0xdc00 ≤ code && code < 0xe000

/-- The text of the parts, in which each half stands beside its other half. -/
def assemble : List Part → Option Text
  | [] => some []
  | .char c :: parts => (assemble parts).map (c :: ·)
  | .unit high :: .unit low :: parts =>
    if isHighHalf high then
      if isLowHalf low then
        (assemble parts).map
          (Char.ofNat (0x10000 + (high - 0xd800) * 0x400 + (low - 0xdc00)) :: ·)
      else none
    else if isLowHalf high then none
    else (assemble (.unit low :: parts)).map (Char.ofNat high :: ·)
  | .unit code :: parts =>
    if isHighHalf code || isLowHalf code then none
    else (assemble parts).map (Char.ofNat code :: ·)

/-- Reads a quoted text after its opening quote. -/
def readString (s : Text) : Option (Text × Text) := do
  let (parts, rest) ← readParts s
  return (← assemble parts, rest)

/-- Reads the token at the beginning of a text without leading blanks. -/
def readToken (s : Text) : Option (Token × Text) :=
  match s with
  | '\x7b' :: s => some (.openBrace, s)
  | '\x7d' :: s => some (.closeBrace, s)
  | '[' :: s => some (.openBracket, s)
  | ']' :: s => some (.closeBracket, s)
  | ':' :: s => some (.colon, s)
  | ',' :: s => some (.comma, s)
  | '"' :: s => (readString s).map fun read => (.string read.1, read.2)
  | 't' :: 'r' :: 'u' :: 'e' :: s => some (.boolean true, s)
  | 'f' :: 'a' :: 'l' :: 's' :: 'e' :: s => some (.boolean false, s)
  | 'n' :: 'u' :: 'l' :: 'l' :: s => some (.null, s)
  | s => (readNumber s).map fun read => (.number read.1, read.2)

/-! ## Reading makes progress -/

/-- `readParts` leaves less than it is given. -/
theorem length_readParts {s : Text} {read : List Part × Text} (h : readParts s = some read) :
    read.2.length < s.length := by
  fun_induction readParts s generalizing read with
  | case1 s => cases h; simp
  | case2 a b c d s code hcode ih =>
    obtain ⟨inner, hinner, rfl⟩ := Option.map_eq_some_iff.mp h
    have := ih hinner
    simp only [List.length_cons]
    omega
  | case3 => simp at h
  | case4 e s _ c hc ih =>
    obtain ⟨inner, hinner, rfl⟩ := Option.map_eq_some_iff.mp h
    have := ih hinner
    simp only [List.length_cons]
    omega
  | case5 => simp at h
  | case6 => simp at h
  | case7 c s _ _ _ _ ih =>
    obtain ⟨inner, hinner, rfl⟩ := Option.map_eq_some_iff.mp h
    have := ih hinner
    simp only [List.length_cons]
    omega
  | case8 => simp at h

/-- Dropping digits never lengthens a text. -/
theorem length_dropDigits (s : Text) : (s.dropWhile isDigit).length ≤ s.length :=
  (List.dropWhile_suffix isDigit).length_le

section Exponent

variable {significand : Nat} {start : Int} {s : Text} {read : Binary × Text}

/-- What is left after the digits of an exponent is no longer than before. -/
theorem length_readPower {negative : Bool}
    (h : readPower significand start negative s = some read) : read.2.length ≤ s.length := by
  unfold readPower at h
  split at h
  · simp at h
  · obtain ⟨x, _, rfl⟩ := Option.map_eq_some_iff.mp h
    exact length_dropDigits s

/-- What is left after a signed exponent is no longer than before. -/
theorem length_readSignedPower (h : readSignedPower significand start s = some read) :
    read.2.length ≤ s.length := by
  unfold readSignedPower at h
  split at h
  · exact Nat.le_succ_of_le (length_readPower h)
  · exact Nat.le_succ_of_le (length_readPower h)
  · exact length_readPower h

/-- What is left after an exponent is no longer than before. -/
theorem length_readExponent (h : readExponent significand start s = some read) :
    read.2.length ≤ s.length := by
  unfold readExponent at h
  split at h
  · exact Nat.le_succ_of_le (length_readSignedPower h)
  · exact Nat.le_succ_of_le (length_readSignedPower h)
  · obtain ⟨x, _, rfl⟩ := Option.map_eq_some_iff.mp h
    exact Nat.le_refl _

end Exponent

/-- `readUnsigned` leaves less than it is given. -/
theorem length_readUnsigned {negative : Bool} {s : Text} {read : Number × Text}
    (h : readUnsigned negative s = some read) : read.2.length < s.length := by
  unfold readUnsigned at h
  dsimp only at h
  split at h
  · simp at h
  · rename_i hwhole
    have shorter : (s.dropWhile isDigit).length < s.length := by
      have parts := congrArg List.length (@List.takeWhile_append_dropWhile _ isDigit s)
      rw [List.length_append] at parts
      have first : 0 < (s.takeWhile isDigit).length :=
        List.length_pos_iff.mpr fun hnil => hwhole (Or.inl hnil)
      omega
    split at h
    · rename_i tail hrest
      rw [hrest, List.length_cons] at shorter
      split at h
      · simp at h
      · obtain ⟨inner, hinner, rfl⟩ := Option.map_eq_some_iff.mp h
        have := length_readExponent hinner
        have := length_dropDigits tail
        dsimp only
        omega
    · split at h
      · obtain ⟨inner, hinner, rfl⟩ := Option.map_eq_some_iff.mp h
        have := length_readExponent hinner
        dsimp only
        omega
      · split at h
        · cases h; exact shorter
        · split at h
          · cases h; exact shorter
          · obtain ⟨x, _, rfl⟩ := Option.map_eq_some_iff.mp h
            exact shorter

/-- `readNumber` leaves less than it is given, sign or not. -/
theorem length_readNumber {s : Text} {read : Number × Text} (h : readNumber s = some read) :
    read.2.length < s.length := by
  unfold readNumber at h
  split at h
  · have := length_readUnsigned h
    simp only [List.length_cons]
    omega
  · exact length_readUnsigned h

/-- `readToken` leaves less than it is given. -/
theorem length_readToken {s : Text} {read : Token × Text} (h : readToken s = some read) :
    read.2.length < s.length := by
  unfold readToken at h
  split at h
  case h_7 s =>
    obtain ⟨inner, hinner, rfl⟩ := Option.map_eq_some_iff.mp h
    simp only [readString, Option.bind_eq_bind, Option.bind_eq_some_iff] at hinner
    obtain ⟨parts, hparts, text, _, hinner⟩ := hinner
    cases hinner
    have := length_readParts hparts
    simp only [List.length_cons]
    omega
  case h_11 =>
    obtain ⟨inner, hinner, rfl⟩ := Option.map_eq_some_iff.mp h
    exact length_readNumber hinner
  all_goals
    cases h
    simp only [List.length_cons]
    omega

/-- The tokens of a text, as far as they can be read. -/
def tokens (s : Text) : List Token :=
  match _hblank : s.dropWhile isBlank with
  | [] => []
  | c :: t =>
    match _hread : readToken (c :: t) with
    | none => [.unreadable]
    | some (token, rest) => token :: tokens rest
termination_by s.length
decreasing_by
  have shorter : rest.length < (c :: t).length := length_readToken _hread
  have blank : (s.dropWhile isBlank).length ≤ s.length :=
    (List.dropWhile_suffix isBlank).length_le
  rw [_hblank] at blank
  omega

end InterfaceSchemes.Json
