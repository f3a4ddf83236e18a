import InterfaceSchemes.Json.Token
import Mathlib.Data.List.Basic

/-! # Spellings of JSON

A character in a quoted text can be written in several ways, and blanks may stand before each token.
This file says which texts are spellings of a list of tokens, without reading them, and shows that all
of them are read as that list.

* **`Json.CharSpelling`** — a character as itself, by a short escape, or by one or two units in
  hexadecimal.
* **`Json.TextSpelling`**, **`Json.readString_of_spelling`** — every spelling of a text is read as it.
* **`Json.Spelling`**, **`Json.tokens_of_spelling`** — every spelling of tokens is read as these tokens,
  whatever follows. -/

namespace InterfaceSchemes.Json

/-! ## (1) Characters -/

/-- A hexadecimal digit in lower or upper case. -/
def HexDigit (n : Nat) (c : Char) : Prop :=
  n < 16 ∧ (c = Nat.digitChar n ∨ c = (Nat.digitChar n).toUpper)

instance (n : Nat) (c : Char) : Decidable (HexDigit n c) :=
  inferInstanceAs (Decidable (n < 16 ∧ (c = Nat.digitChar n ∨ c = (Nat.digitChar n).toUpper)))

/-- **A unit in hexadecimal**: four digits after `\u`. -/
def UnitSpelling (code : Nat) (s : Text) : Prop :=
  ∃ a b c d, HexDigit (code / 4096) a ∧ HexDigit (code / 256 % 16) b ∧
    HexDigit (code / 16 % 16) c ∧ HexDigit (code % 16) d ∧ s = ['\\', 'u', a, b, c, d]

/-- The characters with a short escape, each behind the one that is written for it. -/
def shortEscapes : List (Char × Char) :=
  [('"', '"'), ('\\', '\\'), ('/', '/'), ('b', '\x08'), ('f', '\x0c'), ('n', '\n'), ('r', '\r'),
    ('t', '\t')]

/-- **The ways of writing a character** in a quoted text. -/
inductive CharSpelling (c : Char) : Text → Prop where
  /-- As itself, unless it ends the text, begins an escape or is a control. -/
  | plain (hquote : c ≠ '"') (hescape : c ≠ '\\') (hcontrol : 0x20 ≤ c.toNat) : CharSpelling c [c]
  /-- By a short escape. -/
  | short {e : Char} (hshort : (e, c) ∈ shortEscapes) : CharSpelling c ['\\', e]
  /-- By its code. -/
  | unit {s : Text} (hunit : UnitSpelling c.toNat s) : CharSpelling c s
  /-- By two halves, if its code takes more than one unit. -/
  | pair {high low : Text} (hbeyond : 0x10000 ≤ c.toNat)
      (hhigh : UnitSpelling (0xd800 + (c.toNat - 0x10000) / 0x400) high)
      (hlow : UnitSpelling (0xdc00 + (c.toNat - 0x10000) % 0x400) low) : CharSpelling c (high ++ low)

/-- `hexValue? c = some n` for a hexadecimal digit `c` of value `n`. -/
theorem HexDigit.hexValue? {n : Nat} {c : Char} (hdigit : HexDigit n c) :
    hexValue? c = some n := by
  have hall : ∀ n : Fin 16, Json.hexValue? (Nat.digitChar n) = some n.val ∧
      Json.hexValue? (Nat.digitChar n).toUpper = some n.val := by decide
  obtain ⟨hlt, rfl | rfl⟩ := hdigit
  · exact (hall ⟨n, hlt⟩).1
  · exact (hall ⟨n, hlt⟩).2

/-- **`readParts` takes a unit in hexadecimal for one part.** -/
theorem UnitSpelling.readParts {code : Nat} {s : Text} (hunit : UnitSpelling code s) (rest : Text) :
    readParts (s ++ rest)
      = (readParts rest).map fun read => (.unit code :: read.1, read.2) := by
  obtain ⟨a, b, c, d, ha, hb, hc, hd, rfl⟩ := hunit
  have hquad : hexQuad? a b c d = some code := by
    rw [hexQuad?, ha.hexValue?, hb.hexValue?, hc.hexValue?, hd.hexValue?]
    simp only [Option.bind_eq_bind, Option.bind_some, Option.pure_def, Option.some.injEq]
    omega
  simp only [List.cons_append, List.nil_append]
  rw [Json.readParts, hquad]

/-- **`readParts` takes a short escape for one part.** -/
theorem readParts_of_short {c e : Char} (hshort : (e, c) ∈ shortEscapes) (rest : Text) :
    readParts ('\\' :: e :: rest)
      = (readParts rest).map fun read => (.char c :: read.1, read.2) := by
  have hall : ∀ escape ∈ shortEscapes, escape.1 ≠ 'u' ∧ unescape? escape.1 = some escape.2 := by
    decide
  obtain ⟨hnot, hescape⟩ := hall _ hshort
  rw [readParts, hescape]
  exact fun a b c d s heq => absurd heq hnot

/-- A code that belongs to a character is no half of one. -/
theorem not_isHalf (c : Char) : isHighHalf c.toNat = false ∧ isLowHalf c.toNat = false := by
  have hvalid : c.toNat < 0xd800 ∨ 0xdfff < c.toNat ∧ c.toNat < 0x110000 := c.valid
  simp only [isHighHalf, isLowHalf, Bool.and_eq_false_iff, decide_eq_false_iff_not]
  omega

/-- **`assemble` makes one unit the character with that code**, whatever parts follow. -/
theorem assemble_unit (c : Char) (more : List Part) :
    assemble (.unit c.toNat :: more) = (assemble more).map (c :: ·) := by
  obtain ⟨hhigh, hlow⟩ := not_isHalf c
  cases more with
  | nil => simp [assemble, hhigh, hlow]
  | cons part more =>
    cases part with
    | char d => simp [assemble, hhigh, hlow]
    | unit code =>
      rw [assemble, if_neg (by simp [hhigh]), if_neg (by simp [hlow]), Char.ofNat_toNat]

/-- **`assemble` makes two halves one character.** -/
theorem assemble_pair {c : Char} (hbeyond : 0x10000 ≤ c.toNat) (more : List Part) :
    assemble (.unit (0xd800 + (c.toNat - 0x10000) / 0x400) ::
        .unit (0xdc00 + (c.toNat - 0x10000) % 0x400) :: more)
      = (assemble more).map (c :: ·) := by
  have hvalid : c.toNat < 0xd800 ∨ 0xdfff < c.toNat ∧ c.toNat < 0x110000 := c.valid
  have hhigh : isHighHalf (0xd800 + (c.toNat - 0x10000) / 0x400) = true := by
    simp only [isHighHalf, Bool.and_eq_true, decide_eq_true_eq]
    omega
  have hlow : isLowHalf (0xdc00 + (c.toNat - 0x10000) % 0x400) = true := by
    simp only [isLowHalf, Bool.and_eq_true, decide_eq_true_eq]
    omega
  have hcode : 0x10000 + (0xd800 + (c.toNat - 0x10000) / 0x400 - 0xd800) * 0x400
      + (0xdc00 + (c.toNat - 0x10000) % 0x400 - 0xdc00) = c.toNat := by omega
  rw [assemble, if_pos hhigh, if_pos hlow, hcode, Char.ofNat_toNat]

/-- **Every spelling of a character is read as parts that are this character.** -/
theorem CharSpelling.exists_parts {c : Char} {piece : Text} (hpiece : CharSpelling c piece) :
    ∃ parts, (∀ rest, readParts (piece ++ rest)
        = (readParts rest).map fun read => (parts ++ read.1, read.2)) ∧
      ∀ more, assemble (parts ++ more) = (assemble more).map (c :: ·) := by
  cases hpiece with
  | plain hquote hescape hcontrol =>
    refine ⟨[.char c], fun rest => ?_, fun more => rfl⟩
    rw [List.singleton_append, readParts.eq_def]
    simp [hescape, Nat.not_lt.mpr hcontrol]
  | short hshort => exact ⟨[.char c], readParts_of_short hshort, fun more => rfl⟩
  | unit hunit => exact ⟨[.unit c.toNat], hunit.readParts, assemble_unit c⟩
  | pair hbeyond hhigh hlow =>
    refine ⟨[.unit _, .unit _], fun rest => ?_, assemble_pair hbeyond⟩
    rw [List.append_assoc, hhigh.readParts, hlow.readParts, Option.map_map]
    rfl

/-! ## (2) Quoted texts -/

/-- **The ways of writing a text** between quotes, character by character. -/
inductive TextSpelling : Text → Text → Prop where
  /-- Nothing is written for nothing. -/
  | nil : TextSpelling [] []
  /-- The first character, then the others. -/
  | cons {c : Char} {s piece written : Text} (hpiece : CharSpelling c piece)
      (hwritten : TextSpelling s written) : TextSpelling (c :: s) (piece ++ written)

/-- A text without quotes, escapes and controls. -/
def PlainText (s : Text) : Prop := ∀ c ∈ s, c ≠ '"' ∧ c ≠ '\\' ∧ 0x20 ≤ c.toNat

instance (s : Text) : Decidable (PlainText s) := List.decidableBAll _ s

/-- `TextSpelling s s`: a plain text can be written as itself. -/
theorem PlainText.spelling {s : Text} (hplain : PlainText s) : TextSpelling s s := by
  induction s with
  | nil => exact .nil
  | cons c s ih =>
    obtain ⟨⟨hquote, hescape, hcontrol⟩, hplain⟩ := List.forall_mem_cons.mp hplain
    exact .cons (.plain hquote hescape hcontrol) (ih hplain)

/-- **`readString` gives `s` for every spelling of `s`**, up to the closing quote. -/
theorem readString_of_spelling {s written : Text} (hspelling : TextSpelling s written)
    (rest : Text) : readString (written ++ '"' :: rest) = some (s, rest) := by
  -- the parts of all characters, one behind the other
  have hparts : ∃ parts, readParts (written ++ '"' :: rest) = some (parts, rest) ∧
      assemble parts = some s := by
    induction hspelling with
    | nil => exact ⟨[], by rw [List.nil_append, readParts], rfl⟩
    | cons hpiece _ ih =>
      obtain ⟨parts, hread, hassemble⟩ := hpiece.exists_parts
      obtain ⟨more, hmore, htext⟩ := ih
      refine ⟨parts ++ more, ?_, ?_⟩
      · rw [List.append_assoc, hread, hmore, Option.map_some]
      · rw [hassemble, htext, Option.map_some]
  obtain ⟨parts, hread, hassemble⟩ := hparts
  rw [readString, hread]
  simp only [Option.bind_eq_bind, Option.bind_some, hassemble]
  rfl

/-! ## (3) Tokens -/

/-- Blanks, of which any number may stand before a token. -/
def Blanks (s : Text) : Prop := ∀ c ∈ s, c = ' ' ∨ c = '\n' ∨ c = '\t' ∨ c = '\r'

instance (s : Text) : Decidable (Blanks s) := List.decidableBAll _ s

/-- **The ways of writing a token** of an object whose values are texts and truth values. -/
inductive TokenSpelling : Token → Text → Prop where
  /-- The brace before the members. -/
  | openBrace : TokenSpelling .openBrace ['\x7b']
  /-- The brace behind them. -/
  | closeBrace : TokenSpelling .closeBrace ['\x7d']
  /-- The colon behind a key. -/
  | colon : TokenSpelling .colon [':']
  /-- The comma behind a member. -/
  | comma : TokenSpelling .comma [',']
  /-- A text between quotes. -/
  | string {s written : Text} (hwritten : TextSpelling s written) :
      TokenSpelling (.string s) ('"' :: (written ++ ['"']))
  /-- The word for truth. -/
  | true : TokenSpelling (.boolean true) "true"
  /-- The word for falsehood. -/
  | false : TokenSpelling (.boolean false) "false"

/-- **The spellings of tokens**: each is written in one of its ways, behind any blanks. -/
inductive Spelling : List Token → Text → Prop where
  /-- Nothing is written for no tokens. -/
  | nil : Spelling [] []
  /-- Blanks and the first token, then the others. -/
  | cons {token : Token} {ts : List Token} {blanks piece written : Text} (hblanks : Blanks blanks)
      (hpiece : TokenSpelling token piece) (hwritten : Spelling ts written) :
      Spelling (token :: ts) (blanks ++ (piece ++ written))

/-- `tokens s = token :: tokens rest` where `readToken` gives `token` behind the blanks. -/
theorem tokens_of_readToken {s rest : Text} {token : Token}
    (hread : readToken (s.dropWhile isBlank) = some (token, rest)) :
    tokens s = token :: tokens rest := by
  rw [tokens]
  split
  · rename_i hnil
    rw [hnil] at hread
    cases hread
  · rename_i c t hcons
    rw [hcons] at hread
    split
    · rename_i hnone
      rw [hread] at hnone
      cases hnone
    · rename_i token' rest' hsome
      rw [hread] at hsome
      cases hsome
      rfl

/-- `readToken` gives a token for each of its spellings, and no spelling begins with a blank. -/
theorem TokenSpelling.readToken {token : Token} {piece : Text} (hpiece : TokenSpelling token piece)
    (rest : Text) : (piece ++ rest).dropWhile isBlank = piece ++ rest ∧
      readToken (piece ++ rest) = some (token, rest) := by
  cases hpiece with
  | string hwritten =>
    refine ⟨rfl, ?_⟩
    rw [List.cons_append, List.append_assoc, List.singleton_append, Json.readToken,
      readString_of_spelling hwritten]
    rfl
  | _ => exact ⟨rfl, rfl⟩

/-- **`tokens (written ++ rest) = ts ++ tokens rest`** for every spelling of the tokens `ts`. -/
theorem tokens_of_spelling {ts : List Token} {written : Text} (hspelling : Spelling ts written)
    (rest : Text) : tokens (written ++ rest) = ts ++ tokens rest := by
  induction hspelling with
  | nil => rfl
  | @cons token ts blanks piece written hblanks hpiece _ ih =>
    obtain ⟨hfirst, hread⟩ := hpiece.readToken (written ++ rest)
    have hskip : (blanks ++ (piece ++ (written ++ rest))).dropWhile isBlank
        = piece ++ (written ++ rest) := by
      rw [List.dropWhile_append_of_pos, hfirst]
      intro c hc
      simpa [isBlank, or_assoc] using hblanks c hc
    rw [List.append_assoc, List.append_assoc, List.cons_append, ← ih]
    refine tokens_of_readToken ?_
    rw [hskip, hread]

end InterfaceSchemes.Json
