import InterfaceSchemes.Decimal.Shortest

/-!
# Numbers in JSON

A number without fraction and exponent that fits 64 bits is an integer; any other number, negative
zero among them, is a binary floating-point number. Its digits are read as a 64-bit significand,
which ignores the digits that no longer fit, and the power of ten is applied to that.
-/

namespace InterfaceSchemes.Json

/-- A number as it is read. -/
inductive Number where
  /-- An integer of at most 64 bits. -/
  | integer (value : Int)
  /-- A floating-point number by sign and magnitude. -/
  | real (negative : Bool) (magnitude : Binary)
deriving DecidableEq

/-- Whether a character is a decimal digit. -/
def isDigit (c : Char) : Bool := '0' ≤ c && c ≤ '9'

/-- The value of a digit. -/
def digitValue (c : Char) : Nat := c.toNat - '0'.toNat

/-- The significand after as many of the digits as 64 bits can hold, and how many digits that
were. -/
def takeDigits (significand : Nat) : Text → Nat × Nat
  | [] => (significand, 0)
  | c :: s =>
    let next := 10 * significand + digitValue c
    if next < Nat.pow 2 64 then
      let (result, count) := takeDigits next s
      (result, count + 1)
    else (significand, 0)

/-- The greatest power of ten that is a binary number. -/
def greatestPower : Nat := 308

/-- The number `10 ^ n`. -/
def powerOfTen? (n : Nat) : Option Binary := Binary.ofRatio? (Nat.pow 10 n) 1

/-- The number divided by `10 ^ n`, by the greatest power of ten at a time. -/
def scaleDown (x : Binary) (n : Nat) : Option Binary :=
  if n ≤ greatestPower then do x.div? (← powerOfTen? n)
  else if x.mantissa = 0 then some x
  else do
    let y ← x.div? (← powerOfTen? greatestPower)
    scaleDown y (n - greatestPower)
termination_by n
decreasing_by
  simp only [greatestPower] at *
  omega

/-- The number `significand * 10 ^ exponent`, unless it is beyond the format. -/
def magnitude? (significand : Nat) (exponent : Int) : Option Binary := do
  let x ← Binary.ofRatio? significand 1
  if exponent < 0 then scaleDown x exponent.natAbs
  else if exponent.toNat ≤ greatestPower then x.mul? (← powerOfTen? exponent.toNat)
  else if x.mantissa = 0 then some x
  else none

/-- The greatest exponent that is read as such. -/
def greatestExponent : Nat := Nat.pow 2 31 - 1

/-- The magnitude with the exponent that its digits `written` spell. An exponent beyond 32 bits
gives zero if it is negative, and nothing if it is positive and the significand is not zero. -/
def withExponent? (significand : Nat) (start : Int) (negative : Bool) (written : Text) :
    Option Binary :=
  let value := written.foldl (fun n c => 10 * n + digitValue c) 0
  if greatestExponent < value then
    if significand ≠ 0 ∧ !negative then none else some ⟨0, Binary.leastExponent⟩
  else magnitude? significand (if negative then start - value else start + value)

/-- Reads the digits of an exponent and gives the magnitude with it. -/
def readPower (significand : Nat) (start : Int) (negative : Bool) (s : Text) :
    Option (Binary × Text) :=
  match s.takeWhile isDigit with
  | [] => none
  | written =>
    (withExponent? significand start negative written).map fun x => (x, s.dropWhile isDigit)

/-- Reads the digits of an exponent after its sign, if there is one. -/
def readSignedPower (significand : Nat) (start : Int) : Text → Option (Binary × Text)
  | '+' :: s => readPower significand start false s
  | '-' :: s => readPower significand start true s
  | s => readPower significand start false s

/-- Reads an exponent, if there is one, and gives the magnitude with it. -/
def readExponent (significand : Nat) (start : Int) : Text → Option (Binary × Text)
  | 'e' :: s => readSignedPower significand start s
  | 'E' :: s => readSignedPower significand start s
  | s => (magnitude? significand start).map fun x => (x, s)

/-- Reads a number after its sign. -/
def readUnsigned (negative : Bool) (s : Text) : Option (Number × Text) :=
  let whole := s.takeWhile isDigit
  let rest := s.dropWhile isDigit
  if whole = [] ∨ (whole.head? = some '0' ∧ whole.length ≠ 1) then none
  else
    let (significand, count) := takeDigits 0 whole
    let dropped := whole.length - count
    let real (read : Binary × Text) : Number × Text := (.real negative read.1, read.2)
    match rest with
    | '.' :: tail =>
      match tail.takeWhile isDigit with
      | [] => none
      | fraction =>
        let (significand, count) := takeDigits significand fraction
        (readExponent significand (dropped - count) (tail.dropWhile isDigit)).map real
    | rest =>
      if rest.head? = some 'e' ∨ rest.head? = some 'E' ∨ 0 < dropped then
        (readExponent significand dropped rest).map real
      else if !negative then some (.integer significand, rest)
      else if 0 < significand ∧ significand ≤ Nat.pow 2 63 then some (.integer (-significand), rest)
      else (magnitude? significand 0).map fun x => (.real true x, rest)

/-- Reads a number. -/
def readNumber : Text → Option (Number × Text)
  | '-' :: s => readUnsigned true s
  | s => readUnsigned false s

end InterfaceSchemes.Json
