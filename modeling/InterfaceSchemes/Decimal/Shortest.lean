import InterfaceSchemes.Decimal.Binary
import InterfaceSchemes.Text.Basic

/-!
# The fewest digits that read back

A binary number is written with the fewest decimal digits that no other number of the format is
nearer to; of two such decimals the one nearer to the number is taken. The search tries one digit,
two digits and so on, and for each count the two neighbours of the number on that grid.

* `Decimal.shortest` finds the digits;
* `Decimal.layout` decides where the point and the exponent go.
-/

namespace InterfaceSchemes

/-- The number `coefficient * 10 ^ exponent`. -/
structure Decimal where
  /-- The digits, read as one number. -/
  coefficient : Nat
  /-- The power of ten. -/
  exponent : Int
deriving DecidableEq

namespace Decimal

/-- The exponent of the leading decimal digit of `num / den`. -/
def leadingExponent (num den : Nat) : Int :=
  if den ≤ num then (Nat.toDigits 10 (num / den)).length - 1
  else -((Nat.toDigits 10 ((den + num - 1) / num - 1)).length : Int)

/-- The quotient `num / den / 10 ^ k`, as numerator and denominator. -/
def scaleRatio (num den : Nat) (k : Int) : Nat × Nat :=
  if 0 ≤ k then (num, den * Nat.pow 10 k.toNat) else (num * Nat.pow 10 (-k).toNat, den)

/-- Whether reading `coefficient * 10 ^ exponent` gives `x` back: it lies within half a step of
`x`, where the step below a power of two is half as long. The ends belong to an even mantissa. -/
def readsBack (x : Binary) (d : Decimal) : Bool :=
  let quarter := x.exponent - 2
  let low := if x.mantissa = Nat.pow 2 52 ∧ Binary.leastExponent < x.exponent
    then 4 * x.mantissa - 1 else 4 * x.mantissa - 2
  let high := 4 * x.mantissa + 2
  let value := scaleRatio d.coefficient 1 (-d.exponent)
  let (num, den) := Binary.shiftRatio value.1 value.2 quarter
  if x.mantissa % 2 = 0 then low * den ≤ num && num ≤ high * den
  else low * den < num && num < high * den

/-- The best decimal for `x` on the grid of the multiples of `10 ^ k`, if one reads back. -/
def onGrid? (x : Binary) (k : Int) : Option Decimal :=
  let (num, den) := scaleRatio x.toRatio.1 x.toRatio.2 k
  let below : Decimal := ⟨num / den, k⟩
  let above : Decimal := ⟨num / den + 1, k⟩
  let twice := 2 * (num % den)
  let belowFirst := twice < den || (twice == den && (num / den) % 2 == 0)
  let (first, second) := if belowFirst then (below, above) else (above, below)
  if readsBack x first then some first
  else if readsBack x second then some second
  else none

/-- The decimal without the zeros at the end of its coefficient, of which `count` are looked at. -/
def dropZeros (count : Nat) (d : Decimal) : Decimal :=
  match count with
  | 0 => d
  | count + 1 =>
    if d.coefficient % 10 = 0 then dropZeros count ⟨d.coefficient / 10, d.exponent + 1⟩ else d

/-- The shortest decimal that reads back as `x`. Seventeen digits are always enough. -/
def shortest (x : Binary) : Decimal :=
  let (num, den) := x.toRatio
  let leading := leadingExponent num den
  match (List.range 17).findSome? fun (n : Nat) => onGrid? x (leading - n) with
  | some d => dropZeros 17 d
  | none => ⟨num / den, 0⟩

/-- The text of a positive number. A leading digit at `10 ^ -5` to `10 ^ 15` stands in positional
notation, with a digit on each side of the point; any other number is one digit, the rest of the
digits after a point, and a signed exponent. -/
def layout (d : Decimal) : Text :=
  let digits := Text.ofNat d.coefficient
  let leading : Int := d.exponent + (digits.length - 1 : Nat)
  if -5 ≤ leading ∧ leading ≤ 15 then
    if leading < 0 then
      "0." ++ List.replicate (-leading - 1).toNat '0' ++ digits
    else if digits.length ≤ leading.toNat + 1 then
      digits ++ List.replicate (leading.toNat + 1 - digits.length) '0' ++ ".0"
    else
      digits.take (leading.toNat + 1) ++ "." ++ digits.drop (leading.toNat + 1)
  else
    let point : Text := if digits.length = 1 then [] else "."
    let sign : Text := if leading < 0 then "e-" else "e+"
    digits.take 1 ++ point ++ digits.drop 1 ++ sign ++ Text.ofNat leading.natAbs

end Decimal

/-- The text of a binary number with its sign. -/
def Binary.text (negative : Bool) (x : Binary) : Text :=
  let sign : Text := if negative then "-" else []
  if x.mantissa = 0 then sign ++ "0.0" else sign ++ (Decimal.shortest x).layout

end InterfaceSchemes
