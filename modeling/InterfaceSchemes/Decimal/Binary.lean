/-!
# Binary floating-point numbers

The non-negative numbers of the 64-bit binary format, as a mantissa below `2 ^ 53` times a power of
two. Each operation gives the number of the format that is nearest to the exact result; a tie goes
to the even mantissa.
-/

namespace InterfaceSchemes

/-- The number `mantissa * 2 ^ exponent`. -/
structure Binary where
  /-- The mantissa, below `2 ^ 53`. -/
  mantissa : Nat
  /-- The power of two, from `-1074` up. -/
  exponent : Int
deriving DecidableEq

namespace Binary

/-- The least power of two of the format. -/
def leastExponent : Int := -1074

/-- The greatest power of two of the format. -/
def greatestExponent : Int := 971

/-- The integer nearest to `num / den`; of two, the even one. -/
def roundDiv (num den : Nat) : Nat :=
  let quotient := num / den
  let twice := 2 * (num % den)
  if twice < den ∨ (twice = den ∧ quotient % 2 = 0) then quotient else quotient + 1

/-- The quotient `num / den / 2 ^ e`, as numerator and denominator. -/
def shiftRatio (num den : Nat) (e : Int) : Nat × Nat :=
  if 0 ≤ e then (num, den * Nat.pow 2 e.toNat) else (num * Nat.pow 2 (-e).toNat, den)

/-- The number nearest to `num / den`, unless it is beyond the format. -/
def ofRatio? (num den : Nat) : Option Binary :=
  if num = 0 then some ⟨0, leastExponent⟩
  else
    let guess : Int := num.log2 - den.log2 - 52
    let shifted := shiftRatio num den guess
    let fitted := if shifted.1 < Nat.pow 2 52 * shifted.2 then guess - 1 else guess
    let exponent := max fitted leastExponent
    let ratio := shiftRatio num den exponent
    let mantissa := roundDiv ratio.1 ratio.2
    let result : Binary :=
      if mantissa = Nat.pow 2 53 then ⟨Nat.pow 2 52, exponent + 1⟩ else ⟨mantissa, exponent⟩
    if greatestExponent < result.exponent then none else some result

/-- The number as numerator and denominator. -/
def toRatio (x : Binary) : Nat × Nat := shiftRatio x.mantissa 1 (-x.exponent)

/-- The product, unless it is beyond the format. -/
def mul? (x y : Binary) : Option Binary :=
  ofRatio? (x.toRatio.1 * y.toRatio.1) (x.toRatio.2 * y.toRatio.2)

/-- The quotient, unless it is beyond the format. -/
def div? (x y : Binary) : Option Binary :=
  ofRatio? (x.toRatio.1 * y.toRatio.2) (x.toRatio.2 * y.toRatio.1)

end Binary

end InterfaceSchemes
