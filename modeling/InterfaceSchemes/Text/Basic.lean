/-!
# Texts

Every rule of this library is a rule about characters, so a text is the list of its characters and
each operation below is a recursion on that list.

* `afterFront?` and `beforeBack?` take a beginning or an ending off a list;
* `Text.splitWhere` cuts a text at its separators;
* `Text.joinWith` puts pieces together with a separator between them;
* `Text.trimEnds` drops a class of characters from both ends;
* `CodeRanges` is a set of characters given by ranges of code points.
-/

namespace InterfaceSchemes

/-! ## Both ends of a list -/

section
variable {α : Type} [DecidableEq α]

/-- What follows `front` in a list that begins with it. -/
def afterFront? : List α → List α → Option (List α)
  | [], s => some s
  | _ :: _, [] => none
  | c :: front, d :: s => if c = d then afterFront? front s else none

/-- What precedes `back` in a list that ends with it. -/
def beforeBack? (back s : List α) : Option (List α) :=
  (afterFront? back.reverse s.reverse).map List.reverse

/-- `afterFront? front s = some rest ↔ s = front ++ rest`. -/
theorem afterFront?_eq_some_iff {front s rest : List α} :
    afterFront? front s = some rest ↔ s = front ++ rest := by
  induction front generalizing s with
  | nil => simp [afterFront?]
  | cons c front ih =>
    cases s with
    | nil => simp [afterFront?]
    | cons d s =>
      rw [afterFront?]
      split
      · rename_i hc
        simp [ih, hc]
      · rename_i hc
        simp [Ne.symm hc]

/-- `beforeBack? back s = some rest ↔ s = rest ++ back`. -/
theorem beforeBack?_eq_some_iff {back s rest : List α} :
    beforeBack? back s = some rest ↔ s = rest ++ back := by
  rw [beforeBack?, Option.map_eq_some_iff]
  constructor
  · rintro ⟨inner, hinner, rfl⟩
    have flipped := congrArg List.reverse (afterFront?_eq_some_iff.mp hinner)
    simpa using flipped
  · rintro rfl
    exact ⟨rest.reverse, afterFront?_eq_some_iff.mpr (by simp), by simp⟩

end

/-! ## Texts -/

/-- A text, as the list of its characters. -/
abbrev Text := List Char

/-- String literals may stand for texts. -/
instance : Coe String Text := ⟨String.toList⟩

namespace Text

/-- The pieces of a text between the characters that satisfy `isSep`. A text without separators is
one piece, and each separator adds one more. -/
def splitWhere (isSep : Char → Bool) : Text → List Text
  | [] => [[]]
  | c :: s =>
    if isSep c then [] :: splitWhere isSep s
    else
      match splitWhere isSep s with
      | [] => [[c]]
      | piece :: pieces => (c :: piece) :: pieces

/-- The pieces of a text between the occurrences of one character. -/
def splitAt (sep : Char) (s : Text) : List Text := splitWhere (· == sep) s

/-- The pieces in order, with `sep` between neighbours. -/
def joinWith (sep : Text) (pieces : List Text) : Text := sep.intercalate pieces

/-- The text without the characters of `drop` at its end. -/
def trimEnd (drop : Char → Bool) (s : Text) : Text := (s.reverse.dropWhile drop).reverse

/-- The text without the characters of `drop` at its two ends. -/
def trimEnds (drop : Char → Bool) (s : Text) : Text := trimEnd drop (s.dropWhile drop)

/-- The decimal digits of a number. -/
def ofNat (n : Nat) : Text := Nat.toDigits 10 n

/-- The text of an integer, with a sign only when it is negative. -/
def ofInt : Int → Text
  | .ofNat n => ofNat n
  | .negSucc n => '-' :: ofNat (n + 1)

/-- `splitWhere isSep s ≠ []`: there is always a first piece. -/
theorem splitWhere_ne_nil (isSep : Char → Bool) (s : Text) : splitWhere isSep s ≠ [] := by
  cases s with
  | nil => simp [splitWhere]
  | cons c s =>
    rw [splitWhere]
    split
    · simp
    · split <;> simp

end Text

/-- A set of characters: the ranges of code points, both ends included, that make it up. -/
abbrev CodeRanges := List (Nat × Nat)

/-- Whether a character lies in one of the ranges. -/
def CodeRanges.contains (ranges : CodeRanges) (c : Char) : Bool :=
  ranges.any fun range => range.1 ≤ c.toNat && c.toNat ≤ range.2

end InterfaceSchemes
