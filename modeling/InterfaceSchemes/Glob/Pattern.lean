import InterfaceSchemes.Text.Basic

/-!
# Glob patterns

A pattern is a sequence of tokens, each of which takes a stretch of the text that is matched.

* `Glob.compile` reads a pattern, or says where and why it is none;
* `Glob.Token.rests` lists what a token may leave of a text, and `Glob.takesAll` says what it means
  that tokens together take a whole text;
* `Glob.Pattern.accepts` decides that in one pass over the text for each token
  (`Glob.Pattern.accepts_eq_takesAll`).
-/

namespace InterfaceSchemes.Glob

/-- One token of a pattern. -/
inductive Token where
  /-- This character. -/
  | char (c : Char)
  /-- Any one character. -/
  | anyChar
  /-- One character of one of these ranges. -/
  | within (ranges : List (Char × Char))
  /-- One character of none of these ranges. -/
  | without (ranges : List (Char × Char))
  /-- Any characters, separators among them. -/
  | anyRun
  /-- Any directories: nothing, a text that ends in a separator, or all that is left. -/
  | anyPath
deriving DecidableEq

/-- Why a text is no pattern. -/
inductive Complaint where
  /-- Three stars or more in a row. -/
  | stars
  /-- Two stars that are not a whole component. -/
  | component
  /-- A set of characters that is empty or not closed. -/
  | set
deriving DecidableEq

/-- Where, counted in characters, and why a text is no pattern. -/
structure Fault where
  /-- The position of the fault. -/
  position : Nat
  /-- What is wrong there. -/
  complaint : Complaint
deriving DecidableEq

/-- The wording of a complaint. -/
def Complaint.message : Complaint → Text
  | .stars => "wildcards are either regular `*` or recursive `**`"
  | .component => "recursive wildcards must form a single path component"
  | .set => "invalid range pattern"

/-- The wording of a fault. -/
def Fault.message (f : Fault) : Text :=
  "Pattern syntax error near position " ++ Text.ofNat f.position ++ ": " ++ f.complaint.message

/-- The ranges that the inside of a set spells: a dash between two characters makes a range, all
else stands for itself. -/
def ranges : Text → List (Char × Char)
  | first :: '-' :: last :: s => (first, last) :: ranges s
  | c :: s => (c, c) :: ranges s
  | [] => []

/-- The text before and after the first closing bracket. -/
def cutAtBracket : Text → Option (Text × Text)
  | [] => none
  | c :: s => if c = ']' then some ([], s) else (cutAtBracket s).map fun cut => (c :: cut.1, cut.2)

/-- Reads a set after its opening bracket. The first character of the set belongs to it, even if it
is a bracket. -/
def readSet : Text → Option (Token × Text)
  | '!' :: c :: s => (cutAtBracket s).map fun cut => (.without (ranges (c :: cut.1)), cut.2)
  | ['!'] => none
  | c :: s => (cutAtBracket s).map fun cut => (.within (ranges (c :: cut.1)), cut.2)
  | [] => none

/-- `cutAtBracket` leaves less than it is given. -/
theorem length_cutAtBracket {s : Text} {cut : Text × Text} (h : cutAtBracket s = some cut) :
    cut.2.length < s.length := by
  induction s generalizing cut with
  | nil => simp [cutAtBracket] at h
  | cons c s ih =>
    rw [cutAtBracket] at h
    split at h
    · cases h; simp
    · obtain ⟨inner, hinner, rfl⟩ := Option.map_eq_some_iff.mp h
      have := ih hinner
      simp only [List.length_cons]
      omega

/-- `readSet` leaves less than it is given. -/
theorem length_readSet {s : Text} {read : Token × Text} (h : readSet s = some read) :
    read.2.length < s.length := by
  unfold readSet at h
  split at h
  · obtain ⟨cut, hcut, rfl⟩ := Option.map_eq_some_iff.mp h
    have := length_cutAtBracket hcut
    simp only [List.length_cons]
    omega
  · simp at h
  · obtain ⟨cut, hcut, rfl⟩ := Option.map_eq_some_iff.mp h
    have := length_cutAtBracket hcut
    simp only [List.length_cons]
    omega
  · simp at h

/-- Reads the tokens of a pattern from the position `position`, before which stands `before?`. -/
def compileFrom (before? : Option Char) (position : Nat) (s : Text) : Except Fault (List Token) :=
  match s with
  | [] => .ok []
  | '*' :: '*' :: '*' :: _ => .error ⟨position + 2, .stars⟩
  | '*' :: '*' :: s =>
    if before? = none ∨ before? = some '/' then
      match s with
      | [] => .ok [.anyPath]
      | '/' :: s => (compileFrom (some '/') (position + 3) s).map (.anyPath :: ·)
      | _ => .error ⟨position + 2, .component⟩
    else .error ⟨position - 1, .component⟩
  | '*' :: s => (compileFrom (some '*') (position + 1) s).map (.anyRun :: ·)
  | '?' :: s => (compileFrom (some '?') (position + 1) s).map (.anyChar :: ·)
  | '[' :: s =>
    match _hread : readSet s with
    | none => .error ⟨position, .set⟩
    | some (token, rest) =>
      (compileFrom (some ']') (position + 1 + (s.length - rest.length)) rest).map (token :: ·)
  | c :: s => (compileFrom (some c) (position + 1) s).map (.char c :: ·)
termination_by s.length
decreasing_by
  · simp only [List.length_cons]
    omega
  · simp only [List.length_cons]
    omega
  · simp only [List.length_cons]
    omega
  · have shorter : rest.length < s.length := length_readSet _hread
    simp only [List.length_cons]
    omega
  · simp only [List.length_cons]
    omega

/-- A pattern that has been read. -/
structure Pattern where
  /-- The tokens in order. -/
  tokens : List Token
deriving DecidableEq

/-- Reads a pattern. -/
def compile (s : Text) : Except Fault Pattern := (compileFrom none 0 s).map (⟨·⟩)

/-- A text and all that is left of it as its characters are taken one by one. -/
def suffixes : Text → List Text
  | [] => [[]]
  | c :: s => (c :: s) :: suffixes s

/-- What is left of a text after each of its separators. -/
def afterSeparators : Text → List Text
  | [] => []
  | c :: s => if c = '/' then s :: afterSeparators s else afterSeparators s

/-- Whether a character lies in one of the ranges. -/
def inRanges (ranges : List (Char × Char)) (c : Char) : Bool :=
  ranges.any fun range => range.1 ≤ c && c ≤ range.2

/-- What is left of a text when its first character satisfies `ok`. -/
def afterChar (ok : Char → Bool) : Text → List Text
  | c :: s => if ok c then [s] else []
  | [] => []

/-- What may be left of a text after a token has taken its share. -/
def Token.rests : Token → Text → List Text
  | .char c, s => afterChar (· == c) s
  | .anyChar, s => afterChar (fun _ => true) s
  | .within set, s => afterChar (inRanges set) s
  | .without set, s => afterChar (fun c => !inRanges set c) s
  | .anyRun, s => suffixes s
  | .anyPath, s => s :: (afterSeparators s ++ [[]])

/-- Whether tokens, one after the other, take the whole text. -/
def takesAll : List Token → Text → Bool
  | [], s => s.isEmpty
  | token :: tokens, s => (token.rests s).any (takesAll tokens)

/-! ## Marks

A text of length `n` leaves `n + 1` texts as its characters are taken one by one. Marks say of each
of them, the longest first, whether it is wanted. Going through the tokens from the last to the
first, each token moves the marks from what it should leave to what it can start from, so that
matching looks at each character once for each token. -/

/-- The marks before a token that takes one character. -/
def charMarks (ok : Char → Bool) : Text → List Bool → List Bool
  | c :: s, _ :: later => (ok c && later.headD false) :: charMarks ok s later
  | _, _ => [false]

/-- The marks before a token that takes any characters. -/
def runMarks : List Bool → List Bool
  | [] => []
  | here :: later =>
    let marks := runMarks later
    (here || marks.headD false) :: marks

/-- The marks before a token that takes a text up to a separator, or all that is left. -/
def jumpMarks : Text → List Bool → List Bool
  | c :: s, _ :: later =>
    let marks := jumpMarks s later
    ((c == '/' && later.headD false) || marks.headD false) :: marks
  | _, marks => [marks.headD false]

/-- The marks before a token, given those after it. -/
def Token.marks (s : Text) (after : List Bool) : Token → List Bool
  | .char c => charMarks (· == c) s after
  | .anyChar => charMarks (fun _ => true) s after
  | .within set => charMarks (inRanges set) s after
  | .without set => charMarks (fun c => !inRanges set c) s after
  | .anyRun => runMarks after
  | .anyPath => List.zipWith (· || ·) after (jumpMarks s after)

/-- Whether the tokens of the pattern, one after the other, take the whole text. -/
def Pattern.accepts (p : Pattern) (s : Text) : Bool :=
  (p.tokens.foldr (fun token after => token.marks s after)
    ((suffixes s).map List.isEmpty)).headD false

/-- The first mark is that of the text itself. -/
theorem headD_map_suffixes (wanted : Text → Bool) (s : Text) :
    ((suffixes s).map wanted).headD false = wanted s := by
  cases s <;> rfl

/-- A token that takes one character is wanted where what it leaves is. -/
theorem charMarks_suffixes (ok : Char → Bool) (wanted : Text → Bool) (s : Text) :
    charMarks ok s ((suffixes s).map wanted)
      = (suffixes s).map fun r => (afterChar ok r).any wanted := by
  induction s with
  | nil => rfl
  | cons c s ih =>
    rw [suffixes, List.map_cons, charMarks, ih, headD_map_suffixes, List.map_cons, afterChar]
    cases ok c <;> simp

/-- A token that takes any characters is wanted where something that follows is. -/
theorem runMarks_suffixes (wanted : Text → Bool) (s : Text) :
    runMarks ((suffixes s).map wanted)
      = (suffixes s).map fun r => (suffixes r).any wanted := by
  induction s with
  | nil => simp [suffixes, runMarks]
  | cons c s ih =>
    rw [suffixes, List.map_cons, runMarks, ih, headD_map_suffixes, List.map_cons]
    simp [suffixes]

/-- A token that goes on to a separator or to the end is wanted where something after a separator,
or the end, is. -/
theorem jumpMarks_suffixes (wanted : Text → Bool) (s : Text) :
    jumpMarks s ((suffixes s).map wanted)
      = (suffixes s).map fun r => (afterSeparators r ++ [[]]).any wanted := by
  induction s with
  | nil => simp [suffixes, jumpMarks, afterSeparators]
  | cons c s ih =>
    rw [suffixes, List.map_cons, jumpMarks, ih, headD_map_suffixes, headD_map_suffixes,
      List.map_cons]
    by_cases h : c = '/'
    · simp [afterSeparators, h]
    · simp [afterSeparators, h]

/-- `token.marks`: the marks before a token are those of the texts that it can turn into a wanted
one. -/
theorem Token.marks_suffixes (wanted : Text → Bool) (s : Text) (token : Token) :
    token.marks s ((suffixes s).map wanted)
      = (suffixes s).map fun r => (token.rests r).any wanted := by
  cases token with
  | char c => exact charMarks_suffixes _ wanted s
  | anyChar => exact charMarks_suffixes _ wanted s
  | within set => exact charMarks_suffixes _ wanted s
  | without set => exact charMarks_suffixes _ wanted s
  | anyRun => exact runMarks_suffixes wanted s
  | anyPath =>
    rw [Token.marks, jumpMarks_suffixes, List.zipWith_map, List.zipWith_self]
    simp [Token.rests]

/-- The marks before all tokens are those of the texts that the tokens take whole. -/
theorem foldr_marks (tokens : List Token) (s : Text) :
    tokens.foldr (fun token after => token.marks s after) ((suffixes s).map List.isEmpty)
      = (suffixes s).map (takesAll tokens) := by
  induction tokens with
  | nil => rfl
  | cons token tokens ih =>
    rw [List.foldr_cons, ih, Token.marks_suffixes]
    rfl

/-- `p.accepts s = takesAll p.tokens s`: a pattern accepts what its tokens take whole. -/
theorem Pattern.accepts_eq_takesAll (p : Pattern) (s : Text) :
    p.accepts s = takesAll p.tokens s := by
  rw [Pattern.accepts, foldr_marks, headD_map_suffixes]

end InterfaceSchemes.Glob
