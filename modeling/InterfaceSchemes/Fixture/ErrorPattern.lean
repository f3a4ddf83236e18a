import InterfaceSchemes.Text.Basic

/-!
# Patterns for error messages

A fixture says which error it expects by a small regular expression: characters, a dot for any
character but a line end, groups, alternatives, repetition, and marks for the two ends of the text.

* `ErrorPattern.read?` reads a pattern;
* `ErrorPattern.occursIn` asks whether a part of a text matches.
-/

namespace InterfaceSchemes

/-- A pattern. While a text is read, a mark on a character or a dot says that the character read
last was matched there. -/
inductive ErrorPattern where
  /-- Nothing. -/
  | empty
  /-- This character. -/
  | char (c : Char) (marked : Bool)
  /-- Any character but a line end. -/
  | any (marked : Bool)
  /-- The beginning of the text. -/
  | start
  /-- The end of the text. -/
  | stop
  /-- One after the other. -/
  | seq (first second : ErrorPattern)
  /-- One or the other. -/
  | alt (first second : ErrorPattern)
  /-- Any number of times in a row. -/
  | many (inner : ErrorPattern)
deriving DecidableEq

namespace ErrorPattern

/-! ## Matching

A text is read character by character, and the marks go along with it: reading a character moves
them from where a match has come to where it goes on. All matches that have begun are followed at
once, so each character costs one pass over the pattern. -/

/-- Whether a pattern matches the empty text at a position, which may be the beginning or the end of
the text. -/
def matchesEmpty (atStart atEnd : Bool) : ErrorPattern → Bool
  | .empty => true
  | .char _ _ => false
  | .any _ => false
  | .start => atStart
  | .stop => atEnd
  | .seq first second => matchesEmpty atStart atEnd first && matchesEmpty atStart atEnd second
  | .alt first second => matchesEmpty atStart atEnd first || matchesEmpty atStart atEnd second
  | .many _ => true

/-- Whether a match that is marked ends at this position. -/
def endsHere (atStart atEnd : Bool) : ErrorPattern → Bool
  | .char _ marked => marked
  | .any marked => marked
  | .seq first second =>
    (endsHere atStart atEnd first && matchesEmpty atStart atEnd second)
      || endsHere atStart atEnd second
  | .alt first second => endsHere atStart atEnd first || endsHere atStart atEnd second
  | .many inner => endsHere atStart atEnd inner
  | .empty => false
  | .start => false
  | .stop => false

/-- The pattern with its marks after the character `c`, where a match may also begin here if
`begins`. -/
def advance (atStart : Bool) (c : Char) (begins : Bool) : ErrorPattern → ErrorPattern
  | .char x _ => .char x (begins && x == c)
  | .any _ => .any (begins && c != '\n')
  | .seq first second =>
    let reaches :=
      (begins && matchesEmpty atStart false first) || endsHere atStart false first
    .seq (advance atStart c begins first) (advance atStart c reaches second)
  | .alt first second => .alt (advance atStart c begins first) (advance atStart c begins second)
  | .many inner => .many (advance atStart c (begins || endsHere atStart false inner) inner)
  | .empty => .empty
  | .start => .start
  | .stop => .stop

/-- Whether a match begins and ends here, or a marked one ends here. -/
def found (atStart atEnd : Bool) (p : ErrorPattern) : Bool :=
  matchesEmpty atStart atEnd p || endsHere atStart atEnd p

/-- Whether a match that is marked, or that begins here or later, ends here or later. -/
def occursFrom (atStart : Bool) (p : ErrorPattern) : Text → Bool
  | [] => found atStart true p
  | c :: s => found atStart false p || occursFrom false (advance atStart c true p) s

/-- Whether a pattern, which has no marks, matches somewhere in a text. -/
def occursIn (p : ErrorPattern) (s : Text) : Bool := occursFrom true p s

/-! ## Reading -/

/-- A group that is being read. -/
structure Group where
  /-- The alternatives that are complete. -/
  done? : Option ErrorPattern := none
  /-- The items of the alternative that is being read, the newest first. -/
  items : List ErrorPattern := []

namespace Group

/-- The group with one more item. -/
def push (g : Group) (item : ErrorPattern) : Group := { g with items := item :: g.items }

/-- The pattern of the group so far. -/
def close (g : Group) : ErrorPattern :=
  let last := g.items.foldl (fun after item => .seq item after) .empty
  match g.done? with
  | none => last
  | some done => .alt done last

/-- The group with its newest item changed. -/
def repeatLast? (g : Group) (f : ErrorPattern → ErrorPattern) : Option Group :=
  match g.items with
  | [] => none
  | item :: items => some { g with items := f item :: items }

end Group

/-- Reads a pattern inside the group `g`, which is inside the groups `outer`. -/
def readFrom? (outer : List Group) (g : Group) : Text → Option ErrorPattern
  | [] => if outer.isEmpty then some g.close else none
  | '\\' :: c :: s => if c.isAlphanum then none else readFrom? outer (g.push (.char c false)) s
  | '(' :: '?' :: ':' :: s => readFrom? (g :: outer) {} s
  | '(' :: s => readFrom? (g :: outer) {} s
  | ')' :: s =>
    match outer with
    | [] => none
    | h :: outer => readFrom? outer (h.push g.close) s
  | '|' :: s => readFrom? outer { done? := some g.close } s
  | '*' :: s =>
    match g.repeatLast? .many with
    | some g => readFrom? outer g s
    | none => none
  | '+' :: s =>
    match g.repeatLast? fun item => .seq item (.many item) with
    | some g => readFrom? outer g s
    | none => none
  | '?' :: s =>
    match g.repeatLast? fun item => .alt item .empty with
    | some g => readFrom? outer g s
    | none => none
  | '.' :: s => readFrom? outer (g.push (.any false)) s
  | '^' :: s => readFrom? outer (g.push .start) s
  | '$' :: s => readFrom? outer (g.push .stop) s
  | c :: s =>
    if c = '\\' ∨ c = '[' ∨ c = '\x7b' then none else readFrom? outer (g.push (.char c false)) s

/-- Reads a pattern. -/
def read? (s : Text) : Option ErrorPattern := readFrom? [] {} s

end ErrorPattern

end InterfaceSchemes
