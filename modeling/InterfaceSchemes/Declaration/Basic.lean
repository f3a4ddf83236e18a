import InterfaceSchemes.Text.Blank
import InterfaceSchemes.Text.Word

/-!
# Declarations in a text

A declaration is the keyword, blanks, a name, and a body in braces. The body is text without braces,
between which groups in braces may stand; it must have enough text around each group. All else in a
source is passed over.

* `Declaration.text` spells a declaration;
* `Declaration.read?` takes a declaration from the front of a text;
* `Declaration.all` finds the declarations of a text from left to right.
-/

namespace InterfaceSchemes

/-- The inside of a declaration: text without braces, and groups in braces, each with the text
without braces that follows it. -/
structure Body where
  /-- The text before the first group. -/
  first : Text
  /-- The inside of each group and the text after it. -/
  groups : List (Text × Text)
deriving DecidableEq

namespace Body

/-- The text of a group and of what follows it. -/
def groupText (group : Text × Text) : Text := '\x7b' :: (group.1 ++ '\x7d' :: group.2)

/-- The text of a body. -/
def text (b : Body) : Text := b.first ++ b.groups.flatMap groupText

/-- Whether the groups are filled, with at least two characters between neighbours and at least one
at the end. -/
def groupsFit : List (Text × Text) → Bool
  | [] => true
  | [(inside, after)] => !inside.isEmpty && !after.isEmpty
  | (inside, after) :: groups => !inside.isEmpty && 2 ≤ after.length && groupsFit groups

/-- Whether a body may stand in a declaration. Without groups it is blank or has at least two
characters; with groups there is text before the first of them. -/
def fits (b : Body) : Bool :=
  if b.groups.isEmpty then b.first.all Text.isBlank || 2 ≤ b.first.length
  else !b.first.isEmpty && groupsFit b.groups

mutual

/-- Reads a body up to the brace that closes it, and gives what follows that brace. -/
def read? : Text → Option (Body × Text)
  | [] => none
  | c :: s =>
    if c = '\x7d' then some (⟨[], []⟩, s)
    else if c = '\x7b' then
      match readGroup? s with
      | some (inside, b, rest) => some (⟨[], (inside, b.first) :: b.groups⟩, rest)
      | none => none
    else
      match read? s with
      | some (b, rest) => some (⟨c :: b.first, b.groups⟩, rest)
      | none => none

/-- Reads the inside of a group, and then the body that goes on after the group. -/
def readGroup? : Text → Option (Text × Body × Text)
  | [] => none
  | c :: s =>
    if c = '\x7d' then
      match read? s with
      | some (b, rest) => some ([], b, rest)
      | none => none
    else if c = '\x7b' then none
    else
      match readGroup? s with
      | some (inside, b, rest) => some (c :: inside, b, rest)
      | none => none

end

mutual

/-- `s = b.text ++ ..` where `read? s` gives the body `b`: what is read, the brace that closes it
and what is left are what stands there. -/
theorem eq_of_read? : ∀ {s : Text} {b : Body} {rest : Text},
    read? s = some (b, rest) → s = b.text ++ '\x7d' :: rest
  | [], _, _, h => by simp [read?] at h
  | c :: s, b, rest, h => by
    rw [read?] at h
    split at h
    · rename_i hc
      cases h
      simp [text, hc]
    · split at h
      · rename_i hc
        split at h
        · rename_i hread
          cases h
          rw [eq_of_readGroup? hread]
          simp [text, groupText, hc]
        · simp at h
      · split at h
        · rename_i hread
          cases h
          rw [eq_of_read? hread]
          simp [text]
        · simp at h

/-- What `readGroup?` reads is what stands there: the inside, its brace, and the body after it with
its own. -/
theorem eq_of_readGroup? : ∀ {s inside : Text} {b : Body} {rest : Text},
    readGroup? s = some (inside, b, rest) → s = inside ++ '\x7d' :: (b.text ++ '\x7d' :: rest)
  | [], _, _, _, h => by simp [readGroup?] at h
  | c :: s, inside, b, rest, h => by
    rw [readGroup?] at h
    split at h
    · rename_i hc
      split at h
      · rename_i hread
        cases h
        rw [eq_of_read? hread]
        simp [hc]
      · simp at h
    · split at h
      · simp at h
      · split at h
        · rename_i hread
          cases h
          rw [eq_of_readGroup? hread]
          simp
        · simp at h

end

end Body

/-- A declaration, with the blanks inside it. -/
structure Declaration where
  /-- The blanks after the keyword. -/
  gap : Text
  /-- The declared name. -/
  name : Text
  /-- The blanks after the name. -/
  space : Text
  /-- The inside of the braces. -/
  body : Body
deriving DecidableEq

namespace Declaration

/-- The word that begins a declaration. -/
def keyword : Text := "interface"

/-- The text of a declaration. -/
def text (d : Declaration) : Text :=
  keyword ++ d.gap ++ d.name ++ d.space ++ '\x7b' :: (d.body.text ++ ['\x7d'])

/-- Takes a declaration from the front of a text, and gives what follows it. -/
def read? (s : Text) : Option (Declaration × Text) :=
  match afterFront? keyword s with
  | none => none
  | some afterKeyword =>
    let named := afterKeyword.dropWhile Text.isBlank
    let spaced := named.dropWhile Text.isWord
    match spaced.dropWhile Text.isBlank with
    | '\x7b' :: inside =>
      match Body.read? inside with
      | some (body, rest) =>
        let d : Declaration :=
          { gap := afterKeyword.takeWhile Text.isBlank
            name := named.takeWhile Text.isWord
            space := spaced.takeWhile Text.isBlank
            body := body }
        if !d.gap.isEmpty && !d.name.isEmpty && body.fits then some (d, rest) else none
      | none => none
    | _ => none

/-- `s = d.text ++ rest` where `read? s = some (d, rest)`: what is read is what stands there. -/
theorem eq_of_read? {s : Text} {d : Declaration} {rest : Text} (h : read? s = some (d, rest)) :
    s = d.text ++ rest := by
  unfold read? at h
  split at h
  · simp at h
  · rename_i afterKeyword hkeyword
    dsimp only at h
    split at h
    · rename_i inside hinside
      split at h
      · rename_i body after hbody
        split at h
        · cases h
          have whole : s = keyword ++ afterKeyword := afterFront?_eq_some_iff.mp hkeyword
          have gap := @List.takeWhile_append_dropWhile _ Text.isBlank afterKeyword
          have name := @List.takeWhile_append_dropWhile _ Text.isWord
            (afterKeyword.dropWhile Text.isBlank)
          have space := @List.takeWhile_append_dropWhile _ Text.isBlank
            ((afterKeyword.dropWhile Text.isBlank).dropWhile Text.isWord)
          rw [hinside, Body.eq_of_read? hbody] at space
          rw [← space] at name
          rw [← name] at gap
          rw [whole]
          simp only [text, List.append_assoc, List.cons_append, List.nil_append,
            List.append_cancel_left_eq]
          exact gap.symm
        · simp at h
      · simp at h
    · simp at h

/-- `read?` leaves less than it is given. -/
theorem length_read? {s : Text} {d : Declaration} {rest : Text} (h : read? s = some (d, rest)) :
    rest.length < s.length := by
  rw [eq_of_read? h]
  simp [text]
  omega

/-- The declarations of a text, each as far left as it can stand after the one before it and the
blanks that follow that one. -/
def all (s : Text) : List Declaration :=
  match s with
  | [] => []
  | c :: tail =>
    match _hread : read? (c :: tail) with
    | some (d, rest) => d :: all (rest.dropWhile Text.isBlank)
    | none => all tail
termination_by s.length
decreasing_by
  · have shorter := length_read? _hread
    have blanks : (rest.dropWhile Text.isBlank).length ≤ rest.length :=
      (List.dropWhile_suffix Text.isBlank).length_le
    omega
  · simp

end Declaration

end InterfaceSchemes
