import InterfaceSchemes.Json.Fault
import InterfaceSchemes.Json.Token

/-!
# Reading values from tokens

A reader takes a value from the front of a list of tokens and stops at the first fault. A record
value may be written as an object, with its members in any order, or as a list, with its members in
the order of the shape; members that are left out keep the value they start with.

* `Json.Reader` is the type of readers, whose rest is always shorter;
* `Json.text`, `Json.boolean`, `Json.optional` read simple values;
* `Json.shaped` reads a record value.
-/

namespace InterfaceSchemes.Json

/-- What is left of a list of tokens of which at least one has been taken. -/
abbrev Rest (ts : List Token) := { rest : List Token // rest.length < ts.length }

/-- Takes a value from the front of a list of tokens. -/
abbrev Reader (α : Type) := (ts : List Token) → Except Fault (α × Rest ts)

/-- A fault at the place itself. -/
def faultHere (problem : Problem) : Fault := ⟨[], problem⟩

/-- The kind of value that a token begins, if it begins one. -/
def Token.found? : Token → Option Found
  | .openBrace => some .map
  | .openBracket => some .sequence
  | .string value => some (.string value)
  | .number value => some (.number value)
  | .boolean value => some (.boolean value)
  | .null => some .null
  | _ => none

/-- The fault of tokens that do not begin with what is expected. -/
def unexpected (expected : Text) (ts : List Token) : Fault :=
  match ts.head?.bind Token.found? with
  | some found => faultHere (.invalidType found expected)
  | none => faultHere .malformed

/-- Reads a text. -/
def text : Reader Text
  | .string value :: rest => .ok (value, ⟨rest, by simp⟩)
  | ts => .error (unexpected "a string" ts)

/-- Reads a truth value. -/
def boolean : Reader Bool
  | .boolean value :: rest => .ok (value, ⟨rest, by simp⟩)
  | ts => .error (unexpected "a boolean" ts)

/-- Reads null, or what `read` reads. -/
def optional {α : Type} (read : Reader α) : Reader (Option α)
  | .null :: rest => .ok (none, ⟨rest, by simp⟩)
  | ts => (read ts).map fun result => (some result.1, result.2)

/-- A member of a record value: its key, and how its value changes the record. -/
structure Member (σ : Type) where
  /-- The key of the member. -/
  key : Text
  /-- Reads the value and tells what it does to the record. -/
  read : Reader (σ → σ)

/-- The member whose value is put into the record by `set`. -/
def member {σ α : Type} (key : Text) (read : Reader α) (set : α → σ → σ) : Member σ where
  key := key
  read := fun ts => (read ts).map fun result => (set result.1, result.2)

section
variable {σ : Type}

/-- The key at the front of the tokens after an opening brace or a member, with what follows it, or
the rest after a closing brace. -/
def nextKey (first : Bool) (ts : List Token) :
    Except Fault ((Text × Rest ts) ⊕ Rest ts) :=
  match first, ts with
  | _, .closeBrace :: rest => .ok (.inr ⟨rest, by simp⟩)
  | true, .string key :: rest => .ok (.inl (key, ⟨rest, by simp⟩))
  | false, .comma :: .string key :: rest => .ok (.inl (key, ⟨rest, by grind⟩))
  | _, _ => .error ⟨[.unknown], .malformed⟩

/-- Reads the value of the member `m` after its key. -/
def valueAfterKey (m : Member σ) (ts : List Token) : Except Fault ((σ → σ) × Rest ts) :=
  match ts with
  | .colon :: after =>
    match m.read after with
    | .ok (change, rest) =>
      .ok (change, ⟨rest.1, by have := rest.2; simp only [List.length_cons]; omega⟩)
    | .error fault => .error (fault.under (.key m.key))
  | _ => .error (faultHere .malformed)

/-- Reads the members of an object up to its closing brace. An unknown key is a fault of that key,
a key that was `seen` before is a fault of the object. -/
def objectMembers (shape : List (Member σ)) (first : Bool) (seen : List Text) (value : σ)
    (ts : List Token) : Except Fault (σ × Rest ts) :=
  match nextKey first ts with
  | .error fault => .error fault
  | .ok (.inr rest) => .ok (value, rest)
  | .ok (.inl (key, ⟨afterKey, _⟩)) =>
    match shape.find? fun m => m.key == key with
    | none => .error ⟨[.key key], .unknownField key (shape.map Member.key)⟩
    | some m =>
      if key ∈ seen then .error (faultHere (.duplicateField key))
      else
        match valueAfterKey m afterKey with
        | .error fault => .error fault
        | .ok (change, ⟨afterValue, _⟩) =>
          match objectMembers shape false (key :: seen) (change value) afterValue with
          | .error fault => .error fault
          | .ok (result, rest) => .ok (result, ⟨rest.1, by have := rest.2; omega⟩)
termination_by ts.length

/-- Reads the end of a list. -/
def listEnd (value : σ) : (ts : List Token) → Except Fault (σ × Rest ts)
  | .closeBracket :: rest => .ok (value, ⟨rest, by simp⟩)
  | _ => .error (faultHere .malformed)

/-- Reads the value of the member `m` as the element at `index`. -/
def elementAt (m : Member σ) (index : Nat) (ts : List Token) : Except Fault ((σ → σ) × Rest ts) :=
  match m.read ts with
  | .ok result => .ok result
  | .error fault => .error (fault.under (.index index))

/-- Reads the elements of a list from `index` on, one for each member of the shape, up to the
closing bracket. -/
def listElements : (shape : List (Member σ)) → (index : Nat) → (value : σ) →
    (ts : List Token) → Except Fault (σ × Rest ts)
  | [], _, value, ts => listEnd value ts
  | m :: shape, index, value, ts =>
    match ts with
    | [] => .error (faultHere .malformed)
    | .closeBracket :: rest => .ok (value, ⟨rest, by simp⟩)
    | token :: after =>
      let start : Option { start : List Token // start.length ≤ (token :: after).length } :=
        if index = 0 then some ⟨token :: after, Nat.le_refl _⟩
        else
          match token, after with
          | .comma, .closeBracket :: _ => none
          | .comma, next :: after => some ⟨next :: after, by simp⟩
          | _, _ => none
      match start with
      | none => .error (faultHere .malformed)
      | some ⟨start, _⟩ =>
        match elementAt m index start with
        | .error fault => .error fault
        | .ok (change, afterValue) =>
          match listElements shape (index + 1) (change value) afterValue.1 with
          | .error fault => .error fault
          | .ok (result, rest) =>
            .ok (result, ⟨rest.1, by have := afterValue.2; have := rest.2; omega⟩)

/-- Reads a record value of the given shape, whose members change what it starts with. -/
def shaped (name : Text) (shape : List (Member σ)) (start : σ) : Reader σ
  | .openBrace :: after =>
    (objectMembers shape true [] start after).map fun result =>
      (result.1, ⟨result.2.1, by have := result.2.2; simp only [List.length_cons]; omega⟩)
  | .openBracket :: after =>
    (listElements shape 0 start after).map fun result =>
      (result.1, ⟨result.2.1, by have := result.2.2; simp only [List.length_cons]; omega⟩)
  | ts => .error (unexpected ("struct " ++ name) ts)

end

/-- Reads the value at the beginning of a document; what follows it is not looked at. -/
def read {α : Type} (reader : Reader α) (document : Text) : Except Fault α :=
  (reader (tokens document)).map Prod.fst

end InterfaceSchemes.Json
