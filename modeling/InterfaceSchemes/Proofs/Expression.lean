import InterfaceSchemes.Text.Basic

/-! # Regular expressions and the order in which they are tried

A regular expression may match a text in several ways. Which one counts is settled by an order: at the
leftmost place where there is a match, the one that a search with backtracking meets first, where a
repetition is tried longer before it is tried shorter. This file gives the ordered list of all ways and
says which texts they take.

* **`Expression.attempts`** — all matches at the front of a text, the one that counts first.
* **`Expression.occurrences`** — the successive matches in a text, from left to right.
* **`Expression.Spells`** — the texts that an expression matches, without an order.
* **`Expression.mem_attempts_iff`** — the attempts are the fronts of the text that are spelled.
* **`Expression.rest_of_head?_sequence`**, **`Expression.head?_attempts_many_one`** — what follows the
  match that counts is decided by the last part of the expression, and a repeated class takes all that
  it can. -/

namespace InterfaceSchemes

/-! ## (1) Expressions and matches -/

/-- A regular expression. -/
inductive Expression where
  /-- Nothing. -/
  | empty
  /-- One character of a class. -/
  | one (isIn : Char → Bool)
  /-- One after the other. -/
  | seq (first second : Expression)
  /-- Once, or else not at all. -/
  | optional (inner : Expression)
  /-- Any number of times, rather more often than less. -/
  | many (inner : Expression)
  /-- A group whose text is kept. -/
  | keep (inner : Expression)

/-- A front of a text that an expression matches. -/
structure Match where
  /-- The front. -/
  text : Text
  /-- The texts of the groups that are kept, each with what stands before it in the front. -/
  kept : List (Text × Text)
  /-- What follows the front. -/
  rest : Text

namespace Match

/-- The match that takes nothing. -/
def nothing (s : Text) : Match := ⟨[], [], s⟩

/-- Groups of a match that begins after a text. -/
def keptAfter (t : Text) (kept : List (Text × Text)) : List (Text × Text) :=
  kept.map fun group => (t ++ group.1, group.2)

/-- A match and another one that begins where it ends. -/
def followedBy (m n : Match) : Match := ⟨m.text ++ n.text, m.kept ++ keptAfter m.text n.kept, n.rest⟩

end Match

namespace Expression

/-- All ways to go on with a step again and again, the longer ones first. A step that takes nothing is
not repeated. -/
def repeats (step : Text → List Match) (s : Text) : List Match :=
  ((step s).flatMap fun m =>
    if _shorter : m.rest.length < s.length then (repeats step m.rest).map m.followedBy else [])
    ++ [.nothing s]
termination_by s.length

/-- **All matches at the front of a text**, in the order in which they are tried. -/
def attempts : Expression → Text → List Match
  | .empty, s => [.nothing s]
  | .one _, [] => []
  | .one isIn, c :: s => if isIn c then [⟨[c], [], s⟩] else []
  | .seq first second, s =>
    (attempts first s).flatMap fun m => (attempts second m.rest).map m.followedBy
  | .optional inner, s => attempts inner s ++ [.nothing s]
  | .many inner, s => repeats (attempts inner) s
  | .keep inner, s => (attempts inner s).map fun m => { m with kept := ([], m.text) :: m.kept }

/-- **The successive matches in a text**: each at the leftmost place after the one before it, and there
the one that is tried first. Matches that take nothing are passed over. -/
def occurrences (e : Expression) (s : Text) : List Match :=
  match s with
  | [] => []
  | c :: tail =>
    match (attempts e (c :: tail)).head? with
    | some m =>
      if _shorter : m.rest.length < (c :: tail).length then m :: occurrences e m.rest
      else occurrences e tail
    | none => occurrences e tail
termination_by s.length
decreasing_by
  · exact _shorter
  · exact Nat.lt_succ_self tail.length
  · exact Nat.lt_succ_self tail.length

/-- One expression after the other. -/
def sequence : List Expression → Expression
  | [] => .empty
  | [e] => e
  | e :: es => .seq e (sequence es)

/-- At least once, rather more often than less. -/
def atLeastOnce (e : Expression) : Expression := .seq e (.many e)

/-- Exactly this text. -/
def literal (t : Text) : Expression := sequence (t.map fun c => .one (· == c))

/-! ## (2) The texts that are matched -/

/-- Texts that are put together from texts of a class that are not empty, with their groups. -/
inductive Runs (P : Text → List (Text × Text) → Prop) : Text → List (Text × Text) → Prop
  /-- No text. -/
  | nil : Runs P [] []
  /-- One text, and then more of them. -/
  | cons {t u : Text} {ks ls : List (Text × Text)} : P t ks → t ≠ [] → Runs P u ls →
      Runs P (t ++ u) (ks ++ Match.keptAfter t ls)

/-- **The texts that an expression matches**, with the groups that are kept. -/
def Spells : Expression → Text → List (Text × Text) → Prop
  | .empty, t, ks => t = [] ∧ ks = []
  | .one isIn, t, ks => ∃ c, isIn c = true ∧ t = [c] ∧ ks = []
  | .seq first second, t, ks => ∃ t₁ ks₁ t₂ ks₂, Spells first t₁ ks₁ ∧ Spells second t₂ ks₂ ∧
      t = t₁ ++ t₂ ∧ ks = ks₁ ++ Match.keptAfter t₁ ks₂
  | .optional inner, t, ks => Spells inner t ks ∨ t = [] ∧ ks = []
  | .many inner, t, ks => Runs (Spells inner) t ks
  | .keep inner, t, ks => ∃ ls, Spells inner t ls ∧ ks = ([], t) :: ls

/-- Repeated steps take the runs of what one step takes. The induction follows the recursion of
`repeats`, on the text that is left. -/
theorem mem_repeats_iff {P : Text → List (Text × Text) → Prop} {step : Text → List Match}
    (hstep : ∀ s m, m ∈ step s ↔ P m.text m.kept ∧ s = m.text ++ m.rest) (s : Text) (m : Match) :
    m ∈ repeats step s ↔ Runs P m.text m.kept ∧ s = m.text ++ m.rest := by
  induction s using repeats.induct generalizing m with
  | case1 s ih =>
    rw [repeats, List.mem_append, List.mem_flatMap, List.mem_singleton]
    constructor
    · rintro (⟨first, hfirst, hmem⟩ | rfl)
      · obtain ⟨hP, hsplit⟩ := (hstep s first).mp hfirst
        split at hmem
        · rename_i hshorter
          obtain ⟨later, hlater, rfl⟩ := List.mem_map.mp hmem
          obtain ⟨hruns, hrest⟩ := (ih first hshorter later).mp hlater
          have hne : first.text ≠ [] := by
            intro hnil
            rw [hsplit, hnil] at hshorter
            exact Nat.lt_irrefl _ hshorter
          refine ⟨.cons hP hne hruns, ?_⟩
          change s = (first.text ++ later.text) ++ later.rest
          rw [hsplit, hrest, List.append_assoc]
        · exact absurd hmem List.not_mem_nil
      · exact ⟨.nil, rfl⟩
    · rintro ⟨hruns, hsplit⟩
      obtain ⟨text, kept, rest⟩ := m
      dsimp only at hruns hsplit
      cases hruns with
      | nil => exact Or.inr (by rw [hsplit]; rfl)
      | @cons t u ks ls hP hne hruns =>
        rw [List.append_assoc] at hsplit
        have hshorter : (u ++ rest).length < s.length := by
          have hpos := List.length_pos_iff.mpr hne
          have hlength := congrArg List.length hsplit
          rw [List.length_append] at hlength
          omega
        refine Or.inl ⟨⟨t, ks, u ++ rest⟩, (hstep s _).mpr ⟨hP, hsplit⟩, ?_⟩
        rw [dif_pos hshorter]
        have hlater := (ih ⟨t, ks, u ++ rest⟩ hshorter ⟨u, ls, rest⟩).mpr ⟨hruns, rfl⟩
        exact List.mem_map.mpr ⟨_, hlater, rfl⟩

/-- **`attempts e s` are the fronts of `s` that `e` spells.** -/
theorem mem_attempts_iff {e : Expression} {s : Text} {m : Match} :
    m ∈ attempts e s ↔ Spells e m.text m.kept ∧ s = m.text ++ m.rest := by
  induction e generalizing s m with
  | empty =>
    obtain ⟨text, kept, rest⟩ := m
    rw [attempts, List.mem_singleton, Match.nothing, Match.mk.injEq]
    constructor
    · rintro ⟨rfl, rfl, rfl⟩
      exact ⟨⟨rfl, rfl⟩, rfl⟩
    · rintro ⟨⟨rfl, rfl⟩, rfl⟩
      exact ⟨rfl, rfl, rfl⟩
  | one isIn =>
    obtain ⟨text, kept, rest⟩ := m
    cases s with
    | nil =>
      rw [attempts]
      constructor
      · exact fun hmem => absurd hmem List.not_mem_nil
      · rintro ⟨⟨c, -, rfl, -⟩, hsplit⟩
        cases hsplit
    | cons c s =>
      rw [attempts]
      constructor
      · intro hmem
        split at hmem
        · rename_i hc
          cases List.mem_singleton.mp hmem
          exact ⟨⟨c, hc, rfl, rfl⟩, rfl⟩
        · exact absurd hmem List.not_mem_nil
      · rintro ⟨⟨d, hd, rfl, rfl⟩, hsplit⟩
        cases hsplit
        rw [if_pos hd]
        exact List.mem_singleton_self _
  | seq first second ihFirst ihSecond =>
    rw [attempts, List.mem_flatMap]
    constructor
    · rintro ⟨n, hn, hmem⟩
      obtain ⟨later, hlater, rfl⟩ := List.mem_map.mp hmem
      obtain ⟨hfirst, hsplit⟩ := ihFirst.mp hn
      obtain ⟨hsecond, hrest⟩ := ihSecond.mp hlater
      refine ⟨⟨_, _, _, _, hfirst, hsecond, rfl, rfl⟩, ?_⟩
      change s = (n.text ++ later.text) ++ later.rest
      rw [hsplit, hrest, List.append_assoc]
    · obtain ⟨text, kept, rest⟩ := m
      rintro ⟨⟨t, ks, u, ls, hfirst, hsecond, rfl, rfl⟩, hsplit⟩
      refine ⟨⟨t, ks, u ++ rest⟩, ihFirst.mpr ⟨hfirst, ?_⟩, ?_⟩
      · rw [hsplit, List.append_assoc]
      · exact List.mem_map.mpr ⟨⟨u, ls, rest⟩, ihSecond.mpr ⟨hsecond, rfl⟩, rfl⟩
  | optional inner ih =>
    obtain ⟨text, kept, rest⟩ := m
    rw [attempts, List.mem_append, List.mem_singleton, ih, Match.nothing, Match.mk.injEq]
    constructor
    · rintro (⟨hspells, hsplit⟩ | ⟨rfl, rfl, rfl⟩)
      · exact ⟨Or.inl hspells, hsplit⟩
      · exact ⟨Or.inr ⟨rfl, rfl⟩, rfl⟩
    · rintro ⟨hspells | ⟨rfl, rfl⟩, hsplit⟩
      · exact Or.inl ⟨hspells, hsplit⟩
      · exact Or.inr ⟨rfl, rfl, hsplit.symm⟩
  | many inner ih =>
    rw [attempts]
    exact mem_repeats_iff (fun s m => ih) s m
  | keep inner ih =>
    rw [attempts, List.mem_map]
    constructor
    · rintro ⟨n, hn, rfl⟩
      obtain ⟨hspells, hsplit⟩ := ih.mp hn
      exact ⟨⟨n.kept, hspells, rfl⟩, hsplit⟩
    · obtain ⟨text, kept, rest⟩ := m
      rintro ⟨⟨ls, hspells, hkept⟩, hsplit⟩
      refine ⟨⟨text, ls, rest⟩, ih.mpr ⟨hspells, hsplit⟩, ?_⟩
      exact congrArg (fun ks => Match.mk text ks rest) hkept.symm

/-! ### Texts of the derived expressions -/

/-- Nothing is spelled by the empty sequence. -/
theorem spells_sequence_nil {t : Text} {ks : List (Text × Text)} :
    Spells (sequence []) t ks ↔ t = [] ∧ ks = [] := Iff.rfl

/-- `sequence (e :: es)` spells what `e` spells and then what `sequence es` does; the groups kept by
the latter come after the text of the former. -/
theorem spells_sequence_cons {e : Expression} {es : List Expression} {t : Text}
    {ks : List (Text × Text)} :
    Spells (sequence (e :: es)) t ks ↔ ∃ t₁ ks₁ t₂ ks₂, Spells e t₁ ks₁ ∧
      Spells (sequence es) t₂ ks₂ ∧ t = t₁ ++ t₂ ∧ ks = ks₁ ++ Match.keptAfter t₁ ks₂ := by
  cases es with
  | cons f es => exact Iff.rfl
  | nil =>
    constructor
    · intro hspells
      exact ⟨t, ks, [], [], hspells, ⟨rfl, rfl⟩, (List.append_nil t).symm, (List.append_nil ks).symm⟩
    · rintro ⟨t₁, ks₁, t₂, ks₂, hspells, ⟨rfl, rfl⟩, rfl, rfl⟩
      rw [List.append_nil]
      exact (List.append_nil ks₁).symm ▸ hspells

/-- A sequence without groups, from its first part and the others. -/
theorem Spells.cons {e : Expression} {es : List Expression} {t u : Text} (hfirst : Spells e t [])
    (hothers : Spells (sequence es) u []) : Spells (sequence (e :: es)) (t ++ u) [] :=
  spells_sequence_cons.mpr ⟨t, [], u, [], hfirst, hothers, rfl, rfl⟩

/-- `.many (.one isIn)` spells the texts of characters of the class. -/
theorem spells_many_one {isIn : Char → Bool} {t : Text} {ks : List (Text × Text)} :
    Spells (.many (.one isIn)) t ks ↔ (∀ c ∈ t, isIn c = true) ∧ ks = [] := by
  constructor
  · intro hruns
    change Runs (Spells (.one isIn)) t ks at hruns
    induction hruns with
    | nil => exact ⟨by simp, rfl⟩
    | cons hone _ _ ih =>
      obtain ⟨c, hc, rfl, rfl⟩ := hone
      obtain ⟨hall, rfl⟩ := ih
      exact ⟨List.forall_mem_cons.mpr ⟨hc, hall⟩, rfl⟩
  · rintro ⟨hall, rfl⟩
    change Runs (Spells (.one isIn)) t []
    induction t with
    | nil => exact .nil
    | cons c t ih =>
      obtain ⟨hc, hall⟩ := List.forall_mem_cons.mp hall
      have hone : Spells (.one isIn) [c] [] := ⟨c, hc, rfl, rfl⟩
      exact .cons hone (List.cons_ne_nil c []) (ih hall)

/-- `atLeastOnce (.one isIn)` spells those that are not empty. -/
theorem spells_atLeastOnce_one {isIn : Char → Bool} {t : Text} {ks : List (Text × Text)} :
    Spells (atLeastOnce (.one isIn)) t ks ↔ t ≠ [] ∧ (∀ c ∈ t, isIn c = true) ∧ ks = [] := by
  constructor
  · rintro ⟨t₁, ks₁, t₂, ks₂, ⟨c, hc, rfl, rfl⟩, hmany, rfl, rfl⟩
    obtain ⟨hall, rfl⟩ := spells_many_one.mp hmany
    exact ⟨List.cons_ne_nil c t₂, List.forall_mem_cons.mpr ⟨hc, hall⟩, rfl⟩
  · rintro ⟨hne, hall, rfl⟩
    obtain ⟨c, t, rfl⟩ := List.exists_cons_of_ne_nil hne
    obtain ⟨hc, hall⟩ := List.forall_mem_cons.mp hall
    exact ⟨[c], [], t, [], ⟨c, hc, rfl, rfl⟩, spells_many_one.mpr ⟨hall, rfl⟩, rfl, rfl⟩

/-- One character that is given. -/
theorem spells_one_beq {c : Char} {t : Text} {ks : List (Text × Text)} :
    Spells (.one (· == c)) t ks ↔ t = [c] ∧ ks = [] := by
  constructor
  · rintro ⟨d, hd, rfl, rfl⟩
    exact ⟨by rw [beq_iff_eq.mp hd], rfl⟩
  · rintro ⟨rfl, rfl⟩
    exact ⟨c, beq_self_eq_true c, rfl, rfl⟩

/-- `literal u` spells `u`. -/
theorem spells_literal {u t : Text} {ks : List (Text × Text)} :
    Spells (literal u) t ks ↔ t = u ∧ ks = [] := by
  unfold literal
  induction u generalizing t ks with
  | nil => exact spells_sequence_nil
  | cons c u ih =>
    rw [List.map_cons, spells_sequence_cons]
    constructor
    · rintro ⟨t₁, ks₁, t₂, ks₂, hone, hrest, rfl, rfl⟩
      obtain ⟨rfl, rfl⟩ := spells_one_beq.mp hone
      obtain ⟨rfl, rfl⟩ := ih.mp hrest
      exact ⟨rfl, rfl⟩
    · rintro ⟨rfl, rfl⟩
      exact ⟨[c], [], u, [], spells_one_beq.mpr ⟨rfl, rfl⟩, ih.mpr ⟨rfl, rfl⟩, rfl, rfl⟩

/-! ## (3) The match that counts -/

/-- What follows the match of `.seq first second` that counts is decided by `second`: the match of
`second` that is tried first is the one that is taken. -/
theorem rest_of_head?_seq {first second : Expression} {P : Text → Prop}
    (hsecond : ∀ s, ∀ m ∈ (attempts second s).head?, P m.rest) (s : Text) :
    ∀ m ∈ (attempts (.seq first second) s).head?, P m.rest := by
  have hflat : ∀ ms : List Match,
      ∀ m ∈ (ms.flatMap fun n => (attempts second n.rest).map n.followedBy).head?, P m.rest := by
    intro ms
    induction ms with
    | nil => exact fun m hm => absurd hm (by simp)
    | cons n ms ih =>
      intro m hm
      rw [List.flatMap_cons, List.head?_append] at hm
      cases hhead : (attempts second n.rest).head? with
      | none =>
        rw [List.head?_map, hhead, Option.map_none, Option.none_or] at hm
        exact ih m hm
      | some later =>
        rw [List.head?_map, hhead, Option.map_some, Option.some_or] at hm
        obtain rfl := Option.some.inj hm
        exact hsecond n.rest later hhead
  rw [attempts]
  exact hflat _

/-- In a sequence it is decided by the last part. -/
theorem rest_of_head?_sequence {last : Expression} {P : Text → Prop}
    (hlast : ∀ s, ∀ m ∈ (attempts last s).head?, P m.rest) (es : List Expression) (s : Text) :
    ∀ m ∈ (attempts (sequence (es ++ [last])) s).head?, P m.rest := by
  induction es generalizing s with
  | nil => exact hlast s
  | cons e es ih =>
    have hseq : sequence (e :: es ++ [last]) = .seq e (sequence (es ++ [last])) := by
      cases es <;> rfl
    rw [hseq]
    exact rest_of_head?_seq ih s

/-- **`.many (.one isIn)` takes all that belongs to the class.** -/
theorem head?_attempts_many_one (isIn : Char → Bool) (s : Text) :
    (attempts (.many (.one isIn)) s).head?
      = some ⟨s.takeWhile isIn, [], s.dropWhile isIn⟩ := by
  change (repeats (attempts (.one isIn)) s).head? = _
  induction s with
  | nil =>
    rw [repeats]
    rfl
  | cons c s ih =>
    rw [repeats, attempts]
    by_cases hc : isIn c = true
    · rw [if_pos hc, List.flatMap_singleton, dif_pos (by simp), List.head?_append, List.head?_map, ih,
        List.takeWhile_cons_of_pos hc, List.dropWhile_cons_of_pos hc]
      rfl
    · rw [if_neg hc, List.takeWhile_cons_of_neg hc, List.dropWhile_cons_of_neg hc]
      rfl

end Expression

end InterfaceSchemes
