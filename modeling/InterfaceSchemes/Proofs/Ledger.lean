import InterfaceSchemes.Proofs.DependencyOrder
import Mathlib.Data.Fintype.Card

/-! # The dependency sort on books

The visit of `settle` carries its path and what it has settled as arguments. The same visit can be
run on books that every call changes in place: a mark for each record, the positions in progress in
the order in which they were entered, and the positions that are finished. Nothing but the calls
themselves keeps such books in balance, and calls may be nested only so deep. This file runs the sort
on books and shows that it is the sort.

* **`Ledger`**, **`visit`**, **`walk`** — the books, one call on them, and the whole sort. A call is
  given a number of levels to which calls may be nested, and has no answer if they do not suffice.
* **`Mirrors`** — the books say what the arguments of `settle` say.
* **`Follows`**, **`visit_follows`** — a call on the books does what `settle` does.
* **`walk_eq_sort`** — with one level more than there are records, the sort always ends. -/

namespace InterfaceSchemes.DependencyOrder

open Relation

/-! ## (1) Positions -/

section

variable (records : List Record)

/-- The name of the record at a position. -/
def nameAt (i : Fin records.length) : Text := (records.get i).name

/-- The position of the record with a given name. -/
def position? (name : Text) : Option (Fin records.length) :=
  records.findFinIdx? fun r => r.name == name

/-- **The record at `i` depends on the record at `j`.** -/
def Edge (i j : Fin records.length) : Prop := nameAt records j ∈ (records.get i).dependsOn

end

section

variable {records : List Record}

/-- `declared? records name` is the record at `position? records name`. -/
theorem declared?_eq_map_position? (records : List Record) (name : Text) :
    declared? records name = (position? records name).map records.get :=
  List.find?_eq_map_findFinIdx?_getElem

/-- `nameAt records i = name` where `position? records name = some i`. -/
theorem nameAt_of_position? {name : Text} {i : Fin records.length}
    (hfound : position? records name = some i) : nameAt records i = name := by
  exact beq_iff_eq.mp (List.findFinIdx?_eq_some_iff.mp hfound).1

section Distinct

variable (hdistinct : (records.map Record.name).Nodup)

include hdistinct

/-- `records.get` is injective: records with distinct names stand at one position each. -/
theorem get_injective : Function.Injective records.get :=
  List.nodup_iff_injective_get.mp hdistinct.of_map

/-- `nameAt records` is injective. -/
theorem nameAt_injective : Function.Injective (nameAt records) := fun _ _ hname =>
  get_injective hdistinct
    (eq_of_name_eq hdistinct (List.get_mem _ _) (List.get_mem _ _) hname)

/-- `declared? records (nameAt records i) = some (records.get i)`. -/
theorem declared?_nameAt (i : Fin records.length) :
    declared? records (nameAt records i) = some (records.get i) :=
  declared?_of_mem hdistinct (List.get_mem records i)

/-- `Edge records i j` where the name at `i` needs the name at `j`. -/
theorem edge_of_needs {i j : Fin records.length}
    (hneeds : Needs records (nameAt records i) (nameAt records j)) : Edge records i j := by
  obtain ⟨r, hr, hname, hdepends⟩ := hneeds
  rwa [eq_of_name_eq hdistinct hr (List.get_mem records i) hname] at hdepends

/-- **`Needs` along names is `Edge` along positions.** -/
theorem reflTransGen_edge {i j : Fin records.length}
    (hneeds : ReflTransGen (Needs records) (nameAt records i) (nameAt records j)) :
    ReflTransGen (Edge records) i j := by
  -- every name on the way has a position, since it is the last one or something depends on it
  have hrun : ∀ a, ReflTransGen (Needs records) a (nameAt records j) →
      ∃ k, nameAt records k = a ∧ ReflTransGen (Edge records) k j := by
    intro a hchain
    induction hchain using ReflTransGen.head_induction_on with
    | refl => exact ⟨j, rfl, ReflTransGen.refl⟩
    | head hstep hrest ih =>
      obtain ⟨r, hr, hname, hdepends⟩ := hstep
      obtain ⟨k, hk, hedges⟩ := ih
      obtain ⟨m, rfl⟩ := List.get_of_mem hr
      refine ⟨m, hname, hedges.head ?_⟩
      rwa [Edge, hk]
  obtain ⟨k, hk, hedges⟩ := hrun _ hneeds
  rwa [nameAt_injective hdistinct hk] at hedges

end Distinct

end

/-! ## (2) The books -/

/-- **The books of a visit.** -/
structure Ledger (records : List Record) where
  /-- The records that have been visited. -/
  visited : Fin records.length → Bool
  /-- The records whose visit has begun and not ended, in the order in which it has begun. -/
  inProgress : List (Fin records.length)
  /-- The records whose visit has ended, in that order. -/
  order : List (Fin records.length)

namespace Ledger

variable {records : List Record}

/-- The books before the first visit. -/
def start : Ledger records := ⟨fun _ => false, [], []⟩

/-- The visit of `i` begins. -/
def enter (b : Ledger records) (i : Fin records.length) : Ledger records :=
  { b with inProgress := b.inProgress ++ [i] }

/-- The visit of `i` ends: whatever began last is no longer in progress, and `i` is finished. -/
def leave (b : Ledger records) (i : Fin records.length) : Ledger records where
  visited := Function.update b.visited i true
  inProgress := b.inProgress.dropLast
  order := b.order ++ [i]

/-- The names in progress from `i` on, and the name of `i` again. -/
def circle (b : Ledger records) (i : Fin records.length) : List Text :=
  (b.inProgress.dropWhile (· ≠ i)).map (nameAt records) ++ [nameAt records i]

end Ledger

/-- What a call on the books comes to: nothing if it needs more levels than it has, else an error or
the books after it. -/
abbrev Answer (α : Type) := Option (Except Error α)

/-- Goes on with the books that a call returns. -/
def Answer.andThen {α β : Type} (answer : Answer α) (next : α → Answer β) : Answer β :=
  match answer with
  | none => none
  | some (.error error) => some (.error error)
  | some (.ok a) => next a

section

variable (records : List Record)

/-- Visits the records with the given names, one after the other, for the record named
`requiredBy`. -/
def visitNames (visit : Ledger records → Fin records.length → Answer (Ledger records))
    (requiredBy : Text) (b : Ledger records) : List Text → Answer (Ledger records)
  | [] => some (.ok b)
  | name :: names =>
    match position? records name with
    | none => some (.error (.missingDependency name requiredBy))
    | some j => (visit b j).andThen fun b => visitNames visit requiredBy b names

/-- **One call of the visit**, in which calls may be nested to the given number of levels, itself
included. -/
def visit : Nat → Ledger records → Fin records.length → Answer (Ledger records)
  | 0, _, _ => none
  | levels + 1, b, i =>
    if b.visited i then some (.ok b)
    else if i ∈ b.inProgress then some (.error (.cyclicDependency (b.circle i)))
    else
      (visitNames records (visit levels) (nameAt records i) (b.enter i)
        (records.get i).dependsOn).andThen fun b => some (.ok (b.leave i))

/-- Visits the records at the given positions. -/
def visitAll (levels : Nat) (b : Ledger records) :
    List (Fin records.length) → Answer (Ledger records)
  | [] => some (.ok b)
  | i :: is => (visit records levels b i).andThen fun b => visitAll levels b is

/-- **The sort on books**: every record is visited, and the finished ones are the result. -/
def walk (levels : Nat) : Answer (List Record) :=
  (visitAll records levels Ledger.start (List.finRange records.length)).andThen fun b =>
    some (.ok (b.order.map records.get))

end

/-! ## (3) The books and the arguments of `settle` -/

/-- **The books mirror a path and a list of settled records.** -/
structure Mirrors {records : List Record} (b : Ledger records) (path : List Text)
    (done : List Record) : Prop where
  /-- The path has the names in progress, the newest first. -/
  path : b.inProgress.map (nameAt records) = path.reverse
  /-- The settled records are the finished ones. -/
  done : b.order.map records.get = done
  /-- The marks are on the finished records. -/
  visited : ∀ i, b.visited i = true ↔ i ∈ b.order

section

variable {records : List Record} {b : Ledger records} {path : List Text} {done : List Record}
  {i : Fin records.length}

/-- `Mirrors Ledger.start [] []`: empty books mirror the beginning. -/
theorem mirrors_start (records : List Record) : Mirrors (Ledger.start : Ledger records) [] [] where
  path := rfl
  done := rfl
  visited := fun i => by simp [Ledger.start]

/-- The path is as long as there are records in progress. -/
theorem Mirrors.length_path (hb : Mirrors b path done) : path.length = b.inProgress.length := by
  rw [← List.length_reverse, ← hb.path, List.length_map]

/-- Nothing is in progress twice if no name is on the path twice. -/
theorem Mirrors.nodup_inProgress (hb : Mirrors b path done) (hpath : path.Nodup) :
    b.inProgress.Nodup := by
  have hreverse := List.nodup_reverse.mpr hpath
  rw [← hb.path] at hreverse
  exact hreverse.of_map

/-- `path.length ≤ records.length`, as no name is on the path twice. -/
theorem Mirrors.length_path_le (hb : Mirrors b path done) (hpath : path.Nodup) :
    path.length ≤ records.length := by
  have hcard := (hb.nodup_inProgress hpath).length_le_card
  rwa [Fintype.card_fin, ← hb.length_path] at hcard

/-- `b.enter i` mirrors the path with the name at `i` put on it. -/
theorem Mirrors.enter (hb : Mirrors b path done) (i : Fin records.length) :
    Mirrors (b.enter i) (nameAt records i :: path) done where
  path := by
    show (b.inProgress ++ [i]).map (nameAt records) = _
    rw [List.map_append, hb.path, List.reverse_cons]
    rfl
  done := hb.done
  visited := hb.visited

/-- `b.leave i` mirrors the path without the name at `i`, whose record is settled. -/
theorem Mirrors.leave (hb : Mirrors b (nameAt records i :: path) done) :
    Mirrors (b.leave i) path (done ++ [records.get i]) where
  path := by
    show b.inProgress.dropLast.map (nameAt records) = _
    rw [List.map_dropLast, hb.path, List.reverse_cons, List.dropLast_concat]
  done := by
    show (b.order ++ [i]).map records.get = _
    rw [List.map_append, hb.done]
    rfl
  visited := by
    intro j
    show Function.update b.visited i true j = true ↔ j ∈ b.order ++ [i]
    by_cases hj : j = i
    · simp [hj]
    · rw [Function.update_of_ne hj, hb.visited]
      simp [hj]

section Distinct

variable (hdistinct : (records.map Record.name).Nodup)

include hdistinct

/-- A record is settled exactly if `b.visited` marks it. -/
theorem Mirrors.any_eq (hb : Mirrors b path done) :
    (done.any fun settled => settled.name == nameAt records i) = b.visited i := by
  rw [Bool.eq_iff_iff, hb.visited, ← hb.done, List.any_eq_true]
  constructor
  · rintro ⟨r, hr, hname⟩
    obtain ⟨j, hj, rfl⟩ := List.mem_map.mp hr
    rwa [← nameAt_injective hdistinct (beq_iff_eq.mp hname)]
  · exact fun hi => ⟨records.get i, List.mem_map_of_mem hi, beq_self_eq_true _⟩

/-- `nameAt records i ∈ path ↔ i ∈ b.inProgress`. -/
theorem Mirrors.mem_path_iff (hb : Mirrors b path done) :
    nameAt records i ∈ path ↔ i ∈ b.inProgress := by
  rw [← List.mem_reverse, ← hb.path]
  exact List.mem_map_of_injective (nameAt_injective hdistinct)

/-- `b.circle i = cycle path (nameAt records i)`: the circle in the books is the circle on the path.
-/
theorem Mirrors.circle_eq (hb : Mirrors b path done) (hpath : path.Nodup) (hi : i ∈ b.inProgress) :
    b.circle i = cycle path (nameAt records i) := by
  have hnodup := hb.nodup_inProgress hpath
  obtain ⟨older, newer, hsplit, holder⟩ := List.eq_append_cons_of_mem hi
  have hnewer : i ∉ newer := by
    rw [hsplit] at hnodup
    exact (List.nodup_cons.mp (List.nodup_append.mp hnodup).2.1).1
  have hdrop : b.inProgress.dropWhile (· ≠ i) = i :: newer := by
    rw [hsplit, List.dropWhile_append_of_pos (by
      intro j hj
      have hne : j ≠ i := fun heq => holder (heq ▸ hj)
      simpa using hne), List.dropWhile_cons_of_neg (by simp)]
  have hreversed : path = (newer.map (nameAt records)).reverse ++
      nameAt records i :: (older.map (nameAt records)).reverse := by
    rw [← List.reverse_reverse path, ← hb.path, hsplit]
    simp
  have htake : path.takeWhile (fun onPath => onPath != nameAt records i)
      = (newer.map (nameAt records)).reverse := by
    rw [hreversed, List.takeWhile_append_of_pos (by
      intro name hname
      obtain ⟨j, hj, rfl⟩ := List.mem_map.mp (List.mem_reverse.mp hname)
      have hne : nameAt records j ≠ nameAt records i :=
        fun heq => hnewer (nameAt_injective hdistinct heq ▸ hj)
      simpa using hne), List.takeWhile_cons_of_neg (by simp), List.append_nil]
  rw [Ledger.circle, hdrop, cycle, htake, List.reverse_reverse]
  rfl

end Distinct

end

/-- **An answer that agrees** with what `settle` gives on the path that is mirrored. -/
inductive Agrees {records : List Record} (path : List Text) :
    Except Error (Ledger records) → Except Error (List Record) → Prop where
  /-- Both fail, for one reason. -/
  | error (e : Error) : Agrees path (.error e) (.error e)
  /-- Both succeed, and the path is the same as before. -/
  | ok {b : Ledger records} {done : List Record} (hb : Mirrors b path done) :
    Agrees path (.ok b) (.ok done)

/-- **A call that follows `settle`**: it ends if there is room enough, and its answer agrees. -/
structure Follows {records : List Record} (enough : Prop) (answer : Answer (Ledger records))
    (path : List Text) (expected : Except Error (List Record)) : Prop where
  /-- With room enough there is an answer. -/
  ends : enough → ∃ outcome, answer = some outcome
  /-- An answer agrees with what is expected. -/
  agrees : ∀ outcome, answer = some outcome → Agrees path outcome expected

section

variable {records : List Record} {enough : Prop} {path : List Text}

/-- `Follows enough (some outcome) path expected` for an outcome that agrees. -/
theorem Agrees.follows {outcome : Except Error (Ledger records)}
    {expected : Except Error (List Record)} (hagrees : Agrees path outcome expected) :
    Follows enough (some outcome) path expected where
  ends := fun _ => ⟨outcome, rfl⟩
  agrees := by
    intro other hother
    cases hother
    exact hagrees

/-- A call that returns does so where `settle` succeeds, and its books mirror the result. -/
theorem Follows.of_ok {answer : Answer (Ledger records)} {expected : Except Error (List Record)}
    {b : Ledger records} (hfollows : Follows enough answer path expected)
    (hok : answer = some (.ok b)) : ∃ done, expected = .ok done ∧ Mirrors b path done := by
  cases hfollows.agrees _ hok with
  | ok hb => exact ⟨_, rfl, hb⟩

/-- **Calls that follow `settle` may be put one after the other.** -/
theorem Follows.andThen {answer : Answer (Ledger records)} {path' : List Text}
    {expected : Except Error (List Record)} {next : Ledger records → Answer (Ledger records)}
    {rest : List Record → Except Error (List Record)} (hfirst : Follows enough answer path expected)
    (hnext : ∀ b done, Mirrors b path done → Follows enough (next b) path' (rest done)) :
    Follows enough (answer.andThen next) path' (expected >>= rest) := by
  cases answer with
  | none =>
    refine ⟨fun henough => ?_, fun outcome houtcome => by cases houtcome⟩
    obtain ⟨outcome, houtcome⟩ := hfirst.ends henough
    cases houtcome
  | some outcome =>
    cases hfirst.agrees outcome rfl with
    | error e => exact (Agrees.error e).follows
    | ok hb => exact hnext _ _ hb

/-- **The names are visited as `settle` visits them**, if a single call is. -/
theorem visitNames_follows
    {visit : Ledger records → Fin records.length → Answer (Ledger records)}
    (hvisit : ∀ b done, Mirrors b path done → ∀ i,
      Follows enough (visit b i) path (settle records path done [nameAt records i]))
    {requiredBy : Text} (hrequired : path.headD [] = requiredBy) (names : List Text)
    {b : Ledger records} {done : List Record} (hb : Mirrors b path done) :
    Follows enough (visitNames records visit requiredBy b names) path
      (settle records path done names) := by
  induction names generalizing b done with
  | nil =>
    rw [visitNames, settle]
    exact (Agrees.ok hb).follows
  | cons name names ih =>
    rw [visitNames]
    have hdeclared := declared?_eq_map_position? records name
    cases hfound : position? records name with
    | none =>
      have hmissing : settle records path done (name :: names)
          = .error (.missingDependency name requiredBy) := by
        rw [hfound, Option.map_none] at hdeclared
        rw [settle]
        split
        · rw [hrequired]
        · rename_i hsome
          rw [hdeclared] at hsome
          cases hsome
      rw [hmissing]
      exact (Agrees.error _).follows
    | some j =>
      obtain rfl := nameAt_of_position? hfound
      rw [← List.singleton_append, settle_append_names]
      exact (hvisit b done hb j).andThen fun b done hb => ih hb

/-- **A call follows `settle`**, and ends if the levels and the path together are more than the
records. The induction is on the levels: a nested call has one level less and one name more on its
path, and a path without repetitions never has more names than there are records. -/
theorem visit_follows (hdistinct : (records.map Record.name).Nodup) (levels : Nat)
    {b : Ledger records} {path : List Text} {done : List Record} (hb : Mirrors b path done)
    (hpath : path.Nodup) (i : Fin records.length) :
    Follows (records.length < levels + path.length) (visit records levels b i) path
      (settle records path done [nameAt records i]) := by
  induction levels generalizing b path done i with
  | zero =>
    refine ⟨fun henough => ?_, fun outcome houtcome => by cases houtcome⟩
    have hle := hb.length_path_le hpath
    omega
  | succ levels ih =>
    have hnil : ∀ done, settle records path done [] = .ok done := fun done => by rw [settle]
    rw [visit, settle_cons_of_declared (declared?_nameAt hdistinct i), hb.any_eq hdistinct]
    by_cases hvisited : b.visited i = true
    · rw [if_pos hvisited, if_pos hvisited, hnil]
      exact (Agrees.ok hb).follows
    · rw [if_neg hvisited, if_neg hvisited]
      by_cases hi : i ∈ b.inProgress
      · rw [if_pos hi, if_pos ((hb.mem_path_iff hdistinct).mpr hi), hb.circle_eq hdistinct hpath hi]
        exact (Agrees.error _).follows
      · have hfresh : nameAt records i ∉ path := fun hmem => hi ((hb.mem_path_iff hdistinct).mp hmem)
        have hlonger : (nameAt records i :: path).Nodup := List.nodup_cons.mpr ⟨hfresh, hpath⟩
        rw [if_neg hi, if_neg hfresh]
        have hinner : Follows (records.length < levels + (nameAt records i :: path).length) _ _ _ :=
          visitNames_follows (fun b done hb i => ih hb hlonger i) rfl (records.get i).dependsOn
            (hb.enter i)
        have hroom : (records.length < levels + (nameAt records i :: path).length)
            = (records.length < levels + 1 + path.length) := by
          rw [List.length_cons, Nat.add_right_comm, Nat.add_assoc]
        rw [hroom] at hinner
        refine hinner.andThen fun b done hb => ?_
        rw [hnil]
        exact (Agrees.ok hb.leave).follows

/-- The positions are visited as `settle` visits their names. -/
theorem visitAll_follows (hdistinct : (records.map Record.name).Nodup) (levels : Nat)
    (is : List (Fin records.length)) {b : Ledger records} {done : List Record}
    (hb : Mirrors b [] done) :
    Follows (records.length < levels) (visitAll records levels b is) []
      (settle records [] done (is.map (nameAt records))) := by
  induction is generalizing b done with
  | nil =>
    rw [visitAll, List.map_nil, settle]
    exact (Agrees.ok hb).follows
  | cons i is ih =>
    rw [visitAll, List.map_cons, ← List.singleton_append, settle_append_names]
    exact (visit_follows hdistinct levels hb List.nodup_nil i).andThen fun b done hb => ih hb

/-- **`walk records levels = some (sort records)`**: the sort on books is the sort, and one level
more than there are records is enough for it. -/
theorem walk_eq_sort (hdistinct : (records.map Record.name).Nodup) {levels : Nat}
    (hlevels : records.length < levels) : walk records levels = some (sort records) := by
  have hnames : (List.finRange records.length).map (nameAt records) = records.map Record.name := by
    conv_rhs => rw [← List.map_get_finRange records, List.map_map]
    rfl
  have hfollows := visitAll_follows hdistinct levels (List.finRange records.length)
    (mirrors_start records)
  rw [hnames, ← sort_eq_settle hdistinct] at hfollows
  obtain ⟨outcome, houtcome⟩ := hfollows.ends hlevels
  have hagrees := hfollows.agrees outcome houtcome
  rw [walk, houtcome]
  generalize sort records = expected at hagrees
  cases hagrees with
  | error e => rfl
  | ok hb => rw [← hb.done]; rfl

end

end InterfaceSchemes.DependencyOrder
