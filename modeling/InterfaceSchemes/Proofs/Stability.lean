import InterfaceSchemes.Proofs.DependencyOrder
import InterfaceSchemes.Proofs.Fallible

/-! # What the dependency sort leaves in place

Two records that do not depend on each other need not keep their order: a record moves to the front
as soon as a record before it needs it. This file says exactly who can cause such a move.

* **`Precedes`** — one record stands before another in a list.
* **`settle_reached`** — a visit settles nothing but what the names it was asked for need.
* **`exists_settled_front`** — a sorted list begins with the records of a front of its input, and what
  they need.
* **`exists_needing_of_moved`** — a record overtakes another one only if that one, or a record before
  it, needs it.
* **`sort_stable`** — how stable the sort is, and which lists it leaves as they are. -/

namespace InterfaceSchemes.DependencyOrder

open Relation

/-! ## (1) Records before others -/

/-- **`x` stands before `y`** in a list. -/
def Precedes (records : List Record) (x y : Record) : Prop :=
  ∃ before after, records = before ++ x :: after ∧ y ∈ after

/-- `Precedes (before ++ x :: after) z x` for every record `z` of `before`. -/
theorem precedes_of_mem {before : List Record} {z : Record} (hz : z ∈ before) (x : Record)
    (after : List Record) : Precedes (before ++ x :: after) z x := by
  obtain ⟨front, middle, rfl⟩ := List.append_of_mem hz
  exact ⟨front, middle ++ x :: after, by simp, by simp⟩

/-- `y ∈ front` where `y` precedes a record of `front`, in a list without repetitions. -/
theorem Precedes.mem_of_prefix {records front : List Record} {x y : Record}
    (hprecedes : Precedes records y x) (hnodup : records.Nodup) (hfront : front <+: records)
    (hx : x ∈ front) : y ∈ front := by
  obtain ⟨before, after, rfl, hafter⟩ := hprecedes
  have hsplit : before ++ y :: after = (before ++ [y]) ++ after := by simp
  rw [hsplit] at hnodup hfront
  -- the front ends before `y` or has it
  rcases List.prefix_or_prefix_of_prefix hfront (List.prefix_append _ after) with hshort | hlong
  · exact absurd hafter (List.disjoint_of_nodup_append hnodup (hshort.subset hx))
  · exact hlong.subset (by simp)

/-! ## (2) What a visit settles -/

/-- **A visit settles only what is needed.** A record that was not settled before is one that was asked
for, or one that such a record needs. The induction follows the recursion of `settle`: what the inner
visit reaches from a dependency is one step further away from the name itself. -/
theorem settle_reached {records : List Record} {path : List Text} {done out : List Record}
    {names : List Text} (hrun : settle records path done names = .ok out) :
    ∀ r ∈ out, r ∈ done ∨ ∃ n ∈ names, ReflTransGen (Needs records) n r.name := by
  fun_induction settle records path done names generalizing out with
  | case1 path done =>
    cases hrun
    exact fun r hr => Or.inl hr
  | case2 => cases hrun
  | case3 path done name names s hfound hany ih =>
    intro r hr
    rcases ih hrun r hr with hdone | ⟨n, hn, hchain⟩
    · exact Or.inl hdone
    · exact Or.inr ⟨n, List.mem_cons_of_mem _ hn, hchain⟩
  | case4 => cases hrun
  | case5 => cases hrun
  | case6 path done name names s hfound hany hfresh done' hinner ihInner ihOuter =>
    intro r hr
    obtain ⟨hs, hname⟩ := of_declared?_eq_some hfound
    rcases ihOuter hrun r hr with hmem | ⟨n, hn, hchain⟩
    · rcases List.mem_append.mp hmem with hmem | hmem
      · -- settled by the inner visit, or before it
        rcases ihInner hinner r hmem with hdone | ⟨d, hd, hchain⟩
        · exact Or.inl hdone
        · have hneeds : Needs records name d := ⟨s, hs, hname, hd⟩
          exact Or.inr ⟨name, by simp, hchain.head hneeds⟩
      · rw [List.mem_singleton.mp hmem, hname]
        exact Or.inr ⟨name, by simp, ReflTransGen.refl⟩
    · exact Or.inr ⟨n, List.mem_cons_of_mem _ hn, hchain⟩

/-- **`sort (front ++ rest)` begins with `front`**: its records and what they need, in some order,
come before all others. -/
theorem exists_settled_front {front rest out : List Record} (hsort : sort (front ++ rest) = .ok out) :
    ∃ done, done <+: out ∧ (∀ r ∈ front, r ∈ done) ∧
      ∀ r ∈ done, ∃ z ∈ front, ReflTransGen (Needs (front ++ rest)) z.name r.name := by
  have hdistinct := distinct_of_sort hsort
  rw [sort_eq_settle hdistinct, List.map_append, settle_append_names] at hsort
  obtain ⟨done, hfront, hrest⟩ := Fallible.bind_eq_ok_iff.mp hsort
  obtain ⟨hdone, -, hnames⟩ := settle_settled hfront (settled_nil (front ++ rest))
  obtain ⟨-, hprefix, -⟩ := settle_settled hrest hdone
  refine ⟨done, hprefix, ?_, ?_⟩
  · intro r hr
    obtain ⟨s, hs, hname⟩ := hnames r.name (List.mem_map_of_mem hr)
    have heq : s = r :=
      eq_of_name_eq hdistinct (hdone.subset s hs) (List.mem_append_left rest hr) hname
    rwa [← heq]
  · intro r hr
    rcases settle_reached hfront r hr with hnil | ⟨n, hn, hchain⟩
    · exact absurd hnil List.not_mem_nil
    · obtain ⟨z, hz, rfl⟩ := List.mem_map.mp hn
      exact ⟨z, hz, hchain⟩

/-! ## (3) Stability -/

/-- **Who causes a move.** If `y` overtakes `x`, then `x` or a record before `x` needs `y`: the front of
the input that ends with `x` does not have `y`, and `y` is settled together with it. -/
theorem exists_needing_of_moved {records out : List Record} (hsort : sort records = .ok out)
    {x y : Record} (hbefore : Precedes records x y) (hmoved : Precedes out y x) :
    ∃ z, (z = x ∨ Precedes records z x) ∧ TransGen (Needs records) z.name y.name := by
  have hdistinct := distinct_of_sort hsort
  have hnodup : out.Nodup := (sort_eq_ok_spec hsort).1.nodup_iff.mpr hdistinct.of_map
  obtain ⟨before, after, rfl, hy⟩ := hbefore
  have hsplit : before ++ x :: after = (before ++ [x]) ++ after := by simp
  obtain ⟨done, hprefix, hfront, hreached⟩ := exists_settled_front (hsplit ▸ hsort)
  have hdone : y ∈ done := hmoved.mem_of_prefix hnodup hprefix (hfront x (by simp))
  obtain ⟨z, hz, hchain⟩ := hreached y hdone
  rw [← hsplit] at hchain
  refine ⟨z, ?_, ?_⟩
  · rcases List.mem_append.mp hz with hz | hz
    · exact Or.inr (precedes_of_mem hz x after)
    · exact Or.inl (List.mem_singleton.mp hz)
  · rcases reflTransGen_iff_eq_or_transGen.mp hchain with heq | hneeds
    · -- `y` is not `z` itself, which stands in the front
      rw [hsplit, List.map_append] at hdistinct
      refine absurd ?_ (List.disjoint_of_nodup_append hdistinct (List.mem_map_of_mem hz))
      rw [← heq]
      exact List.mem_map_of_mem hy
    · exact hneeds

/-- **How stable the sort is.** A record `y` that stood behind `x` stands before it in the sorted list
only if `x` or a record before `x` needs `y`, directly or through others. A sorted list is not changed
when it is sorted again. The lists that come back unchanged are those with distinct names in which every
record stands after what it depends on. -/
theorem sort_stable (records : List Record) :
    (∀ out, sort records = .ok out →
        (∀ x y, Precedes records x y → Precedes out y x →
          ∃ z, (z = x ∨ Precedes records z x) ∧ TransGen (Needs records) z.name y.name) ∧
        sort out = .ok out) ∧
      (sort records = .ok records ↔
        (records.map Record.name).Nodup ∧ DependenciesFirst records) := by
  refine ⟨fun out hsort => ⟨fun x y => exists_needing_of_moved hsort, ?_⟩, ?_, ?_⟩
  · obtain ⟨hperm, hordered⟩ := sort_eq_ok_spec hsort
    have hdistinct : (out.map Record.name).Nodup :=
      (hperm.map Record.name).nodup_iff.mpr (distinct_of_sort hsort)
    exact sort_of_dependenciesFirst hdistinct hordered
  · exact fun hsort => ⟨distinct_of_sort hsort, (sort_eq_ok_spec hsort).2⟩
  · exact fun ⟨hdistinct, hordered⟩ => sort_of_dependenciesFirst hdistinct hordered

/-- A record that needs `shared`. -/
def needing : Record := ⟨"Needing", "n.ts", [], ["Shared"]⟩

/-- A record that has nothing to do with the other two. -/
def unrelated : Record := ⟨"Unrelated", "u.ts", [], []⟩

/-- A record that needs nothing. -/
def shared : Record := ⟨"Shared", "s.ts", [], []⟩

/-- The last record overtakes the one in the middle, though neither of the two needs the other: the
record before both does. -/
theorem sort_overtaking :
    sort [needing, unrelated, shared] = .ok [shared, needing, unrelated] ∧
      Precedes [needing, unrelated, shared] unrelated shared ∧
      Precedes [shared, needing, unrelated] shared unrelated ∧
      (∃ z, (z = unrelated ∨ Precedes [needing, unrelated, shared] z unrelated) ∧
        TransGen (Needs [needing, unrelated, shared]) z.name shared.name) ∧
      sort [shared, needing, unrelated] = .ok [shared, needing, unrelated] := by
  have hsort : sort [needing, unrelated, shared] = .ok [shared, needing, unrelated] := by cbv
  have hbefore : Precedes [needing, unrelated, shared] unrelated shared :=
    ⟨[needing], [shared], rfl, by simp⟩
  have hmoved : Precedes [shared, needing, unrelated] shared unrelated :=
    ⟨[], [needing, unrelated], rfl, by simp⟩
  obtain ⟨hstable, hagain⟩ := (sort_stable [needing, unrelated, shared]).1 _ hsort
  exact ⟨hsort, hbefore, hmoved, hstable _ _ hbefore hmoved, hagain⟩

end InterfaceSchemes.DependencyOrder
