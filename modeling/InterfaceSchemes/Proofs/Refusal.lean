import InterfaceSchemes.Proofs.DependencyOrder
import Mathlib.Data.List.Chain

/-! # Why records cannot be ordered

An error of the dependency sort is a statement about the records. This file says what each error
states without mentioning the visit, and proves that the sort never states what is not so.

* **`FirstRepeat`** — the first record whose name has occurred, and the record that has it before.
* **`IsCircle`** — names that lead back to the first of them, each depending on the next.
* **`Genuine`** — what an error of the sort states about the records.
* **`Pending`** — what holds whenever names are visited: the path is a chain of dependencies without
  repetitions, and its newest name depends on all that is asked for.
* **`settle_genuine`** — the run lemma of a visit that fails.
* **`sort_verdict`** — which lists are refused, for which reason, and that the reason is genuine. -/

namespace InterfaceSchemes.DependencyOrder

open Relation

/-! ## (1) What an error states -/

/-- **The first repeated name.** All names before the record `later` are distinct, and one of them is
its own; the two paths are those of the sources of the earlier record and of `later`. -/
def FirstRepeat (records : List Record) (name first second : Text) : Prop :=
  ∃ before later after, records = before ++ later :: after ∧ (before.map Record.name).Nodup ∧
    later.name = name ∧ later.sourcePath = second ∧
      ∃ earlier ∈ before, earlier.name = name ∧ earlier.sourcePath = first

/-- **A circle of dependencies**, given from a name back to itself. -/
structure IsCircle (records : List Record) (circle : List Text) : Prop where
  /-- There is at least one step. -/
  two_le_length : 2 ≤ circle.length
  /-- The last name is the first one. -/
  closed : circle.getLast? = circle.head?
  /-- No other name is there twice. -/
  distinct : circle.dropLast.Nodup
  /-- The record of each name depends on the next name. -/
  linked : circle.IsChain (Needs records)

/-- **What an error states about the records.** Other errors than these three say nothing that a sort
could find out. -/
def Genuine (records : List Record) : Error → Prop
  | .duplicateRecord name first second => FirstRepeat records name first second
  | .missingDependency name requiredBy =>
    (∀ r ∈ records, r.name ≠ name) ∧ Needs records requiredBy name
  | .cyclicDependency circle => IsCircle records circle
  | _ => False

/-! ## (2) Repeated names -/

/-- What `duplicate?` finds is the first repeated name. The records in `seen` have been passed, so
their names are distinct. -/
theorem firstRepeat_of_duplicate? {seen records : List Record} {e : Error}
    (hseen : (seen.map Record.name).Nodup) (hfound : duplicate? seen records = some e) :
    ∃ name first second, e = .duplicateRecord name first second ∧
      FirstRepeat (seen ++ records) name first second := by
  induction records generalizing seen with
  | nil => cases hfound
  | cons r records ih =>
    rw [duplicate?] at hfound
    split at hfound
    · rename_i earlier hearlier
      cases hfound
      have hmem : earlier ∈ seen := List.mem_of_find?_eq_some hearlier
      have hname : earlier.name = r.name := by simpa using List.find?_some hearlier
      exact ⟨_, _, _, rfl, seen, r, records, rfl, hseen, rfl, rfl, earlier, hmem, hname, rfl⟩
    · rename_i hnone
      have hnew : ∀ s ∈ seen, s.name ≠ r.name := by simpa using hnone
      have hlater := ih (nodup_names_concat hseen hnew) hfound
      rwa [List.append_assoc, List.singleton_append] at hlater

/-! ## (3) The path of the visit -/

/-- What makes a visit go to a name: the newest name on the path depends on it, or nothing waits and
the name is one of a record. -/
def Asked (records : List Record) : List Text → Text → Prop
  | [], name => ∃ r ∈ records, r.name = name
  | top :: _, name => Needs records top name

/-- **What holds whenever names are visited.** -/
structure Pending (records : List Record) (path names : List Text) : Prop where
  /-- No name is on the path twice. -/
  distinct : path.Nodup
  /-- Each name on the path, newest first, is one that the next one depends on. -/
  linked : path.IsChain fun newer older => Needs records older newer
  /-- There is a reason to visit each of the names. -/
  asked : ∀ n ∈ names, Asked records path n

/-- `Pending records []` holds of all names, at the beginning. -/
theorem pending_all (records : List Record) : Pending records [] (records.map Record.name) where
  distinct := List.nodup_nil
  linked := List.IsChain.nil
  asked := fun _ hn => List.mem_map.mp hn

/-- The visit goes on with the other names. -/
theorem Pending.tail {records : List Record} {path names : List Text} {name : Text}
    (hpending : Pending records path (name :: names)) : Pending records path names where
  distinct := hpending.distinct
  linked := hpending.linked
  asked := fun n hn => hpending.asked n (List.mem_cons_of_mem _ hn)

/-- `Pending records (name :: path) r.dependsOn`: the visit goes down to what a declared name
depends on. -/
theorem Pending.descend {records : List Record} {path names : List Text} {name : Text} {r : Record}
    (hpending : Pending records path (name :: names)) (hfound : declared? records name = some r)
    (hfresh : name ∉ path) : Pending records (name :: path) r.dependsOn where
  distinct := List.nodup_cons.mpr ⟨hfresh, hpending.distinct⟩
  linked := by
    cases path with
    | nil => exact List.IsChain.singleton name
    | cons top path =>
      exact List.isChain_cons_cons.mpr ⟨hpending.asked name (by simp), hpending.linked⟩
  asked := by
    intro d hd
    obtain ⟨hr, hname⟩ := of_declared?_eq_some hfound
    exact ⟨r, hr, hname, hd⟩

/-- **`.missingDependency` is genuine**: a missing name is needed by the newest name on the path.
With an empty path every name is declared, so there is a newest name. -/
theorem Pending.missing {records : List Record} {path names : List Text} {name : Text}
    (hpending : Pending records path (name :: names)) (hfound : declared? records name = none) :
    Genuine records (.missingDependency name (path.headD [])) := by
  have habsent : ∀ r ∈ records, r.name ≠ name := declared?_eq_none_iff.mp hfound
  have hasked := hpending.asked name (by simp)
  cases path with
  | nil =>
    obtain ⟨r, hr, hname⟩ := hasked
    exact absurd hname (habsent r hr)
  | cons top path => exact ⟨habsent, hasked⟩

/-- **`cycle path name` is a circle**, where the name is met again. The names that are newer than
it, from the oldest to the newest, lead from it back to it. -/
theorem Pending.circle {records : List Record} {path names : List Text} {name : Text}
    (hpending : Pending records path (name :: names)) (honPath : name ∈ path) :
    IsCircle records (cycle path name) := by
  obtain ⟨newer, older, rfl, hnewer⟩ := List.eq_append_cons_of_mem honPath
  have htake : (newer ++ name :: older).takeWhile (fun onPath => onPath != name) = newer := by
    have hkeep : ∀ n ∈ newer, (n != name) = true := by
      intro n hn
      have hne : n ≠ name := fun heq => hnewer (heq ▸ hn)
      simpa using hne
    rw [List.takeWhile_append_of_pos hkeep, List.takeWhile_cons_of_neg (by simp), List.append_nil]
  have hcycle : cycle (newer ++ name :: older) name = name :: (newer.reverse ++ [name]) := by
    rw [cycle, htake]
  -- read backwards, the circle is the front of the path with the name put before it
  have hfront : (newer ++ [name]).IsChain fun a b => Needs records b a :=
    hpending.linked.prefix ⟨older, by simp⟩
  have hback : (name :: (newer ++ [name])).IsChain fun a b => Needs records b a := by
    have hasked := hpending.asked name (by simp)
    cases newer with
    | nil => exact List.isChain_cons_cons.mpr ⟨hasked, hfront⟩
    | cons newest newer => exact List.isChain_cons_cons.mpr ⟨hasked, hfront⟩
  rw [hcycle]
  refine ⟨?_, ?_, ?_, ?_⟩
  · simp only [List.length_cons, List.length_append, List.length_reverse, List.length_nil]
    omega
  · rw [← List.cons_append, List.getLast?_concat, List.cons_append, List.head?_cons]
  · rw [← List.cons_append, List.dropLast_concat, List.nodup_cons, List.mem_reverse,
      List.nodup_reverse]
    exact ⟨hnewer, (List.nodup_append.mp hpending.distinct).1⟩
  · have hreverse : name :: (newer.reverse ++ [name]) = (name :: (newer ++ [name])).reverse := by simp
    rw [hreverse, List.isChain_reverse]
    exact hback

/-- **The run lemma of a visit that fails**: its error is genuine. The induction follows the recursion
of `settle`; the path grows by `Pending.descend` only, so it is the chain of names that wait for each
other at every point of the run. -/
theorem settle_genuine {records : List Record} {path : List Text} {done : List Record}
    {names : List Text} {e : Error} (hrun : settle records path done names = .error e)
    (hpending : Pending records path names) : Genuine records e := by
  fun_induction settle records path done names with
  | case1 => cases hrun
  | case2 path done name names hfound =>
    cases hrun
    exact hpending.missing hfound
  | case3 path done name names r hfound hany ih => exact ih hrun hpending.tail
  | case4 path done name names r hfound hany honPath =>
    cases hrun
    exact hpending.circle honPath
  | case5 path done name names r hfound hany hfresh error hinner ihInner =>
    cases hrun
    exact ihInner hinner (hpending.descend hfound hfresh)
  | case6 path done name names r hfound hany hfresh done' hinner ihInner ihOuter =>
    exact ihOuter hrun hpending.tail

/-! ## (4) The verdict -/

/-- `sort` refuses a list for a repeated name exactly when there is one. -/
theorem sort_eq_duplicate_iff {records : List Record} :
    (∃ name first second, sort records = .error (.duplicateRecord name first second)) ↔
      ¬ (records.map Record.name).Nodup := by
  constructor
  · rintro ⟨name, first, second, hsort⟩ hdistinct
    rw [sort_eq_settle hdistinct] at hsort
    rcases settle_eq_error hsort with ⟨n, q, he⟩ | ⟨circle, he⟩ <;> cases he
  · intro hrepeated
    cases hfound : duplicate? [] records with
    | none => exact absurd ((duplicate?_eq_none_iff (by simp)).mp hfound) hrepeated
    | some e =>
      obtain ⟨name, first, second, rfl, -⟩ := firstRepeat_of_duplicate? (by simp) hfound
      exact ⟨name, first, second, by rw [sort, hfound]⟩

/-- **Every error of `sort` is `Genuine`.** -/
theorem genuine_of_sort {records : List Record} {e : Error} (hsort : sort records = .error e) :
    Genuine records e := by
  unfold sort at hsort
  split at hsort
  · rename_i e' hfound
    cases hsort
    obtain ⟨name, first, second, rfl, hrepeat⟩ := firstRepeat_of_duplicate? (by simp) hfound
    exact hrepeat
  · exact settle_genuine hsort (pending_all records)

/-- **The verdict of `sort`.** A list is refused for a repeated name exactly if it has one. A list
without one is sorted exactly if every name that is depended on is declared and no name depends on
itself, directly or through others. Whatever the reason of a refusal, it is `Genuine`. -/
theorem sort_verdict (records : List Record) :
    ((∃ name first second, sort records = .error (.duplicateRecord name first second)) ↔
        ¬ (records.map Record.name).Nodup) ∧
      ((records.map Record.name).Nodup →
        ((∃ out, sort records = .ok out) ↔
          (∀ r ∈ records, ∀ d ∈ r.dependsOn, ∃ s ∈ records, s.name = d) ∧
            ∀ n, ¬ TransGen (Needs records) n n)) ∧
      ∀ e, sort records = .error e → Genuine records e := by
  refine ⟨sort_eq_duplicate_iff, fun hdistinct => ?_, fun e => genuine_of_sort⟩
  rw [exists_sort_eq_ok_iff]
  constructor
  · exact fun horderable => ⟨horderable.declared, horderable.acyclic⟩
  · exact fun ⟨hdeclared, hacyclic⟩ => ⟨hdistinct, hdeclared, hacyclic⟩

/-- Records in which a circle is entered from outside before a missing name is reached. -/
def tangled : List Record :=
  [⟨"Outer", "o.ts", [], ["Ring", "Absent"]⟩, ⟨"Ring", "r.ts", [], ["Link"]⟩,
    ⟨"Link", "l.ts", [], ["Ring"]⟩]

/-- The circle is reported without the record from which it is entered. Without the circle the missing
name is reported, and with a second record of the name `Ring` only that is. -/
theorem sort_tangled :
    (sort tangled = .error (.cyclicDependency ["Ring", "Link", "Ring"]) ∧
        IsCircle tangled ["Ring", "Link", "Ring"]) ∧
      (sort (tangled.take 2) = .error (.missingDependency "Link" "Ring") ∧
        Needs (tangled.take 2) "Ring" "Link") ∧
      (sort (tangled ++ tangled.drop 1) = .error (.duplicateRecord "Ring" "r.ts" "r.ts") ∧
        FirstRepeat (tangled ++ tangled.drop 1) "Ring" "r.ts" "r.ts") := by
  have hcircle : sort tangled = .error (.cyclicDependency ["Ring", "Link", "Ring"]) := by cbv
  have hmissing : sort (tangled.take 2) = .error (.missingDependency "Link" "Ring") := by cbv
  have hrepeat : sort (tangled ++ tangled.drop 1)
      = .error (.duplicateRecord "Ring" "r.ts" "r.ts") := by cbv
  exact ⟨⟨hcircle, (sort_verdict tangled).2.2 _ hcircle⟩,
    ⟨hmissing, ((sort_verdict (tangled.take 2)).2.2 _ hmissing).2⟩,
    ⟨hrepeat, (sort_verdict (tangled ++ tangled.drop 1)).2.2 _ hrepeat⟩⟩

end InterfaceSchemes.DependencyOrder
