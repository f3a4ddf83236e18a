import InterfaceSchemes.DependencyOrder
import Mathlib.Data.List.Nodup
import Mathlib.Logic.Relation

/-! # What the dependency sort computes

The sort is a depth-first visit, and this file says what comes out of it without the visit.

* **`DependenciesFirst`** — each record of a list stands after the records it depends on.
* **`Orderable`** — names are distinct, what is depended on is declared, and no name needs itself.
* **`settle_settled`** — the run lemma of the visit: what is settled only grows at its end, stays
  ordered, stays off the path, and gets every name that was asked for.
* **`sort_eq_ok_spec`** — a sorted list is a permutation of its input with dependencies first.
* **`exists_sort_eq_ok_iff`** — a list can be sorted exactly when it is `Orderable`.
* **`sort_of_dependenciesFirst`** — a list in dependency order is left as it is.
* **`sort_append`** — more records are sorted behind the others.
* **`sort_perm_positions`** — a sorted list by its positions. -/

namespace InterfaceSchemes.DependencyOrder

open Relation

/-! ## (1) Orders and orderable lists -/

/-- `Needs records a b`: the record with the name `a` depends on the name `b`. -/
def Needs (records : List Record) (a b : Text) : Prop :=
  ∃ r ∈ records, r.name = a ∧ b ∈ r.dependsOn

/-- **Dependencies first.** What a record depends on has been named before it. -/
def DependenciesFirst (records : List Record) : Prop :=
  ∀ before r after, records = before ++ r :: after →
    ∀ d ∈ r.dependsOn, ∃ earlier ∈ before, earlier.name = d

/-- **A list of records that has an order.** -/
structure Orderable (records : List Record) : Prop where
  /-- No two records have one name. -/
  distinct : (records.map Record.name).Nodup
  /-- What a record depends on is declared. -/
  declared : ∀ r ∈ records, ∀ d ∈ r.dependsOn, ∃ s ∈ records, s.name = d
  /-- No name needs itself, not even through others. -/
  acyclic : ∀ n, ¬ TransGen (Needs records) n n

/-- The empty list is in dependency order. -/
theorem dependenciesFirst_nil : DependenciesFirst [] := by
  intro before r after hsplit
  simp at hsplit

/-- `DependenciesFirst (done ++ [r])` if the dependencies of `r` are names in `done`. -/
theorem DependenciesFirst.concat {done : List Record} {r : Record} (hdone : DependenciesFirst done)
    (hr : ∀ d ∈ r.dependsOn, ∃ earlier ∈ done, earlier.name = d) :
    DependenciesFirst (done ++ [r]) := by
  intro before s after hsplit
  rcases List.eq_nil_or_concat after with rfl | ⟨after, last, rfl⟩
  · obtain ⟨rfl, hs⟩ := List.append_inj' hsplit rfl
    obtain rfl : r = s := by simpa using hs
    exact hr
  · have hsplit' : done ++ [r] = (before ++ s :: after) ++ [last] := by simpa using hsplit
    obtain ⟨hinit, -⟩ := List.append_inj' hsplit' rfl
    exact hdone before s after hinit

/-- `r = s` for records of one name in a list with distinct names. -/
theorem eq_of_name_eq {records : List Record} (hdistinct : (records.map Record.name).Nodup)
    {r s : Record} (hr : r ∈ records) (hs : s ∈ records) (hname : r.name = s.name) : r = s :=
  List.inj_on_of_nodup_map hdistinct hr hs hname

/-- Names stay distinct when a record with a new name is added. -/
theorem nodup_names_concat {records : List Record} (hdistinct : (records.map Record.name).Nodup)
    {r : Record} (hnew : ∀ s ∈ records, s.name ≠ r.name) :
    ((records ++ [r]).map Record.name).Nodup := by
  rw [List.map_append, List.nodup_append]
  refine ⟨hdistinct, by simp, ?_⟩
  intro a ha b hb hab
  obtain ⟨s, hs, rfl⟩ := List.mem_map.mp ha
  obtain rfl : b = r.name := by simpa using hb
  exact hnew s hs hab

/-- `declared?` finds a record with the given name. -/
theorem of_declared?_eq_some {records : List Record} {name : Text} {r : Record}
    (hfound : declared? records name = some r) : r ∈ records ∧ r.name = name :=
  ⟨List.mem_of_find?_eq_some hfound, by simpa using List.find?_some hfound⟩

/-- `declared?` fails exactly on the names that no record has. -/
theorem declared?_eq_none_iff {records : List Record} {name : Text} :
    declared? records name = none ↔ ∀ r ∈ records, r.name ≠ name := by
  simp [declared?]

/-- If names are distinct, `declared?` finds the record of each of them. -/
theorem declared?_of_mem {records : List Record} (hdistinct : (records.map Record.name).Nodup)
    {r : Record} (hr : r ∈ records) : declared? records r.name = some r := by
  cases hfound : declared? records r.name with
  | none => exact absurd rfl (declared?_eq_none_iff.mp hfound r hr)
  | some s =>
    obtain ⟨hs, hname⟩ := of_declared?_eq_some hfound
    rw [eq_of_name_eq hdistinct hs hr hname]

/-! ## (2) The visit -/

/-- The step of `settle` at a name that is declared: it is passed over if it is settled, closes a
circle if it is on the path, and otherwise its dependencies come first. -/
theorem settle_cons_of_declared {records : List Record} {name : Text} {r : Record}
    (hfound : declared? records name = some r) (path : List Text) (done : List Record)
    (names : List Text) :
    settle records path done (name :: names) =
      if done.any fun settled => settled.name == name then settle records path done names
      else if name ∈ path then .error (.cyclicDependency (cycle path name))
      else settle records (name :: path) done r.dependsOn >>= fun done' =>
        settle records path (done' ++ [r]) names := by
  rw [settle]
  split
  · rename_i hnone
    rw [hfound] at hnone
    cases hnone
  · rename_i s hsome
    rw [hfound, Option.some.injEq] at hsome
    subst hsome
    split
    · rfl
    · split
      · rfl
      · cases settle records (name :: path) done r.dependsOn <;> rfl

/-- **What holds between two steps of the visit.** The settled records are records of the list with
distinct names, they are in dependency order, and none of them is on the path. -/
structure Settled (records : List Record) (path : List Text) (done : List Record) : Prop where
  /-- Only records of the list are settled. -/
  subset : ∀ r ∈ done, r ∈ records
  /-- No name is settled twice. -/
  distinct : (done.map Record.name).Nodup
  /-- Dependencies are settled first. -/
  ordered : DependenciesFirst done
  /-- A record on the path still waits. -/
  waiting : ∀ r ∈ done, r.name ∉ path

/-- At the beginning nothing is settled. -/
theorem settled_nil (records : List Record) : Settled records [] [] where
  subset := by simp
  distinct := by simp
  ordered := dependenciesFirst_nil
  waiting := by simp

/-- `Settled` on the path `name :: path`, for a name that is not settled. -/
theorem Settled.descend {records done : List Record} {path : List Text} {name : Text}
    (hdone : Settled records path done) (hname : ∀ r ∈ done, r.name ≠ name) :
    Settled records (name :: path) done where
  subset := hdone.subset
  distinct := hdone.distinct
  ordered := hdone.ordered
  waiting := by
    intro r hr hmem
    rcases List.mem_cons.mp hmem with heq | hmem
    · exact hname r hr heq
    · exact hdone.waiting r hr hmem

/-- `Settled` for `done ++ [r]`: coming back from a name whose dependencies are settled appends its
record. -/
theorem Settled.ascend {records done : List Record} {path : List Text} {name : Text} {r : Record}
    (hdone : Settled records (name :: path) done) (hr : r ∈ records) (hname : r.name = name)
    (hfresh : name ∉ path) (hdeps : ∀ d ∈ r.dependsOn, ∃ earlier ∈ done, earlier.name = d) :
    Settled records path (done ++ [r]) where
  subset := by
    intro s hs
    rcases List.mem_append.mp hs with hs | hs
    · exact hdone.subset s hs
    · rw [List.mem_singleton.mp hs]
      exact hr
  distinct := by
    refine nodup_names_concat hdone.distinct fun s hs hsame => ?_
    exact hdone.waiting s hs (by simp [hsame, hname])
  ordered := hdone.ordered.concat hdeps
  waiting := by
    intro s hs hmem
    rcases List.mem_append.mp hs with hs | hs
    · exact hdone.waiting s hs (List.mem_cons_of_mem _ hmem)
    · rw [List.mem_singleton.mp hs, hname] at hmem
      exact hfresh hmem

/-- **The run lemma of the visit.** A visit that succeeds keeps `Settled`, only appends to what was
settled, and settles every name it was asked for. The induction follows the recursion of `settle`:
the inner visit runs on a longer path, so `Settled.descend` and `Settled.ascend` bracket it. -/
theorem settle_settled {records : List Record} {path : List Text} {done out : List Record}
    {names : List Text} (hrun : settle records path done names = .ok out)
    (hdone : Settled records path done) :
    Settled records path out ∧ done <+: out ∧ ∀ n ∈ names, ∃ r ∈ out, r.name = n := by
  fun_induction settle records path done names generalizing out with
  | case1 path done =>
    cases hrun
    exact ⟨hdone, List.prefix_refl done, by simp⟩
  | case2 => cases hrun
  | case3 path done name names r hfound hany ih =>
    -- the name is settled already
    obtain ⟨hout, hprefix, hnames⟩ := ih hrun hdone
    refine ⟨hout, hprefix, ?_⟩
    intro n hn
    rcases List.mem_cons.mp hn with rfl | hn
    · obtain ⟨s, hs, hname⟩ := List.any_eq_true.mp hany
      exact ⟨s, hprefix.subset hs, by simpa using hname⟩
    · exact hnames n hn
  | case4 => cases hrun
  | case5 => cases hrun
  | case6 path done name names r hfound hany hfresh done' hinner ihInner ihOuter =>
    -- the dependencies of `r` are settled, then `r`, then the other names
    obtain ⟨hr, hname⟩ := of_declared?_eq_some hfound
    have habsent : ∀ s ∈ done, s.name ≠ name := by simpa using hany
    obtain ⟨hdone', hprefix', hdeps⟩ := ihInner hinner (hdone.descend habsent)
    obtain ⟨hout, hprefix, hnames⟩ := ihOuter hrun (hdone'.ascend hr hname hfresh hdeps)
    refine ⟨hout, hprefix'.trans ((List.prefix_append done' [r]).trans hprefix), ?_⟩
    intro n hn
    rcases List.mem_cons.mp hn with rfl | hn
    · exact ⟨r, hprefix.subset (by simp), hname⟩
    · exact hnames n hn

/-- **A visit with nothing in its way succeeds.** If no name needs itself, all names are declared,
and every name on the path needs every name that is asked for, the visit ends in `.ok`: a name that
is met again on the path would need itself. -/
theorem exists_settle_eq_ok {records : List Record} (hrecords : Orderable records)
    (path : List Text) (done : List Record) (names : List Text)
    (hdeclared : ∀ n ∈ names, ∃ r ∈ records, r.name = n)
    (hpath : ∀ p ∈ path, ∀ n ∈ names, TransGen (Needs records) p n) :
    ∃ out, settle records path done names = .ok out := by
  fun_induction settle records path done names with
  | case1 path done => exact ⟨done, rfl⟩
  | case2 path done name names hfound =>
    obtain ⟨r, hr, hname⟩ := hdeclared name (by simp)
    exact absurd hname (declared?_eq_none_iff.mp hfound r hr)
  | case3 path done name names r hfound hany ih =>
    refine ih (fun n hn => hdeclared n (List.mem_cons_of_mem _ hn)) ?_
    exact fun p hp n hn => hpath p hp n (List.mem_cons_of_mem _ hn)
  | case4 path done name names r hfound hany honPath =>
    -- the circle is closed: the name needs itself
    exact absurd (hpath name honPath name (by simp)) (hrecords.acyclic name)
  | case5 path done name names r hfound hany hfresh error hinner ihInner =>
    -- the inner visit asks for what `r` depends on, one step further down
    obtain ⟨hr, hname⟩ := of_declared?_eq_some hfound
    have hstep : ∀ d ∈ r.dependsOn, Needs records name d := fun d hd => ⟨r, hr, hname, hd⟩
    have hsucceeds := ihInner (fun d hd => hrecords.declared r hr d hd) (by
      intro p hp d hd
      rcases List.mem_cons.mp hp with rfl | hp
      · exact TransGen.single (hstep d hd)
      · exact (hpath p hp name (by simp)).tail (hstep d hd))
    rw [hinner] at hsucceeds
    obtain ⟨out, hout⟩ := hsucceeds
    cases hout
  | case6 path done name names r hfound hany hfresh done' hinner ihInner ihOuter =>
    refine ihOuter (fun n hn => hdeclared n (List.mem_cons_of_mem _ hn)) ?_
    exact fun p hp n hn => hpath p hp n (List.mem_cons_of_mem _ hn)

/-- `settle` fails only for a missing or a cyclic dependency. -/
theorem settle_eq_error {records : List Record} {path : List Text} {done : List Record}
    {names : List Text} {e : Error} (hrun : settle records path done names = .error e) :
    (∃ name requiredBy, e = .missingDependency name requiredBy) ∨
      ∃ cycle, e = .cyclicDependency cycle := by
  fun_induction settle records path done names with
  | case1 => cases hrun
  | case2 path done name names hfound =>
    cases hrun
    exact Or.inl ⟨_, _, rfl⟩
  | case3 path done name names r hfound hany ih => exact ih hrun
  | case4 path done name names r hfound hany honPath =>
    cases hrun
    exact Or.inr ⟨_, rfl⟩
  | case5 path done name names r hfound hany hfresh error hinner ihInner =>
    cases hrun
    exact ihInner hinner
  | case6 path done name names r hfound hany hfresh done' hinner ihInner ihOuter =>
    exact ihOuter hrun

/-! ## (3) The sort -/

/-- `duplicate?` finds nothing exactly when the names are distinct. -/
theorem duplicate?_eq_none_iff {seen records : List Record}
    (hseen : (seen.map Record.name).Nodup) :
    duplicate? seen records = none ↔ ((seen ++ records).map Record.name).Nodup := by
  induction records generalizing seen with
  | nil => simpa [duplicate?] using hseen
  | cons r records ih =>
    rw [duplicate?]
    split
    · -- an earlier record has the name, so it is there twice
      rename_i earlier hfound
      have hmem : earlier ∈ seen := List.mem_of_find?_eq_some hfound
      have hname : earlier.name = r.name := by simpa using List.find?_some hfound
      simp only [reduceCtorEq, List.map_append, List.map_cons, false_iff]
      intro hnodup
      exact List.disjoint_of_nodup_append hnodup (List.mem_map_of_mem hmem) (by simp [hname])
    · rename_i hfound
      have hnew : ∀ s ∈ seen, s.name ≠ r.name := by simpa using hfound
      rw [ih (nodup_names_concat hseen hnew), List.append_assoc, List.singleton_append]

/-- What `duplicate?` finds is a repeated name. -/
theorem duplicate?_eq_some {seen records : List Record} {e : Error}
    (hfound : duplicate? seen records = some e) :
    ∃ name first second, e = .duplicateRecord name first second := by
  induction records generalizing seen with
  | nil => cases hfound
  | cons r records ih =>
    rw [duplicate?] at hfound
    split at hfound
    · cases hfound
      exact ⟨_, _, _, rfl⟩
    · exact ih hfound

/-- `sort records` is the visit of all names, if these are distinct. -/
theorem sort_eq_settle {records : List Record} (hdistinct : (records.map Record.name).Nodup) :
    sort records = settle records [] [] (records.map Record.name) := by
  have hnone : duplicate? [] records = none := (duplicate?_eq_none_iff (by simp)).mpr hdistinct
  rw [sort, hnone]

/-- `sort` succeeds only on records with distinct names. -/
theorem distinct_of_sort {records out : List Record} (hsort : sort records = .ok out) :
    (records.map Record.name).Nodup := by
  unfold sort at hsort
  split at hsort
  · cases hsort
  · rename_i hnone
    exact (duplicate?_eq_none_iff (by simp)).mp hnone

/-- **`sort` gives the records of its input, each after its dependencies.** Both lists have distinct
names, so having the same names is being permutations of each other. -/
theorem sort_eq_ok_spec {records out : List Record} (hsort : sort records = .ok out) :
    out.Perm records ∧ DependenciesFirst out := by
  have hdistinct := distinct_of_sort hsort
  rw [sort_eq_settle hdistinct] at hsort
  obtain ⟨hout, -, hnames⟩ := settle_settled hsort (settled_nil records)
  refine ⟨?_, hout.ordered⟩
  refine (List.perm_ext_iff_of_nodup hout.distinct.of_map hdistinct.of_map).mpr ?_
  intro r
  refine ⟨hout.subset r, fun hr => ?_⟩
  obtain ⟨s, hs, hname⟩ := hnames r.name (List.mem_map_of_mem hr)
  rwa [← eq_of_name_eq hdistinct (hout.subset s hs) hr hname]

/-- `idxOf b < idxOf a` where `a` needs `b`: in dependency order, a name stands behind those it
needs. -/
theorem DependenciesFirst.idxOf_lt {out : List Record} (hout : DependenciesFirst out)
    (hdistinct : (out.map Record.name).Nodup) {a b : Text} (hneeds : Needs out a b) :
    (out.map Record.name).idxOf b < (out.map Record.name).idxOf a := by
  obtain ⟨r, hr, rfl, hb⟩ := hneeds
  obtain ⟨before, after, rfl⟩ := List.append_of_mem hr
  obtain ⟨earlier, hearlier, rfl⟩ := hout before r after rfl b hb
  have hbefore : earlier.name ∈ before.map Record.name := List.mem_map_of_mem hearlier
  have hself : r.name ∉ before.map Record.name := by
    intro hmem
    rw [List.map_append] at hdistinct
    exact List.disjoint_of_nodup_append hdistinct hmem (by simp)
  rw [List.map_append, List.idxOf_append_of_mem hbefore, List.idxOf_append_of_notMem hself]
  have hlt := List.idxOf_lt_length_of_mem hbefore
  omega

/-- `Orderable out` if `out` has distinct names and is in dependency order. -/
theorem DependenciesFirst.orderable {out : List Record} (hout : DependenciesFirst out)
    (hdistinct : (out.map Record.name).Nodup) : Orderable out where
  distinct := hdistinct
  declared := by
    intro r hr d hd
    obtain ⟨before, after, rfl⟩ := List.append_of_mem hr
    obtain ⟨earlier, hearlier, hname⟩ := hout before r after rfl d hd
    exact ⟨earlier, List.mem_append_left _ hearlier, hname⟩
  acyclic := by
    -- along a chain of needs the positions go down
    have hdown : ∀ a b, TransGen (Needs out) a b →
        (out.map Record.name).idxOf b < (out.map Record.name).idxOf a := by
      intro a b hchain
      induction hchain with
      | single hneeds => exact hout.idxOf_lt hdistinct hneeds
      | tail _ hneeds ih => exact Nat.lt_trans (hout.idxOf_lt hdistinct hneeds) ih
    exact fun n hchain => Nat.lt_irrefl _ (hdown n n hchain)

/-- **`Orderable` depends on names and needs only**: records with the same names that need no more
are orderable too. -/
theorem Orderable.of_needs {records others : List Record} (hrecords : Orderable records)
    (hnames : (records.map Record.name).Perm (others.map Record.name))
    (hneeds : ∀ a b, Needs others a b → Needs records a b) : Orderable others where
  distinct := hnames.nodup_iff.mp hrecords.distinct
  declared := by
    intro r hr d hd
    obtain ⟨q, hq, -, hqd⟩ := hneeds r.name d ⟨r, hr, rfl, hd⟩
    obtain ⟨s, hs, rfl⟩ := hrecords.declared q hq d hqd
    exact List.mem_map.mp (hnames.mem_iff.mp (List.mem_map_of_mem hs))
  acyclic := fun n hchain => hrecords.acyclic n (TransGen.mono hneeds n n hchain)

/-- `Orderable` does not depend on the order of the list. -/
theorem Orderable.perm {records others : List Record} (hrecords : Orderable records)
    (hperm : records.Perm others) : Orderable others := by
  refine hrecords.of_needs (hperm.map Record.name) ?_
  rintro a b ⟨r, hr, hname, hb⟩
  exact ⟨r, hperm.mem_iff.mpr hr, hname, hb⟩

/-- **`sort` succeeds exactly on `Orderable` lists.** -/
theorem exists_sort_eq_ok_iff {records : List Record} :
    (∃ out, sort records = .ok out) ↔ Orderable records := by
  constructor
  · rintro ⟨out, hsort⟩
    obtain ⟨hperm, hout⟩ := sort_eq_ok_spec hsort
    have hdistinct : (out.map Record.name).Nodup :=
      (hperm.map Record.name).nodup_iff.mpr (distinct_of_sort hsort)
    exact (hout.orderable hdistinct).perm hperm
  · intro hrecords
    rw [sort_eq_settle hrecords.distinct]
    exact exists_settle_eq_ok hrecords [] [] _ (by simp) (by simp)

/-- `sort` fails only for a repeated name, a missing or a cyclic dependency. -/
theorem sort_eq_error {records : List Record} {e : Error} (hsort : sort records = .error e) :
    (∃ name first second, e = .duplicateRecord name first second) ∨
      (∃ name requiredBy, e = .missingDependency name requiredBy) ∨
        ∃ cycle, e = .cyclicDependency cycle := by
  unfold sort at hsort
  split at hsort
  · rename_i e' hduplicate
    cases hsort
    refine Or.inl (duplicate?_eq_some hduplicate)
  · exact Or.inr (settle_eq_error hsort)

/-- `settle` on names that are settled gives `done` back. -/
theorem settle_of_settled {records : List Record} (path : List Text) {done : List Record}
    (hsubset : ∀ r ∈ done, r ∈ records) {names : List Text}
    (hnames : ∀ n ∈ names, ∃ r ∈ done, r.name = n) : settle records path done names = .ok done := by
  induction names with
  | nil => rw [settle]
  | cons name names ih =>
    obtain ⟨r, hr, hname⟩ := hnames name (by simp)
    have hany : (done.any fun s => s.name == name) = true :=
      List.any_eq_true.mpr ⟨r, hr, by simpa using hname⟩
    rw [settle]
    split
    · rename_i hfound
      exact absurd hname (declared?_eq_none_iff.mp hfound r (hsubset r hr))
    · rw [if_pos hany]
      exact ih fun n hn => hnames n (List.mem_cons_of_mem _ hn)

/-- Behind a settled front of a list in dependency order, the visit takes record after record. The
induction is on the records that are left. -/
theorem settle_ordered {records done rest : List Record}
    (hdistinct : (records.map Record.name).Nodup) (hordered : DependenciesFirst records)
    (hsplit : records = done ++ rest) :
    settle records [] done (rest.map Record.name) = .ok records := by
  induction rest generalizing done with
  | nil => rw [hsplit, List.append_nil, List.map_nil, settle]
  | cons r rest ih =>
    have hr : r ∈ records := by simp [hsplit]
    have hfound : declared? records r.name = some r := declared?_of_mem hdistinct hr
    have hnew : ¬ (done.any fun s => s.name == r.name) = true := by
      rw [List.any_eq_true]
      rintro ⟨s, hs, hname⟩
      rw [hsplit, List.map_append] at hdistinct
      exact List.disjoint_of_nodup_append hdistinct (List.mem_map_of_mem hs)
        (by simp [beq_iff_eq.mp hname])
    -- all that `r` depends on is in `done`, so the inner visit comes back at once
    have hinner : settle records [r.name] done r.dependsOn = .ok done :=
      settle_of_settled [r.name] (fun s hs => by simp [hsplit, hs])
        (hordered done r rest hsplit)
    rw [List.map_cons, settle_cons_of_declared hfound, if_neg hnew, if_neg List.not_mem_nil, hinner]
    exact ih (by simp [hsplit])

/-- **`sort records = .ok records` for a list in dependency order.** -/
theorem sort_of_dependenciesFirst {records : List Record}
    (hdistinct : (records.map Record.name).Nodup) (hordered : DependenciesFirst records) :
    sort records = .ok records := by
  rw [sort_eq_settle hdistinct]
  exact settle_ordered hdistinct hordered (List.nil_append records).symm

/-! ## (4) Longer lists -/

/-- A record that is found is found in a longer list. -/
theorem declared?_append {records : List Record} {name : Text} {r : Record}
    (hfound : declared? records name = some r) (more : List Record) :
    declared? (records ++ more) name = some r := by
  unfold declared? at hfound ⊢
  rw [List.find?_append, hfound, Option.some_or]

/-- `settle` visits names one after the other. -/
theorem settle_append_names (records : List Record) (path : List Text) (done : List Record)
    (names others : List Text) :
    settle records path done (names ++ others) =
      settle records path done names >>= fun done' => settle records path done' others := by
  induction names generalizing done with
  | nil =>
    have hnil : settle records path done [] = .ok done := by rw [settle]
    rw [List.nil_append, hnil]
    rfl
  | cons name names ih =>
    rw [List.cons_append]
    cases hfound : declared? records name with
    | none =>
      -- a missing name ends the visit, whatever is asked for after it
      have hstop : ∀ ns, settle records path done (name :: ns)
          = .error (.missingDependency name (path.headD [])) := by
        intro ns
        rw [settle]
        split
        · rfl
        · rename_i hsome
          rw [hfound] at hsome
          cases hsome
      rw [hstop, hstop]
      rfl
    | some r =>
      rw [settle_cons_of_declared hfound, settle_cons_of_declared hfound]
      split
      · exact ih done
      · split
        · rfl
        · rw [bind_assoc]
          simp only [ih]

/-- **`settle` ends the same in `records ++ more`**, where it succeeds in `records`. -/
theorem settle_append_records {records : List Record} {path : List Text} {done out : List Record}
    {names : List Text} (hrun : settle records path done names = .ok out) (more : List Record) :
    settle (records ++ more) path done names = .ok out := by
  fun_induction settle records path done names generalizing out with
  | case1 path done =>
    rw [settle]
    exact hrun
  | case2 => cases hrun
  | case3 path done name names r hfound hany ih =>
    rw [settle_cons_of_declared (declared?_append hfound more), if_pos hany]
    exact ih hrun
  | case4 => cases hrun
  | case5 => cases hrun
  | case6 path done name names r hfound hany hfresh done' hinner ihInner ihOuter =>
    rw [settle_cons_of_declared (declared?_append hfound more), if_neg hany, if_neg hfresh,
      ihInner hinner]
    exact ihOuter hrun

/-- **`out' = out ++ rest`**: more records are sorted behind the others. -/
theorem sort_append {records more out out' : List Record} (hsort : sort records = .ok out)
    (hsort' : sort (records ++ more) = .ok out') : ∃ rest, out' = out ++ rest ∧ rest.Perm more := by
  have hdistinct := distinct_of_sort hsort
  have hdistinct' := distinct_of_sort hsort'
  have hperm := (sort_eq_ok_spec hsort).1
  have hperm' := (sort_eq_ok_spec hsort').1
  rw [sort_eq_settle hdistinct] at hsort
  rw [sort_eq_settle hdistinct', List.map_append, settle_append_names,
    settle_append_records hsort more] at hsort'
  -- the visit of the new names starts behind `out`
  have hfirst := settle_append_records hsort more
  obtain ⟨hout, -, -⟩ := settle_settled hfirst (settled_nil (records ++ more))
  obtain ⟨-, ⟨rest, rfl⟩, -⟩ := settle_settled hsort' hout
  refine ⟨rest, rfl, ?_⟩
  have hboth : (out ++ rest).Perm (out ++ more) := hperm'.trans (hperm.symm.append_right more)
  exact (List.perm_append_left_iff out).mp hboth

/-! ## (5) Positions -/

/-- What `out[k]` depends on stands at a position `j < k`. -/
theorem DependenciesFirst.exists_position {out : List Record} (hout : DependenciesFirst out) {k : Nat}
    {r : Record} (hr : out[k]? = some r) {d : Text} (hd : d ∈ r.dependsOn) :
    ∃ j < k, ∃ earlier, out[j]? = some earlier ∧ earlier.name = d := by
  obtain ⟨hk, hget⟩ := List.getElem?_eq_some_iff.mp hr
  have hsplit : out = out.take k ++ r :: out.drop (k + 1) := by
    rw [← hget, List.getElem_cons_drop, List.take_append_drop]
  obtain ⟨earlier, hearlier, hname⟩ := hout _ r _ hsplit d hd
  -- what stands in the front of length `k` has a position below `k`
  obtain ⟨j, hj, hfront⟩ := List.mem_take_iff_getElem.mp hearlier
  refine ⟨j, by omega, earlier, ?_, hname⟩
  rw [← hfront, List.getElem?_eq_getElem]

/-- **`sort`, by its positions**: the result has each record of the input once and unchanged, and
each name that `out[k]` depends on is that of a record at a smaller position. Nothing is asked of
the records, which need not come from a source. -/
theorem sort_perm_positions {records out : List Record} (hsort : sort records = .ok out) :
    out.Perm records ∧ ∀ (k : Nat) (r : Record), out[k]? = some r → ∀ d ∈ r.dependsOn,
      ∃ j < k, ∃ earlier, out[j]? = some earlier ∧ earlier.name = d := by
  obtain ⟨hperm, hordered⟩ := sort_eq_ok_spec hsort
  exact ⟨hperm, fun k r hr d hd => hordered.exists_position hr hd⟩

/-- Records in which two names lead to one, which stands last. Their dependencies are not those of
their fields, and one is given twice. -/
def diamond : List Record :=
  [⟨"Top", "t.ts", [⟨"x", ["Other"], false, false, ["Other"]⟩], ["Left", "Right", "Left"]⟩,
    ⟨"Right", "r.ts", [], ["Base"]⟩, ⟨"Left", "l.ts", [], ["Base"]⟩, ⟨"Base", "b.ts", [], []⟩]

/-- The last of the records comes first, and the first comes last. -/
theorem sort_diamond :
    sort diamond = .ok diamond.reverse ∧ diamond.reverse.Perm diamond ∧
      ∃ j < 3, ∃ earlier, diamond.reverse[j]? = some earlier ∧ earlier.name = ("Right" : Text) := by
  have hsort : sort diamond = .ok diamond.reverse := by cbv
  obtain ⟨hperm, hpositions⟩ := sort_perm_positions hsort
  exact ⟨hsort, hperm, hpositions 3 _ rfl "Right" (by decide)⟩

end InterfaceSchemes.DependencyOrder
