import InterfaceSchemes.Proofs.Ledger
import InterfaceSchemes.Proofs.Refusal
import InterfaceSchemes.Proofs.Stability

/-! # The books of the dependency sort are exact

The sort on books makes calls within calls. This file says which calls those are, without a bound on
how deep they are nested, and what the books say at each of them.

* **`Calls`** — the calls that are made in the course of a sort, with how deep they are nested.
* **`Exact`** — what is in progress is a chain of dependencies, what is finished is marked and closed
  under dependencies, and neither has repetitions.
* **`Calls.mirrors`** — at every call the books mirror what holds between two steps of `settle`.
* **`Balanced`** — a call that returns restores what was in progress and adds what it has reached.
* **`visit_bookkeeping`** — the books are exact at every call, and every call ends. -/

namespace InterfaceSchemes.DependencyOrder

open Relation

/-! ## (1) The calls of a sort -/

/-- **The calls that a sort makes**, by how deep they are nested, the books at that moment and the
position that is to be visited. Those of the outermost level are made for one record after the other;
a call for a record that is neither marked nor in progress makes one for each of its dependencies, as
long as the calls before return. No number of levels bounds what counts as a call. -/
inductive Calls (records : List Record) :
    Nat → Ledger records → Fin records.length → Prop where
  /-- The records before have been visited. -/
  | outermost {levels : Nat} {b : Ledger records} {i : Fin records.length}
      {before after : List (Fin records.length)}
      (hsplit : List.finRange records.length = before ++ i :: after)
      (hrun : visitAll records levels Ledger.start before = some (.ok b)) : Calls records 1 b i
  /-- The dependencies before have been visited. -/
  | nested {depth levels : Nat} {b b' : Ledger records} {i j : Fin records.length}
      {before after : List Text} {name : Text} (hcall : Calls records depth b i)
      (hunvisited : b.visited i = false) (hfresh : i ∉ b.inProgress)
      (hsplit : (records.get i).dependsOn = before ++ name :: after)
      (hrun : visitNames records (visit records levels) (nameAt records i) (b.enter i) before
        = some (.ok b'))
      (hfound : position? records name = some j) : Calls records (depth + 1) b' j

/-- **Exact books.** -/
structure Exact {records : List Record} (b : Ledger records) : Prop where
  /-- Nothing is in progress twice. -/
  nodup_inProgress : b.inProgress.Nodup
  /-- What is in progress depends on what has been entered next. -/
  linked : b.inProgress.IsChain (Edge records)
  /-- Nothing in progress is marked. -/
  unvisited : ∀ i ∈ b.inProgress, b.visited i = false
  /-- Nothing is finished twice. -/
  nodup_order : b.order.Nodup
  /-- The finished records are the marked ones. -/
  mem_order_iff : ∀ i, i ∈ b.order ↔ b.visited i = true
  /-- What a marked record depends on is marked, and was finished before it. -/
  closed : ∀ i, b.visited i = true → ∀ name ∈ (records.get i).dependsOn,
    ∃ j, nameAt records j = name ∧ b.visited j = true ∧ b.order.idxOf j < b.order.idxOf i

section

variable {records : List Record} (hdistinct : (records.map Record.name).Nodup)
  {b b' : Ledger records} {path : List Text} {done : List Record} {i : Fin records.length}

/-- `Pending records path others` for names `others` among `names`: there is a reason to visit fewer
names as well. -/
theorem Pending.subset {names others : List Text} (hpending : Pending records path names)
    (hsubset : ∀ n ∈ others, n ∈ names) : Pending records path others where
  distinct := hpending.distinct
  linked := hpending.linked
  asked := fun n hn => hpending.asked n (hsubset n hn)

include hdistinct

/-- **Books are exact** if they mirror what holds between two steps of `settle`. -/
theorem Mirrors.exact {names : List Text} (hb : Mirrors b path done)
    (hsettled : Settled records path done) (hpending : Pending records path names) : Exact b where
  nodup_inProgress := hb.nodup_inProgress hpending.distinct
  linked := by
    have hlinked := hpending.linked
    rw [← List.reverse_reverse path, List.isChain_reverse, ← hb.path, List.isChain_map] at hlinked
    exact hlinked.imp fun i j hneeds => edge_of_needs hdistinct hneeds
  unvisited := by
    intro i hi
    rw [Bool.eq_false_iff, Ne, hb.visited]
    intro hmem
    refine hsettled.waiting (records.get i) ?_ ((hb.mem_path_iff hdistinct).mpr hi)
    rw [← hb.done]
    exact List.mem_map_of_mem hmem
  nodup_order := by
    have hnodup : done.Nodup := hsettled.distinct.of_map
    rw [← hb.done] at hnodup
    exact hnodup.of_map
  mem_order_iff := fun i => (hb.visited i).symm
  closed := by
    intro i hi name hname
    obtain ⟨front, back, hsplit⟩ := List.append_of_mem ((hb.visited i).mp hi)
    have hdone := hb.done
    rw [hsplit, List.map_append, List.map_cons] at hdone
    obtain ⟨earlier, hearlier, hnamed⟩ := hsettled.ordered _ _ _ hdone.symm name hname
    obtain ⟨j, hj, rfl⟩ := List.mem_map.mp hearlier
    refine ⟨j, hnamed, (hb.visited j).mpr (by simp [hsplit, hj]), ?_⟩
    have hnodup : done.Nodup := hsettled.distinct.of_map
    rw [← hb.done, hsplit] at hnodup
    have hself : i ∉ front :=
      fun hmem => List.disjoint_of_nodup_append hnodup.of_map hmem List.mem_cons_self
    have hlt := List.idxOf_lt_length_of_mem hj
    rw [hsplit, List.idxOf_append_of_mem hj, List.idxOf_append_of_notMem hself]
    omega

/-- `Edge records top i`: the record `i` that is visited is one that the newest record in progress,
`top`, depends on. -/
theorem Mirrors.edge_of_getLast? {top : Fin records.length} (hb : Mirrors b path done)
    (hpending : Pending records path [nameAt records i]) (htop : top ∈ b.inProgress.getLast?) :
    Edge records top i := by
  have hhead : path.head? = some (nameAt records top) := by
    rw [← List.getLast?_reverse, ← hb.path, List.getLast?_map, Option.mem_def.mp htop]
    rfl
  have hasked := hpending.asked _ List.mem_cons_self
  cases path with
  | nil => cases hhead
  | cons newest path =>
    obtain rfl : newest = nameAt records top := Option.some.inj hhead
    exact edge_of_needs hdistinct hasked

/-- `b'.inProgress = b.inProgress` for books that mirror one path, whatever they have settled. -/
theorem Mirrors.inProgress_eq {done' : List Record} (hb : Mirrors b path done)
    (hb' : Mirrors b' path done') : b'.inProgress = b.inProgress :=
  List.map_injective_iff.mpr (nameAt_injective hdistinct) (hb'.path.trans hb.path.symm)

/-- `b' = b` for books that mirror the same path and the same settled records. -/
theorem Mirrors.unique (hb : Mirrors b path done) (hb' : Mirrors b' path done) : b' = b := by
  have hprogress := hb.inProgress_eq hdistinct hb'
  have horder : b'.order = b.order :=
    List.map_injective_iff.mpr (get_injective hdistinct) (hb'.done.trans hb.done.symm)
  have hvisited : b'.visited = b.visited := by
    funext j
    rw [Bool.eq_iff_iff, hb.visited, hb'.visited, horder]
  obtain ⟨visited, inProgress, order⟩ := b
  obtain ⟨visited', inProgress', order'⟩ := b'
  obtain rfl : inProgress' = inProgress := hprogress
  obtain rfl : order' = order := horder
  obtain rfl : visited' = visited := hvisited
  rfl

/-- **One outcome `Agrees`** with what is expected. -/
theorem Agrees.unique {outcome outcome' : Except Error (Ledger records)}
    {expected : Except Error (List Record)} (hagrees : Agrees path outcome expected)
    (hagrees' : Agrees path outcome' expected) : outcome' = outcome := by
  cases hagrees with
  | error e =>
    cases hagrees' with
    | error => rfl
  | ok hb =>
    cases hagrees' with
    | ok hb' => rw [hb.unique hdistinct hb']

/-- While the dependencies of `i` are visited, `i` is the newest on the path. -/
theorem Mirrors.visitNames_of_ok (hb : Mirrors b path done) (hpath : path.Nodup)
    (hfresh : i ∉ b.inProgress) {levels : Nat} {names : List Text}
    (hrun : visitNames records (visit records levels) (nameAt records i) (b.enter i) names
      = some (.ok b')) :
    ∃ done', settle records (nameAt records i :: path) done names = .ok done' ∧
      Mirrors b' (nameAt records i :: path) done' := by
  have hlonger : (nameAt records i :: path).Nodup :=
    List.nodup_cons.mpr ⟨fun hmem => hfresh ((hb.mem_path_iff hdistinct).mp hmem), hpath⟩
  exact (visitNames_follows
    (fun b done hb i => visit_follows hdistinct levels hb hlonger i) rfl names
    (hb.enter i)).of_ok hrun

/-- **What a call has found**: its books mirror a path and settled records of which all that holds
between two steps of `settle` is true, and it is nested as deep as there are names on the path. The
induction is on how the call has come about. -/
theorem Calls.mirrors {depth : Nat} (hcall : Calls records depth b i) :
    ∃ path done, Mirrors b path done ∧ Settled records path done ∧
      Pending records path [nameAt records i] ∧ depth = path.length + 1 := by
  induction hcall with
  | @outermost levels b i before after hsplit hrun =>
    obtain ⟨done, hsettle, hb⟩ :=
      (visitAll_follows hdistinct levels before (mirrors_start records)).of_ok hrun
    obtain ⟨hsettled, -, -⟩ := settle_settled hsettle (settled_nil records)
    refine ⟨[], done, hb, hsettled, (pending_all records).subset ?_, rfl⟩
    intro n hn
    rw [List.mem_singleton.mp hn]
    exact List.mem_map_of_mem (List.get_mem records i)
  | @nested depth levels b b' i j before after name hcall hunvisited hfresh hsplit hrun hfound ih =>
    obtain ⟨path, done, hb, hsettled, hpending, rfl⟩ := ih
    have hnew : nameAt records i ∉ path := fun hmem => hfresh ((hb.mem_path_iff hdistinct).mp hmem)
    have habsent : ∀ r ∈ done, r.name ≠ nameAt records i := by
      have hnone := hb.any_eq hdistinct (i := i)
      rw [hunvisited, List.any_eq_false] at hnone
      exact fun r hr => by simpa using hnone r hr
    obtain ⟨done', hsettle, hb'⟩ :=
      hb.visitNames_of_ok hdistinct hpending.distinct hfresh hrun
    obtain ⟨hsettled', -, -⟩ := settle_settled hsettle (hsettled.descend habsent)
    have hdeeper := hpending.descend (declared?_nameAt hdistinct i) hnew
    refine ⟨_, done', hb', hsettled', hdeeper.subset ?_, rfl⟩
    intro n hn
    rw [List.mem_singleton.mp hn, nameAt_of_position? hfound, hsplit]
    simp

end

/-! ## (2) Exact books at every call -/

/-- **What a call that returns has done to the books.** -/
structure Balanced {records : List Record} (b : Ledger records) (i : Fin records.length)
    (b' : Ledger records) : Prop where
  /-- What was in progress is in progress, and nothing else is. -/
  inProgress_eq : b'.inProgress = b.inProgress
  /-- The record that was to be visited is. -/
  visited : b'.visited i = true
  /-- What was finished is finished; what has been added can be reached from the record. -/
  reached : ∃ new, b'.order = b.order ++ new ∧ ∀ j ∈ new, ReflTransGen (Edge records) i j

section

variable {records : List Record} (hdistinct : (records.map Record.name).Nodup)
  {b b' : Ledger records} {path : List Text} {done : List Record} {i : Fin records.length}

include hdistinct

/-- **A call that returns leaves balanced books**: `Balanced b i b'` where `visit` ends with `b'`.
-/
theorem Mirrors.balanced (hb : Mirrors b path done) (hsettled : Settled records path done)
    (hpath : path.Nodup) {levels : Nat} (hvisit : visit records levels b i = some (.ok b')) :
    Balanced b i b' := by
  obtain ⟨out, hsettle, hb'⟩ := (visit_follows hdistinct levels hb hpath i).of_ok hvisit
  obtain ⟨hsettled', ⟨rest, hrest⟩, hnames⟩ := settle_settled hsettle hsettled
  obtain ⟨r, hr, hname⟩ := hnames (nameAt records i) List.mem_cons_self
  -- the finished positions split as the settled records do
  have horder := hb'.done
  rw [← hrest, List.map_eq_append_iff] at horder
  obtain ⟨old, new, hsplit, hold, -⟩ := horder
  obtain rfl : old = b.order :=
    List.map_injective_iff.mpr (get_injective hdistinct) (hold.trans hb.done.symm)
  refine ⟨hb.inProgress_eq hdistinct hb', ?_, new, hsplit, fun j hj => ?_⟩
  · rw [hb'.visited]
    rw [← hb'.done] at hr
    obtain ⟨j, hj, rfl⟩ := List.mem_map.mp hr
    rwa [← nameAt_injective hdistinct hname]
  · have hmem : records.get j ∈ out := by
      rw [← hb'.done, hsplit]
      exact List.mem_map_of_mem (List.mem_append_right _ hj)
    rcases settle_reached hsettle _ hmem with hearly | ⟨n, hn, hchain⟩
    · -- finished before, so it is not finished again
      rw [← hb.done, List.mem_map_of_injective (get_injective hdistinct)] at hearly
      have hnodup := (hsettled'.distinct.of_map : out.Nodup)
      rw [← hb'.done, hsplit] at hnodup
      exact absurd hj (List.disjoint_of_nodup_append hnodup.of_map hearly)
    · rw [List.mem_singleton.mp hn] at hchain
      exact reflTransGen_edge hdistinct hchain

/-- **A call ends**, with one outcome, if it has as many levels as are left below it, and the outcome
is that of `settle`. -/
theorem Mirrors.exists_outcome (hb : Mirrors b path done) (hpath : path.Nodup) :
    ∃ outcome : Except Error (Ledger records),
      (∀ levels, records.length < levels + path.length → visit records levels b i = some outcome) ∧
        (outcome.map fun b' => b'.order.map records.get)
          = settle records path done [nameAt records i] := by
  obtain ⟨outcome, houtcome⟩ :=
    (visit_follows hdistinct (records.length + 1) hb hpath i).ends (by omega)
  have hagrees := (visit_follows hdistinct _ hb hpath i).agrees outcome houtcome
  refine ⟨outcome, fun levels hlevels => ?_, ?_⟩
  · have hfollows := visit_follows hdistinct levels hb hpath i
    obtain ⟨other, hother⟩ := hfollows.ends hlevels
    rw [hother, hagrees.unique hdistinct (hfollows.agrees other hother)]
  · generalize settle records path done [nameAt records i] = expected at hagrees
    cases hagrees with
    | error e => rfl
    | ok hb' => exact congrArg Except.ok hb'.done

/-- **The books are exact at every call, and the sort always ends.** At each call that a sort of
records with distinct names makes, circles or not, the books are exact and the newest record in
progress depends on the one to be visited. Calls are nested as deep as there are records in progress,
and so at most one level deeper than there are records; with that many levels each of them has its
outcome, which is that of `settle`. When the dependencies of a record have all been visited, it is the
newest in progress, so that it is the record itself that is taken out, and a call that returns leaves
the books balanced. The whole sort needs one level more than there are records. -/
theorem visit_bookkeeping :
    (∀ depth b i, Calls records depth b i →
      Exact b ∧ (∀ top ∈ b.inProgress.getLast?, Edge records top i) ∧
      depth = b.inProgress.length + 1 ∧ depth ≤ records.length + 1 ∧
      (∃ outcome : Except Error (Ledger records),
        (∀ levels, records.length + 1 < levels + depth →
          visit records levels b i = some outcome) ∧
        (outcome.map fun b' => b'.order.map records.get)
          = settle records (b.inProgress.map (nameAt records)).reverse (b.order.map records.get)
              [nameAt records i]) ∧
      (∀ levels b', b.visited i = false → i ∉ b.inProgress →
        visitNames records (visit records levels) (nameAt records i) (b.enter i)
          (records.get i).dependsOn = some (.ok b') →
        b'.inProgress = b.inProgress ++ [i]) ∧
      ∀ levels b', visit records levels b i = some (.ok b') → Balanced b i b') ∧
    ∀ levels, records.length + 1 ≤ levels → walk records levels = some (sort records) := by
  refine ⟨fun depth b i hcall => ?_, fun levels hlevels => walk_eq_sort hdistinct hlevels⟩
  obtain ⟨path, done, hb, hsettled, hpending, rfl⟩ := hcall.mirrors hdistinct
  have hpath := hpending.distinct
  have hlength := hb.length_path
  obtain ⟨outcome, hvisit, hsettle⟩ := hb.exists_outcome hdistinct hpath (i := i)
  refine ⟨hb.exact hdistinct hsettled hpending, ?_, by rw [hlength], ?_, ⟨outcome, ?_, ?_⟩, ?_, ?_⟩
  · exact fun top htop => hb.edge_of_getLast? hdistinct hpending htop
  · exact Nat.succ_le_succ (hb.length_path_le hpath)
  · exact fun levels hlevels => hvisit levels (by omega)
  · rw [hsettle, hb.path, List.reverse_reverse, hb.done]
  · intro levels b' hunvisited hfresh hrun
    obtain ⟨done', -, hb'⟩ := hb.visitNames_of_ok hdistinct hpath hfresh hrun
    exact (hb.enter i).inProgress_eq hdistinct hb'
  · exact fun levels b' hvisit => hb.balanced hdistinct hsettled hpath hvisit

end

/-- The positions of `tangled`. -/
def tangledAt (k : Fin 3) : Fin tangled.length := k

/-- The books with these records of `tangled` in progress, and none finished. -/
def tangledLedger (inProgress : List (Fin 3)) : Ledger tangled :=
  ⟨fun _ => false, inProgress.map tangledAt, []⟩

/-- The records of `tangled` go around in a circle. The call that notices it is made with all of them
in progress, and so it is nested one level deeper than there are records. -/
theorem visit_tangled :
    (tangled.map Record.name).Nodup ∧ Calls tangled 4 (tangledLedger [0, 1, 2]) (tangledAt 1) ∧
      Exact (tangledLedger [0, 1, 2]) ∧ 4 ≤ tangled.length + 1 ∧
      walk tangled 4 = some (sort tangled) ∧
      sort tangled = .error (.cyclicDependency ["Ring", "Link", "Ring"]) := by
  have hdistinct : (tangled.map Record.name).Nodup := by decide
  have houter : Calls tangled 1 (tangledLedger []) (tangledAt 0) :=
    @Calls.outermost tangled 0 _ _ [] [tangledAt 1, tangledAt 2] rfl rfl
  have hring : Calls tangled 2 (tangledLedger [0]) (tangledAt 1) :=
    @Calls.nested tangled 1 0 _ _ _ _ [] _ _ houter rfl (by decide) rfl rfl (by decide)
  have hlink : Calls tangled 3 (tangledLedger [0, 1]) (tangledAt 2) :=
    @Calls.nested tangled 2 0 _ _ _ _ [] _ _ hring rfl (by decide) rfl rfl (by decide)
  have hclosing : Calls tangled 4 (tangledLedger [0, 1, 2]) (tangledAt 1) :=
    @Calls.nested tangled 3 0 _ _ _ _ [] _ _ hlink rfl (by decide) rfl rfl (by decide)
  obtain ⟨hcalls, hwalk⟩ := visit_bookkeeping hdistinct
  obtain ⟨hexact, -, -, hdepth, -⟩ := hcalls 4 _ _ hclosing
  exact ⟨hdistinct, hclosing, hexact, hdepth, hwalk 4 (by decide), by cbv⟩

end InterfaceSchemes.DependencyOrder
