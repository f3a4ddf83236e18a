import InterfaceSchemes.Proofs.Path

/-! # Clean segments

Cleaning goes through the names of a path with a stack. What comes out can be said without the stack:
steps upward in front, and only in front, of names that lead down. This file proves that, and what it
means for a path that is put together from two.

* **`Path.IsClean`** — steps upward in front only, and none at the root.
* **`Path.isClean_clean`**, **`Path.clean_of_isClean`** — cleaning gives a clean list and keeps one.
* **`Path.clean_append`** — the front of a path may be cleaned first.
* **`Path.clean_back_down`** — steps upward take back the names before them.
* **`Path.relative?_eq_some`** — what the way from one path to another is.
* **`Path.isRooted_normalize`**, **`Path.names_normalize`** — the clean spelling keeps the root, and its
  names are the segments.
* **`Path.normalize_eq_iff`** — so it tells the root and the segments, and depends on nothing else. -/

namespace InterfaceSchemes.Path

/-! ## (1) Cleaning a list of names -/

/-- The clean segments of a path with these names. -/
def clean (rooted : Bool) (ns : List Text) : List Text :=
  (ns.foldl (pushSegment rooted) []).reverse

/-- `segments p = clean (isRooted p) (names p)`: the segments of a path are its names, cleaned. -/
theorem segments_eq_clean (p : Text) : segments p = clean (isRooted p) (names p) := rfl

/-- **A clean list of segments**: some steps upward, none of them at the root, and names that lead
down. -/
def IsClean (rooted : Bool) (parts : List Text) : Prop :=
  ∃ (k : Nat) (down : List Text), parts = List.replicate k up ++ down ∧ up ∉ down ∧
    (rooted = true → k = 0)

/-- `IsClean` passes to a front of the list. -/
theorem IsClean.of_append {rooted : Bool} {front back : List Text}
    (hclean : IsClean rooted (front ++ back)) : IsClean rooted front := by
  obtain ⟨k, down, hparts, hdown, hrooted⟩ := hclean
  rcases List.append_eq_append_iff.mp hparts with ⟨middle, hups, -⟩ | ⟨middle, rfl, rfl⟩
  · -- the front ends among the steps upward
    have hfront : front = List.replicate front.length up := by
      refine List.eq_replicate_iff.mpr ⟨rfl, fun part hpart => ?_⟩
      exact List.eq_of_mem_replicate (hups ▸ List.mem_append_left middle hpart)
    have hlength := congrArg List.length hups
    rw [List.length_replicate, List.length_append] at hlength
    refine ⟨front.length, [], by rw [List.append_nil, ← hfront], List.not_mem_nil, fun h => ?_⟩
    have hk := hrooted h
    omega
  · exact ⟨k, middle, rfl, fun hmem => hdown (List.mem_append_left back hmem), hrooted⟩

/-- **`pushSegment` keeps a clean stack clean.** -/
theorem isClean_pushSegment {rooted : Bool} {stack : List Text} (hstack : IsClean rooted stack.reverse)
    (name : Text) : IsClean rooted (pushSegment rooted stack name).reverse := by
  obtain ⟨k, down, hparts, hdown, hrooted⟩ := hstack
  rcases pushSegment_cases rooted stack name with ⟨heq, hfree⟩ | ⟨-, top, -, htop⟩ | ⟨-, -, heq⟩
  · rw [heq, List.reverse_cons, hparts]
    by_cases hname : name = up
    · -- the newest segment leads upward, so all of them do
      obtain ⟨hrelative, hhead⟩ := hfree hname
      obtain rfl : down = [] := by
        rcases List.eq_nil_or_concat down with hnil | ⟨init, last, hconcat⟩
        · exact hnil
        · rw [List.concat_eq_append] at hconcat
          have hlast : last = up := by
            apply hhead
            rw [← List.getLast?_reverse, hparts, hconcat, ← List.append_assoc, List.getLast?_concat]
            rfl
          exact absurd (by simp [hconcat, hlast]) hdown
      refine ⟨k + 1, [], ?_, List.not_mem_nil, ?_⟩
      · rw [hname, List.append_nil, List.append_nil, ← List.replicate_succ']
      · intro hroot
        rw [hrelative] at hroot
        cases hroot
    · refine ⟨k, down ++ [name], List.append_assoc _ _ _, ?_, hrooted⟩
      rw [List.mem_append, List.mem_singleton]
      rintro (hmem | hup)
      · exact hdown hmem
      · exact hname hup.symm
  · -- a front of the clean list is left
    have hwhole : IsClean rooted ((pushSegment rooted stack name).reverse ++ [top]) := by
      rw [← List.reverse_cons, ← htop]
      exact ⟨k, down, hparts, hdown, hrooted⟩
    exact hwhole.of_append
  · rw [heq]
    exact ⟨k, down, hparts, hdown, hrooted⟩

/-- **`clean` gives a clean list.** -/
theorem isClean_clean (rooted : Bool) (ns : List Text) : IsClean rooted (clean rooted ns) := by
  have hrun : ∀ stack, IsClean rooted stack.reverse →
      IsClean rooted (ns.foldl (pushSegment rooted) stack).reverse := by
    induction ns with
    | nil => exact fun stack hstack => hstack
    | cons name ns ih => exact fun stack hstack => ih _ (isClean_pushSegment hstack name)
  exact hrun [] ⟨0, [], rfl, List.not_mem_nil, fun _ => rfl⟩

/-- `tail.reverse ++ stack`: names that do not lead upward are put on the stack one after the other.
-/
theorem foldl_pushSegment {rooted : Bool} {tail : List Text} (hup : up ∉ tail) (stack : List Text) :
    tail.foldl (pushSegment rooted) stack = tail.reverse ++ stack := by
  induction tail generalizing stack with
  | nil => rfl
  | cons name tail ih =>
    rw [List.mem_cons, not_or] at hup
    rw [List.foldl_cons, pushSegment.eq_def, if_neg (Ne.symm hup.1), ih hup.2]
    simp

/-- `k` steps upward after `j` others are `k + j` steps upward, if there is no root to stop them. -/
theorem foldl_pushSegment_replicate (k j : Nat) :
    (List.replicate k up).foldl (pushSegment false) (List.replicate j up)
      = List.replicate (k + j) up := by
  induction k generalizing j with
  | zero => rw [List.replicate_zero, List.foldl_nil, Nat.zero_add]
  | succ k ih =>
    have hpush : pushSegment false (List.replicate j up) up = List.replicate (j + 1) up := by
      cases j with
      | zero => rfl
      | succ j => rfl
    rw [List.replicate_succ, List.foldl_cons, hpush, ih]
    congr 1
    omega

/-- **`clean rooted parts = parts` for a clean list.** -/
theorem clean_of_isClean {rooted : Bool} {parts : List Text} (hparts : IsClean rooted parts) :
    clean rooted parts = parts := by
  obtain ⟨k, down, rfl, hdown, hrooted⟩ := hparts
  have hups : (List.replicate k up).foldl (pushSegment rooted) [] = List.replicate k up := by
    cases rooted with
    | true =>
      rw [hrooted rfl]
      rfl
    | false => exact foldl_pushSegment_replicate k 0
  rw [clean, List.foldl_append, hups, foldl_pushSegment hdown]
  simp

/-- `clean (ns ++ ms)` goes on with `ms` from the clean segments of `ns`. -/
theorem clean_append (rooted : Bool) (ns ms : List Text) :
    clean rooted (ns ++ ms)
      = (ms.foldl (pushSegment rooted) (clean rooted ns).reverse).reverse := by
  rw [clean, clean, List.foldl_append, List.reverse_reverse]

/-- As many steps upward as `back` has names take `back` off the stack, if these do not lead upward
themselves. -/
theorem foldl_pushSegment_back (rooted : Bool) {back : List Text} (hback : up ∉ back)
    (stack : List Text) :
    (List.replicate back.length up).foldl (pushSegment rooted) (back ++ stack) = stack := by
  induction back with
  | nil => rfl
  | cons name back ih =>
    rw [List.mem_cons, not_or] at hback
    have hpush : pushSegment rooted (name :: back ++ stack) up = back ++ stack := by
      rw [pushSegment.eq_def, if_pos rfl, List.cons_append]
      exact if_pos (Ne.symm hback.1)
    rw [List.length_cons, List.replicate_succ, List.foldl_cons, hpush]
    exact ih hback.2

/-- **Going back and down.** From names that are cleaned to `front ++ back`, steps upward that take
`back` away and then the names `down` lead to `front ++ down`, if that is clean. -/
theorem clean_back_down {rooted : Bool} {ns front back down : List Text}
    (hns : clean rooted ns = front ++ back) (hback : up ∉ back)
    (hclean : IsClean rooted (front ++ down)) :
    clean rooted (ns ++ (List.replicate back.length up ++ down)) = front ++ down := by
  have htaken : (List.replicate back.length up).foldl (pushSegment rooted) (front ++ back).reverse
      = front.reverse := by
    have htake := foldl_pushSegment_back rooted (mt List.mem_reverse.mp hback) front.reverse
    rwa [List.length_reverse, ← List.reverse_append] at htake
  -- the rest goes on as if the front had just been read
  have hrest := clean_of_isClean hclean
  rw [clean_append, clean_of_isClean hclean.of_append] at hrest
  rw [clean_append, hns, List.foldl_append, htaken, hrest]

/-! ## (2) Segments of a path -/

/-- What is on the stack after one more name was there before, or is that name. -/
theorem mem_pushSegment {rooted : Bool} {stack : List Text} {name part : Text}
    (hpart : part ∈ pushSegment rooted stack name) : part ∈ stack ∨ part = name := by
  rcases pushSegment_cases rooted stack name with ⟨heq, -⟩ | ⟨-, top, -, htop⟩ | ⟨-, -, heq⟩
  · rw [heq] at hpart
    exact (List.mem_cons.mp hpart).symm
  · rw [htop]
    exact Or.inl (List.mem_cons_of_mem top hpart)
  · rw [heq] at hpart
    exact Or.inl hpart

/-- The `segments` of a path are among its `names`. -/
theorem mem_names_of_mem_segments {p part : Text} (hpart : part ∈ segments p) : part ∈ names p := by
  have hrun : ∀ (ns stack : List Text), part ∈ ns.foldl (pushSegment (isRooted p)) stack →
      part ∈ stack ∨ part ∈ ns := by
    intro ns
    induction ns with
    | nil => exact fun stack hmem => Or.inl hmem
    | cons name ns ih =>
      intro stack hmem
      rcases ih _ hmem with hmem | hmem
      · rcases mem_pushSegment hmem with hmem | rfl
        · exact Or.inl hmem
        · exact Or.inr List.mem_cons_self
      · exact Or.inr (List.mem_cons_of_mem name hmem)
  have hmem := hrun (names p) [] (List.mem_reverse.mp hpart)
  exact hmem.resolve_left List.not_mem_nil

/-- `names (Text.joinWith "/" parts) = parts` for parts that are neither void nor divided by a
separator. -/
theorem names_joinWith_of_forall {parts : List Text}
    (hparts : ∀ part ∈ parts, '/' ∉ part ∧ isVoid part = false) :
    names (Text.joinWith "/" parts) = parts := by
  rw [names_joinWith fun part hpart => (hparts part hpart).1]
  refine List.filter_eq_self.mpr fun part hpart => ?_
  rw [(hparts part hpart).2]
  rfl

/-- `Text.joinWith "/" parts` does not begin with a separator, if no part does. -/
theorem isRooted_joinWith {parts : List Text}
    (hparts : ∀ part ∈ parts, '/' ∉ part ∧ isVoid part = false) :
    isRooted (Text.joinWith "/" parts) = false := by
  cases parts with
  | nil => rfl
  | cons first parts =>
    obtain ⟨hslash, hvoid⟩ := hparts first (by simp)
    cases first with
    | nil => exact absurd hvoid (by decide)
    | cons c first =>
      obtain ⟨rest, hrest⟩ := joinWith_cons_cons c first parts
      have hc : c ≠ '/' := fun heq => hslash (by simp [heq])
      rw [hrest, Bool.eq_false_iff, Ne, isRooted_iff, List.head?_cons, Option.some.injEq]
      exact hc

/-- `normalize p` depends on the root and the `segments` of `p` only. -/
theorem normalize_eq_of {p q : Text} (hrooted : isRooted p = isRooted q)
    (hsegments : segments p = segments q) : normalize p = normalize q := by
  rw [normalize, normalize, hrooted, hsegments]

/-- **`isRooted (normalize p) = isRooted p`.** -/
theorem isRooted_normalize (p : Text) : isRooted (normalize p) = isRooted p := by
  unfold normalize
  split
  · rename_i hrooted
    rw [hrooted, isRooted_iff]
    rfl
  · rename_i hrooted _
    rw [hrooted]
    rfl
  · rename_i hrooted _
    rw [hrooted]
    exact isRooted_joinWith fun part hpart => of_mem_names (mem_names_of_mem_segments hpart)

/-- **`names (normalize p) = segments p`.** -/
theorem names_normalize (p : Text) : names (normalize p) = segments p := by
  have hparts : ∀ part ∈ segments p, '/' ∉ part ∧ isVoid part = false :=
    fun part hpart => of_mem_names (mem_names_of_mem_segments hpart)
  unfold normalize
  split
  · have hnames := names_append [] (Text.joinWith "/" (segments p))
    rw [names_nil, List.nil_append, List.nil_append, names_joinWith_of_forall hparts] at hnames
    exact hnames
  · rename_i hnil
    rw [hnil]
    rfl
  · exact names_joinWith_of_forall hparts

/-- **`normalize p = normalize q`** exactly if `p` and `q` agree on the root and on the segments. -/
theorem normalize_eq_iff {p q : Text} :
    normalize p = normalize q ↔ isRooted p = isRooted q ∧ segments p = segments q := by
  constructor
  · intro heq
    have hrooted := congrArg isRooted heq
    have hsegments := congrArg names heq
    rw [isRooted_normalize, isRooted_normalize] at hrooted
    rw [names_normalize, names_normalize] at hsegments
    exact ⟨hrooted, hsegments⟩
  · exact fun ⟨hrooted, hsegments⟩ => normalize_eq_of hrooted hsegments

/-- The segments of `directory p` are the cleaned names of `p` but the last. An empty directory is
that of a path at the root, and has no names. -/
theorem segments_directory {p : Text} (hp : names p ≠ []) :
    segments (directory p) = clean (isRooted p) (names p).dropLast := by
  rw [segments_eq_clean, names_directory]
  by_cases hdir : directory p = []
  · have hnames := names_directory p
    rw [hdir, names_nil] at hnames
    rw [← hnames]
    rfl
  · rw [isRooted_directory hp hdir]

/-! ## (3) The way from one path to another -/

/-- `dropCommon (front ++ as) (front ++ bs) = dropCommon as bs`. -/
theorem dropCommon_append (front as bs : List Text) :
    dropCommon (front ++ as) (front ++ bs) = dropCommon as bs := by
  induction front with
  | nil => rfl
  | cons name front ih => rw [List.cons_append, List.cons_append, dropCommon, if_pos rfl, ih]

/-- **The way `relative? base target`** goes back from `base` to a common front and down from there
to `target`. It never goes back over a step upward. -/
theorem relative?_eq_some {base target path : Text} (hrelative : relative? base target = some path) :
    isRooted base = isRooted target ∧ ∃ front back down, segments base = front ++ back ∧
      segments target = front ++ down ∧ up ∉ back ∧
      (List.replicate back.length up ++ down ≠ [] →
        path = Text.joinWith "/" (List.replicate back.length up ++ down)) := by
  unfold relative? at hrelative
  by_cases hrooted : isRooted base = isRooted target
  · obtain ⟨front, hbase, htarget⟩ := exists_dropCommon (segments base) (segments target)
    rw [if_neg (not_not_intro hrooted)] at hrelative
    dsimp only at hrelative
    split at hrelative
    · cases hrelative
    · rename_i hback
      refine ⟨hrooted, front, _, _, hbase, htarget, hback, fun hne => ?_⟩
      split at hrelative
      · rename_i hnil
        exact absurd hnil hne
      · cases hrelative
        rfl
  · rw [if_pos hrooted] at hrelative
    cases hrelative

end InterfaceSchemes.Path
