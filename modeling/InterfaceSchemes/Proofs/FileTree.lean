import InterfaceSchemes.FileTree.Access
import InterfaceSchemes.Proofs.Path

/-! # File trees and the paths into them

A path is followed through a tree, and the tree decides how far one gets. Where one gets does not
depend on it: the names of the path alone say which location that is. This file separates the two.

* **`FileTree.node?_put_self`**, **`FileTree.node?_put_of_ne`** — a change is seen at its own location
  only.
* **`FileTree.put_eq_self`** — putting what is there changes nothing.
* **`FileTree.locationOf`**, **`FileTree.locate_location`** — the location of a path by its names.
* **`FileTree.Named`** — the names in the tree are names as a path can spell them.
* **`FileTree.follow_eq_of_keeps`** — a path that leads somewhere still does in a tree that has kept
  its directories.
* **`FileTree.slot_eq_some_iff`** — the place for a new entry, and the pieces of the path around it.
* **`FileTree.readText_eq_ok_iff`** — the text at the end of a path. -/

namespace InterfaceSchemes.FileTree

/-! ## (1) Changing one location -/

/-- The first entry decides about its own location. -/
theorem lookup_cons (key other : Location) (node : Node) (entries : List (Location × Node)) :
    ((key, node) :: entries).lookup other
      = if other = key then some node else entries.lookup other := by
  rw [List.lookup_cons]
  by_cases hother : other = key
  · rw [beq_iff_eq.mpr hother, if_pos hother]
  · rw [beq_eq_false_iff_ne.mpr hother, if_neg hother]

/-- `putEntry loc node` is seen by `lookup` at `loc` only. -/
theorem lookup_putEntry (loc other : Location) (node : Node) (entries : List (Location × Node)) :
    (putEntry loc node entries).lookup other
      = if other = loc then some node else entries.lookup other := by
  induction entries with
  | nil => rw [putEntry, lookup_cons]
  | cons entry entries ih =>
    obtain ⟨key, old⟩ := entry
    rw [putEntry]
    split
    · rw [lookup_cons]
    · split
      · -- the new entry takes the place of one with its location
        rename_i hkey
        obtain rfl : loc = key := hkey
        by_cases hother : other = loc
        · rw [lookup_cons, if_pos hother, if_pos hother]
        · rw [lookup_cons, if_neg hother, if_neg hother, lookup_cons, if_neg hother]
      · rename_i hkey
        rw [lookup_cons, lookup_cons, ih]
        by_cases hfirst : other = key
        · have hne : other ≠ loc := fun heq => hkey (heq.symm.trans hfirst)
          rw [if_pos hfirst, if_neg hne, if_pos hfirst]
        · rw [if_neg hfirst, if_neg hfirst]

/-- `putEntry loc node entries = entries` if the entry is in its place already. -/
theorem putEntry_eq_self {loc : Location} {node : Node} {entries : List (Location × Node)}
    (hsorted : entries.Pairwise fun a b => a.1 < b.1) (hmem : (loc, node) ∈ entries) :
    putEntry loc node entries = entries := by
  induction entries with
  | nil => exact absurd hmem List.not_mem_nil
  | cons entry entries ih =>
    obtain ⟨hfirst, hrest⟩ := List.pairwise_cons.mp hsorted
    rw [putEntry]
    rcases List.mem_cons.mp hmem with rfl | hmem
    · rw [if_neg (List.lt_irrefl _), if_pos rfl]
    · -- the entry is further on, so its location is greater than the first
      have hlt : entry.1 < loc := hfirst (loc, node) hmem
      have hne : loc ≠ entry.1 := fun heq => List.lt_irrefl loc (heq ▸ hlt)
      rw [if_neg (List.lt_asymm hlt), if_neg hne, ih hrest hmem]

/-- `filterMap select` does not see a change where it selects neither the new entry nor an old one.
-/
theorem filterMap_putEntry {α : Type} {select : Location × Node → Option α} {loc : Location}
    {node : Node} {entries : List (Location × Node)} (hnew : select (loc, node) = none)
    (hold : ∀ old, (loc, old) ∈ entries → select (loc, old) = none) :
    (putEntry loc node entries).filterMap select = entries.filterMap select := by
  induction entries with
  | nil => simp [putEntry, hnew]
  | cons entry entries ih =>
    rw [putEntry]
    split
    · rw [List.filterMap_cons_none hnew]
    · split
      · rename_i heq
        have hentry : select entry = none := by
          have hnone := hold entry.2 (by rw [heq]; exact List.mem_cons_self)
          rwa [heq] at hnone
        rw [List.filterMap_cons_none hnew, List.filterMap_cons_none hentry]
      · have hrest := ih fun old hmem => hold old (List.mem_cons_of_mem _ hmem)
        rw [List.filterMap_cons, List.filterMap_cons, hrest]

section

variable {t t' : FileTree} {loc other : Location} {node : Node}

/-- `t.node? [] = some .directory`: the root is a directory. -/
@[simp] theorem node?_nil (t : FileTree) : t.node? [] = some .directory := rfl

/-- `t.node? loc = t.entries.lookup loc` everywhere but at the root. -/
theorem node?_of_ne (hloc : loc ≠ []) : t.node? loc = t.entries.lookup loc := if_neg hloc

/-- **`(t.put loc node).node? loc = some node`**, unless `loc` is the root. -/
theorem node?_put_self (hloc : loc ≠ []) : (t.put loc node).node? loc = some node := by
  rw [node?_of_ne hloc, put, lookup_putEntry, if_pos rfl]

/-- **`t.put loc node` is not seen elsewhere.** -/
theorem node?_put_of_ne (hother : other ≠ loc) : (t.put loc node).node? other = t.node? other := by
  by_cases hroot : other = []
  · rw [hroot, node?_nil, node?_nil]
  · rw [node?_of_ne hroot, node?_of_ne hroot, put, lookup_putEntry, if_neg hother]

/-- Where nothing stands there is no entry. -/
theorem notMem_entries_of_node? (hnone : t.node? loc = none) (node : Node) :
    (loc, node) ∉ t.entries := by
  have hloc : loc ≠ [] := by
    rintro rfl
    cases hnone
  rw [node?_of_ne hloc, List.lookup_eq_none_iff] at hnone
  intro hmem
  simpa using hnone _ hmem

/-- `t.node? loc = some node` for every entry `(loc, node)`. -/
theorem node?_of_mem (hmem : (loc, node) ∈ t.entries) (hloc : loc ≠ []) :
    t.node? loc = some node := by
  have hput := lookup_putEntry loc loc node t.entries
  rw [putEntry_eq_self t.sorted hmem, if_pos rfl] at hput
  rw [node?_of_ne hloc, hput]

/-- **`t.put loc node = t`** if `node` stands there. -/
theorem put_eq_self (hloc : loc ≠ []) (hnode : t.node? loc = some node) : t.put loc node = t := by
  rw [node?_of_ne hloc] at hnode
  obtain ⟨front, back, hentries, -⟩ := List.lookup_eq_some_iff.mp hnode
  have hmem : (loc, node) ∈ t.entries := by simp [hentries]
  have hput := putEntry_eq_self t.sorted hmem
  obtain ⟨entries, sorted, home⟩ := t
  simp only [put, mk.injEq]
  exact ⟨hput, trivial⟩

end

/-! ## (2) The location of a path -/

/-- The location after one more name. -/
def enter (loc : Location) (name : Text) : Location :=
  if name = Path.up then loc.dropLast else loc ++ [name]

/-- The location to which a path leads, by its names alone. -/
def locationOf (t : FileTree) (path : Text) : Location :=
  (Path.names path).foldl enter (t.startOf path)

/-- `names.foldl enter loc = loc ++ names` for names that do not lead upward. -/
theorem foldl_enter_of_notMem {names : List Text} (hup : Path.up ∉ names) (loc : Location) :
    names.foldl enter loc = loc ++ names := by
  induction names generalizing loc with
  | nil => simp
  | cons name names ih =>
    rw [List.mem_cons, not_or] at hup
    rw [List.foldl_cons, enter, if_neg (Ne.symm hup.1), ih hup.2, List.append_assoc,
      List.singleton_append]

/-- **A tree whose names are names**: each is one piece of a path, and no step upward. -/
def Named (t : FileTree) : Prop := ∀ entry ∈ t.entries, ∀ name ∈ entry.1, Path.IsFileName name

instance (t : FileTree) : Decidable t.Named :=
  inferInstanceAs (Decidable (∀ entry ∈ t.entries, ∀ name ∈ entry.1, Path.IsFileName name))

/-- `t.locationOf path` has file names only, if the home directory has. -/
theorem isFileName_of_mem_locationOf {t : FileTree} (hhome : ∀ name ∈ t.home, Path.IsFileName name)
    (path : Text) : ∀ name ∈ t.locationOf path, Path.IsFileName name := by
  -- each name is entered or takes one off, so the location stays one of names
  have hrun : ∀ (names : List Text) (loc : Location),
      (∀ name ∈ names, '/' ∉ name ∧ Path.isVoid name = false) →
      (∀ name ∈ loc, Path.IsFileName name) →
      ∀ name ∈ names.foldl enter loc, Path.IsFileName name := by
    intro names
    induction names with
    | nil => exact fun loc _ hloc => hloc
    | cons first names ih =>
      intro loc hnames hloc
      refine ih _ (fun name hname => hnames name (List.mem_cons_of_mem _ hname)) ?_
      intro name hname
      unfold enter at hname
      split at hname
      · exact hloc name (List.dropLast_subset _ hname)
      · rename_i hup
        obtain ⟨hslash, hvoid⟩ := hnames first List.mem_cons_self
        rcases List.mem_append.mp hname with hmem | hmem
        · exact hloc name hmem
        · obtain rfl := List.mem_singleton.mp hmem
          exact ⟨hslash, hvoid, hup⟩
  refine hrun _ _ (fun name hname => Path.of_mem_names hname) ?_
  rw [startOf]
  split
  · exact fun name hname => absurd hname List.not_mem_nil
  · exact hhome

/-- `t.put loc node` is `Named` if `loc` has file names only. -/
theorem Named.put {t : FileTree} (hnamed : t.Named) {loc : Location}
    (hloc : ∀ name ∈ loc, Path.IsFileName name) (node : Node) : (t.put loc node).Named := by
  intro entry hentry
  rcases mem_putEntry hentry with rfl | hmem
  · exact hloc
  · exact hnamed entry hmem

/-- **`names.foldl enter loc`**: the names among the pieces say where `t.follow loc pieces` gets. -/
theorem follow_location {t : FileTree} {loc loc' : Location} {pieces : List Text} {node : Node}
    (hfollow : t.follow loc pieces = .ok (loc', node)) :
    loc' = (pieces.filter fun piece => !Path.isVoid piece).foldl enter loc := by
  fun_induction follow t loc pieces with
  | case1 loc =>
    cases hfollow
    rfl
  | case2 loc piece pieces hvoid ih => rw [List.filter_cons_of_neg (by simp [hvoid]), ih hfollow]
  | case3 loc pieces hvoid ih =>
    rw [List.filter_cons_of_pos (by simp [hvoid]), List.foldl_cons, enter, if_pos rfl, ih hfollow]
  | case4 => cases hfollow
  | case5 loc piece pieces hvoid hup hnode ih =>
    rw [List.filter_cons_of_pos (by simp [hvoid]), List.foldl_cons, enter, if_neg hup, ih hfollow]
  | case6 loc piece pieces hvoid hup bytes hnode hlast =>
    cases hfollow
    rw [List.isEmpty_iff.mp hlast, List.filter_cons_of_pos (by simp [hvoid])]
    simp [enter, hup]
  | case7 => cases hfollow

/-- A path to a directory is not empty. -/
theorem ne_nil_of_locate {t : FileTree} {root : Text} {found : Location × Node}
    (hlocate : t.locate root = .ok found) : root ≠ [] := by
  rintro rfl
  cases hlocate

/-- **`t.locate path` leads to `t.locationOf path`**, if it leads anywhere. -/
theorem locate_location {t : FileTree} {path : Text} {loc : Location} {node : Node}
    (hlocate : t.locate path = .ok (loc, node)) : loc = t.locationOf path := by
  rw [locate] at hlocate
  split at hlocate
  · cases hlocate
  · rw [follow_location hlocate, locationOf, Path.names_eq, ← Text.splitAt_eq_splitOn]

/-! ## (3) Following paths -/

section

variable {t t' : FileTree} {loc loc' : Location} {pieces more : List Text} {node : Node}

/-- `t.follow loc (pieces ++ more)` goes on from the directory that `pieces` lead to. -/
theorem follow_append (hfollow : t.follow loc pieces = .ok (loc', .directory)) (more : List Text) :
    t.follow loc (pieces ++ more) = t.follow loc' more := by
  fun_induction follow t loc pieces with
  | case1 loc =>
    cases hfollow
    rfl
  | case2 loc piece pieces hvoid ih => rw [List.cons_append, follow, if_pos hvoid, ih hfollow]
  | case3 loc pieces hvoid ih =>
    rw [List.cons_append, follow, if_neg hvoid, if_pos rfl, ih hfollow]
  | case4 => cases hfollow
  | case5 loc piece pieces hvoid hup hnode ih =>
    rw [List.cons_append, follow, if_neg hvoid, if_neg hup, hnode]
    exact ih hfollow
  | case6 => cases hfollow
  | case7 => cases hfollow

/-- Void pieces lead nowhere else. -/
theorem follow_of_isVoid (hvoid : ∀ piece ∈ pieces, Path.isVoid piece = true) :
    t.follow loc pieces = .ok (loc, .directory) := by
  induction pieces with
  | nil => rfl
  | cons piece pieces ih =>
    rw [follow, if_pos (hvoid piece List.mem_cons_self)]
    exact ih fun piece hpiece => hvoid piece (List.mem_cons_of_mem _ hpiece)

/-- **`t.follow` finds a directory by the names alone.** -/
theorem follow_filter : t.follow loc (pieces.filter fun piece => !Path.isVoid piece)
      = .ok (loc', .directory) ↔ t.follow loc pieces = .ok (loc', .directory) := by
  fun_induction follow t loc pieces with
  | case1 loc => rfl
  | case2 loc piece pieces hvoid ih => rw [List.filter_cons_of_neg (by simp [hvoid]), ih]
  | case3 loc pieces hvoid ih =>
    rw [List.filter_cons_of_pos (by simp [hvoid]), follow, if_neg hvoid, if_pos rfl, ih]
  | case4 loc piece pieces hvoid hup hnode =>
    rw [List.filter_cons_of_pos (by simp [hvoid]), follow, if_neg hvoid, if_neg hup, hnode]
  | case5 loc piece pieces hvoid hup hnode ih =>
    rw [List.filter_cons_of_pos (by simp [hvoid]), follow, if_neg hvoid, if_neg hup, hnode, ← ih]
  | case6 loc piece pieces hvoid hup bytes hnode hlast =>
    rw [List.isEmpty_iff.mp hlast, List.filter_cons_of_pos (by simp [hvoid]), follow, if_neg hvoid,
      if_neg hup, hnode]
    simp
  | case7 loc piece pieces hvoid hup bytes hnode hlast =>
    rw [List.filter_cons_of_pos (by simp [hvoid]), follow, if_neg hvoid, if_neg hup, hnode]
    dsimp only
    split <;> simp

/-- **`t.follow` reaches a file by the last piece**, which is its name. -/
theorem follow_eq_file {bytes : ByteArray}
    (hfollow : t.follow loc pieces = .ok (loc', .file bytes)) :
    ∃ above directory name, pieces = above ++ [name] ∧ Path.isVoid name = false ∧ name ≠ Path.up ∧
      t.follow loc above = .ok (directory, .directory) ∧ loc' = directory ++ [name] ∧
      t.node? loc' = some (.file bytes) := by
  fun_induction follow t loc pieces with
  | case1 => cases hfollow
  | case2 loc piece pieces hvoid ih =>
    obtain ⟨above, directory, name, rfl, hname, hnotUp, habove, hrest⟩ := ih hfollow
    refine ⟨piece :: above, directory, name, rfl, hname, hnotUp, ?_, hrest⟩
    rw [follow, if_pos hvoid, habove]
  | case3 loc pieces hvoid ih =>
    obtain ⟨above, directory, name, rfl, hname, hnotUp, habove, hrest⟩ := ih hfollow
    refine ⟨Path.up :: above, directory, name, rfl, hname, hnotUp, ?_, hrest⟩
    rw [follow, if_neg hvoid, if_pos rfl, habove]
  | case4 => cases hfollow
  | case5 loc piece pieces hvoid hup hnode ih =>
    obtain ⟨above, directory, name, rfl, hname, hnotUp, habove, hrest⟩ := ih hfollow
    refine ⟨piece :: above, directory, name, rfl, hname, hnotUp, ?_, hrest⟩
    rw [follow, if_neg hvoid, if_neg hup, hnode]
    exact habove
  | case6 loc piece pieces hvoid hup bytes' hnode hlast =>
    cases hfollow
    refine ⟨[], loc, piece, ?_, by simpa using hvoid, hup, rfl, rfl, hnode⟩
    rw [List.isEmpty_iff.mp hlast, List.nil_append]
  | case7 => cases hfollow

/-- **`t'` has kept the directories of `t`**, and the home directory among them. -/
structure KeepsDirectories (t t' : FileTree) : Prop where
  /-- Relative paths start where they did. -/
  home : t'.home = t.home
  /-- A directory stays one. -/
  directory : ∀ loc, t.node? loc = some .directory → t'.node? loc = some .directory

/-- Nothing has to be done to keep the directories. -/
theorem KeepsDirectories.refl (t : FileTree) : t.KeepsDirectories t := ⟨rfl, fun _ hloc => hloc⟩

/-- Directories that are kept twice are kept. -/
theorem KeepsDirectories.trans {t'' : FileTree} (hkeeps : t.KeepsDirectories t')
    (hkeeps' : t'.KeepsDirectories t'') : t.KeepsDirectories t'' :=
  ⟨hkeeps'.home.trans hkeeps.home, fun loc hloc => hkeeps'.directory loc (hkeeps.directory loc hloc)⟩

/-- `t.KeepsDirectories (t.put loc node)` where no directory is at `loc`. -/
theorem keepsDirectories_put (hloc : t.node? loc ≠ some .directory) (node : Node) :
    t.KeepsDirectories (t.put loc node) := by
  refine ⟨rfl, fun other hother => ?_⟩
  have hne : other ≠ loc := by
    rintro rfl
    exact hloc hother
  rw [node?_put_of_ne hne, hother]

/-- `t'.startOf path = t.startOf path`. -/
theorem KeepsDirectories.startOf_eq (hkeeps : t.KeepsDirectories t') (path : Text) :
    t'.startOf path = t.startOf path := by
  rw [startOf, startOf, hkeeps.home]

/-- `t'.locationOf path = t.locationOf path`. -/
theorem KeepsDirectories.locationOf_eq (hkeeps : t.KeepsDirectories t') (path : Text) :
    t'.locationOf path = t.locationOf path := by
  rw [locationOf, locationOf, hkeeps.startOf_eq]

/-- **`t'.follow` finds again what `t.follow` does**, if it is a directory or still stands there. -/
theorem follow_eq_of_keeps (hkeeps : t.KeepsDirectories t')
    (hfollow : t.follow loc pieces = .ok (loc', node))
    (hnode : node = .directory ∨ t'.node? loc' = some node) :
    t'.follow loc pieces = .ok (loc', node) := by
  fun_induction follow t loc pieces with
  | case1 loc => exact hfollow
  | case2 loc piece pieces hvoid ih => rw [follow, if_pos hvoid, ih hfollow]
  | case3 loc pieces hvoid ih => rw [follow, if_neg hvoid, if_pos rfl, ih hfollow]
  | case4 => cases hfollow
  | case5 loc piece pieces hvoid hup hdirectory ih =>
    rw [follow, if_neg hvoid, if_neg hup, hkeeps.directory _ hdirectory]
    exact ih hfollow
  | case6 loc piece pieces hvoid hup bytes hfile hlast =>
    -- a file is not kept by the directories: it has to be there still
    cases hfollow
    rw [follow, if_neg hvoid, if_neg hup, hnode.resolve_left (by simp)]
    exact if_pos hlast
  | case7 => cases hfollow

/-- `t'.locate` finds again what `t.locate` does, if it is a directory or still stands there. -/
theorem locate_eq_of_keeps (hkeeps : t.KeepsDirectories t') {path : Text}
    (hlocate : t.locate path = .ok (loc, node))
    (hnode : node = .directory ∨ t'.node? loc = some node) : t'.locate path = .ok (loc, node) := by
  rw [locate] at hlocate ⊢
  split at hlocate
  · cases hlocate
  · rename_i hpath
    rw [if_neg hpath, hkeeps.startOf_eq]
    exact follow_eq_of_keeps hkeeps hlocate hnode

/-- `t.isDirectory path` is a matter of the names and the root of `path`. -/
theorem isDirectory_iff {path : Text} :
    t.isDirectory path = true ↔ path ≠ [] ∧ ∃ loc,
      t.follow (t.startOf path) (Path.names path) = .ok (loc, .directory) := by
  rw [Path.names_eq, ← Text.splitAt_eq_splitOn]
  simp only [follow_filter]
  rw [isDirectory, locate]
  by_cases hpath : path = []
  · simp [hpath]
  · rw [if_neg (by simpa using hpath)]
    split
    · rename_i loc hfollow
      simp [hpath, hfollow]
    · rename_i hother
      simp only [Bool.false_eq_true, false_iff, not_and, not_exists]
      exact fun _ loc hfollow => hother loc hfollow

end

/-! ## (4) Places for new entries -/

section

variable {t : FileTree} {path name : Text} {loc : Location} {closed : Bool}

/-- The last piece that is not empty, and whether empty ones follow it. -/
theorem lastPiece_eq (above : List Text) {blanks : List Text} (hname : Path.isVoid name = false)
    (hblanks : ∀ piece ∈ blanks, piece = []) :
    (above ++ name :: blanks).reverse.dropWhile List.isEmpty = name :: above.reverse ∧
      ((above ++ name :: blanks).reverse.head? == some []) = !blanks.isEmpty := by
  have hne : name ≠ [] := by
    rintro rfl
    cases hname
  have hreverse : (above ++ name :: blanks).reverse = blanks.reverse ++ name :: above.reverse := by
    simp
  constructor
  · rw [hreverse, List.dropWhile_append_of_pos (by simpa using hblanks),
      List.dropWhile_cons_of_neg (by simpa using hne)]
  · cases blanks using List.reverseRecOn with
    | nil => simpa using hne
    | append_singleton blanks piece => simp [hblanks piece (by simp)]

/-- **`t.slot path`, the place for a new entry**, is a directory and a name, the last piece of the
path that is not empty. -/
theorem slot_eq_some_iff : t.slot path = .ok ⟨loc, some name, closed⟩ ↔
    path ≠ [] ∧ ∃ above blanks, Text.splitAt '/' path = above ++ name :: blanks ∧
      (∀ piece ∈ blanks, piece = []) ∧ Path.isVoid name = false ∧ name ≠ Path.up ∧
      t.follow (t.startOf path) above = .ok (loc, .directory) ∧ closed = !blanks.isEmpty := by
  constructor
  · intro hslot
    unfold slot at hslot
    split at hslot
    · cases hslot
    · rename_i hpath
      refine ⟨by simpa using hpath, ?_⟩
      dsimp only at hslot
      split at hslot
      · cases hslot
      · rename_i last above hdrop
        split at hslot
        · cases hslot
        · cases hslot
        · rename_i loc' hfollow
          simp only [Except.ok.injEq, Slot.mk.injEq, Option.ite_none_right_eq_some,
            Bool.and_eq_true, Bool.not_eq_eq_eq_not, Bool.not_true, bne_iff_ne, ne_eq,
            Option.some.injEq] at hslot
          obtain ⟨rfl, ⟨⟨hvoid, hup⟩, rfl⟩, rfl⟩ := hslot
          -- the empty pieces are those that were dropped
          have hsplit : Text.splitAt '/' path = above.reverse ++ last ::
              ((Text.splitAt '/' path).reverse.takeWhile List.isEmpty).reverse := by
            have hboth := @List.takeWhile_append_dropWhile _ List.isEmpty
              (Text.splitAt '/' path).reverse
            rw [hdrop] at hboth
            simpa using congrArg List.reverse hboth.symm
          have hblanks : ∀ piece ∈
              ((Text.splitAt '/' path).reverse.takeWhile List.isEmpty).reverse, piece = [] :=
            fun piece hpiece =>
              List.isEmpty_iff.mp (List.mem_takeWhile_imp (List.mem_reverse.mp hpiece))
          refine ⟨_, _, hsplit, hblanks, hvoid, hup, hfollow, ?_⟩
          have hhead := (lastPiece_eq above.reverse hvoid hblanks).2
          rwa [← hsplit] at hhead
  · rintro ⟨hpath, above, blanks, hsplit, hblanks, hvoid, hup, hfollow, rfl⟩
    obtain ⟨hdrop, hhead⟩ := lastPiece_eq above hvoid hblanks
    unfold slot
    rw [if_neg (by simpa using hpath), hsplit]
    dsimp only
    rw [hdrop, hhead]
    dsimp only
    rw [List.reverse_reverse, hfollow]
    simp [hvoid, hup]

/-- `t'.slot path = t.slot path` in a tree that has kept its directories. -/
theorem slot_eq_of_keeps {t' : FileTree} (hkeeps : t.KeepsDirectories t')
    (hslot : t.slot path = .ok ⟨loc, some name, closed⟩) :
    t'.slot path = .ok ⟨loc, some name, closed⟩ := by
  obtain ⟨hpath, above, blanks, hsplit, hblanks, hvoid, hup, hfollow, hclosed⟩ :=
    slot_eq_some_iff.mp hslot
  have hfollow' := follow_eq_of_keeps hkeeps hfollow (Or.inl rfl)
  rw [← hkeeps.startOf_eq] at hfollow'
  exact slot_eq_some_iff.mpr ⟨hpath, above, blanks, hsplit, hblanks, hvoid, hup, hfollow', hclosed⟩

/-- **`Path.names path = front ++ [name]`**: the names of the path to a place are those of the
directory and the name. -/
theorem names_of_slot (hslot : t.slot path = .ok ⟨loc, some name, closed⟩) :
    ∃ front, Path.names path = front ++ [name] ∧ name ≠ Path.up ∧
      t.follow (t.startOf path) front = .ok (loc, .directory) ∧
      front.foldl enter (t.startOf path) = loc := by
  obtain ⟨-, above, blanks, hsplit, hblanks, hvoid, hup, hfollow, -⟩ := slot_eq_some_iff.mp hslot
  have hnone : blanks.filter (fun piece => !Path.isVoid piece) = [] := by
    rw [List.filter_eq_nil_iff]
    intro piece hpiece
    rw [hblanks piece hpiece]
    decide
  refine ⟨above.filter fun piece => !Path.isVoid piece, ?_, hup, follow_filter.mpr hfollow,
    (follow_location hfollow).symm⟩
  rw [Path.names_eq, ← Text.splitAt_eq_splitOn, hsplit, List.filter_append,
    List.filter_cons_of_pos (by simp [hvoid]), hnone]

/-- `t.locationOf path = loc ++ [name]` for a place `name` in the directory at `loc`. -/
theorem locationOf_of_slot (hslot : t.slot path = .ok ⟨loc, some name, closed⟩) :
    t.locationOf path = loc ++ [name] := by
  obtain ⟨front, hnames, hup, -, hloc⟩ := names_of_slot hslot
  rw [locationOf, hnames, List.foldl_append, hloc, List.foldl_cons, List.foldl_nil, enter,
    if_neg hup]

/-- A path with the root of a place and the names of its directory leads to a directory. -/
theorem isDirectory_of_slot (hslot : t.slot path = .ok ⟨loc, some name, closed⟩) {above : Text}
    (hne : above ≠ []) (hnames : Path.names above = (Path.names path).dropLast)
    (hrooted : Path.isRooted above = Path.isRooted path) : t.isDirectory above = true := by
  obtain ⟨front, hfront, -, hfollow, -⟩ := names_of_slot hslot
  have hstart : t.startOf above = t.startOf path := by rw [startOf, startOf, hrooted]
  refine isDirectory_iff.mpr ⟨hne, loc, ?_⟩
  rw [hstart, hnames, hfront, List.dropLast_concat, hfollow]

/-- `t.locate path` gives what stands at the place that `path` leads to. -/
theorem locate_of_slot (hslot : t.slot path = .ok ⟨loc, some name, closed⟩) :
    t.locate path = match t.node? (loc ++ [name]) with
      | none => .error .notFound
      | some .directory => .ok (loc ++ [name], .directory)
      | some (.file bytes) =>
        if closed then .error .notDirectory else .ok (loc ++ [name], .file bytes) := by
  obtain ⟨hpath, above, blanks, hsplit, hblanks, hvoid, hup, hfollow, rfl⟩ :=
    slot_eq_some_iff.mp hslot
  have hblank : ∀ piece ∈ blanks, Path.isVoid piece = true := by
    intro piece hpiece
    rw [hblanks piece hpiece]
    rfl
  rw [locate, if_neg (by simpa using hpath), hsplit, follow_append hfollow, follow,
    if_neg (by simp [hvoid]), if_neg hup]
  cases t.node? (loc ++ [name]) with
  | none => rfl
  | some node =>
    cases node with
    | directory => exact follow_of_isVoid hblank
    | file bytes => cases blanks <;> rfl

/-- The path of a file leads to a place. -/
theorem slot_of_locate_file {bytes : ByteArray} (hlocate : t.locate path = .ok (loc, .file bytes)) :
    ∃ directory name, t.slot path = .ok ⟨directory, some name, false⟩ ∧ loc = directory ++ [name] ∧
      t.node? loc = some (.file bytes) := by
  rw [locate] at hlocate
  split at hlocate
  · cases hlocate
  · rename_i hpath
    obtain ⟨above, directory, name, hsplit, hvoid, hup, hfollow, hloc, hnode⟩ :=
      follow_eq_file hlocate
    refine ⟨directory, name, ?_, hloc, hnode⟩
    exact slot_eq_some_iff.mpr ⟨by simpa using hpath, above, [], hsplit, by simp, hvoid, hup, hfollow,
      rfl⟩

end

end InterfaceSchemes.FileTree

namespace InterfaceSchemes

/-! ## (5) Texts in files -/

/-- `ofBytes? (toBytes s) = some s`: a text that has been stored can be read. -/
theorem Text.ofBytes?_toBytes (s : Text) : Text.ofBytes? (Text.toBytes s) = some s := by
  have hvalid : String.fromUTF8? (Text.toBytes s) = some (String.ofList s) :=
    dif_pos (String.ofList s).isValidUTF8
  rw [ofBytes?, hvalid, Option.map_some, String.toList_ofList]

/-- `t.readText path` is the text of the file that `path` leads to. -/
theorem FileTree.readText_eq_ok_iff {t : FileTree} {path text : Text} :
    t.readText path = .ok text ↔ ∃ loc bytes, t.locate path = .ok (loc, .file bytes) ∧
      Text.ofBytes? bytes = some text := by
  rw [readText]
  constructor
  · intro hread
    split at hread
    · cases hread
    · cases hread
    · rename_i loc bytes hlocate
      split at hread
      · rename_i text' hbytes
        cases hread
        exact ⟨loc, bytes, hlocate, hbytes⟩
      · cases hread
  · rintro ⟨loc, bytes, hlocate, hbytes⟩
    rw [hlocate]
    dsimp only
    rw [hbytes]

end InterfaceSchemes
