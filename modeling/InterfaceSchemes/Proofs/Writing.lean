import InterfaceSchemes.Proofs.Fallible
import InterfaceSchemes.Proofs.FileTree
import InterfaceSchemes.Storage

/-! # What writing does to a file tree

Every operation that writes comes down to two kinds of steps: it makes a directory where nothing is,
or it puts a file where no directory is. This file says so once for each operation. All that later
proofs need about trees before and after a run follows from the two kinds of steps.

* **`FileTree.Rewrites`** — one tree comes from another by such steps, with files at given locations.
* **`FileTree.Rewrites.keeps`**, **`FileTree.Rewrites.named`** — directories and names stay.
* **`FileTree.Rewrites.node?_of_notMem`**, **`FileTree.Rewrites.filterMap_entries`** — what such steps
  leave alone.
* **`FileTree.writeOutputs_rewrites`** — files written in order touch no others.
* **`FileTree.writeOutputs_eq_ok`** — files written at different locations are all there.
* **`FileTree.writeOutputs_of_located`** — writing what is there changes nothing.
* **`FileTree.Loaded.named`** — the trees that a command starts with have names only. -/

namespace InterfaceSchemes.FileTree

/-! ## (1) Steps -/

/-- **`Rewrites written t t'`**: the tree `t'` comes from `t` by making directories where nothing was,
and by putting files at the locations `written` where no directory was. Each location is that of a
path. -/
inductive Rewrites (written : List Location) (t : FileTree) : FileTree → Prop
  /-- Nothing has been done. -/
  | refl : Rewrites written t t
  /-- One more directory. -/
  | directory {t' : FileTree} (path : Text) (hrest : Rewrites written t t')
      (hnone : t'.node? (t'.locationOf path) = none) :
      Rewrites written t (t'.put (t'.locationOf path) .directory)
  /-- One more file. -/
  | file {t' : FileTree} (path : Text) {bytes : ByteArray} (hrest : Rewrites written t t')
      (hwritten : t'.locationOf path ∈ written)
      (hnode : t'.node? (t'.locationOf path) ≠ some .directory) :
      Rewrites written t (t'.put (t'.locationOf path) (.file bytes))

namespace Rewrites

variable {written : List Location} {t t' t'' : FileTree} {loc : Location}

/-- `Rewrites more t t'` for `written ⊆ more`: more locations may be allowed. -/
theorem mono {more : List Location} (hsub : written ⊆ more) (h : Rewrites written t t') :
    Rewrites more t t' := by
  induction h with
  | refl => exact .refl
  | directory path _ hnone ih => exact .directory path ih hnone
  | file path _ hwritten hnode ih => exact .file path ih (hsub hwritten) hnode

/-- Steps after steps. -/
theorem trans (h : Rewrites written t t') (h' : Rewrites written t' t'') :
    Rewrites written t t'' := by
  induction h' with
  | refl => exact h
  | directory path _ hnone ih => exact .directory path ih hnone
  | file path _ hwritten hnode ih => exact .file path ih hwritten hnode

/-- **`t.KeepsDirectories t'`.** -/
theorem keeps (h : Rewrites written t t') : t.KeepsDirectories t' := by
  induction h with
  | refl => exact .refl t
  | directory path _ hnone ih => exact ih.trans (keepsDirectories_put (by simp [hnone]) _)
  | file path _ _ hnode ih => exact ih.trans (keepsDirectories_put hnode _)

/-- **`t'.Named`**: names stay names. -/
theorem named (h : Rewrites written t t') (hnamed : t.Named)
    (hhome : ∀ name ∈ t.home, Path.IsFileName name) : t'.Named := by
  induction h with
  | refl => exact hnamed
  | directory path hrest _ ih =>
    exact ih.put (isFileName_of_mem_locationOf (hrest.keeps.home ▸ hhome) path) _
  | file path hrest _ _ ih =>
    exact ih.put (isFileName_of_mem_locationOf (hrest.keeps.home ▸ hhome) path) _

/-- **`t'.node? loc` elsewhere** is as it was, or a directory has been made where nothing was. -/
theorem node?_of_notMem (h : Rewrites written t t') (hloc : loc ∉ written) :
    t'.node? loc = t.node? loc ∨ t.node? loc = none ∧ t'.node? loc = some .directory := by
  induction h with
  | refl => exact Or.inl rfl
  | @directory t' path _ hnone ih =>
    by_cases hmade : loc = t'.locationOf path
    · rw [← hmade] at hnone ⊢
      have hne : loc ≠ [] := by
        rintro rfl
        cases hnone
      -- nothing stood there just before, so nothing stood there at the start
      refine Or.inr ⟨?_, node?_put_self hne⟩
      rcases ih with hsame | ⟨hbefore, -⟩
      · rw [← hsame, hnone]
      · exact hbefore
    · rwa [node?_put_of_ne hmade]
  | @file t' path bytes _ hwritten hnode ih =>
    have hmade : loc ≠ t'.locationOf path := by
      rintro rfl
      exact hloc hwritten
    rwa [node?_put_of_ne hmade]

/-- A file elsewhere is as it was. -/
theorem node?_file (h : Rewrites written t t') (hloc : loc ∉ written) {bytes : ByteArray}
    (hfile : t.node? loc = some (.file bytes)) : t'.node? loc = some (.file bytes) := by
  rcases h.node?_of_notMem hloc with hsame | ⟨hbefore, -⟩
  · rw [hsame, hfile]
  · rw [hfile] at hbefore
    cases hbefore

/-- **`filterMap select` over the entries sees no change**, if it selects neither directories nor
written files. -/
theorem filterMap_entries {α : Type} {select : Location × Node → Option α}
    (h : Rewrites written t t') (hdirectory : ∀ loc, select (loc, .directory) = none)
    (hwritten : ∀ loc ∈ written, ∀ node, select (loc, node) = none) :
    t'.entries.filterMap select = t.entries.filterMap select := by
  induction h with
  | refl => rfl
  | directory path _ hnone ih =>
    rw [← ih]
    exact filterMap_putEntry (hdirectory _)
      fun old hold => absurd hold (notMem_entries_of_node? hnone old)
  | file path _ hmem hnode ih =>
    rw [← ih]
    exact filterMap_putEntry (hwritten _ hmem _) fun old _ => hwritten _ hmem old

end Rewrites

/-! ## (2) Making directories -/

section

variable {t t' : FileTree} {path : Text}

/-- `t.makeDirectory path` is one step. -/
theorem makeDirectory_rewrites (h : t.makeDirectory path = .ok t') : Rewrites [] t t' := by
  unfold makeDirectory at h
  split at h
  · cases h
  · rename_i loc name closed hslot
    split at h
    · cases h
    · rename_i hsome
      cases h
      rw [← locationOf_of_slot hslot] at hsome ⊢
      exact .directory path .refl (by simpa using hsome)
  · cases h

/-- A directory that is there or is made. -/
theorem ensureDirectory_rewrites (h : t.ensureDirectory path = .ok t') : Rewrites [] t t' := by
  unfold ensureDirectory at h
  split at h
  · rename_i hmake
    cases h
    exact makeDirectory_rewrites hmake
  · split at h
    · cases h
      exact .refl
    · cases h

/-- `t.makeAlong paths` makes directories along a path. What has been made before a failure counts
as well. -/
theorem makeAlong_rewrites (t : FileTree) (paths : List Text) :
    Rewrites [] t (t.makeAlong paths).2 := by
  induction paths generalizing t with
  | nil => exact .refl
  | cons path above ih =>
    unfold makeAlong
    split
    · rename_i t' hensure
      exact ensureDirectory_rewrites hensure
    · have habove := ih t
      split
      · rename_i failure t' hmade
        rwa [hmade] at habove
      · rename_i t' hmade
        rw [hmade] at habove
        split
        · rename_i t'' hensure
          exact habove.trans (ensureDirectory_rewrites hensure)
        · exact habove
    · exact .refl

/-- The directories that a file needs. -/
theorem makeParents_rewrites (t : FileTree) (path : Text) : Rewrites [] t (t.makeParents path).2 := by
  unfold makeParents
  split
  · exact .refl
  · rename_i parent hparent
    have hmade := makeAlong_rewrites t (Path.ancestors parent)
    rw [← makeDirectories] at hmade
    split <;> rename_i hresult <;> rwa [hresult] at hmade

/-- **`t.ensureDirectory path = .ok t` for a directory that is there.** -/
theorem ensureDirectory_of_isDirectory (hdirectory : t.isDirectory path = true) :
    t.ensureDirectory path = .ok t := by
  unfold ensureDirectory
  split
  · rename_i t' hmake
    exfalso
    unfold makeDirectory at hmake
    split at hmake
    · cases hmake
    · rename_i loc name closed hslot
      split at hmake
      · cases hmake
      · -- nothing stands at the place, but the path leads to a directory there
        rename_i hsome
        have hnone : t.node? (loc ++ [name]) = none := by simpa using hsome
        have hlocate := locate_of_slot hslot
        rw [hnone] at hlocate
        rw [isDirectory, hlocate] at hdirectory
        cases hdirectory
    · cases hmake
  · rw [if_pos hdirectory]

end

/-! ## (3) Writing files -/

section

variable {t t' : FileTree} {path text : Text}

/-- **A file that `t.writeBytes` has written is there.** -/
theorem writeBytes_spec {bytes : ByteArray} (h : t.writeBytes path bytes = .ok t') :
    Rewrites [t.locationOf path] t t' ∧
      t'.locate path = .ok (t.locationOf path, .file bytes) := by
  unfold writeBytes at h
  split at h
  · cases h
  · rename_i loc name hslot
    split at h
    · cases h
    · rename_i hnode
      cases h
      have hloc := locationOf_of_slot hslot
      rw [← hloc] at hnode ⊢
      have hstep : Rewrites [t.locationOf path] t (t.put (t.locationOf path) (.file bytes)) :=
        .file path .refl List.mem_cons_self hnode
      refine ⟨hstep, ?_⟩
      rw [locate_of_slot (slot_eq_of_keeps hstep.keeps hslot), ← hloc,
        node?_put_self (by simp [hloc])]
      rfl
  · cases h

/-- Directories and then a file. -/
theorem Rewrites.writeBytes {made : FileTree} {bytes : ByteArray} (hparents : Rewrites [] t made)
    (hwrite : made.writeBytes path bytes = .ok t') : Rewrites [t.locationOf path] t t' := by
  have hstep := (writeBytes_spec hwrite).1
  rw [hparents.keeps.locationOf_eq] at hstep
  exact (hparents.mono (List.nil_subset _)).trans hstep

/-- `t.writeOutput path text` touches no file but the one at `path`, also if it fails. -/
theorem writeOutput_rewrites (t : FileTree) (path text : Text) :
    Rewrites [t.locationOf path] t (t.writeOutput path text).2 := by
  have hparents := makeParents_rewrites t path
  unfold writeOutput
  split
  · rename_i hmade
    rw [hmade] at hparents
    exact hparents.mono (List.nil_subset _)
  · rename_i made hmade
    rw [hmade] at hparents
    split
    · exact hparents.mono (List.nil_subset _)
    · rename_i hwrite
      exact hparents.writeBytes hwrite

/-- `t'.locate path` finds the file that `t.writeOutput` has written. -/
theorem locate_of_writeOutput (h : t.writeOutput path text = (.ok (), t')) :
    t'.locate path = .ok (t.locationOf path, .file (Text.toBytes text)) := by
  have hparents := makeParents_rewrites t path
  unfold writeOutput at h
  split at h
  · cases h
  · rename_i made hmade
    rw [hmade] at hparents
    split at h
    · cases h
    · rename_i hwrite
      cases h
      rw [← hparents.keeps.locationOf_eq]
      exact (writeBytes_spec hwrite).2

/-- **`t.writeOutputs outputs` touches no other file**, also if it fails on the way. -/
theorem writeOutputs_rewrites (t : FileTree) (outputs : List (Text × Text)) :
    Rewrites (outputs.map fun output => t.locationOf output.1) t (t.writeOutputs outputs).2 := by
  induction outputs generalizing t with
  | nil => exact .refl
  | cons output outputs ih =>
    obtain ⟨path, text⟩ := output
    have hfirst : Rewrites (t.locationOf path :: outputs.map fun output => t.locationOf output.1) t
        (t.writeOutput path text).2 := (writeOutput_rewrites t path text).mono (by simp)
    unfold writeOutputs
    split
    · rename_i hwrite
      rwa [hwrite] at hfirst
    · rename_i made hwrite
      rw [hwrite] at hfirst
      have hrest := ih made
      -- the first file has not moved the locations of the others
      simp only [hfirst.keeps.locationOf_eq] at hrest
      exact hfirst.trans (hrest.mono (List.subset_cons_self _ _))

/-- **Files that `t.writeOutputs` puts at different locations are all there.** -/
theorem writeOutputs_eq_ok {outputs : List (Text × Text)} {paths : List Text}
    (h : t.writeOutputs outputs = (.ok paths, t')) :
    paths = outputs.map Prod.fst ∧
      ((outputs.map fun output => t.locationOf output.1).Nodup → ∀ output ∈ outputs,
        t'.locate output.1 = .ok (t.locationOf output.1, .file (Text.toBytes output.2))) := by
  induction outputs generalizing t paths with
  | nil =>
    cases h
    exact ⟨rfl, fun _ output houtput => absurd houtput List.not_mem_nil⟩
  | cons output outputs ih =>
    obtain ⟨path, text⟩ := output
    unfold writeOutputs at h
    split at h
    · cases h
    · rename_i made hwrite
      have hlocate := locate_of_writeOutput hwrite
      have hkeeps := (writeOutput_rewrites t path text).keeps
      have hsteps := writeOutputs_rewrites made outputs
      cases hrest : made.writeOutputs outputs with
      | mk result after =>
        rw [hrest] at h hsteps
        rw [hwrite] at hkeeps
        obtain ⟨hresult, rfl⟩ := Prod.mk.inj h
        obtain ⟨paths, rfl, rfl⟩ := Fallible.map_eq_ok_iff.mp hresult
        obtain ⟨rfl, hlocates⟩ := ih hrest
        simp only [hkeeps.locationOf_eq] at hsteps hlocates
        refine ⟨rfl, fun hnodup => ?_⟩
        obtain ⟨hnew, hnodup⟩ := List.nodup_cons.mp hnodup
        intro output houtput
        rcases List.mem_cons.mp houtput with rfl | houtput
        · -- the files after this one are written elsewhere
          obtain ⟨directory, name, -, -, hnode⟩ := slot_of_locate_file hlocate
          exact locate_eq_of_keeps hsteps.keeps hlocate (Or.inr (hsteps.node?_file hnew hnode))
        · exact hlocates hnodup output houtput

/-- **`t.writeOutput path text = (.ok (), t)` where the text is there.** The path leads to a file,
so the directories that it needs are there as well. -/
theorem writeOutput_of_locate {loc : Location}
    (hlocate : t.locate path = .ok (loc, .file (Text.toBytes text))) :
    t.writeOutput path text = (.ok (), t) := by
  obtain ⟨directory, name, hslot, rfl, hnode⟩ := slot_of_locate_file hlocate
  have hparents : t.makeParents path = (.ok (), t) := by
    unfold makeParents
    split
    · rfl
    · rename_i parent hparent
      have hmade : t.makeDirectories parent = (.ok (), t) := by
        rw [makeDirectories]
        cases hancestors : Path.ancestors parent with
        | nil => rfl
        | cons first above =>
          -- the nearest of the directories is there, so no further one is looked at
          have hnames : Path.names path ≠ [] := by
            obtain ⟨front, hnames, -⟩ := names_of_slot hslot
            simp [hnames]
          have hhead : first ∈ (Path.ancestors parent).head? := by simp [hancestors]
          obtain ⟨hne, hfront, hrooted⟩ := Path.head?_ancestors_parent hnames hparent hhead
          rw [makeAlong, ensureDirectory_of_isDirectory
            (isDirectory_of_slot hslot hne hfront hrooted)]
      rw [hmade]
  have hwrite : t.writeFile path text = .ok t := by
    rw [writeFile, writeBytes, hslot]
    dsimp only
    rw [hnode, if_neg (by simp), put_eq_self (by simp) hnode]
  rw [writeOutput, hparents]
  dsimp only
  rw [hwrite]

/-- Writing files that are all there changes nothing. -/
theorem writeOutputs_of_located {outputs : List (Text × Text)}
    (hlocated : ∀ output ∈ outputs, ∃ loc,
      t.locate output.1 = .ok (loc, .file (Text.toBytes output.2))) :
    t.writeOutputs outputs = (.ok (outputs.map Prod.fst), t) := by
  induction outputs with
  | nil => rfl
  | cons output outputs ih =>
    obtain ⟨loc, hlocate⟩ := hlocated output List.mem_cons_self
    have hrest := ih fun output houtput => hlocated output (List.mem_cons_of_mem _ houtput)
    rw [writeOutputs, writeOutput_of_locate hlocate]
    dsimp only
    rw [hrest]
    rfl

end

/-! ## (4) Trees as they are loaded -/

/-- **The trees that are loaded**: from the empty tree, by adding directories and files. -/
inductive Loaded (home : Location) : FileTree → Prop
  /-- Nothing has been added. -/
  | empty : Loaded home (empty home)
  /-- One more directory. -/
  | addDirectory {t : FileTree} (path : Text) (hrest : Loaded home t) :
      Loaded home (t.addDirectory path)
  /-- One more file. -/
  | addFile {t : FileTree} (path : Text) (bytes : ByteArray) (hrest : Loaded home t) :
      Loaded home (t.addFile path bytes)

/-- `t.addFile path bytes` makes directories and puts the file. -/
theorem addFile_rewrites (t : FileTree) (path : Text) (bytes : ByteArray) :
    Rewrites [t.locationOf path] t (t.addFile path bytes) := by
  have hparents := makeParents_rewrites t path
  unfold addFile
  dsimp only
  split
  · rename_i hwrite
    exact hparents.writeBytes hwrite
  · exact hparents.mono (List.nil_subset _)

/-- The empty tree has the names of its home directory. -/
theorem named_empty {home : Location} (hhome : ∀ name ∈ home, Path.IsFileName name) :
    (empty home).Named ∧ (empty home).home = home := by
  have hrun : ∀ (counts : List Nat) (t : FileTree), t.Named → t.home = home →
      (counts.foldl (fun t n => t.put (home.take (n + 1)) .directory) t).Named ∧
        (counts.foldl (fun t n => t.put (home.take (n + 1)) .directory) t).home = home := by
    intro counts
    induction counts with
    | nil => exact fun t hnamed heq => ⟨hnamed, heq⟩
    | cons n counts ih =>
      intro t hnamed heq
      refine ih _ (hnamed.put (fun name hname => ?_) _) heq
      exact hhome name (List.mem_of_mem_take hname)
  exact hrun _ _ (fun entry hentry => absurd hentry List.not_mem_nil) rfl

/-- **`t.Named` for every tree that is `Loaded`.** -/
theorem Loaded.named {home : Location} (hhome : ∀ name ∈ home, Path.IsFileName name) {t : FileTree}
    (hloaded : Loaded home t) : t.Named ∧ t.home = home := by
  induction hloaded with
  | empty => exact named_empty hhome
  | @addDirectory t path _ ih =>
    have hstep := makeAlong_rewrites t (Path.ancestors path)
    exact ⟨hstep.named ih.1 (ih.2 ▸ hhome), hstep.keeps.home.trans ih.2⟩
  | @addFile t path bytes _ ih =>
    have hstep := addFile_rewrites t path bytes
    exact ⟨hstep.named ih.1 (ih.2 ▸ hhome), hstep.keeps.home.trans ih.2⟩

end InterfaceSchemes.FileTree
