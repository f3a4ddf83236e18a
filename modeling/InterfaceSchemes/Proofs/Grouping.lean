import InterfaceSchemes.OutputModule
import InterfaceSchemes.Proofs.FirstOccurrence
import Mathlib.Data.List.Nodup

/-! # What grouping computes

Output modules are filled one scheme at a time, in whatever order the schemes of different sources
come. This file says what a module holds in the end without the order in which it was filled.

* **`OutputModule.ofSource`** — the module of one source from its schemes alone.
* **`OutputModule.group_eq`** — one such module for each source, in the order of first occurrence.
* **`OutputModule.group_append`** — the schemes of further sources are grouped behind the others.
* **`OutputModule.addImport_cases`** — what one more import does to a module.
* **`OutputModule.merge`** — the imports of a module: no two have one leading symbol
  (`nodup_leadingSymbol_merge`), and where a leading symbol stands for one import only, nothing but
  self imports is lost (`mem_merge_iff`). -/

namespace InterfaceSchemes.OutputModule

variable {settings : Settings}

/-! ## (1) Distinct sources in order of first occurrence -/

/-- Nothing is left twice. -/
theorem nodup_eraseDups (paths : List Text) : paths.eraseDups.Nodup := by
  rw [← firsts_id_eq_eraseDups, ← List.map_id (firsts id paths)]
  exact nodup_map_firsts id paths

/-! ## (2) Groups -/

/-- No scheme comes from a path that is not one of the sources. -/
theorem filter_sourcePath_eq_nil {decls : List SchemeDecl} {p : Text}
    (hp : p ∉ decls.map SchemeDecl.sourcePath) :
    decls.filter (fun d => d.sourcePath == p) = [] := by
  rw [List.filter_eq_nil_iff]
  intro d hd heq
  exact hp (List.mem_map.mpr ⟨d, hd, by simpa using heq⟩)

/-- **The module of one source**, with its schemes added one after the other. -/
def collect (settings : Settings) (source : Text) (decls : List SchemeDecl) : OutputModule :=
  decls.foldl add (start settings source)

/-- `insert settings d` adds a scheme of a source that has a module to that module. -/
theorem insert_of_mem {d : SchemeDecl} {sources : List Text} (hnodup : sources.Nodup)
    (hd : d.sourcePath ∈ sources) (m : Text → OutputModule) :
    insert settings d (sources.map fun p => (p, m p))
      = sources.map fun p => (p, if p = d.sourcePath then (m p).add d else m p) := by
  induction sources with
  | nil => cases hd
  | cons source sources ih =>
    obtain ⟨hsource, hnodup⟩ := List.nodup_cons.mp hnodup
    rw [List.map_cons, List.map_cons, insert]
    split
    · -- the module is the first one, and no other has its source
      rename_i heq
      refine congrArg _ (List.map_congr_left fun p hp => ?_)
      rw [if_neg]
      rintro rfl
      exact hsource (heq ▸ hp)
    · rename_i hne
      rcases List.mem_cons.mp hd with heq | hd
      · exact absurd heq.symm hne
      · rw [ih hnodup hd]

/-- `insert settings d` starts a module at the end for a scheme of a new source. -/
theorem insert_of_notMem {d : SchemeDecl} {sources : List Text} (hd : d.sourcePath ∉ sources)
    (m : Text → OutputModule) :
    insert settings d (sources.map fun p => (p, m p))
      = (sources.map fun p => (p, m p)) ++
          [(d.sourcePath, (start settings d.sourcePath).add d)] := by
  induction sources with
  | nil => rfl
  | cons source sources ih =>
    obtain ⟨hsource, hd⟩ := not_or.mp (mt List.mem_cons.mpr hd)
    rw [List.map_cons, insert, if_neg (Ne.symm hsource), ih hd, List.cons_append]

/-- The modules with their sources, as the grouping builds them. -/
theorem foldl_insert_eq (decls : List SchemeDecl) :
    decls.foldl (fun modules d => insert settings d modules) []
      = (decls.map SchemeDecl.sourcePath).eraseDups.map fun p =>
          (p, collect settings p (decls.filter fun d => d.sourcePath == p)) := by
  induction decls using List.reverseRecOn with
  | nil => rfl
  | append_singleton decls d ih =>
    have hadd : ∀ p, collect settings p ((decls ++ [d]).filter fun d => d.sourcePath == p)
        = if p = d.sourcePath
          then (collect settings p (decls.filter fun d => d.sourcePath == p)).add d
          else collect settings p (decls.filter fun d => d.sourcePath == p) := by
      intro p
      rw [List.filter_append]
      split
      · rename_i hp
        simp [collect, hp]
      · rename_i hp
        simp [Ne.symm hp]
    rw [List.foldl_append, ih, List.foldl_cons, List.foldl_nil, List.map_append, List.map_singleton,
      eraseDups_concat]
    simp only [hadd]
    by_cases hd : d.sourcePath ∈ decls.map SchemeDecl.sourcePath
    · rw [if_pos hd, insert_of_mem (nodup_eraseDups _) (List.mem_eraseDups.mpr hd)]
    · -- no scheme of this source came before
      have hnone := filter_sourcePath_eq_nil hd
      have hnew : d.sourcePath ∉ (decls.map SchemeDecl.sourcePath).eraseDups :=
        fun hmem => hd (List.mem_eraseDups.mp hmem)
      rw [if_neg hd, insert_of_notMem hnew, List.map_append, List.map_singleton, if_pos rfl, hnone]
      refine congrArg₂ _ (List.map_congr_left fun p hp => ?_) rfl
      rw [if_neg]
      rintro rfl
      exact hnew hp

/-- **The module of the source `p`** among the schemes of a batch. -/
def ofSource (settings : Settings) (decls : List SchemeDecl) (p : Text) : OutputModule :=
  collect settings p (decls.filter fun d => d.sourcePath == p)

/-- **`group settings decls`:** one module `ofSource settings decls p` for each source `p` in the
order of first occurrence, made of the schemes of that source alone. -/
theorem group_eq (settings : Settings) (decls : List SchemeDecl) :
    group settings decls
      = (decls.map SchemeDecl.sourcePath).eraseDups.map (ofSource settings decls) := by
  rw [group, foldl_insert_eq, List.map_map]
  rfl

/-- `m ∈ group settings decls` exactly if it is `ofSource settings decls p` for a source `p` that
has a scheme. -/
theorem mem_group_iff {decls : List SchemeDecl} {m : OutputModule} :
    m ∈ group settings decls ↔
      ∃ p ∈ decls.map SchemeDecl.sourcePath, ofSource settings decls p = m := by
  rw [group_eq, List.mem_map]
  simp only [List.mem_eraseDups]

/-- `ofSource settings (decls ++ others) p` does not see schemes `others` of other sources. -/
theorem ofSource_append_left {decls others : List SchemeDecl} {p : Text}
    (hp : p ∉ others.map SchemeDecl.sourcePath) :
    ofSource settings (decls ++ others) p = ofSource settings decls p := by
  rw [ofSource, ofSource, List.filter_append, filter_sourcePath_eq_nil hp, List.append_nil]

/-- `ofSource settings (decls ++ others) p` does not see schemes `decls` of other sources. -/
theorem ofSource_append_right {decls others : List SchemeDecl} {p : Text}
    (hp : p ∉ decls.map SchemeDecl.sourcePath) :
    ofSource settings (decls ++ others) p = ofSource settings others p := by
  rw [ofSource, ofSource, List.filter_append, filter_sourcePath_eq_nil hp, List.nil_append]

/-- **`group settings decls ++ group settings others`**: the schemes of further sources are grouped
behind the others. -/
theorem group_append {decls others : List SchemeDecl}
    (hapart : ∀ p ∈ others.map SchemeDecl.sourcePath, p ∉ decls.map SchemeDecl.sourcePath) :
    group settings (decls ++ others) = group settings decls ++ group settings others := by
  have hnew : (others.map SchemeDecl.sourcePath).removeAll (decls.map SchemeDecl.sourcePath)
      = others.map SchemeDecl.sourcePath := by
    rw [List.removeAll, List.filter_eq_self]
    intro p hp
    simpa using hapart p hp
  rw [group_eq, group_eq, group_eq, List.map_append, List.eraseDups_append, hnew, List.map_append]
  congr 1
  · refine List.map_congr_left fun p hp => ofSource_append_left fun hother => ?_
    exact hapart p hother (List.mem_eraseDups.mp hp)
  · refine List.map_congr_left fun p hp => ofSource_append_right ?_
    exact hapart p (List.mem_eraseDups.mp hp)

/-! ## (3) The contents of a module -/

/-- The imports of a module at `path` after `known`: those of `imports` that are added. -/
def merge (path : Text) (known imports : List Import) : List Import :=
  imports.foldl (addImport path) known

/-- **`decls.foldl add m`:** the module holds its schemes in order and their merged imports. -/
theorem foldl_add_eq (decls : List SchemeDecl) (m : OutputModule) :
    decls.foldl add m
      = ⟨m.path, merge m.path m.imports (decls.flatMap SchemeDecl.imports),
          m.schemes ++ decls⟩ := by
  induction decls generalizing m with
  | nil => simp [merge]
  | cons d decls ih =>
    rw [List.foldl_cons, ih]
    simp [add, merge, List.foldl_append]

/-- `(ofSource settings decls p).path = settings.outputPath p`. -/
@[simp] theorem ofSource_path (decls : List SchemeDecl) (p : Text) :
    (ofSource settings decls p).path = settings.outputPath p := by
  rw [ofSource, collect, foldl_add_eq]
  rfl

/-- The paths of `group settings decls` are `settings.outputPath p`, in the order of the sources
`p`. -/
theorem map_path_group (settings : Settings) (decls : List SchemeDecl) :
    (group settings decls).map path
      = (decls.map SchemeDecl.sourcePath).eraseDups.map settings.outputPath := by
  rw [group_eq, List.map_map]
  exact List.map_congr_left fun p _ => ofSource_path decls p

/-- `(ofSource settings decls p).schemes` are the schemes of the source `p`, in order. -/
theorem ofSource_schemes (settings : Settings) (decls : List SchemeDecl) (p : Text) :
    (ofSource settings decls p).schemes = decls.filter fun d => d.sourcePath == p := by
  rw [ofSource, collect, foldl_add_eq]
  rfl

/-- A scheme stands in the module of its source. -/
@[simp] theorem mem_ofSource_schemes {decls : List SchemeDecl} {p : Text} {d : SchemeDecl} :
    d ∈ (ofSource settings decls p).schemes ↔ d ∈ decls ∧ d.sourcePath = p := by
  rw [ofSource_schemes, List.mem_filter, beq_iff_eq]

/-- `(ofSource settings decls p).imports` are what the schemes of the source `p` need, merged into
the imports that its module starts with. -/
theorem ofSource_imports (settings : Settings) (decls : List SchemeDecl) (p : Text) :
    (ofSource settings decls p).imports
      = merge (settings.outputPath p) (start settings p).imports
          ((decls.filter fun d => d.sourcePath == p).flatMap SchemeDecl.imports) := by
  rw [ofSource, collect, foldl_add_eq]
  rfl

/-- **`addImport path known i`:** the import is left out because it names the module itself or
because its leading symbol is known, or it is put at the end. -/
theorem addImport_cases (path : Text) (known : List Import) (i : Import) :
    (addImport path known i = known ∧
        (isSelfImport path i = true ∨ ∃ k ∈ known, k.leadingSymbol? = i.leadingSymbol?)) ∨
      (addImport path known i = known ++ [i] ∧ isSelfImport path i = false ∧
        ∀ k ∈ known, k.leadingSymbol? ≠ i.leadingSymbol?) := by
  unfold addImport
  split
  · rename_i hself
    exact Or.inl ⟨rfl, Or.inl hself⟩
  · rename_i hself
    split
    · rename_i hany
      obtain ⟨k, hk, hsymbol⟩ := List.any_eq_true.mp hany
      exact Or.inl ⟨rfl, Or.inr ⟨k, hk, beq_iff_eq.mp hsymbol⟩⟩
    · rename_i hnew
      exact Or.inr ⟨rfl, by simpa using hself, by simpa using hnew⟩

/-- **`merge` gives no two imports one leading symbol.** -/
theorem nodup_leadingSymbol_merge {path : Text} {known : List Import}
    (hknown : (known.map Import.leadingSymbol?).Nodup) (imports : List Import) :
    ((merge path known imports).map Import.leadingSymbol?).Nodup := by
  induction imports generalizing known with
  | nil => exact hknown
  | cons i imports ih =>
    refine ih ?_
    rcases addImport_cases path known i with ⟨heq, -⟩ | ⟨heq, -, hnew⟩
    · rw [heq]
      exact hknown
    · rw [heq, List.map_append, List.nodup_append]
      refine ⟨hknown, by simp, ?_⟩
      intro a ha b hb hab
      obtain ⟨k, hk, rfl⟩ := List.mem_map.mp ha
      obtain rfl : b = i.leadingSymbol? := by simpa using hb
      exact hnew k hk hab

/-- What is there stays. -/
theorem mem_merge_of_mem_known {path : Text} {known : List Import} {i : Import} (hi : i ∈ known)
    (imports : List Import) : i ∈ merge path known imports := by
  induction imports generalizing known with
  | nil => exact hi
  | cons j imports ih =>
    refine ih ?_
    rcases addImport_cases path known j with ⟨heq, -⟩ | ⟨heq, -⟩
    · rw [heq]
      exact hi
    · rw [heq]
      exact List.mem_append_left _ hi

/-- What `merge` adds is an import that does not name the module itself. -/
theorem of_mem_merge {path : Text} {known imports : List Import} {i : Import}
    (hi : i ∈ merge path known imports) :
    i ∈ known ∨ i ∈ imports ∧ isSelfImport path i = false := by
  induction imports generalizing known with
  | nil => exact Or.inl hi
  | cons j imports ih =>
    rcases ih hi with hadd | ⟨hi, hself⟩
    · rcases addImport_cases path known j with ⟨heq, -⟩ | ⟨heq, hself, -⟩
      · exact Or.inl (heq ▸ hadd)
      · rw [heq, List.mem_append, List.mem_singleton] at hadd
        rcases hadd with hadd | rfl
        · exact Or.inl hadd
        · exact Or.inr ⟨by simp, hself⟩
    · exact Or.inr ⟨List.mem_cons_of_mem _ hi, hself⟩

/-- Of an import that does not name the module itself, at least the leading symbol is in
`merge path known imports`. -/
theorem exists_leadingSymbol_merge {path : Text} {imports : List Import} {i : Import}
    (hi : i ∈ imports) (known : List Import) (hself : isSelfImport path i = false) :
    ∃ j ∈ merge path known imports, j.leadingSymbol? = i.leadingSymbol? := by
  induction imports generalizing known with
  | nil => cases hi
  | cons j imports ih =>
    rcases List.mem_cons.mp hi with rfl | hi
    · -- it is added now, or the symbol is known
      have hadd : ∃ k ∈ addImport path known i, k.leadingSymbol? = i.leadingSymbol? := by
        rcases addImport_cases path known i with ⟨heq, hself' | hsymbol⟩ | ⟨heq, -⟩
        · rw [hself] at hself'
          cases hself'
        · rw [heq]
          exact hsymbol
        · exact ⟨i, by simp [heq], rfl⟩
      obtain ⟨k, hk, hsymbol⟩ := hadd
      exact ⟨k, mem_merge_of_mem_known hk imports, hsymbol⟩
    · exact ih hi _

/-- **`merge` loses nothing but self imports**, where a leading symbol stands for one import only.
-/
theorem mem_merge_iff {path : Text} {known imports : List Import}
    (hunique : ∀ i ∈ imports, ∀ j ∈ known ++ imports,
      j.leadingSymbol? = i.leadingSymbol? → j = i) {i : Import} :
    i ∈ merge path known imports ↔ i ∈ known ∨ i ∈ imports ∧ isSelfImport path i = false := by
  refine ⟨of_mem_merge, ?_⟩
  rintro (hi | ⟨hi, hself⟩)
  · exact mem_merge_of_mem_known hi imports
  · obtain ⟨j, hj, hsymbol⟩ := exists_leadingSymbol_merge hi known hself
    have hmem : j ∈ known ++ imports := by
      rcases of_mem_merge hj with hj | ⟨hj, -⟩
      · exact List.mem_append_left _ hj
      · exact List.mem_append_right _ hj
    rwa [← hunique i hi j hmem hsymbol]

end InterfaceSchemes.OutputModule
