import InterfaceSchemes.Proofs.Grouping
import InterfaceSchemes.Proofs.Placement
import Mathlib.Data.List.Perm.Lattice

/-! # The contents of output modules

The grouping fills all modules in one pass over the schemes, and an import is compared with those
that came before it. Here each module is described by itself, as a function of the schemes of its
source: what is removed from their imports is said of single imports and positions, not of a pass.

* **`OutputModule.merge_firsts`** — merging keeps the first import for each leading symbol of those
  that do not name the module itself.
* **`OutputModule.isSelfImport_library`** — an import without a separator in its origin stays.
* **`flatMap_filter_perm`** — grouping by a key neither loses nor repeats an entry.
* **`OutputModule.contents`** — the module of a source, by its description.
* **`OutputModule.group_eq_map_contents`** — the grouping gives these modules, in the order in which
  their sources first occur, and holds every scheme once. -/

namespace InterfaceSchemes

/-- **Grouped by a key, the entries of a list are all there, each as often as before.** The
induction is on the keys: the first takes its entries away, and the others group what is left. -/
theorem flatMap_filter_perm {α β : Type} [BEq β] [LawfulBEq β] {key : α → β} {keys : List β}
    (hnodup : keys.Nodup) {l : List α} (hl : ∀ a ∈ l, key a ∈ keys) :
    (keys.flatMap fun k => l.filter fun a => key a == k).Perm l := by
  induction keys generalizing l with
  | nil =>
    obtain rfl : l = [] := List.eq_nil_iff_forall_not_mem.mpr fun a ha => by simpa using hl a ha
    exact .nil
  | cons k keys ih =>
    obtain ⟨hk, hnodup⟩ := List.nodup_cons.mp hnodup
    have hrest : ∀ a ∈ l.filter fun a => !(key a == k), key a ∈ keys := by
      intro a ha
      obtain ⟨hmem, hne⟩ := List.mem_filter.mp ha
      exact (List.mem_cons.mp (hl a hmem)).resolve_left (by simpa using hne)
    have hother : (keys.flatMap fun k' => l.filter fun a => key a == k')
        = keys.flatMap fun k' => (l.filter fun a => !(key a == k)).filter fun a => key a == k' := by
      refine List.flatMap_congr fun k' hk' => ?_
      rw [List.filter_filter]
      refine List.filter_congr fun a _ => ?_
      by_cases ha : key a = k'
      · have hne : k' ≠ k := fun heq => hk (heq ▸ hk')
        simp [ha, hne]
      · simp [ha]
    rw [List.flatMap_cons, hother]
    exact ((ih hnodup hrest).append_left _).trans (List.filter_append_perm _ l)

namespace OutputModule

variable {settings : Settings}

/-! ## (1) Merged imports -/

/-- **`addImport` after those that stay**: the import is dropped if it names the module itself, and
else it is one more entry of `firsts`. -/
theorem addImport_firsts (path : Text) (known : List Import) (i : Import) :
    addImport path (firsts Import.leadingSymbol? known) i
      = if isSelfImport path i then firsts Import.leadingSymbol? known
        else firsts Import.leadingSymbol? (known ++ [i]) := by
  have hseen : ((firsts Import.leadingSymbol? known).any
      fun k => k.leadingSymbol? == i.leadingSymbol?) = true ↔
        i.leadingSymbol? ∈ known.map Import.leadingSymbol? := by
    rw [← mem_map_firsts_iff, List.any_eq_true, List.mem_map]
    simp only [beq_iff_eq]
  rw [addImport, firsts_concat]
  by_cases hself : isSelfImport path i = true
  · rw [if_pos hself, if_pos hself]
  · rw [if_neg hself, if_neg hself]
    by_cases hmem : i.leadingSymbol? ∈ known.map Import.leadingSymbol?
    · rw [if_pos (hseen.mpr hmem), if_pos hmem]
    · rw [if_neg (mt hseen.mp hmem), if_neg hmem]

/-- **`merge` keeps the first import for each leading symbol** of those that do not name the module
itself. -/
theorem merge_firsts (path : Text) (known imports : List Import) :
    merge path (firsts Import.leadingSymbol? known) imports
      = firsts Import.leadingSymbol? (known ++ imports.filter fun i => !isSelfImport path i) := by
  induction imports generalizing known with
  | nil => simp [merge]
  | cons i imports ih =>
    rw [merge, List.foldl_cons, addImport_firsts]
    by_cases hself : isSelfImport path i = true
    · rw [if_pos hself, ← merge, ih, List.filter_cons_of_neg (by simp [hself])]
    · rw [if_neg hself, ← merge, ih, List.filter_cons_of_pos (by simp [hself]), List.append_assoc,
        List.singleton_append]

/-- `isSelfImport` is never true of an import from a library: the path of a module has a separator,
and its extension has none. -/
theorem isSelfImport_library {i : Import} (hlibrary : '/' ∉ i.origin) (p : Text) :
    isSelfImport (settings.outputPath p) i = false := by
  rw [isSelfImport, beq_eq_false_iff_ne]
  intro heq
  have hslash : '/' ∈ i.origin ++ Path.extension (settings.outputPath p) := by
    rw [heq, Settings.outputPath_eq]
    simp
  rcases List.mem_append.mp hslash with hmem | hmem
  · exact hlibrary hmem
  · exact Settings.slash_notMem_extension _ hmem

/-! ## (2) Modules by their description -/

/-- What every module begins by importing. -/
def startImports (settings : Settings) : List Import :=
  if settings.zodImport then [libraryImport] else []

/-- **The module of the source `p`**, by its description: the schemes of the source in order, and of
the imports that they bring, after the import of the library, the first for each leading symbol.
Only those count whose origin with the extension of the module is not the module itself. -/
def contents (settings : Settings) (decls : List SchemeDecl) (p : Text) : OutputModule where
  path := settings.outputPath p
  imports := firsts Import.leadingSymbol?
    ((startImports settings
        ++ (decls.filter fun d => d.sourcePath == p).flatMap SchemeDecl.imports).filter
      fun i => i.origin ++ Path.extension (settings.outputPath p) != settings.outputPath p)
  schemes := decls.filter fun d => d.sourcePath == p

/-- `startImports settings` has distinct leading symbols. -/
theorem firsts_startImports (settings : Settings) :
    firsts Import.leadingSymbol? (startImports settings) = startImports settings := by
  unfold startImports
  split <;> rfl

/-- `startImports settings` holds no self import. -/
theorem filter_startImports (settings : Settings) (p : Text) :
    (startImports settings).filter (fun i => !isSelfImport (settings.outputPath p) i)
      = startImports settings := by
  rw [List.filter_eq_self]
  intro i hi
  obtain rfl : i = libraryImport := by
    unfold startImports at hi
    split at hi
    · exact List.mem_singleton.mp hi
    · cases hi
  rw [isSelfImport_library (by decide), Bool.not_false]

/-- `(contents settings decls p).imports` with the library set apart: it is not in question. -/
theorem imports_contents (settings : Settings) (decls : List SchemeDecl) (p : Text) :
    (contents settings decls p).imports
      = firsts Import.leadingSymbol? (startImports settings
          ++ ((decls.filter fun d => d.sourcePath == p).flatMap SchemeDecl.imports).filter
              fun i => !isSelfImport (settings.outputPath p) i) := by
  conv_rhs => rw [← filter_startImports settings p, ← List.filter_append]
  rfl

/-- **`ofSource settings decls p = contents settings decls p`**: the module that the grouping fills
is the one described. -/
theorem ofSource_eq_contents (settings : Settings) (decls : List SchemeDecl) (p : Text) :
    ofSource settings decls p = contents settings decls p := by
  have hstart : (start settings p).imports = firsts Import.leadingSymbol? (startImports settings) :=
    (firsts_startImports settings).symm
  have himports : (ofSource settings decls p).imports = (contents settings decls p).imports := by
    rw [ofSource_imports, hstart, merge_firsts, imports_contents]
  calc ofSource settings decls p
      = ⟨(ofSource settings decls p).path, (ofSource settings decls p).imports,
          (ofSource settings decls p).schemes⟩ := rfl
    _ = contents settings decls p := by
        rw [ofSource_path, himports, ofSource_schemes]
        rfl

/-- **`group` by its description.** There is one module for each source that has a scheme, in the
order in which the sources first occur; each is the module `contents settings decls p` that the
schemes of its source describe; the modules together hold every scheme as often as it was given; and
the import of the library, where it is wanted, comes first in each of them. -/
theorem group_eq_map_contents (settings : Settings) (decls : List SchemeDecl) :
    group settings decls
        = (firsts id (decls.map SchemeDecl.sourcePath)).map (contents settings decls) ∧
      ((group settings decls).flatMap schemes).Perm decls ∧
      (settings.zodImport = true →
        ∀ m ∈ group settings decls, m.imports.head? = some libraryImport) := by
  have hgroup : group settings decls
      = (firsts id (decls.map SchemeDecl.sourcePath)).map (contents settings decls) := by
    rw [group_eq, firsts_id_eq_eraseDups]
    exact List.map_congr_left fun p _ => ofSource_eq_contents settings decls p
  refine ⟨hgroup, ?_, ?_⟩
  · rw [hgroup, firsts_id_eq_eraseDups, List.flatMap_map]
    exact flatMap_filter_perm (nodup_eraseDups _)
      fun d hd => List.mem_eraseDups.mpr (List.mem_map_of_mem hd)
  · intro hlibrary m hm
    rw [hgroup] at hm
    obtain ⟨p, -, rfl⟩ := List.mem_map.mp hm
    rw [imports_contents, head?_firsts, startImports, if_pos hlibrary, List.singleton_append,
      List.head?_cons]

/-- Schemes of two sources in turn. The imports of the first source name its own module, repeat the
symbol of the library and a symbol with another origin, and have no symbol at all. -/
def mixedDecls : List SchemeDecl :=
  [⟨"x/a.ts", "AScheme", [], [], [⟨["B", "C"], "lib", false⟩, ⟨["A"], "x/schemes/a.scheme", true⟩]⟩,
    ⟨"b.ts", "BScheme", [], [], [⟨[], "p", false⟩]⟩,
    ⟨"x/a.ts", "DScheme", [], [],
      [⟨["B"], "other", false⟩, ⟨["z"], "own", false⟩, ⟨[], "p", false⟩, ⟨[], "q", false⟩]⟩]

/-- The two modules of `mixedDecls`: what is left of their imports begins with the library. -/
theorem group_mixedDecls :
    (group { zodImport := true } mixedDecls).map OutputModule.imports
        = [[libraryImport, ⟨["B", "C"], "lib", false⟩, ⟨[], "p", false⟩],
            [libraryImport, ⟨[], "p", false⟩]] ∧
      ((group { zodImport := true } mixedDecls).flatMap schemes).Perm mixedDecls ∧
      ∀ m ∈ group { zodImport := true } mixedDecls, m.imports.head? = some libraryImport := by
  obtain ⟨hgroup, hperm, hlibrary⟩ := group_eq_map_contents { zodImport := true } mixedDecls
  refine ⟨?_, hperm, hlibrary rfl⟩
  rw [hgroup]
  decide +kernel

end OutputModule

end InterfaceSchemes
