import InterfaceSchemes.Proofs.Emission
import InterfaceSchemes.Proofs.Grouping
import InterfaceSchemes.Proofs.Placement

/-! # What a conversion computes

A conversion sorts the records of a batch, emits them in that order and groups what was emitted.
This file says what comes out without the order: which scheme each record gets, and which imports
the module of a source has.

* **`Batch.Conversion`** — the records of a batch, their order, and the scheme of each.
* **`Batch.convert_eq_ok`** — the modules of a batch are the groups of a `Conversion`.
* **`Batch.exists_convert_eq_ok_iff`** — a batch is converted exactly when it is `Orderable`.
* **`Batch.Demands`** — a record of a source has a type whose scheme needs an import.
* **`Batch.Conversion.mem_imports_iff`** — a module imports what its records demand, but nothing
  from itself.
* **`Batch.convert_paths_nodup_iff`** — when no two modules of a batch have one path. -/

namespace InterfaceSchemes

open DependencyOrder

/-! ## (1) The imports of schemes -/

/-- The import that the primitive types need. -/
def Primitive.dateImport : Import := ⟨["DateTime"], "luxon", false⟩

/-- The import by which another module gets the scheme of a record. -/
def Registry.recordImport (settings : Settings) (r : Record) : Import :=
  ⟨[r.name ++ settings.schemeSuffix], settings.schemeBase r.sourcePath, true⟩

/-- `i = dateImport` for every import `i` that the scheme of a primitive type needs. -/
theorem Primitive.eq_dateImport {t : Text} {scheme : Scheme}
    (hprimitive : Primitive.scheme? t = some scheme) {i : Import} (hi : i ∈ scheme.imports) :
    i = dateImport := by
  have htable : ∀ entry ∈ Primitive.table, ∀ i ∈ entry.2.imports, i = dateImport := by decide
  exact htable (t, scheme) (Registry.mem_of_lookup_eq_some hprimitive) i hi

/-- `dateImport`, or `recordImport settings r` for a record `r`: a scheme that is found needs no
other import. -/
theorem Registry.import_cases {settings : Settings} {records : List Record} {t : Text}
    {scheme : Scheme} (hscheme : (ofRecords settings records).scheme t = .ok scheme) {i : Import}
    (hi : i ∈ scheme.imports) :
    i = Primitive.dateImport ∨ ∃ r ∈ records, i = recordImport settings r := by
  rcases scheme_cases hscheme with hprimitive | ⟨r, hr, -, rfl⟩
  · exact Or.inl (Primitive.eq_dateImport hprimitive hi)
  · exact Or.inr ⟨r, hr, List.mem_singleton.mp hi⟩

namespace Batch

/-! ## (2) Conversions -/

/-- **The outcome of a conversion before grouping:** the records in dependency order and the scheme
of each, emitted as if all records were registered. -/
structure Conversion (settings : Settings) (records sorted : List Record)
    (decls : List SchemeDecl) : Prop where
  /-- No two records have one name. -/
  distinct : (records.map Record.name).Nodup
  /-- The sorted records are the records. -/
  perm : sorted.Perm records
  /-- Each stands after the records it depends on. -/
  ordered : DependenciesFirst sorted
  /-- Each has its scheme. -/
  emitted : List.Forall₂
    (fun r d => Registry.emitDecl settings (Registry.ofRecords settings records) r = .ok d)
    sorted decls

variable {settings : Settings} {files : List SourceRecords}

/-- A `Conversion` of sorted records exists: each of them is emitted. -/
theorem exists_conversion (settings : Settings) {records sorted : List Record}
    (hwell : ∀ r ∈ records, r.WellFormed) (hsort : sort records = .ok sorted) :
    ∃ decls, (Registry.emitAll settings [] sorted).1 = .ok decls ∧
      Conversion settings records sorted decls := by
  obtain ⟨hperm, hordered⟩ := sort_eq_ok_spec hsort
  have hdistinct : (sorted.map Record.name).Nodup :=
    (hperm.map Record.name).nodup_iff.mpr (distinct_of_sort hsort)
  obtain ⟨decls, hrun, hemitted⟩ := Registry.emitAll_ordered settings hdistinct hordered
    fun r hr => hwell r (hperm.mem_iff.mp hr)
  refine ⟨decls, hrun, distinct_of_sort hsort, hperm, hordered, ?_⟩
  -- a record finds the same schemes whether all were registered as sorted or as given
  refine hemitted.imp fun r d hemit => ?_
  rw [← hemit]
  refine Registry.emitDecl_congr fun f _ t _ => ?_
  exact (Registry.scheme_ofRecords_perm hdistinct hperm t).symm

/-- The steps of `convert` where it succeeds: the sort, the emission and the groups. -/
theorem sort_of_convert (hwell : ∀ r ∈ records files, r.WellFormed) {out : List OutputModule}
    (hconvert : convert settings files = .ok out) :
    ∃ sorted decls, sort (records files) = .ok sorted ∧
      Conversion settings (records files) sorted decls ∧ out = OutputModule.group settings decls := by
  obtain ⟨sorted, hsort, hrest⟩ := Fallible.bind_eq_ok_iff.mp hconvert
  obtain ⟨decls, hrun, hpure⟩ := Fallible.bind_eq_ok_iff.mp hrest
  cases hpure
  obtain ⟨decls', hrun', hconversion⟩ := exists_conversion settings hwell hsort
  rw [hrun] at hrun'
  cases hrun'
  exact ⟨sorted, decls, hsort, hconversion, rfl⟩

/-- **The modules of a batch** are `OutputModule.group settings decls` for its `Conversion`. -/
theorem convert_eq_ok (hwell : ∀ r ∈ records files, r.WellFormed) {out : List OutputModule}
    (hconvert : convert settings files = .ok out) :
    ∃ sorted decls, Conversion settings (records files) sorted decls ∧
      out = OutputModule.group settings decls := by
  obtain ⟨sorted, decls, -, hconversion, hout⟩ := sort_of_convert hwell hconvert
  exact ⟨sorted, decls, hconversion, hout⟩

/-- `convert` fails only where `sort` does, and with the same error. -/
theorem convert_eq_error (hwell : ∀ r ∈ records files, r.WellFormed) {e : Error}
    (hconvert : convert settings files = .error e) : sort (records files) = .error e := by
  rcases Fallible.bind_eq_error_iff.mp hconvert with hsort | ⟨sorted, hsort, hrest⟩
  · exact hsort
  · obtain ⟨decls, hrun, -⟩ := exists_conversion settings hwell hsort
    rw [hrun] at hrest
    cases hrest

/-- **A batch is converted exactly when it has an order**: `convert` succeeds iff the records are
`Orderable`. -/
theorem exists_convert_eq_ok_iff (settings : Settings)
    (hwell : ∀ r ∈ records files, r.WellFormed) :
    (∃ out, convert settings files = .ok out) ↔ Orderable (records files) := by
  rw [← exists_sort_eq_ok_iff]
  constructor
  · rintro ⟨out, hconvert⟩
    obtain ⟨sorted, hsort, -⟩ := Fallible.bind_eq_ok_iff.mp hconvert
    exact ⟨sorted, hsort⟩
  · rintro ⟨sorted, hsort⟩
    cases hconvert : convert settings files with
    | ok out => exact ⟨out, rfl⟩
    | error e =>
      rw [convert_eq_error hwell hconvert] at hsort
      cases hsort

/-! ## (3) The schemes of a conversion -/

section Conversion

variable {recs sorted : List Record} {decls : List SchemeDecl}

/-- Each record has a scheme. -/
theorem Conversion.exists_decl (hconv : Conversion settings recs sorted decls) {r : Record}
    (hr : r ∈ recs) :
    ∃ d ∈ decls, Registry.emitDecl settings (Registry.ofRecords settings recs) r = .ok d :=
  Fallible.exists_of_mem_left hconv.emitted (hconv.perm.mem_iff.mpr hr)

/-- Each scheme is that of a record. -/
theorem Conversion.exists_record (hconv : Conversion settings recs sorted decls) {d : SchemeDecl}
    (hd : d ∈ decls) :
    ∃ r ∈ recs, Registry.emitDecl settings (Registry.ofRecords settings recs) r = .ok d := by
  obtain ⟨r, hr, hemit⟩ := Fallible.exists_of_mem_right hconv.emitted hd
  exact ⟨r, hconv.perm.mem_iff.mp hr, hemit⟩

/-- `p` is the source of a scheme exactly if it is the `sourcePath` of a record. -/
theorem Conversion.mem_sourcePaths_iff (hconv : Conversion settings recs sorted decls) {p : Text} :
    p ∈ decls.map SchemeDecl.sourcePath ↔ ∃ r ∈ recs, r.sourcePath = p := by
  rw [List.mem_map]
  constructor
  · rintro ⟨d, hd, rfl⟩
    obtain ⟨r, hr, hemit⟩ := hconv.exists_record hd
    exact ⟨r, hr, (Registry.emitDecl_spec hemit).1.symm⟩
  · rintro ⟨r, hr, rfl⟩
    obtain ⟨d, hd, hemit⟩ := hconv.exists_decl hr
    exact ⟨d, hd, (Registry.emitDecl_spec hemit).1⟩

/-- `r.name ++ settings.schemeSuffix`: the names of the schemes are those of the records, with the
suffix. -/
theorem Conversion.map_name (hconv : Conversion settings recs sorted decls) :
    decls.map SchemeDecl.name = sorted.map fun r => r.name ++ settings.schemeSuffix := by
  have hemitted := hconv.emitted
  clear hconv
  induction hemitted with
  | nil => rfl
  | cons hemit _ ih => rw [List.map_cons, List.map_cons, ih, (Registry.emitDecl_spec hemit).2]

/-- **No two schemes have one name.** -/
theorem Conversion.nodup_names (hconv : Conversion settings recs sorted decls) :
    (decls.map SchemeDecl.name).Nodup := by
  have hdistinct : (sorted.map Record.name).Nodup :=
    (hconv.perm.map Record.name).nodup_iff.mpr hconv.distinct
  have hnames : decls.map SchemeDecl.name
      = (sorted.map Record.name).map (· ++ settings.schemeSuffix) := by
    rw [hconv.map_name, List.map_map]
    rfl
  rw [hnames]
  exact hdistinct.map fun a b hab => List.append_left_injective _ hab

/-- A type of a field that is not primitive names a record of the batch, and the registry finds
`recordScheme settings used` for it. -/
theorem Conversion.exists_used (hconv : Conversion settings recs sorted decls) {r : Record}
    (hr : r ∈ recs) (hwell : r.WellFormed) {f : Field} (hf : f ∈ r.fields) {t : Text}
    (ht : t ∈ f.types) (hname : Primitive.isPrimitive t = false) :
    ∃ used ∈ recs, used.name = t ∧
      (Registry.ofRecords settings recs).scheme t = .ok (Registry.recordScheme settings used) := by
  obtain ⟨before, after, hsplit⟩ := List.append_of_mem (hconv.perm.mem_iff.mpr hr)
  obtain ⟨used, hused, rfl⟩ :=
    hconv.ordered before r after hsplit t (hwell.mem_dependsOn.mpr ⟨f, hf, ht, hname⟩)
  have hmem : used ∈ recs := hconv.perm.mem_iff.mp (by simp [hsplit, hused])
  exact ⟨used, hmem, rfl, Registry.scheme_ofRecords hconv.distinct hmem hname⟩

/-! ## (4) The imports of a module -/

/-- **`Demands settings records p i`**: a record of the source `p` has a type whose scheme needs
the import `i`. -/
def Demands (settings : Settings) (records : List Record) (p : Text) (i : Import) : Prop :=
  ∃ r ∈ records, r.sourcePath = p ∧ ∃ f ∈ r.fields, ∃ t ∈ f.types, ∃ scheme,
    (Registry.ofRecords settings records).scheme t = .ok scheme ∧ i ∈ scheme.imports

/-- The schemes of the source `p` need `i` exactly if `Demands settings recs p i`. -/
theorem Conversion.demands_iff (hconv : Conversion settings recs sorted decls) {p : Text}
    {i : Import} :
    i ∈ (decls.filter fun d => d.sourcePath == p).flatMap SchemeDecl.imports ↔
      Demands settings recs p i := by
  rw [List.mem_flatMap]
  constructor
  · rintro ⟨d, hd, hi⟩
    obtain ⟨hd, hp⟩ := List.mem_filter.mp hd
    obtain ⟨r, hr, hemit⟩ := hconv.exists_record hd
    have hpath : r.sourcePath = p := by
      rw [← (Registry.emitDecl_spec hemit).1]
      simpa using hp
    exact ⟨r, hr, hpath, (Registry.mem_imports_of_emitDecl hemit).mp hi⟩
  · rintro ⟨r, hr, rfl, hi⟩
    obtain ⟨d, hd, hemit⟩ := hconv.exists_decl hr
    refine ⟨d, List.mem_filter.mpr ⟨hd, ?_⟩, (Registry.mem_imports_of_emitDecl hemit).mpr hi⟩
    simp [(Registry.emitDecl_spec hemit).1]

/-- What is demanded is the import for dates or that of a record. -/
theorem Demands.cases {p : Text} {i : Import} (hi : Demands settings recs p i) :
    i = Primitive.dateImport ∨ ∃ r ∈ recs, i = Registry.recordImport settings r := by
  obtain ⟨r, -, -, f, -, t, -, scheme, hscheme, hi⟩ := hi
  exact Registry.import_cases hscheme hi

/-- **Emitted names are fresh**: none is a name that the modules import from a library. -/
def Fresh (settings : Settings) (records : List Record) : Prop :=
  ∀ r ∈ records, r.name ++ settings.schemeSuffix ≠ ("z" : Text) ∧
    r.name ++ settings.schemeSuffix ≠ ("DateTime" : Text)

instance (settings : Settings) (records : List Record) : Decidable (Fresh settings records) :=
  List.decidableBAll _ records

/-- `recordImport settings r` has another leading symbol than `libraryImport` and `dateImport`. -/
theorem Fresh.leadingSymbol_ne (hfresh : Fresh settings recs) {r : Record} (hr : r ∈ recs) :
    (Registry.recordImport settings r).leadingSymbol? ≠
        OutputModule.libraryImport.leadingSymbol? ∧
      (Registry.recordImport settings r).leadingSymbol? ≠
        Primitive.dateImport.leadingSymbol? :=
  ⟨fun h => (hfresh r hr).1 (Option.some.inj h), fun h => (hfresh r hr).2 (Option.some.inj h)⟩

/-- `recordImport` gives records with distinct names distinct leading symbols. -/
theorem recordImport_eq_of_leadingSymbol_eq (hdistinct : (recs.map Record.name).Nodup)
    {r s : Record} (hr : r ∈ recs) (hs : s ∈ recs)
    (hsymbol : (Registry.recordImport settings r).leadingSymbol? =
      (Registry.recordImport settings s).leadingSymbol?) :
    Registry.recordImport settings r = Registry.recordImport settings s := by
  have hname : r.name = s.name := List.append_cancel_right (Option.some.inj hsymbol)
  rw [eq_of_name_eq hdistinct hr hs hname]

/-- **A leading symbol stands for one import only**: `j = i` if `j` is demanded beside `i`, or is
the import of the library, and has the same one. -/
theorem Demands.eq_of_leadingSymbol_eq (hdistinct : (recs.map Record.name).Nodup)
    (hfresh : Fresh settings recs) {p : Text} {i j : Import} (hi : Demands settings recs p i)
    (hj : j = OutputModule.libraryImport ∨ Demands settings recs p j)
    (hsymbol : j.leadingSymbol? = i.leadingSymbol?) : j = i := by
  rcases hj with rfl | hj
  · -- the library is imported under a symbol of its own
    rcases hi.cases with rfl | ⟨r, hr, rfl⟩
    · exact absurd hsymbol (by decide)
    · exact absurd hsymbol.symm (hfresh.leadingSymbol_ne hr).1
  · rcases hi.cases with rfl | ⟨r, hr, rfl⟩ <;> rcases hj.cases with rfl | ⟨s, hs, rfl⟩
    · rfl
    · exact absurd hsymbol (hfresh.leadingSymbol_ne hs).2
    · exact absurd hsymbol.symm (hfresh.leadingSymbol_ne hr).2
    · exact recordImport_eq_of_leadingSymbol_eq hdistinct hs hr hsymbol

/-- `OutputModule.start` imports the library if `zodImport` says so, and nothing else. -/
theorem mem_start_imports_iff {p : Text} {i : Import} :
    i ∈ (OutputModule.start settings p).imports ↔
      settings.zodImport = true ∧ i = OutputModule.libraryImport := by
  rw [OutputModule.start]
  split
  · rename_i hzod
    simp [hzod]
  · rename_i hzod
    simp [hzod]

/-- What `ofSource settings decls p` imports is the library, or `Demands settings recs p` asks for
it. -/
theorem Conversion.of_mem_imports (hconv : Conversion settings recs sorted decls) {p : Text}
    {i : Import} (hi : i ∈ (OutputModule.ofSource settings decls p).imports) :
    i = OutputModule.libraryImport ∨ Demands settings recs p i := by
  rw [OutputModule.ofSource_imports] at hi
  rcases OutputModule.of_mem_merge hi with hi | ⟨hi, -⟩
  · exact Or.inl (mem_start_imports_iff.mp hi).2
  · exact Or.inr (hconv.demands_iff.mp hi)

/-- **The imports of a module:** the library if `zodImport` says so, and what the records of its
source demand from other places, that is, without an import for which `isSelfImport` holds. -/
theorem Conversion.mem_imports_iff (hconv : Conversion settings recs sorted decls)
    (hfresh : Fresh settings recs) (p : Text) {i : Import} :
    i ∈ (OutputModule.ofSource settings decls p).imports ↔
      (settings.zodImport = true ∧ i = OutputModule.libraryImport) ∨
        Demands settings recs p i ∧
          OutputModule.isSelfImport (settings.outputPath p) i = false := by
  rw [OutputModule.ofSource_imports, OutputModule.mem_merge_iff, mem_start_imports_iff,
    hconv.demands_iff]
  intro i hi j hj hsymbol
  rw [List.mem_append, mem_start_imports_iff, hconv.demands_iff] at hj
  refine (hconv.demands_iff.mp hi).eq_of_leadingSymbol_eq hconv.distinct hfresh ?_ hsymbol
  exact hj.imp_left fun h => h.2

end Conversion

/-! ## (5) The paths of the modules -/

/-- **The modules of a batch are at `settings.outputPath p`**, one for each source `p` of a record.
-/
theorem exists_paths_of_convert {out : List OutputModule}
    (hconvert : convert settings files = .ok out) :
    ∃ paths : List Text, paths.Nodup ∧
      (∀ p, p ∈ paths ↔ ∃ r ∈ records files, r.sourcePath = p) ∧
      out.map OutputModule.path = paths.map settings.outputPath := by
  obtain ⟨sorted, hsort, hrest⟩ := Fallible.bind_eq_ok_iff.mp hconvert
  obtain ⟨decls, hrun, hpure⟩ := Fallible.bind_eq_ok_iff.mp hrest
  cases hpure
  obtain ⟨hperm, -⟩ := sort_eq_ok_spec hsort
  refine ⟨_, OutputModule.nodup_eraseDups _, fun p => ?_, OutputModule.map_path_group settings decls⟩
  rw [List.mem_eraseDups, Registry.map_sourcePath_emitAll hrun,
    (hperm.map Record.sourcePath).mem_iff, List.mem_map]

/-- **Different sources have different modules.** Whatever stands in the settings, two files have
one `outputPath` exactly if they have the same directory and the same file name. So no two modules
of a batch of files have one path, exactly if no two sources of its records are two spellings of one
directory with the same file name. -/
theorem convert_paths_nodup_iff (s : Settings) :
    (∀ p q a b, Path.fileName? p = some a → Path.fileName? q = some b →
      (s.outputPath p = s.outputPath q ↔ Path.directory p = Path.directory q ∧ a = b)) ∧
    ∀ files out, convert s files = .ok out →
      (∀ r ∈ records files, Path.fileName? r.sourcePath ≠ none) →
        ((out.map OutputModule.path).Nodup ↔ ∀ r ∈ records files, ∀ q ∈ records files,
          Path.directory r.sourcePath = Path.directory q.sourcePath →
            Path.fileName? r.sourcePath = Path.fileName? q.sourcePath →
              r.sourcePath = q.sourcePath) := by
  refine ⟨fun p q a b hp hq => Settings.outputPath_eq_iff s hp hq, ?_⟩
  intro files out hconvert hnamed
  obtain ⟨paths, hnodup, hmem, hpaths⟩ := exists_paths_of_convert hconvert
  have hsame : ∀ r ∈ records files, ∀ q ∈ records files,
      s.outputPath r.sourcePath = s.outputPath q.sourcePath ↔
        Path.directory r.sourcePath = Path.directory q.sourcePath ∧
          Path.fileName? r.sourcePath = Path.fileName? q.sourcePath := by
    intro r hr q hq
    obtain ⟨a, ha⟩ := Option.ne_none_iff_exists'.mp (hnamed r hr)
    obtain ⟨b, hb⟩ := Option.ne_none_iff_exists'.mp (hnamed q hq)
    rw [Settings.outputPath_eq_iff s ha hb, ha, hb, Option.some_inj]
  rw [hpaths, List.nodup_map_iff_inj_on hnodup]
  constructor
  · intro hinj r hr q hq hdirectory hname
    exact hinj _ ((hmem _).mpr ⟨r, hr, rfl⟩) _ ((hmem _).mpr ⟨q, hq, rfl⟩)
      ((hsame r hr q hq).mpr ⟨hdirectory, hname⟩)
  · intro hapart p hp q hq heq
    obtain ⟨r, hr, rfl⟩ := (hmem p).mp hp
    obtain ⟨t, ht, rfl⟩ := (hmem q).mp hq
    obtain ⟨hdirectory, hname⟩ := (hsame r hr t ht).mp heq
    exact hapart r hr t ht hdirectory hname

/-- Settings whose infix has separators and ends like a file name. -/
def windingSettings : Settings :=
  { schemesDir := "", schemeInfix := "x/../a.z" }

/-- Three sources whose names differ only in what the infix of `windingSettings` ends with. -/
def nearbyFiles : List SourceRecords :=
  [⟨"m/a", [.ofFields "A" "m/a" []]⟩, ⟨"m/a.z", [.ofFields "B" "m/a.z" []]⟩,
    ⟨"m/.z", [.ofFields "C" "m/.z" []]⟩]

/-- One source in two spellings. -/
def respelledFiles : List SourceRecords :=
  [⟨"m/a", [.ofFields "A" "m/a" []]⟩, ⟨"m/./a", [.ofFields "B" "m/./a" []]⟩]

/-- The modules of different sources are apart, those of one source in two spellings are not. -/
theorem convert_nearbyFiles_respelledFiles :
    (∃ out, convert windingSettings nearbyFiles = .ok out ∧ out.length = 3 ∧
      (out.map OutputModule.path).Nodup) ∧
    ∃ out, convert windingSettings respelledFiles = .ok out ∧ out.length = 2 ∧
      ¬ (out.map OutputModule.path).Nodup := by
  have hnearby : sort (records nearbyFiles) = .ok (records nearbyFiles) := by cbv
  have hrespelled : sort (records respelledFiles) = .ok (records respelledFiles) := by cbv
  have hapart := (convert_paths_nodup_iff windingSettings).2
  constructor
  · obtain ⟨out, hconvert, hlength⟩ : ∃ out, convert windingSettings nearbyFiles = .ok out ∧
        out.length = 3 := by
      rw [convert, hnearby]
      exact ⟨_, rfl, rfl⟩
    refine ⟨out, hconvert, hlength, (hapart _ _ hconvert ?_).mpr ?_⟩
    · decide +kernel
    · decide +kernel
  · obtain ⟨out, hconvert, hlength⟩ : ∃ out, convert windingSettings respelledFiles = .ok out ∧
        out.length = 2 := by
      rw [convert, hrespelled]
      exact ⟨_, rfl, rfl⟩
    refine ⟨out, hconvert, hlength, mt (hapart _ _ hconvert ?_).mp ?_⟩
    · decide +kernel
    · decide +kernel

end Batch

end InterfaceSchemes
