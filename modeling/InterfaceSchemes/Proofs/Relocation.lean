import InterfaceSchemes.Proofs.Discovery
import InterfaceSchemes.Proofs.Enlargement
import InterfaceSchemes.Proofs.ModuleContents
import InterfaceSchemes.Proofs.SelfImport

/-! # Batches at other paths

The texts that a batch gives depend on the paths of its sources only through the places that these
paths give the modules, and through the ways between these places. This file follows a batch whose
sources have been moved through all stages, from the records to the rendered modules.

* **`Source.moved`**, **`Record.moved`**, **`SchemeDecl.moved`** — the same at another path.
* **`DependencyOrder.sort_moved`** — moved records have the order that they had.
* **`Registry.emitAll_moved`** — moved records give the schemes that they gave, moved.
* **`Relocation`** — a way of moving sources that keeps the ways between their modules.
* **`Batch.generate_moved`** — a batch that has been moved so gives the same texts. -/

namespace InterfaceSchemes

/-! ## (1) Moved sources -/

/-- A source at another path. -/
def Source.moved (move : Text → Text) (source : Source) : Source :=
  ⟨move source.path, source.contents⟩

/-- A record from another path. -/
def Record.moved (move : Text → Text) (r : Record) : Record :=
  { r with sourcePath := move r.sourcePath }

/-- The records of a source at another path. -/
def SourceRecords.moved (move : Text → Text) (file : SourceRecords) : SourceRecords :=
  ⟨move file.sourcePath, file.records.map (Record.moved move)⟩

/-- An import with another place of schemes. -/
def Import.moved (place : Text → Text) (i : Import) : Import :=
  if i.resolveRelative then { i with origin := place i.origin } else i

/-- A scheme with other imports. -/
def Scheme.moved (place : Text → Text) (scheme : Scheme) : Scheme :=
  { scheme with imports := scheme.imports.map (Import.moved place) }

/-- An emitted field with other imports. -/
def SchemeField.moved (place : Text → Text) (f : SchemeField) : SchemeField :=
  { f with imports := f.imports.map (Import.moved place) }

/-- An emitted scheme from another path, with other imports. -/
def SchemeDecl.moved (move place : Text → Text) (d : SchemeDecl) : SchemeDecl :=
  { d with
    sourcePath := move d.sourcePath
    fields := d.fields.map (SchemeField.moved place)
    imports := d.imports.map (Import.moved place) }

/-- A registry with other imports. -/
def Registry.moved (place : Text → Text) (registry : Registry) : Registry :=
  registry.map fun entry => (entry.1, entry.2.moved place)

/-- `(i.moved place).leadingSymbol? = i.leadingSymbol?`: a moved import is told from others as
before. -/
@[simp] theorem Import.leadingSymbol?_moved (place : Text → Text) (i : Import) :
    (i.moved place).leadingSymbol? = i.leadingSymbol? := by
  unfold moved
  split <;> rfl

section Stages

variable (move place : Text → Text)

/-! ## (2) Reading and sorting -/

/-- `ofDeclaration (move path) d` is the record at `path`, moved. -/
theorem Record.ofDeclaration_moved {path : Text} {d : Declaration} {r : Record}
    (hread : Record.ofDeclaration path d = .ok r) :
    Record.ofDeclaration (move path) d = .ok (r.moved move) := by
  unfold ofDeclaration at hread ⊢
  split at hread
  · rename_i hflat
    obtain ⟨fields, hfields, hpure⟩ := Fallible.bind_eq_ok_iff.mp hread
    cases hpure
    rw [if_pos hflat]
    refine Fallible.bind_eq_ok_iff.mpr ⟨fields, Fallible.mapM_eq_ok_iff.mpr ?_, rfl⟩
    -- the path is named in errors only
    refine (Fallible.mapM_eq_ok_iff.mp hfields).imp fun s f hfield => ?_
    unfold Field.ofText at hfield ⊢
    split at hfield
    · exact hfield
    · cases hfield
  · cases hread

/-- **`parse` reads the same records from moved sources.** -/
theorem Batch.parse_moved {sources : List Source} {files : List SourceRecords}
    (hparse : Batch.parse sources = .ok files) :
    Batch.parse (sources.map (Source.moved move)) = .ok (files.map (SourceRecords.moved move)) := by
  refine Fallible.mapM_eq_ok_iff.mpr
    (List.forall₂_map_left_iff.mpr (List.forall₂_map_right_iff.mpr ?_))
  refine (Fallible.mapM_eq_ok_iff.mp hparse).imp fun source file hsource => ?_
  obtain ⟨records, hrecords, hpure⟩ := Fallible.bind_eq_ok_iff.mp hsource
  cases hpure
  refine Fallible.bind_eq_ok_iff.mpr ⟨records.map (Record.moved move), ?_, rfl⟩
  refine Fallible.mapM_eq_ok_iff.mpr (List.forall₂_map_right_iff.mpr ?_)
  exact (Fallible.mapM_eq_ok_iff.mp hrecords).imp fun d r => Record.ofDeclaration_moved move

/-- The records of moved sources. -/
theorem Batch.records_moved (files : List SourceRecords) :
    Batch.records (files.map (SourceRecords.moved move))
      = (Batch.records files).map (Record.moved move) := by
  rw [Batch.records, Batch.records, List.flatMap_map, List.map_flatMap]
  rfl

namespace DependencyOrder

/-- `declared?` finds a moved record under its name. -/
theorem declared?_moved {records : List Record} {name : Text} {r : Record}
    (hfound : declared? records name = some r) :
    declared? (records.map (Record.moved move)) name = some (r.moved move) := by
  rw [declared?, List.find?_map]
  exact Option.map_eq_some_iff.mpr ⟨r, hfound, rfl⟩

/-- What has been settled is known by its names. -/
theorem any_moved (done : List Record) (name : Text) :
    ((done.map (Record.moved move)).any fun r => r.name == name)
      = done.any fun r => r.name == name := by
  rw [List.any_map]
  rfl

/-- **`settle` does not look at paths.** -/
theorem settle_moved {records : List Record} {path : List Text} {done out : List Record}
    {names : List Text} (hrun : settle records path done names = .ok out) :
    settle (records.map (Record.moved move)) path (done.map (Record.moved move)) names
      = .ok (out.map (Record.moved move)) := by
  fun_induction settle records path done names generalizing out with
  | case1 path done =>
    cases hrun
    rw [settle]
  | case2 => cases hrun
  | case3 path done name names r hfound hany ih =>
    rw [settle_cons_of_declared (declared?_moved move hfound), any_moved, if_pos hany]
    exact ih hrun
  | case4 => cases hrun
  | case5 => cases hrun
  | case6 path done name names r hfound hany hfresh done' hinner ihInner ihOuter =>
    rw [settle_cons_of_declared (declared?_moved move hfound), any_moved, if_neg hany, if_neg hfresh]
    refine Fallible.bind_eq_ok_iff.mpr ⟨done'.map (Record.moved move), ihInner hinner, ?_⟩
    have hrest := ihOuter hrun
    rwa [List.map_append, List.map_singleton] at hrest

/-- **`sort` treats moved records alike.** -/
theorem sort_moved {records out : List Record} (hsort : sort records = .ok out) :
    sort (records.map (Record.moved move)) = .ok (out.map (Record.moved move)) := by
  have hdistinct := distinct_of_sort hsort
  have hnames : (records.map (Record.moved move)).map Record.name = records.map Record.name := by
    rw [List.map_map]
    rfl
  rw [sort_eq_settle hdistinct] at hsort
  rw [sort_eq_settle (hnames ▸ hdistinct), hnames]
  exact settle_moved move hsort

end DependencyOrder

/-! ## (3) Emission -/

namespace Registry

/-- `(registry.moved place).lookup t` is `registry.lookup t`, moved. -/
theorem lookup_moved (registry : Registry) (t : Text) :
    (registry.moved place).lookup t = (registry.lookup t).map (Scheme.moved place) := by
  induction registry with
  | nil => rfl
  | cons entry registry ih =>
    rw [moved, List.map_cons, List.lookup_cons, List.lookup_cons, ← moved, ih]
    split <;> rfl

/-- `scheme.moved place = scheme` for primitive types, which need no import of another module. -/
theorem primitive_moved {t : Text} {scheme : Scheme}
    (hprimitive : Primitive.scheme? t = some scheme) :
    scheme.moved place = scheme := by
  have himports : scheme.imports.map (Import.moved place) = scheme.imports := by
    refine (List.map_congr_left fun i hi => ?_).trans (List.map_id _)
    rw [Primitive.eq_dateImport hprimitive hi]
    rfl
  rw [Scheme.moved, himports]

/-- `(registry.moved place).scheme t` is the scheme of `t`, with the imports moved. -/
theorem scheme_moved {registry : Registry} {t : Text} {scheme : Scheme}
    (hscheme : registry.scheme t = .ok scheme) :
    (registry.moved place).scheme t = .ok (scheme.moved place) := by
  cases hprimitive : Primitive.scheme? t with
  | some known =>
    rw [scheme_of_primitive hprimitive] at hscheme ⊢
    cases hscheme
    rw [primitive_moved place hprimitive]
  | none =>
    rw [Registry.scheme, hprimitive, Option.none_or] at hscheme ⊢
    rw [lookup_moved]
    cases hlookup : registry.lookup t with
    | none =>
      rw [hlookup] at hscheme
      cases hscheme
    | some known =>
      rw [hlookup] at hscheme
      cases hscheme
      rfl

/-- `unionExpr` does not show the imports of the schemes. -/
theorem unionExpr_moved (first : Scheme) (others : List Scheme) :
    unionExpr (first.moved place) (others.map (Scheme.moved place)) = unionExpr first others := by
  rw [unionExpr, unionExpr, List.flatMap_map]
  rfl

/-- The imports of moved schemes. -/
theorem flatMap_imports_moved (schemes : List Scheme) :
    (schemes.map (Scheme.moved place)).flatMap Scheme.imports
      = (schemes.flatMap Scheme.imports).map (Import.moved place) := by
  rw [List.flatMap_map, List.map_flatMap]
  rfl

/-- `emitField` gives the same field, with the imports moved. -/
theorem emitField_moved {registry : Registry} {path : Text} {f : Field} {sf : SchemeField}
    (hemit : registry.emitField path f = .ok sf) (path' : Text) :
    (registry.moved place).emitField path' f = .ok (sf.moved place) := by
  obtain ⟨first, others, hschemes, rfl⟩ := emitField_eq_ok_iff.mp hemit
  refine emitField_eq_ok_iff.mpr ⟨first.moved place, others.map (Scheme.moved place), ?_, ?_⟩
  · have hall : List.Forall₂ (fun t scheme => (registry.moved place).scheme t = .ok scheme) f.types
        ((first :: others).map (Scheme.moved place)) :=
      List.forall₂_map_right_iff.mpr (hschemes.imp fun t scheme => scheme_moved place)
    exact hall
  · rw [unionExpr_moved, ← List.map_cons, flatMap_imports_moved]
    rfl

/-- `fieldLine (f.moved place) = fieldLine f`: the line of a field does not show its imports. -/
theorem fieldLine_moved (f : SchemeField) : fieldLine (f.moved place) = fieldLine f := by
  simp only [fieldLine, SchemeField.moved]

/-- `declText` does not show the imports of the fields. -/
theorem declText_moved (name : Text) (fields : List SchemeField) :
    declText name (fields.map (SchemeField.moved place)) = declText name fields := by
  unfold declText
  rw [List.flatMap_map]
  simp only [fieldLine_moved]

/-- `emitDecl` gives the same scheme, with the imports moved. -/
theorem emitDecl_moved {settings : Settings} {registry : Registry} {r : Record} {d : SchemeDecl}
    (hemit : emitDecl settings registry r = .ok d) :
    emitDecl settings (registry.moved place) (r.moved move) = .ok (d.moved move place) := by
  obtain ⟨fields, hfields, rfl⟩ := emitDecl_eq_ok_iff.mp hemit
  refine emitDecl_eq_ok_iff.mpr ⟨fields.map (SchemeField.moved place), ?_, ?_⟩
  · refine List.forall₂_map_right_iff.mpr (hfields.imp fun f sf hfield => ?_)
    exact emitField_moved place hfield _
  · have himports : (fields.map (SchemeField.moved place)).flatMap SchemeField.imports
        = (fields.flatMap SchemeField.imports).map (Import.moved place) := by
      rw [List.flatMap_map, List.map_flatMap]
      rfl
    rw [SchemeDecl.moved, himports, Record.moved]
    dsimp only
    rw [declText_moved]

/-- **`emitAll` treats moved records alike**, if the places of their schemes are moved with them.
The induction is on the records to come. -/
theorem emitAll_moved {settings : Settings} {registry : Registry} {records : List Record}
    {decls : List SchemeDecl}
    (hplace : ∀ r ∈ records, place (settings.schemeBase r.sourcePath)
      = settings.schemeBase (move r.sourcePath))
    (hemit : (emitAll settings registry records).1 = .ok decls) :
    (emitAll settings (registry.moved place) (records.map (Record.moved move))).1
      = .ok (decls.map (SchemeDecl.moved move place)) := by
  induction records generalizing registry decls with
  | nil =>
    cases hemit
    rfl
  | cons r records ih =>
    obtain ⟨d, rest, hdecl, hrest, rfl⟩ := emitAll_cons_eq_ok_iff.mp hemit
    -- the registry grows by the moved scheme
    have hscheme : recordScheme settings (r.moved move)
        = (recordScheme settings r).moved place := by
      show Scheme.mk _ [⟨_, settings.schemeBase (move r.sourcePath), true⟩] = _
      rw [← hplace r (by simp)]
      rfl
    have hnext := ih (fun s hs => hplace s (List.mem_cons_of_mem _ hs)) hrest
    rw [List.map_cons, emitAll_cons_eq_ok_iff]
    refine ⟨_, _, emitDecl_moved move place hdecl, ?_, rfl⟩
    rw [hscheme]
    exact hnext

end Registry

/-! ## (4) Modules -/

namespace OutputModule

variable {settings : Settings} {decls : List SchemeDecl}

/-- A module at another path, with its schemes and imports moved. -/
def moved (path : Text) (m : OutputModule) : OutputModule :=
  ⟨path, m.imports.map (Import.moved place), m.schemes.map (SchemeDecl.moved move place)⟩

/-- Different paths that stay different are moved one by one. -/
theorem eraseDups_map {paths : List Text}
    (hinj : ∀ p ∈ paths, ∀ q ∈ paths, move p = move q → p = q) :
    (paths.map move).eraseDups = paths.eraseDups.map move := by
  induction paths using List.reverseRecOn with
  | nil => rfl
  | append_singleton paths p ih =>
    have hrest := ih fun p hp q hq =>
      hinj p (List.mem_append_left _ hp) q (List.mem_append_left _ hq)
    have hmem : move p ∈ paths.map move ↔ p ∈ paths := by
      constructor
      · intro hmoved
        obtain ⟨q, hq, heq⟩ := List.mem_map.mp hmoved
        rwa [← hinj q (List.mem_append_left _ hq) p (by simp) heq]
      · exact List.mem_map_of_mem
    rw [List.map_append, List.map_singleton, eraseDups_concat, eraseDups_concat, hrest]
    by_cases hp : p ∈ paths
    · rw [if_pos hp, if_pos (hmem.mpr hp)]
    · rw [if_neg hp, if_neg (mt hmem.mp hp), List.map_append, List.map_singleton]

/-- `merge` treats moved imports alike, if `isSelfImport` holds for the same ones. -/
theorem merge_moved {path path' : Text} (known : List Import) {imports : List Import}
    (hself : ∀ i ∈ imports, isSelfImport path' (i.moved place) = isSelfImport path i) :
    merge path' (known.map (Import.moved place)) (imports.map (Import.moved place))
      = (merge path known imports).map (Import.moved place) := by
  induction imports generalizing known with
  | nil => rfl
  | cons i imports ih =>
    have hadd : addImport path' (known.map (Import.moved place)) (i.moved place)
        = (addImport path known i).map (Import.moved place) := by
      unfold addImport
      rw [hself i (by simp), List.any_map]
      simp only [Function.comp_def, Import.leadingSymbol?_moved]
      split
      · rfl
      · split
        · rfl
        · rw [List.map_append, List.map_singleton]
    rw [merge, List.map_cons, List.foldl_cons, hadd]
    exact ih _ fun j hj => hself j (List.mem_cons_of_mem _ hj)

/-- The schemes of a moved source are those of the source, moved. -/
theorem filter_moved {p : Text}
    (hinj : ∀ d ∈ decls, move d.sourcePath = move p → d.sourcePath = p) :
    (decls.map (SchemeDecl.moved move place)).filter (fun d => d.sourcePath == move p)
      = (decls.filter fun d => d.sourcePath == p).map (SchemeDecl.moved move place) := by
  rw [List.filter_map]
  congr 1
  refine List.filter_congr fun d hd => ?_
  rw [Bool.eq_iff_iff, Function.comp_apply, beq_iff_eq, beq_iff_eq]
  exact ⟨hinj d hd, congrArg move⟩

/-- **`ofSource` at `move p`** is the module of `p`, moved. -/
theorem ofSource_moved {p : Text}
    (hinj : ∀ d ∈ decls, move d.sourcePath = move p → d.sourcePath = p)
    (hself : ∀ d ∈ decls, ∀ i ∈ d.imports,
      isSelfImport (settings.outputPath (move p)) (i.moved place)
        = isSelfImport (settings.outputPath p) i) :
    ofSource settings (decls.map (SchemeDecl.moved move place)) (move p)
      = (ofSource settings decls p).moved move place (settings.outputPath (move p)) := by
  have himports : ((decls.filter fun d => d.sourcePath == p).map
        (SchemeDecl.moved move place)).flatMap SchemeDecl.imports
      = ((decls.filter fun d => d.sourcePath == p).flatMap SchemeDecl.imports).map
          (Import.moved place) := by
    rw [List.flatMap_map, List.map_flatMap]
    rfl
  have hstart : (start settings (move p)).imports
      = (start settings p).imports.map (Import.moved place) := by
    unfold start
    dsimp only
    split <;> rfl
  have hkept : ∀ i ∈ (decls.filter fun d => d.sourcePath == p).flatMap SchemeDecl.imports,
      isSelfImport (settings.outputPath (move p)) (i.moved place)
        = isSelfImport (settings.outputPath p) i := by
    intro i hi
    obtain ⟨d, hd, hi⟩ := List.mem_flatMap.mp hi
    exact hself d (List.mem_of_mem_filter hd) i hi
  rw [ofSource, collect, filter_moved move place hinj, foldl_add_eq, himports, hstart, ofSource,
    collect, foldl_add_eq, moved]
  exact congrArg₂ (OutputModule.mk (settings.outputPath (move p)))
    (merge_moved place _ hkept) (by simp [start])

/-- `render` gives a moved module the same text, if its imports are spelled alike. -/
theorem render_moved {path' : Text} {m : OutputModule}
    (hlines : ∀ i ∈ m.imports, ∀ line, importLine settings m.path i = .ok line →
      importLine settings path' (i.moved place) = .ok line) {text : Text}
    (hrender : m.render settings = .ok text) :
    (m.moved move place path').render settings = .ok text := by
  have hraw : (m.moved move place path').schemes.map SchemeDecl.raw
      = m.schemes.map SchemeDecl.raw := by
    rw [moved, List.map_map]
    rfl
  have hempty : (m.moved move place path').imports.isEmpty = m.imports.isEmpty := by
    rw [moved, List.isEmpty_map]
  unfold render at hrender ⊢
  obtain ⟨lines, hspelled, hpure⟩ := Fallible.bind_eq_ok_iff.mp hrender
  rw [hraw, hempty]
  refine Fallible.bind_eq_ok_iff.mpr ⟨lines, ?_, hpure⟩
  refine Fallible.mapM_eq_ok_iff.mpr (List.forall₂_map_left_iff.mpr ?_)
  have hmem := (List.forall₂_and_left m.imports lines).mpr
    ⟨fun i hi => hi, Fallible.mapM_eq_ok_iff.mp hspelled⟩
  exact hmem.imp fun i line hi => hlines i hi.1 line hi.2

/-- `importLine` of an import from a library is the same in every module. -/
theorem importLine_library {i : Import} (hlibrary : i.resolveRelative = false) (path path' : Text) :
    importLine settings path i = importLine settings path' i := by
  simp only [importLine, hlibrary, Bool.false_eq_true, if_false]

/-- `importLine` of a relative import shows the symbols and the way to the place. -/
theorem importLine_relative {path path' : Text} {i i' : Import} (hi : i.resolveRelative = true)
    (hi' : i'.resolveRelative = true) (hsymbols : i'.symbols = i.symbols)
    (horigin : ∀ text, settings.importPath path i.origin = .ok text →
      settings.importPath path' i'.origin = .ok text) {line : Text}
    (hline : importLine settings path i = .ok line) : importLine settings path' i' = .ok line := by
  unfold importLine at hline ⊢
  rw [if_pos hi] at hline
  rw [if_pos hi', hsymbols]
  obtain ⟨origin, hspelled, hpure⟩ := Fallible.bind_eq_ok_iff.mp hline
  exact Fallible.bind_eq_ok_iff.mpr ⟨origin, horigin origin hspelled, hpure⟩

end OutputModule

end Stages

/-! ## (5) Whole batches -/

/-- **A relocation of the sources at `paths`**: each path is moved and the place of its schemes with
it, and the two questions that a run asks about two places have the answers that they had. -/
structure Relocation (settings : Settings) (paths : List Text) (move place : Text → Text) :
    Prop where
  /-- Different sources stay different. -/
  injective : ∀ p ∈ paths, ∀ q ∈ paths, move p = move q → p = q
  /-- The place of the schemes goes with the source. -/
  schemeBase : ∀ p ∈ paths, place (settings.schemeBase p) = settings.schemeBase (move p)
  /-- The test for self imports holds for the same sources. -/
  selfImport : ∀ p ∈ paths, ∀ q ∈ paths,
    settings.schemeBase (move q) ++ Path.extension (settings.outputPath (move p))
        = settings.outputPath (move p) ↔
      settings.schemeBase q ++ Path.extension (settings.outputPath p) = settings.outputPath p
  /-- Imports are spelled alike. -/
  importPath : ∀ p ∈ paths, ∀ q ∈ paths, ∀ text,
    settings.importPath (settings.outputPath p) (settings.schemeBase q) = .ok text →
      settings.importPath (settings.outputPath (move p)) (settings.schemeBase (move q)) = .ok text

/-- `recordImport settings (r.moved move)` is that of `r`, moved. -/
theorem Relocation.recordImport_moved {settings : Settings} {paths : List Text}
    {move place : Text → Text} (hreloc : Relocation settings paths move place) {r : Record}
    (hr : r.sourcePath ∈ paths) :
    (Registry.recordImport settings r).moved place
      = Registry.recordImport settings (r.moved move) := by
  show Import.mk _ (place (settings.schemeBase r.sourcePath)) true = _
  rw [hreloc.schemeBase _ hr]
  rfl

namespace Batch

variable {settings : Settings} {paths : List Text} {move place : Text → Text}
  {recs sorted : List Record} {decls : List SchemeDecl}

/-- Schemes come from the sources of the records. -/
theorem Conversion.sourcePath_mem (hconv : Conversion settings recs sorted decls)
    (hpaths : ∀ r ∈ recs, r.sourcePath ∈ paths) {p : Text}
    (hp : p ∈ decls.map SchemeDecl.sourcePath) : p ∈ paths := by
  obtain ⟨r, hr, rfl⟩ := hconv.mem_sourcePaths_iff.mp hp
  exact hpaths r hr

/-- `dateImport`, or `recordImport settings r` for a record `r`: a scheme imports nothing else. -/
theorem Conversion.import_cases (hconv : Conversion settings recs sorted decls) {d : SchemeDecl}
    (hd : d ∈ decls) {i : Import} (hi : i ∈ d.imports) :
    i = Primitive.dateImport ∨ ∃ r ∈ recs, i = Registry.recordImport settings r := by
  obtain ⟨r, -, hemit⟩ := hconv.exists_record hd
  obtain ⟨f, -, t, -, scheme, hscheme, hi⟩ := (Registry.mem_imports_of_emitDecl hemit).mp hi
  exact Registry.import_cases hscheme hi

section

variable (hreloc : Relocation settings paths move place)
  (hconv : Conversion settings recs sorted decls) (hpaths : ∀ r ∈ recs, r.sourcePath ∈ paths)

include hreloc hconv hpaths

/-- `ofSource` at `move p` is the module of `p`, moved, for every `Conversion` and `Relocation`. -/
theorem Conversion.ofSource_moved {p : Text} (hp : p ∈ paths) :
    OutputModule.ofSource settings (decls.map (SchemeDecl.moved move place)) (move p)
      = (OutputModule.ofSource settings decls p).moved move place (settings.outputPath (move p)) := by
  refine OutputModule.ofSource_moved move place (fun d hd => ?_) fun d hd i hi => ?_
  · exact hreloc.injective _ (hconv.sourcePath_mem hpaths (List.mem_map_of_mem hd)) p hp
  · rcases hconv.import_cases hd hi with rfl | ⟨r, hr, rfl⟩
    · have hlibrary : '/' ∉ Primitive.dateImport.origin := by decide
      show OutputModule.isSelfImport _ Primitive.dateImport = _
      rw [OutputModule.isSelfImport_library hlibrary, OutputModule.isSelfImport_library hlibrary]
    · rw [hreloc.recordImport_moved (hpaths r hr), Bool.eq_iff_iff, OutputModule.isSelfImport,
        OutputModule.isSelfImport, beq_iff_eq, beq_iff_eq]
      exact hreloc.selfImport p hp r.sourcePath (hpaths r hr)

/-- `renderOutput` gives the module of a moved source the text that it had. -/
theorem Conversion.renderOutput_moved {p : Text} (hp : p ∈ paths) {output : Text × Text}
    (hrender : renderOutput settings (OutputModule.ofSource settings decls p) = .ok output) :
    renderOutput settings
        (OutputModule.ofSource settings (decls.map (SchemeDecl.moved move place)) (move p))
      = .ok (settings.outputPath (move p), output.2) := by
  obtain ⟨text, htext, hpure⟩ := Fallible.bind_eq_ok_iff.mp hrender
  cases hpure
  rw [hconv.ofSource_moved hreloc hpaths hp]
  refine Fallible.bind_eq_ok_iff.mpr ⟨text, OutputModule.render_moved move place ?_ htext, rfl⟩
  intro i hi line hline
  have hlibrary : i.resolveRelative = false →
      OutputModule.importLine settings (settings.outputPath (move p)) (i.moved place) = .ok line := by
    intro hlibrary
    have hsame : i.moved place = i := by rw [Import.moved, if_neg (by simp [hlibrary])]
    rw [hsame, ← hline]
    exact OutputModule.importLine_library hlibrary _ _
  rcases hconv.of_mem_imports hi with rfl | hdemand
  · exact hlibrary rfl
  · rcases hdemand.cases with rfl | ⟨r, hr, rfl⟩
    · exact hlibrary rfl
    · rw [hreloc.recordImport_moved (hpaths r hr)]
      rw [OutputModule.ofSource_path] at hline
      refine OutputModule.importLine_relative ?_ ?_ ?_ ?_ hline
      · rfl
      · rfl
      · rfl
      · exact hreloc.importPath p hp r.sourcePath (hpaths r hr)

/-- The modules of moved sources stand in the order in which they stood. -/
theorem Conversion.group_moved :
    OutputModule.group settings (decls.map (SchemeDecl.moved move place))
      = (decls.map SchemeDecl.sourcePath).eraseDups.map fun p =>
        OutputModule.ofSource settings (decls.map (SchemeDecl.moved move place)) (move p) := by
  have hsources : ((decls.map (SchemeDecl.moved move place)).map SchemeDecl.sourcePath).eraseDups
      = (decls.map SchemeDecl.sourcePath).eraseDups.map move := by
    rw [← OutputModule.eraseDups_map move fun p hp q hq => hreloc.injective p
      (hconv.sourcePath_mem hpaths hp) q (hconv.sourcePath_mem hpaths hq), List.map_map, List.map_map]
    rfl
  rw [OutputModule.group_eq, hsources, List.map_map]
  rfl

end

/-- **`convert` treats moved sources alike**, up to the modules. -/
theorem Conversion.convert_moved {files : List SourceRecords}
    (hconv : Conversion settings (records files) sorted decls)
    (hreloc : Relocation settings paths move place)
    (hpaths : ∀ r ∈ records files, r.sourcePath ∈ paths)
    (hsort : DependencyOrder.sort (records files) = .ok sorted)
    (hrun : (Registry.emitAll settings [] sorted).1 = .ok decls) :
    convert settings (files.map (SourceRecords.moved move))
      = .ok (OutputModule.group settings (decls.map (SchemeDecl.moved move place))) := by
  have hsort' := DependencyOrder.sort_moved move hsort
  rw [← records_moved] at hsort'
  refine Fallible.bind_eq_ok_iff.mpr ⟨_, hsort', Fallible.bind_eq_ok_iff.mpr ⟨_, ?_, rfl⟩⟩
  refine Registry.emitAll_moved move place (fun r hr => ?_) hrun
  exact hreloc.schemeBase _ (hpaths r (hconv.perm.mem_iff.mp hr))

/-- **`generate` gives a batch that is moved the same texts**, each at the place for the moved
source. -/
theorem generate_moved {sources : List Source}
    (hreloc : Relocation settings (sources.map Source.path) move place) {out : List (Text × Text)}
    (hgenerate : generate settings sources = .ok out) :
    ∃ placed : List (Text × Text), (∀ output ∈ placed, output.1 ∈ sources.map Source.path) ∧
      out = placed.map (fun output => (settings.outputPath output.1, output.2)) ∧
      generate settings (sources.map (Source.moved move))
        = .ok (placed.map fun output => (settings.outputPath (move output.1), output.2)) := by
  obtain ⟨files, modules, hparse, hconvert, hrender⟩ := generate_eq_ok_iff.mp hgenerate
  obtain ⟨sorted, hsort, hrest⟩ := Fallible.bind_eq_ok_iff.mp hconvert
  obtain ⟨decls, hrun, hpure⟩ := Fallible.bind_eq_ok_iff.mp hrest
  cases hpure
  have hpaths := parse_sourcePath_mem hparse
  obtain ⟨decls', hrun', hconv⟩ := exists_conversion settings (parse_wellFormed hparse) hsort
  obtain rfl := Except.ok.inj (hrun.symm.trans hrun')
  have hmem : ∀ p ∈ (decls.map SchemeDecl.sourcePath).eraseDups, p ∈ sources.map Source.path :=
    fun p hp => hconv.sourcePath_mem hpaths (List.mem_eraseDups.mp hp)
  -- each output goes with its source
  rw [OutputModule.group_eq, Fallible.mapM_eq_ok_iff, List.forall₂_map_left_iff] at hrender
  obtain ⟨hlength, hzip⟩ := List.forall₂_iff_zip.mp hrender
  have hfst := List.map_fst_zip (le_of_eq hlength)
  have hsnd := List.map_snd_zip (ge_of_eq hlength)
  refine ⟨((decls.map SchemeDecl.sourcePath).eraseDups.zip out).map fun x => (x.1, x.2.2), ?_, ?_, ?_⟩
  · intro output houtput
    obtain ⟨x, hx, rfl⟩ := List.mem_map.mp houtput
    exact hmem _ (List.of_mem_zip hx).1
  · rw [List.map_map]
    refine hsnd.symm.trans (List.map_congr_left fun x hx => Prod.ext ?_ rfl)
    rw [fst_of_renderOutput (hzip hx), OutputModule.ofSource_path]
    rfl
  · have hmodules : OutputModule.group settings (decls.map (SchemeDecl.moved move place))
        = ((decls.map SchemeDecl.sourcePath).eraseDups.zip out).map fun x =>
          OutputModule.ofSource settings (decls.map (SchemeDecl.moved move place)) (move x.1) := by
      rw [hconv.group_moved hreloc hpaths]
      conv_lhs => rw [← hfst]
      rw [List.map_map]
      rfl
    refine generate_eq_ok_iff.mpr ⟨_, _, parse_moved move hparse,
      hconv.convert_moved hreloc hpaths hsort hrun, ?_⟩
    rw [hmodules, Fallible.mapM_eq_ok_iff, List.map_map, List.forall₂_map_left_iff,
      List.forall₂_map_right_iff, List.forall₂_same]
    intro x hx
    have hout := hconv.renderOutput_moved hreloc hpaths (hmem _ (List.of_mem_zip hx).1) (hzip hx)
    exact hout

end Batch

end InterfaceSchemes
