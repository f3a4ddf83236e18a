import InterfaceSchemes.Proofs.Conversion

/-! # More sources leave the earlier outputs alone

The sources of a run share one sort, one registry and one grouping, and a new source may use any
record of the others. This file proves that nothing flows back: what a run writes for its sources is
what it writes for them when further sources follow.

* **`Batch.Conversion.scheme_append`** — the types of earlier records keep their schemes.
* **`Batch.Conversion.emitted_append`** — the schemes of earlier records come first, unchanged.
* **`Batch.IsOutput`**, **`Batch.OutputsOf`** — one output for each source that declares a record.
* **`Batch.generate_append`** — the outputs of further sources stand behind the others. -/

namespace InterfaceSchemes.Batch

open DependencyOrder

variable {settings : Settings}

/-! ## (1) Conversions of more records -/

section Conversion

variable {recs more sorted rest : List Record} {decls decls' : List SchemeDecl}

/-- `scheme` is the same in `recs` and in `recs ++ more` at the types of a record of `recs`. -/
theorem Conversion.scheme_append (hconv : Conversion settings recs sorted decls)
    (hdistinct : ((recs ++ more).map Record.name).Nodup) {r : Record} (hr : r ∈ recs)
    (hwell : r.WellFormed) {f : Field} (hf : f ∈ r.fields) {t : Text} (ht : t ∈ f.types) :
    (Registry.ofRecords settings (recs ++ more)).scheme t
      = (Registry.ofRecords settings recs).scheme t := by
  have hknown : Registry.Known recs t := by
    cases hname : Primitive.isPrimitive t with
    | true => exact Or.inl hname
    | false =>
      obtain ⟨used, hused, hlabel, -⟩ := hconv.exists_used hr hwell hf ht hname
      exact Or.inr ⟨used, hused, hlabel⟩
  obtain ⟨scheme, hscheme, hscheme'⟩ : ∃ scheme,
      (Registry.ofRecords settings recs).scheme t = .ok scheme ∧
        (Registry.ofRecords settings (recs ++ more)).scheme t = .ok scheme :=
    Registry.scheme_of_known (List.sublist_append_left recs more) hdistinct hknown
  rw [hscheme, hscheme']

/-- **`decls' = decls ++ added`**: the schemes of earlier records come first, unchanged. -/
theorem Conversion.emitted_append (hconv : Conversion settings recs sorted decls)
    (hconv' : Conversion settings (recs ++ more) (sorted ++ rest) decls')
    (hwell : ∀ r ∈ recs, r.WellFormed) :
    ∃ added, decls' = decls ++ added ∧
      List.Forall₂ (fun r d => Registry.emitDecl settings
        (Registry.ofRecords settings (recs ++ more)) r = .ok d) rest added := by
  have hsame : List.Forall₂ (fun r d => Registry.emitDecl settings
      (Registry.ofRecords settings (recs ++ more)) r = .ok d) sorted decls := by
    have hmem : List.Forall₂ (fun r d => r ∈ sorted ∧
        Registry.emitDecl settings (Registry.ofRecords settings recs) r = .ok d) sorted decls :=
      (List.forall₂_and_left sorted decls).mpr ⟨fun r hr => hr, hconv.emitted⟩
    refine hmem.imp fun r d hrd => ?_
    have hr : r ∈ recs := hconv.perm.mem_iff.mp hrd.1
    rw [← hrd.2]
    exact Registry.emitDecl_congr fun f hf t ht =>
      hconv.scheme_append hconv'.distinct hr (hwell r hr) hf ht
  -- emission is a function, so the front of `decls'` is `decls`
  obtain ⟨front, added, hfront, hadded, rfl⟩ :=
    Fallible.mapM_append_eq_ok_iff.mp (Fallible.mapM_eq_ok_iff.mpr hconv'.emitted)
  rw [Fallible.mapM_eq_ok_iff.mpr hsame] at hfront
  cases hfront
  exact ⟨added, rfl, Fallible.mapM_eq_ok_iff.mp hadded⟩

end Conversion

/-! ## (2) Outputs of sources -/

/-- **`output` is the output of the source at `p`**: the path and the text of a module with schemes
of that source only. -/
def IsOutput (settings : Settings) (p : Text) (output : Text × Text) : Prop :=
  ∃ m : OutputModule, m.path = settings.outputPath p ∧ m.schemes ≠ [] ∧
    (∀ d ∈ m.schemes, d.sourcePath = p) ∧ renderOutput settings m = .ok output

/-- **`outputs` are the outputs of these sources**: one for each path at which a record is
declared. -/
def OutputsOf (settings : Settings) (sources : List Source) (outputs : List (Text × Text)) : Prop :=
  ∃ paths : List Text, paths.Nodup ∧ List.Forall₂ (IsOutput settings) paths outputs ∧
    ∀ p, p ∈ paths ↔ ∃ source ∈ sources, source.path = p ∧
      ∃ file, SourceRecords.ofSource source = .ok file ∧ file.records ≠ []

/-- The paths of the records of a batch are those of the sources that declare a record. -/
theorem exists_sourcePath_iff {sources : List Source} {files : List SourceRecords}
    (hparse : parse sources = .ok files) {p : Text} :
    (∃ r ∈ records files, r.sourcePath = p) ↔ ∃ source ∈ sources, source.path = p ∧
      ∃ file, SourceRecords.ofSource source = .ok file ∧ file.records ≠ [] := by
  have hall := Fallible.mapM_eq_ok_iff.mp hparse
  constructor
  · rintro ⟨r, hr, rfl⟩
    obtain ⟨file, hfile, hrecord⟩ := List.mem_flatMap.mp hr
    obtain ⟨source, hsource, hread⟩ := Fallible.exists_of_mem_right hall hfile
    have hpath := ((SourceRecords.ofSource_spec hread).2 r hrecord).1
    exact ⟨source, hsource, hpath.symm, file, hread, List.ne_nil_of_mem hrecord⟩
  · rintro ⟨source, hsource, rfl, file, hread, hne⟩
    obtain ⟨file', hfile, hread'⟩ := Fallible.exists_of_mem_left hall hsource
    rw [hread] at hread'
    cases hread'
    obtain ⟨r, hr⟩ := List.exists_mem_of_ne_nil _ hne
    exact ⟨r, List.mem_flatMap.mpr ⟨file, hfile, hr⟩, ((SourceRecords.ofSource_spec hread).2 r hr).1⟩

/-- `IsOutput` between the sources of some schemes, each once, and what is rendered. -/
theorem forall₂_isOutput {decls : List SchemeDecl} {outputs : List (Text × Text)}
    (hrender : (OutputModule.group settings decls).mapM (renderOutput settings) = .ok outputs) :
    List.Forall₂ (IsOutput settings) (decls.map SchemeDecl.sourcePath).eraseDups outputs := by
  rw [OutputModule.group_eq, Fallible.mapM_eq_ok_iff, List.forall₂_map_left_iff] at hrender
  have hmem := (List.forall₂_and_left _ outputs).mpr ⟨fun p hp => List.mem_eraseDups.mp hp, hrender⟩
  refine hmem.imp fun p output hp => ?_
  obtain ⟨d, hd, hpath⟩ := List.mem_map.mp hp.1
  refine ⟨OutputModule.ofSource settings decls p, OutputModule.ofSource_path decls p, ?_, ?_, hp.2⟩
  · exact List.ne_nil_of_mem (OutputModule.mem_ofSource_schemes.mpr ⟨hd, hpath⟩)
  · exact fun d hd => (OutputModule.mem_ofSource_schemes.mp hd).2

/-! ## (3) Runs on more sources -/

/-- `records (files ++ others) = records files ++ records others`. -/
theorem records_append (files others : List SourceRecords) :
    records (files ++ others) = records files ++ records others := by
  simp [records]

/-- `generate`, stage by stage: `parse`, `convert`, and `renderOutput` for each module. -/
theorem generate_eq_ok_iff {sources : List Source} {out : List (Text × Text)} :
    generate settings sources = .ok out ↔ ∃ files modules, parse sources = .ok files ∧
      convert settings files = .ok modules ∧ modules.mapM (renderOutput settings) = .ok out := by
  constructor
  · intro hgenerate
    obtain ⟨files, hparse, hrest⟩ := Fallible.bind_eq_ok_iff.mp hgenerate
    obtain ⟨modules, hconvert, hrender⟩ := Fallible.bind_eq_ok_iff.mp hrest
    exact ⟨files, modules, hparse, hconvert, hrender⟩
  · rintro ⟨files, modules, hparse, hconvert, hrender⟩
    exact Fallible.bind_eq_ok_iff.mpr
      ⟨files, hparse, Fallible.bind_eq_ok_iff.mpr ⟨modules, hconvert, hrender⟩⟩

/-- A module is written at its path. -/
theorem fst_of_renderOutput {m : OutputModule} {output : Text × Text}
    (hrender : renderOutput settings m = .ok output) : output.1 = m.path := by
  obtain ⟨text, -, hpure⟩ := Fallible.bind_eq_ok_iff.mp hrender
  cases hpure
  rfl

/-- `output.1 = settings.outputPath p`: an output is written at the place for its source. -/
theorem IsOutput.path_eq {p : Text} {output : Text × Text} (houtput : IsOutput settings p output) :
    output.1 = settings.outputPath p := by
  obtain ⟨m, hpath, -, -, hrender⟩ := houtput
  exact (fst_of_renderOutput hrender).trans hpath

/-- The outputs of some sources are written at the places for these sources. -/
theorem map_fst_of_forall₂ {paths : List Text} {outputs : List (Text × Text)}
    (hall : List.Forall₂ (IsOutput settings) paths outputs) :
    outputs.map Prod.fst = paths.map settings.outputPath := by
  induction hall with
  | nil => rfl
  | cons houtput _ ih => rw [List.map_cons, List.map_cons, houtput.path_eq, ih]

/-- **`OutputsOf settings sources out`**: a run gives the outputs of its sources. -/
theorem outputsOf_of_generate {sources : List Source} {out : List (Text × Text)}
    (hgenerate : generate settings sources = .ok out) : OutputsOf settings sources out := by
  obtain ⟨files, modules, hparse, hconvert, hrender⟩ := generate_eq_ok_iff.mp hgenerate
  obtain ⟨sorted, decls, -, hconv, rfl⟩ := sort_of_convert (parse_wellFormed hparse) hconvert
  refine ⟨(decls.map SchemeDecl.sourcePath).eraseDups, OutputModule.nodup_eraseDups _,
    forall₂_isOutput hrender, fun p => ?_⟩
  rw [List.mem_eraseDups, hconv.mem_sourcePaths_iff, exists_sourcePath_iff hparse]

/-- `generate` goes on from the sorted records with emission, grouping and rendering. -/
theorem generate_eq_of_sort {sources : List Source} {files : List SourceRecords}
    {sorted : List Record} (hparse : parse sources = .ok files)
    (hsort : sort (records files) = .ok sorted) :
    generate settings sources = (Registry.emitAll settings [] sorted).1 >>= fun decls =>
      (OutputModule.group settings decls).mapM (renderOutput settings) := by
  rw [generate, hparse]
  show (convert settings files >>= _) = _
  rw [convert, hsort]
  show ((Registry.emitAll settings [] sorted).1 >>= _) >>= _ = _
  rw [bind_assoc]
  rfl

/-- **`out' = out ++ added`**: the outputs of further sources stand behind the others, which stay as
they are, with the same paths, texts and order. -/
theorem generate_append (settings : Settings) {sources more : List Source}
    (hnew : ∀ source ∈ more, source.path ∉ sources.map Source.path) {out out' : List (Text × Text)}
    (hgenerate : generate settings sources = .ok out)
    (hgenerate' : generate settings (sources ++ more) = .ok out') :
    ∃ added, out' = out ++ added ∧ OutputsOf settings more added := by
  obtain ⟨files, modules, hparse, hconvert, hrender⟩ := generate_eq_ok_iff.mp hgenerate
  obtain ⟨all, modules', hparse', hconvert', hrender'⟩ := generate_eq_ok_iff.mp hgenerate'
  -- the earlier sources are read as before
  obtain ⟨others, hothers, rfl⟩ : ∃ others, parse more = .ok others ∧ all = files ++ others := by
    obtain ⟨front, others, hfront, hothers, rfl⟩ := Fallible.mapM_append_eq_ok_iff.mp hparse'
    rw [← parse, hparse] at hfront
    cases hfront
    exact ⟨others, hothers, rfl⟩
  have hwell := parse_wellFormed hparse
  have hwell' := parse_wellFormed hparse'
  obtain ⟨sorted, decls, hsort, hconv, rfl⟩ := sort_of_convert hwell hconvert
  obtain ⟨sorted', decls', hsort', hconv', rfl⟩ := sort_of_convert hwell' hconvert'
  rw [records_append] at hsort' hconv'
  obtain ⟨rest, rfl, hrest⟩ := sort_append hsort hsort'
  obtain ⟨added, rfl, hadded⟩ := hconv.emitted_append hconv' hwell
  -- the schemes that are added come from the further sources
  have hpaths : ∀ p, p ∈ added.map SchemeDecl.sourcePath ↔
      ∃ r ∈ records others, r.sourcePath = p := by
    intro p
    rw [List.mem_map]
    constructor
    · rintro ⟨d, hd, rfl⟩
      obtain ⟨r, hr, hemit⟩ := Fallible.exists_of_mem_right hadded hd
      exact ⟨r, hrest.mem_iff.mp hr, (Registry.emitDecl_spec hemit).1.symm⟩
    · rintro ⟨r, hr, rfl⟩
      obtain ⟨d, hd, hemit⟩ := Fallible.exists_of_mem_left hadded (hrest.mem_iff.mpr hr)
      exact ⟨d, hd, (Registry.emitDecl_spec hemit).1⟩
  have hapart : ∀ p ∈ added.map SchemeDecl.sourcePath, p ∉ decls.map SchemeDecl.sourcePath := by
    intro p hp hp'
    obtain ⟨r, hr, rfl⟩ := (hpaths p).mp hp
    obtain ⟨s, hs, hsame⟩ := hconv.mem_sourcePaths_iff.mp hp'
    obtain ⟨source, hsource, hpath⟩ := List.mem_map.mp (parse_sourcePath_mem hothers r hr)
    refine hnew source hsource ?_
    rw [hpath, ← hsame]
    exact parse_sourcePath_mem hparse s hs
  rw [OutputModule.group_append hapart] at hrender'
  obtain ⟨front, outputs, hfront, houtputs, rfl⟩ := Fallible.mapM_append_eq_ok_iff.mp hrender'
  rw [hrender] at hfront
  cases hfront
  refine ⟨outputs, rfl, (added.map SchemeDecl.sourcePath).eraseDups,
    OutputModule.nodup_eraseDups _, forall₂_isOutput houtputs, fun p => ?_⟩
  rw [List.mem_eraseDups, hpaths, exists_sourcePath_iff hothers]

/-- A source whose first record uses its second. -/
def firstSources : List Source := [⟨"a.ts", "interface B \x7bx: A\x7d interface A \x7b\x7d"⟩]

/-- A source without a declaration, and one that uses a record of `firstSources`. -/
def furtherSources : List Source := [⟨"c.ts", ""⟩, ⟨"d/e.ts", "interface C \x7by?: B\x7d"⟩]

/-- The records of `firstSources`. -/
def firstFiles : List SourceRecords :=
  [⟨"a.ts", [.ofFields "B" "a.ts" [⟨"x", ["A"], false, false, ["A"]⟩], .ofFields "A" "a.ts" []]⟩]

/-- The records of `furtherSources`. -/
def furtherFiles : List SourceRecords :=
  [⟨"c.ts", []⟩, ⟨"d/e.ts", [.ofFields "C" "d/e.ts" [⟨"y", ["B"], true, false, ["B"]⟩]]⟩]

/-- What is written for `firstSources`. -/
def firstOutputs : List (Text × Text) :=
  [("./schemes/a.scheme.ts",
    "export const AScheme = z.object(\x7b\n\x7d);\n\n" ++
      "export const BScheme = z.object(\x7b\n\tx: AScheme,\n\x7d);\n")]

/-- What is written for `furtherSources`. -/
def furtherOutputs : List (Text × Text) :=
  [("d/schemes/e.scheme.ts",
    "import \x7b BScheme \x7d from './../../schemes/a.scheme';\n\n" ++
      "export const CScheme = z.object(\x7b\n\ty: BScheme.nullable(),\n\x7d);\n")]

/-- The run on both lists writes the outputs of the first list first. -/
theorem generate_furtherSources :
    generate {} firstSources = .ok firstOutputs ∧
      generate {} (firstSources ++ furtherSources) = .ok (firstOutputs ++ furtherOutputs) ∧
        OutputsOf {} furtherSources furtherOutputs := by
  have hfirst : generate {} firstSources = .ok firstOutputs := by
    have hparse : parse firstSources = .ok firstFiles := by decide +kernel
    have hsort : sort (records firstFiles) = .ok (records firstFiles).reverse := by cbv
    rw [generate_eq_of_sort hparse hsort]
    decide +kernel
  have hboth : generate {} (firstSources ++ furtherSources)
      = .ok (firstOutputs ++ furtherOutputs) := by
    have hparse : parse (firstSources ++ furtherSources) = .ok (firstFiles ++ furtherFiles) := by
      decide +kernel
    have hsort : sort (records (firstFiles ++ furtherFiles))
        = .ok ((records firstFiles).reverse ++ records furtherFiles) := by cbv
    rw [generate_eq_of_sort hparse hsort]
    decide +kernel
  obtain ⟨added, hadded, houtputs⟩ := generate_append {} (by decide +kernel) hfirst hboth
  obtain rfl := List.append_cancel_left hadded
  exact ⟨hfirst, hboth, houtputs⟩

end InterfaceSchemes.Batch
