import InterfaceSchemes.Proofs.Conversion
import InterfaceSchemes.Proofs.Placement

/-! # Output modules are well scoped

A scheme of an output module refers to other schemes by name. This file proves that every such name
means the right thing where it is used: it is declared earlier in the module, or imported once from
the module that declares it, and nothing else is imported.

* **`Batch.Separated`** — what the settings have to keep apart: sources with an extension, and a
  place of its own for each.
* **`Batch.Resolves`** — the three ways in which a type of a field is known in a module.
* **`Batch.Needed`** — what a module may import.
* **`Batch.WellScoped`** — the scoping rules of a whole module.
* **`Batch.convert_wellScoped`** — every module of a converted batch is well scoped. -/

namespace InterfaceSchemes.Batch

/-! ## (1) Scoping rules -/

/-- **The settings keep these source paths apart**, so that the import of a module can be told from
one that leads back to itself. -/
structure Separated (settings : Settings) (paths : List Text) : Prop where
  /-- The infix does not lead into another directory. -/
  schemeInfix : '/' ∉ settings.schemeInfix
  /-- Each path has an extension. -/
  extension : ∀ p ∈ paths, Path.extension p ≠ []
  /-- Different sources have their schemes in different places. -/
  schemeBase : ∀ p ∈ paths, ∀ q ∈ paths, p ≠ q → settings.schemeBase p ≠ settings.schemeBase q

/-- **How a type `t` is known to the scheme `d` of the module `m`.** -/
inductive Resolves (settings : Settings) (records : List Record) (out : List OutputModule)
    (m : OutputModule) (d : SchemeDecl) (t : Text) : Prop where
  /-- A primitive type: the module has what its scheme needs. -/
  | primitive (scheme : Scheme) (htable : Primitive.scheme? t = some scheme)
      (himports : ∀ i ∈ scheme.imports, i ∈ m.imports)
  /-- A record of the same source: its scheme stands before `d` and is not imported. -/
  | declared (used : Record) (hused : used ∈ records) (hname : used.name = t)
      (hnot : Primitive.isPrimitive t = false) (hsource : used.sourcePath = d.sourcePath)
      (hbefore : ∃ before after, m.schemes = before ++ d :: after ∧
        used.name ++ settings.schemeSuffix ∈ before.map SchemeDecl.name)
      (himport : ∀ i ∈ m.imports, used.name ++ settings.schemeSuffix ∉ i.symbols)
  /-- A record of another source: there is one import of its scheme, from the module that declares
  it. -/
  | imported (used : Record) (hused : used ∈ records) (hname : used.name = t)
      (hnot : Primitive.isPrimitive t = false) (hsource : used.sourcePath ≠ d.sourcePath)
      (origin : Text)
      (hone : (m.imports.filter fun i => decide (used.name ++ settings.schemeSuffix ∈ i.symbols))
        = [⟨[used.name ++ settings.schemeSuffix], origin, true⟩])
      (other : OutputModule) (hother : other ∈ out)
      (hdeclares : used.name ++ settings.schemeSuffix ∈ other.schemes.map SchemeDecl.name)
      (hplace : origin ++ Path.extension used.sourcePath = other.path)

/-- **A scheme of the module `m` needs the import `i`**: for a primitive type of one of its fields,
or for a record of another source. -/
def Needed (settings : Settings) (records : List Record) (m : OutputModule) (i : Import) : Prop :=
  ∃ d ∈ m.schemes, ∃ r ∈ records, d.name = r.name ++ settings.schemeSuffix ∧
    ∃ f ∈ r.fields, ∃ t ∈ f.types,
      (∃ scheme, Primitive.scheme? t = some scheme ∧ i ∈ scheme.imports) ∨
        Primitive.isPrimitive t = false ∧ ∃ used ∈ records, used.name = t ∧
          used.sourcePath ≠ d.sourcePath ∧ i = Registry.recordImport settings used

/-- **The module `m` is well scoped** among the modules of its batch. -/
structure WellScoped (settings : Settings) (records : List Record) (out : List OutputModule)
    (m : OutputModule) : Prop where
  /-- No two schemes have one name. -/
  schemes_distinct : (m.schemes.map SchemeDecl.name).Nodup
  /-- No two imports have one leading symbol. -/
  imports_distinct : (m.imports.map Import.leadingSymbol?).Nodup
  /-- What is imported is not declared. -/
  imported_notMem : ∀ i ∈ m.imports, ∀ symbol ∈ i.symbols,
    symbol ∉ m.schemes.map SchemeDecl.name
  /-- Each scheme is the scheme of a record. -/
  declares : ∀ d ∈ m.schemes, ∃ r ∈ records,
    d.name = r.name ++ settings.schemeSuffix ∧ d.sourcePath = r.sourcePath
  /-- Each type of a field is known. -/
  resolves : ∀ d ∈ m.schemes, ∀ r ∈ records, d.name = r.name ++ settings.schemeSuffix →
    ∀ f ∈ r.fields, ∀ t ∈ f.types, Resolves settings records out m d t
  /-- The library is imported if the settings say so. -/
  library : OutputModule.libraryImport ∈ m.imports ↔ settings.zodImport = true
  /-- Any other import is there for a type of a field. -/
  needed : ∀ i ∈ m.imports, i = OutputModule.libraryImport ∨ Needed settings records m i

/-! ## (2) Self imports -/

variable {settings : Settings} {paths : List Text}

/-- `isSelfImport` is false of the import for dates. -/
theorem Separated.isSelfImport_dateImport (hsep : Separated settings paths) {p : Text}
    (hp : p ∈ paths) :
    OutputModule.isSelfImport (settings.outputPath p) Primitive.dateImport = false := by
  rw [OutputModule.isSelfImport, beq_eq_false_iff_ne, Ne,
    Settings.origin_append_extension_iff settings hsep.schemeInfix (hsep.extension p hp)]
  intro heq
  have hslash := settings.slash_mem_schemeBase p
  rw [← heq] at hslash
  exact absurd hslash (by decide)

/-- **`isSelfImport` holds of `recordImport settings r` exactly if `r` is declared in the module**,
since sources have places of their own. -/
theorem Separated.isSelfImport_recordImport_iff (hsep : Separated settings paths) {p : Text}
    (hp : p ∈ paths) {r : Record} (hr : r.sourcePath ∈ paths) :
    OutputModule.isSelfImport (settings.outputPath p) (Registry.recordImport settings r) = true ↔
      r.sourcePath = p := by
  rw [OutputModule.isSelfImport, beq_iff_eq,
    Settings.origin_append_extension_iff settings hsep.schemeInfix (hsep.extension p hp)]
  constructor
  · intro hbase
    by_contra hne
    exact hsep.schemeBase _ hr p hp hne hbase
  · rintro rfl
    rfl

/-- An element of a list is the only one of its kind, if the kind goes with a value that is not
repeated. -/
theorem filter_eq_singleton {α β : Type} {l : List α} {g : α → β} (hnodup : (l.map g).Nodup)
    {p : α → Bool} {a : α} (ha : a ∈ l) (hkind : ∀ b ∈ l, p b = true ↔ g b = g a) :
    l.filter p = [a] := by
  refine List.perm_singleton.mp ?_
  refine (List.perm_ext_iff_of_nodup (hnodup.of_map.filter p) (List.nodup_singleton a)).mpr ?_
  intro b
  rw [List.mem_filter, List.mem_singleton]
  constructor
  · rintro ⟨hb, hpb⟩
    exact List.inj_on_of_nodup_map hnodup hb ha ((hkind b hb).mp hpb)
  · rintro rfl
    exact ⟨ha, (hkind b ha).mpr rfl⟩

/-! ## (3) One module -/

section Module

variable {recs sorted : List Record} {decls : List SchemeDecl}

/-- `i.symbols = [symbol]` for every import of a module. -/
theorem Conversion.exists_symbol (hconv : Conversion settings recs sorted decls)
    (hfresh : Fresh settings recs) {p : Text} {i : Import}
    (hi : i ∈ (OutputModule.ofSource settings decls p).imports) :
    ∃ symbol, i.symbols = [symbol] := by
  rcases (hconv.mem_imports_iff hfresh p).mp hi with ⟨-, rfl⟩ | ⟨hi, -⟩
  · exact ⟨_, rfl⟩
  · rcases hi.cases with rfl | ⟨r, -, rfl⟩
    · exact ⟨_, rfl⟩
    · exact ⟨_, rfl⟩

/-- `symbol ∈ i.symbols` exactly if it is the leading one. -/
theorem Conversion.mem_symbols_iff (hconv : Conversion settings recs sorted decls)
    (hfresh : Fresh settings recs) {p : Text} {i : Import}
    (hi : i ∈ (OutputModule.ofSource settings decls p).imports) {symbol : Text} :
    symbol ∈ i.symbols ↔ i.leadingSymbol? = some symbol := by
  obtain ⟨only, honly⟩ := hconv.exists_symbol hfresh hi
  rw [Import.leadingSymbol?, honly, List.mem_singleton, List.head?_cons, Option.some.injEq]
  exact eq_comm

/-- No two imports of `ofSource settings decls p` have one leading symbol. -/
theorem nodup_leadingSymbol_ofSource (decls : List SchemeDecl) (p : Text) :
    ((OutputModule.ofSource settings decls p).imports.map Import.leadingSymbol?).Nodup := by
  rw [OutputModule.ofSource_imports]
  refine OutputModule.nodup_leadingSymbol_merge ?_ _
  rw [OutputModule.start]
  split <;> simp

/-- `i = recordImport settings r` for every import `i` of the name of the scheme of `r`. -/
theorem Conversion.eq_recordImport (hconv : Conversion settings recs sorted decls)
    (hfresh : Fresh settings recs) {p : Text} {i : Import}
    (hi : i ∈ (OutputModule.ofSource settings decls p).imports) {r : Record} (hr : r ∈ recs)
    (hsymbol : r.name ++ settings.schemeSuffix ∈ i.symbols) :
    i = Registry.recordImport settings r ∧
      OutputModule.isSelfImport (settings.outputPath p) i = false := by
  have hleading := (hconv.mem_symbols_iff hfresh hi).mp hsymbol
  rcases (hconv.mem_imports_iff hfresh p).mp hi with ⟨-, rfl⟩ | ⟨hi, hself⟩
  · exact absurd hleading.symm (hfresh.leadingSymbol_ne hr).1
  · refine ⟨?_, hself⟩
    rcases hi.cases with rfl | ⟨s, hs, rfl⟩
    · exact absurd hleading.symm (hfresh.leadingSymbol_ne hr).2
    · exact recordImport_eq_of_leadingSymbol_eq hconv.distinct hs hr hleading

/-- The scheme of a record is imported once. -/
theorem Conversion.filter_imports_eq (hconv : Conversion settings recs sorted decls)
    (hfresh : Fresh settings recs) {p : Text} {r : Record}
    (hmem : Registry.recordImport settings r ∈ (OutputModule.ofSource settings decls p).imports) :
    ((OutputModule.ofSource settings decls p).imports.filter fun i =>
        decide (r.name ++ settings.schemeSuffix ∈ i.symbols))
      = [Registry.recordImport settings r] := by
  refine filter_eq_singleton (nodup_leadingSymbol_ofSource decls p) hmem fun i hi => ?_
  rw [decide_eq_true_iff, hconv.mem_symbols_iff hfresh hi]
  rfl

/-- A scheme with the name of a record's scheme is that scheme. -/
theorem Conversion.emitDecl_eq_ok (hconv : Conversion settings recs sorted decls) {d : SchemeDecl}
    (hd : d ∈ decls) {r : Record} (hr : r ∈ recs)
    (hname : d.name = r.name ++ settings.schemeSuffix) :
    Registry.emitDecl settings (Registry.ofRecords settings recs) r = .ok d := by
  obtain ⟨s, hs, hemit⟩ := hconv.exists_record hd
  rw [(Registry.emitDecl_spec hemit).2] at hname
  rwa [DependencyOrder.eq_of_name_eq hconv.distinct hr hs (List.append_cancel_right hname).symm]

/-- In its module, the scheme `d` of a record stands after the scheme of any record of the same
source that it uses. -/
theorem Conversion.exists_before (hconv : Conversion settings recs sorted decls) {d : SchemeDecl}
    (hd : d ∈ decls) {r : Record} (hr : r ∈ recs)
    (hname : d.name = r.name ++ settings.schemeSuffix) {used : Record}
    (hdepends : used.name ∈ r.dependsOn) (hused : used ∈ recs)
    (hsource : used.sourcePath = d.sourcePath) :
    ∃ before after, (OutputModule.ofSource settings decls d.sourcePath).schemes
        = before ++ d :: after ∧
      used.name ++ settings.schemeSuffix ∈ before.map SchemeDecl.name := by
  obtain ⟨before, s, after, dBefore, dAfter, hsorted, hdecls, hfront, hemit⟩ :=
    Fallible.exists_split_of_mem_right hconv.emitted hd
  obtain rfl : s = r := by
    have hs : s ∈ recs := hconv.perm.mem_iff.mp (by simp [hsorted])
    rw [(Registry.emitDecl_spec hemit).2] at hname
    exact DependencyOrder.eq_of_name_eq hconv.distinct hs hr (List.append_cancel_right hname)
  -- what `r` uses is settled before it, so it is emitted before `d`
  obtain ⟨earlier, hearlier, hsame⟩ := hconv.ordered before s after hsorted _ hdepends
  obtain rfl : earlier = used := by
    have hmem : earlier ∈ recs := hconv.perm.mem_iff.mp (by simp [hsorted, hearlier])
    exact DependencyOrder.eq_of_name_eq hconv.distinct hmem hused hsame
  obtain ⟨e, he, hemitted⟩ := Fallible.exists_of_mem_left hfront hearlier
  obtain ⟨hpath, hlabel⟩ := Registry.emitDecl_spec hemitted
  refine ⟨dBefore.filter fun e => e.sourcePath == d.sourcePath,
    dAfter.filter fun e => e.sourcePath == d.sourcePath, ?_, ?_⟩
  · rw [OutputModule.ofSource_schemes, hdecls, List.filter_append,
      List.filter_cons_of_pos (by simp)]
  · refine List.mem_map.mpr ⟨e, List.mem_filter.mpr ⟨he, ?_⟩, hlabel⟩
    simp [hpath, hsource]

variable (hconv : Conversion settings recs sorted decls) (hwell : ∀ r ∈ recs, r.WellFormed)
  (hfresh : Fresh settings recs) (hsep : Separated settings paths)
  (hpaths : ∀ r ∈ recs, r.sourcePath ∈ paths)

include hconv hwell hfresh hsep hpaths

/-- **`Resolves`: every type of a field is known in its module.** -/
theorem Conversion.resolves {d : SchemeDecl} (hd : d ∈ decls) {r : Record} (hr : r ∈ recs)
    (hname : d.name = r.name ++ settings.schemeSuffix) {f : Field} (hf : f ∈ r.fields) {t : Text}
    (ht : t ∈ f.types) :
    Resolves settings recs (OutputModule.group settings decls)
      (OutputModule.ofSource settings decls d.sourcePath) d t := by
  have hemit := hconv.emitDecl_eq_ok hd hr hname
  have hpath : r.sourcePath = d.sourcePath := (Registry.emitDecl_spec hemit).1.symm
  have hd' : d.sourcePath ∈ paths := hpath ▸ hpaths r hr
  cases hprimitive : Primitive.scheme? t with
  | some scheme =>
    -- what the table asks for is demanded, and it is never a self import
    refine .primitive scheme hprimitive fun i hi => ?_
    have hdemand : Demands settings recs d.sourcePath i :=
      ⟨r, hr, hpath, f, hf, t, ht, scheme, Registry.scheme_of_primitive hprimitive _, hi⟩
    refine (hconv.mem_imports_iff hfresh _).mpr (Or.inr ⟨hdemand, ?_⟩)
    rw [Primitive.eq_dateImport hprimitive hi]
    exact hsep.isSelfImport_dateImport hd'
  | none =>
    have hnot : Primitive.isPrimitive t = false :=
      Registry.isPrimitive_eq_false_iff.mpr hprimitive
    obtain ⟨used, hused, hlabel, hscheme⟩ := hconv.exists_used hr (hwell r hr) hf ht hnot
    have hself := hsep.isSelfImport_recordImport_iff hd' (hpaths used hused)
    by_cases hsource : used.sourcePath = d.sourcePath
    · -- the record is settled before `r`, and its import would be a self import
      have hdepends : used.name ∈ r.dependsOn :=
        (hwell r hr).mem_dependsOn.mpr ⟨f, hf, by rwa [hlabel], by rwa [hlabel]⟩
      refine .declared used hused hlabel hnot hsource
        (hconv.exists_before hd hr hname hdepends hused hsource) fun i hi hsymbol => ?_
      obtain ⟨rfl, hforeign⟩ := hconv.eq_recordImport hfresh hi hused hsymbol
      rw [hself.mpr hsource] at hforeign
      cases hforeign
    · -- the import is demanded and leads elsewhere, so it is kept
      have hdemand : Demands settings recs d.sourcePath (Registry.recordImport settings used) :=
        ⟨r, hr, hpath, f, hf, t, ht, _, hscheme, List.mem_singleton.mpr rfl⟩
      have himport : Registry.recordImport settings used ∈
          (OutputModule.ofSource settings decls d.sourcePath).imports :=
        (hconv.mem_imports_iff hfresh _).mpr
          (Or.inr ⟨hdemand, Bool.eq_false_iff.mpr (mt hself.mp hsource)⟩)
      obtain ⟨e, he, hemitted⟩ := hconv.exists_decl hused
      obtain ⟨hepath, hename⟩ := Registry.emitDecl_spec hemitted
      refine .imported used hused hlabel hnot hsource (settings.schemeBase used.sourcePath)
        (hconv.filter_imports_eq hfresh himport)
        (OutputModule.ofSource settings decls used.sourcePath) ?_ ?_ ?_
      · exact OutputModule.mem_group_iff.mpr ⟨_, List.mem_map.mpr ⟨e, he, hepath⟩, rfl⟩
      · exact List.mem_map.mpr ⟨e, OutputModule.mem_ofSource_schemes.mpr ⟨he, hepath⟩, hename⟩
      · rw [OutputModule.ofSource_path]
        rfl

omit hwell in
/-- What a module imports is declared elsewhere. -/
theorem Conversion.imported_notMem {p : Text} (hp : p ∈ paths) {i : Import}
    (hi : i ∈ (OutputModule.ofSource settings decls p).imports) {symbol : Text}
    (hsymbol : symbol ∈ i.symbols) :
    symbol ∉ (OutputModule.ofSource settings decls p).schemes.map SchemeDecl.name := by
  intro hdeclared
  obtain ⟨d, hmem, rfl⟩ := List.mem_map.mp hdeclared
  obtain ⟨hd, rfl⟩ := OutputModule.mem_ofSource_schemes.mp hmem
  obtain ⟨r, hr, hemit⟩ := hconv.exists_record hd
  obtain ⟨hpath, hname⟩ := Registry.emitDecl_spec hemit
  rw [hname] at hsymbol
  obtain ⟨rfl, hforeign⟩ := hconv.eq_recordImport hfresh hi hr hsymbol
  rw [(hsep.isSelfImport_recordImport_iff hp (hpaths r hr)).mpr hpath.symm] at hforeign
  cases hforeign

/-- **`Needed`: nothing but the library is imported without need.** -/
theorem Conversion.needed {p : Text} (hp : p ∈ paths) {i : Import}
    (hi : i ∈ (OutputModule.ofSource settings decls p).imports) :
    i = OutputModule.libraryImport ∨
      Needed settings recs (OutputModule.ofSource settings decls p) i := by
  rcases (hconv.mem_imports_iff hfresh p).mp hi with ⟨-, rfl⟩ | ⟨hdemand, hforeign⟩
  · exact Or.inl rfl
  · -- the record that demands the import has its scheme in this module
    obtain ⟨r, hr, hpath, f, hf, t, ht, scheme, hscheme, hi⟩ := hdemand
    obtain ⟨d, hd, hemit⟩ := hconv.exists_decl hr
    obtain ⟨hdpath, hdname⟩ := Registry.emitDecl_spec hemit
    refine Or.inr ⟨d, OutputModule.mem_ofSource_schemes.mpr ⟨hd, hdpath.trans hpath⟩, r, hr, hdname,
      f, hf, t, ht, ?_⟩
    cases hprimitive : Primitive.scheme? t with
    | some known =>
      rw [Registry.scheme_of_primitive hprimitive] at hscheme
      cases hscheme
      exact Or.inl ⟨scheme, rfl, hi⟩
    | none =>
      have hnot : Primitive.isPrimitive t = false :=
        Registry.isPrimitive_eq_false_iff.mpr hprimitive
      obtain ⟨used, hused, hlabel, hknown⟩ := hconv.exists_used hr (hwell r hr) hf ht hnot
      rw [hscheme] at hknown
      cases hknown
      obtain rfl := List.mem_singleton.mp hi
      -- were it from the same source, the import would have been left out
      refine Or.inr ⟨hnot, used, hused, hlabel, fun hsource => ?_, rfl⟩
      have hself := (hsep.isSelfImport_recordImport_iff hp (hpaths used hused)).mpr
        (hsource.trans (hdpath.trans hpath))
      exact absurd hself (Bool.eq_false_iff.mp hforeign)

end Module

/-! ## (4) Every module of a batch -/

/-- **Every module of a converted batch is `WellScoped`, with no import to spare.** -/
theorem convert_wellScoped {sources : List Source} {files : List SourceRecords}
    {out : List OutputModule} (hparse : parse sources = .ok files)
    (hconvert : convert settings files = .ok out)
    (hsep : Separated settings (sources.map Source.path))
    (hfresh : Fresh settings (records files)) :
    ∀ m ∈ out, WellScoped settings (records files) out m := by
  have hwell := parse_wellFormed hparse
  have hpaths := parse_sourcePath_mem hparse
  obtain ⟨sorted, decls, hconv, rfl⟩ := convert_eq_ok hwell hconvert
  intro m hm
  obtain ⟨p, hp, rfl⟩ := OutputModule.mem_group_iff.mp hm
  have hpath : p ∈ sources.map Source.path := by
    obtain ⟨r, hr, rfl⟩ := hconv.mem_sourcePaths_iff.mp hp
    exact hpaths r hr
  constructor
  · rw [OutputModule.ofSource_schemes]
    exact hconv.nodup_names.sublist (List.filter_sublist.map SchemeDecl.name)
  · exact nodup_leadingSymbol_ofSource decls p
  · exact fun i hi symbol hsymbol => hconv.imported_notMem hfresh hsep hpaths hpath hi hsymbol
  · intro d hd
    obtain ⟨r, hr, hemit⟩ := hconv.exists_record (OutputModule.mem_ofSource_schemes.mp hd).1
    exact ⟨r, hr, (Registry.emitDecl_spec hemit).symm⟩
  · intro d hmem r hr hname f hf t ht
    obtain ⟨hd, rfl⟩ := OutputModule.mem_ofSource_schemes.mp hmem
    exact hconv.resolves hwell hfresh hsep hpaths hd hr hname hf ht
  · rw [hconv.mem_imports_iff hfresh p]
    constructor
    · rintro (⟨hzod, -⟩ | ⟨hdemand, -⟩)
      · exact hzod
      · -- no scheme needs the library
        rcases hdemand.cases with hdate | ⟨r, hr, hrecord⟩
        · exact absurd hdate (by decide)
        · exact absurd (congrArg Import.leadingSymbol? hrecord.symm) (hfresh.leadingSymbol_ne hr).1
    · exact fun hzod => Or.inl ⟨hzod, rfl⟩
  · exact fun i hi => hconv.needed hwell hfresh hsep hpaths hpath hi

/-- Two sources. A pet has an owner from the other source, a tag from its own source and a date. -/
def petSources : List Source :=
  [⟨"app/owner.ts", "interface Owner \x7b name?: string[] \x7d"⟩,
    ⟨"app/pet.ts",
      "interface Tag \x7bn: number\x7d interface Pet \x7bby: Owner|null; tag:Tag\nat:DateTime\x7d"⟩]

/-- The records of `petSources`. -/
def petFiles : List SourceRecords :=
  [⟨"app/owner.ts", [.ofFields "Owner" "app/owner.ts" [⟨"name", ["string"], true, true, []⟩]]⟩,
    ⟨"app/pet.ts",
      [.ofFields "Tag" "app/pet.ts" [⟨"n", ["number"], false, false, []⟩],
        .ofFields "Pet" "app/pet.ts"
          [⟨"by", ["Owner", "null"], false, false, ["Owner"]⟩,
            ⟨"tag", ["Tag"], false, false, ["Tag"]⟩,
            ⟨"at", ["DateTime"], false, false, []⟩]]⟩]

/-- `petFiles` are read from `petSources`. -/
theorem parse_petSources : parse petSources = .ok petFiles := by decide +kernel

/-- The pets come after what they use. -/
theorem dependenciesFirst_petFiles : DependencyOrder.DependenciesFirst (records petFiles) :=
  ((DependencyOrder.dependenciesFirst_nil.concat (by decide +kernel)).concat
    (by decide +kernel)).concat (by decide +kernel)

/-- The pets are converted to two modules, and both are well scoped. -/
theorem convert_petFiles_wellScoped :
    parse petSources = .ok petFiles ∧ ∃ out, convert {} petFiles = .ok out ∧ out.length = 2 ∧
      ∀ m ∈ out, WellScoped {} (records petFiles) out m := by
  have hlength : (convert {} petFiles).map List.length = .ok 2 := by
    rw [convert, DependencyOrder.sort_of_dependenciesFirst (by decide +kernel)
      dependenciesFirst_petFiles]
    decide +kernel
  refine ⟨parse_petSources, ?_⟩
  cases hconvert : convert {} petFiles with
  | error e =>
    rw [hconvert] at hlength
    cases hlength
  | ok out =>
    rw [hconvert] at hlength
    refine ⟨out, rfl, Except.ok.inj hlength, ?_⟩
    exact convert_wellScoped parse_petSources hconvert ⟨by decide, by decide +kernel, by decide +kernel⟩
      (by decide +kernel)

end InterfaceSchemes.Batch
