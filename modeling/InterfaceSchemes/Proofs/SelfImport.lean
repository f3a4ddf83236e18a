import InterfaceSchemes.Proofs.Reordering

/-! # Which imports are left out as self imports

A module leaves out the imports that lead to itself. The test compares texts: the place of the
imported scheme, with the extension of the module behind it, against the path of the module. This
file proves what the test really asks of two sources, and so when it is right.

* **`Path.Twins`**, **`Path.IsBare`** — files with one directory and one stem, and files without an
  extension.
* **`Settings.isSelfImport_iff`** — the test holds for twins, unless the importing file is bare; it also
  holds for one odd pair of paths, of which one has no name.
* **`Batch.Imports`** — a module has a relative import of a scheme.
* **`Batch.convert_imports_iff`** — which of the records that a module uses it imports, and when these
  are the records of other sources.
* **`Batch.convert_bareFiles_twinFiles`** — a module that imports from itself, and one that lacks an
  import. -/

namespace InterfaceSchemes

/-! ## (1) The test on two sources -/

namespace Path

/-- **Two files with one directory and one stem.** They may differ in their extension. -/
def Twins (p q : Text) : Prop := directory p = directory q ∧ stem? p = stem? q

instance (p q : Text) : Decidable (Twins p q) := inferInstanceAs (Decidable (_ ∧ _))

/-- **A file without an extension.** -/
def IsBare (p : Text) : Prop := fileName? p ≠ none ∧ extension p = []

instance (p : Text) : Decidable (IsBare p) := inferInstanceAs (Decidable (_ ∧ _))

/-- `stem? p = none ↔ fileName? p = none`. -/
theorem stem?_eq_none_iff {p : Text} : stem? p = none ↔ fileName? p = none := by
  rw [stem?, Option.map_eq_none_iff]

/-- `extension p = []` for a path without a file name. -/
theorem extension_of_fileName?_eq_none {p : Text} (hp : fileName? p = none) : extension p = [] := by
  rw [extension, hp]
  rfl

/-- `splitName ('.' :: rest)` has no extension, if `rest` has no dot. -/
theorem splitName_dot_cons {rest : Text} (hdot : '.' ∉ rest) :
    splitName ('.' :: rest) = ('.' :: rest, none) := by
  rcases splitName_cases ('.' :: rest) with hsplit | ⟨stem, ext, -, hjoined, hstem, -⟩
  · exact hsplit
  · obtain ⟨c, stem, rfl⟩ := List.exists_cons_of_ne_nil hstem
    have hrest : rest = stem ++ '.' :: ext := (List.cons.inj hjoined).2
    exact absurd (by simp [hrest]) hdot

end Path

namespace Settings

variable (s : Settings)

/-- **The module of the source `p` takes an import from the source `q` for one from itself.** They are
twins and `p` is not bare. Or `p` has the infix for a name, and `q` has the same directory and no
name. -/
def TakesForItself (p q : Text) : Prop :=
  ¬ Path.IsBare p ∧ Path.Twins q p ∨
    Path.fileName? p = some ('.' :: s.schemeInfix) ∧ Path.fileName? q = none ∧
      Path.directory q = Path.directory p

instance (p q : Text) : Decidable (s.TakesForItself p q) :=
  inferInstanceAs (Decidable (_ ∧ _ ∨ _ ∧ _ ∧ _))

/-- **`s.TakesForItself p q ↔ q = p`** for a source `p` with an extension, if it has no other twin:
the test is right about it. -/
theorem takesForItself_iff_eq {p q : Text} (hext : Path.extension p ≠ [])
    (htwins : Path.Twins q p → q = p) (hdot : '.' ∉ s.schemeInfix) :
    s.TakesForItself p q ↔ q = p := by
  have hbare : ¬ Path.IsBare p := fun hbare => hext hbare.2
  have hname : Path.fileName? p ≠ some ('.' :: s.schemeInfix) := by
    intro hname
    rw [Path.extension, hname, Option.bind_some, Path.splitName_dot_cons hdot] at hext
    exact hext rfl
  constructor
  · rintro (⟨-, hsame⟩ | ⟨hodd, -⟩)
    · exact htwins hsame
    · exact absurd hodd hname
  · rintro rfl
    exact Or.inl ⟨hbare, rfl, rfl⟩

/-- Without an extension the whole file name is the stem. -/
theorem stem?_of_extension_eq_nil {source name : Text} (hname : Path.fileName? source = some name)
    (hext : Path.extension source = []) : (Path.stem? source).getD [] = name := by
  have hjoined := (stem_append_extension hname).1
  rwa [hext, List.append_nil] at hjoined

section

variable (hslash : '/' ∉ s.schemeInfix) (hdot : '.' ∉ s.schemeInfix)

include hslash hdot

/-- `s.outputPath` of a bare source takes the infix for an extension. -/
theorem extension_outputPath_of_eq_nil {source name : Text} (hname : Path.fileName? source = some name)
    (hext : Path.extension source = []) :
    Path.extension (s.outputPath source) = '.' :: s.schemeInfix := by
  have hstem := stem?_of_extension_eq_nil hname hext
  have hne : name ≠ [] := hstem ▸ (stem_append_extension hname).2
  have hmodule : s.moduleName source = name ++ '.' :: s.schemeInfix := by
    rw [moduleName, hstem, hext, List.append_nil]
  rw [Path.extension, fileName?_outputPath s hslash hname, Option.bind_some, hmodule,
    Path.splitName_append hne hdot]

/-- The module of a source without a name has no extension: the infix is all of its name. -/
theorem extension_outputPath_of_nameless (hne : s.schemeInfix ≠ []) {source : Text}
    (hname : Path.fileName? source = none) : Path.extension (s.outputPath source) = [] := by
  have hmodule : s.moduleName source = '.' :: s.schemeInfix := by
    rw [moduleName, Path.stem?_eq_none_iff.mpr hname, Path.extension_of_fileName?_eq_none hname,
      List.append_nil]
    rfl
  have hsingle : Path.names ('.' :: s.schemeInfix) = ['.' :: s.schemeInfix] := by
    refine Path.names_singleton (by simp [hslash]) ?_
    simp [Path.isVoid, hne]
  have hup : '.' :: s.schemeInfix ≠ Path.up := by
    intro heq
    rw [Path.up, List.cons.injEq] at heq
    exact hdot (by simp [heq.2])
  have hfile : Path.fileName? (s.outputPath source) = some ('.' :: s.schemeInfix) := by
    rw [Path.fileName?_eq_some_iff, outputPath_eq, hmodule, Path.names_append, Path.names_append,
      hsingle]
    exact ⟨by simp, hup⟩
  rw [Path.extension, hfile, Option.bind_some, Path.splitName_dot_cons hdot]

omit hdot in
/-- `s.schemeBase q`, with the infix once more behind it, is the module of a bare source only if no
name stands before the infix: otherwise the name of that source would have an extension. -/
theorem schemeBase_append_eq_iff {p q a : Text} (hp : Path.fileName? p = some a)
    (hext : Path.extension p = []) :
    s.schemeBase q ++ '.' :: s.schemeInfix = s.outputPath p ↔
      Path.directory q = Path.directory p ∧ Path.fileName? q = none ∧ a = '.' :: s.schemeInfix := by
  have hleft : s.schemeBase q ++ '.' :: s.schemeInfix
      = ((Path.directory q ++ '/' :: s.schemesDir) ++
        '/' :: ((Path.stem? q).getD [] ++ '.' :: s.schemeInfix)) ++ '.' :: s.schemeInfix := by
    simp [schemeBase_eq]
  have hright : s.outputPath p
      = ((Path.directory p ++ '/' :: s.schemesDir) ++ '/' :: a) ++ '.' :: s.schemeInfix := by
    rw [outputPath, hext, List.append_nil, schemeBase_eq, stem?_of_extension_eq_nil hp hext]
    simp
  rw [hleft, hright, List.append_left_inj]
  have hfree : '/' ∉ (Path.stem? q).getD [] ++ '.' :: s.schemeInfix := by
    simp [slash_notMem_stem q, hslash]
  have hslashA := (Path.of_mem_names (Path.mem_names_of_fileName? hp)).1
  constructor
  · intro heq
    -- before the infix, both texts end with a file name
    obtain ⟨hfront, rfl⟩ := Text.append_cons_inj hfree hslashA heq
    refine ⟨List.append_cancel_right hfront, ?_⟩
    cases hq : Path.fileName? q with
    | none => exact ⟨rfl, by rw [Path.stem?_eq_none_iff.mpr hq]; rfl⟩
    | some b =>
      obtain ⟨before, ext, hsplit⟩ :=
        Path.exists_extension_of_dot (stem_append_extension hq).2 s.schemeInfix
      rw [Path.extension, hp, Option.bind_some, hsplit] at hext
      cases hext
  · rintro ⟨hdirectory, hq, rfl⟩
    rw [hdirectory, Path.stem?_eq_none_iff.mpr hq]
    rfl

/-- **`isSelfImport` is `TakesForItself`**, whatever the two sources are. -/
theorem isSelfImport_iff (hne : s.schemeInfix ≠ []) (p : Text) (r : Record) :
    OutputModule.isSelfImport (s.outputPath p) (Registry.recordImport s r) = true ↔
      s.TakesForItself p r.sourcePath := by
  rw [OutputModule.isSelfImport, beq_iff_eq, TakesForItself]
  show s.schemeBase r.sourcePath ++ Path.extension (s.outputPath p) = s.outputPath p ↔ _
  cases hp : Path.fileName? p with
  | none =>
    have hext := Path.extension_of_fileName?_eq_none hp
    have hbare : ¬ Path.IsBare p := fun hbare => hbare.1 hp
    rw [extension_outputPath_of_nameless s hslash hdot hne hp, outputPath, hext, List.append_nil,
      List.append_nil, schemeBase_eq_iff]
    simp [hbare, Path.Twins]
  | some a =>
    by_cases hext : Path.extension p = []
    · -- the test puts the infix where the extension would be, a second time
      have hbare : Path.IsBare p := ⟨by simp [hp], hext⟩
      rw [extension_outputPath_of_eq_nil s hslash hdot hp hext,
        schemeBase_append_eq_iff s hslash hp hext]
      simp only [hbare, not_true, false_and, false_or, Option.some.injEq]
      tauto
    · have hbare : ¬ Path.IsBare p := fun hbare => hext hbare.2
      have hname : a ≠ '.' :: s.schemeInfix := by
        rintro rfl
        rw [Path.extension, hp, Option.bind_some, Path.splitName_dot_cons hdot] at hext
        exact hext rfl
      rw [origin_append_extension_iff s hslash hext, schemeBase_eq_iff]
      simp [hbare, Path.Twins, hname]

end

end Settings

/-! ## (2) The imports of a batch -/

namespace Batch

open DependencyOrder

/-- **The module has a relative import of the scheme `name`.** -/
def Imports (m : OutputModule) (name : Text) : Prop :=
  ∃ i ∈ m.imports, i.resolveRelative = true ∧ name ∈ i.symbols

instance (m : OutputModule) (name : Text) : Decidable (Imports m name) :=
  inferInstanceAs (Decidable (∃ i ∈ m.imports, _))

section Conversion

variable {settings : Settings} {recs sorted : List Record} {decls : List SchemeDecl}

/-- A module `Imports` a record that one of its records uses, unless `isSelfImport` takes the import
for one that leads to the module itself. -/
theorem Conversion.imports_iff (hconv : Conversion settings recs sorted decls)
    (hfresh : Fresh settings recs) {r : Record} (hr : r ∈ recs) {f : Field} (hf : f ∈ r.fields)
    {used : Record} (hused : used ∈ recs) (ht : used.name ∈ f.types)
    (hnot : Primitive.isPrimitive used.name = false) :
    Imports (OutputModule.ofSource settings decls r.sourcePath)
        (used.name ++ settings.schemeSuffix) ↔
      OutputModule.isSelfImport (settings.outputPath r.sourcePath)
        (Registry.recordImport settings used) = false := by
  constructor
  · rintro ⟨i, hi, -, hsymbol⟩
    obtain ⟨rfl, hself⟩ := hconv.eq_recordImport hfresh hi hused hsymbol
    exact hself
  · intro hself
    have hdemand : Demands settings recs r.sourcePath (Registry.recordImport settings used) :=
      ⟨r, hr, rfl, f, hf, used.name, ht, _, Registry.scheme_ofRecords hconv.distinct hused hnot,
        List.mem_singleton.mpr rfl⟩
    refine ⟨Registry.recordImport settings used, ?_, rfl, List.mem_singleton.mpr rfl⟩
    exact (hconv.mem_imports_iff hfresh _).mpr (Or.inr ⟨hdemand, hself⟩)

end Conversion

/-- **Which imports are left out, exactly**: those that the module of the source `TakesForItself`.
These are the imports of records of its own source, if the source has an extension and no other
source is its twin. -/
theorem convert_imports_iff {sources : List Source} {files : List SourceRecords}
    {out : List OutputModule} (hparse : parse sources = .ok files)
    (hconvert : convert {} files = .ok out) :
    ∀ m ∈ out, ∀ d ∈ m.schemes, ∀ r ∈ records files,
      d.name = r.name ++ ({} : Settings).schemeSuffix →
        ∀ used ∈ records files, (∃ f ∈ r.fields, used.name ∈ f.types) →
          Primitive.isPrimitive used.name = false →
            (Imports m (used.name ++ ({} : Settings).schemeSuffix) ↔
              ¬ ({} : Settings).TakesForItself d.sourcePath used.sourcePath) ∧
            (Path.extension d.sourcePath ≠ [] →
              (Path.Twins used.sourcePath d.sourcePath → used.sourcePath = d.sourcePath) →
                (Imports m (used.name ++ ({} : Settings).schemeSuffix) ↔
                  used.sourcePath ≠ d.sourcePath)) := by
  have hwell := parse_wellFormed hparse
  have hfresh : Fresh {} (records files) := fresh_of_default rfl _
  have hdot : '.' ∉ ({} : Settings).schemeInfix := by decide
  obtain ⟨sorted, decls, hconv, rfl⟩ := convert_eq_ok hwell hconvert
  rintro m hm d hd r hr hname used hused ⟨f, hf, ht⟩ hnot
  obtain ⟨p, -, rfl⟩ := OutputModule.mem_group_iff.mp hm
  obtain ⟨hmem, rfl⟩ := OutputModule.mem_ofSource_schemes.mp hd
  have hpath : d.sourcePath = r.sourcePath :=
    (Registry.emitDecl_spec (hconv.emitDecl_eq_ok hmem hr hname)).1
  have himports : Imports (OutputModule.ofSource {} decls d.sourcePath)
      (used.name ++ ({} : Settings).schemeSuffix) ↔
      ¬ ({} : Settings).TakesForItself d.sourcePath used.sourcePath := by
    rw [hpath, hconv.imports_iff hfresh hr hf hused ht hnot, ← Bool.not_eq_true,
      Settings.isSelfImport_iff {} (by decide) hdot (by decide)]
  refine ⟨himports, fun hext htwins => ?_⟩
  rw [himports, Settings.takesForItself_iff_eq {} hext htwins hdot]

/-- Two sources, of which the second uses a record of the first and one of its own. -/
def overlaySources : List Source :=
  [⟨"a.ts", "interface A \x7b \x7d"⟩,
    ⟨"a.d.ts", "interface B \x7ba: A\x7d interface C \x7bb: B\x7d"⟩]

/-- The records of `overlaySources`. -/
def overlayFiles : List SourceRecords :=
  [⟨"a.ts", [.ofFields "A" "a.ts" []]⟩,
    ⟨"a.d.ts",
      [.ofFields "B" "a.d.ts" [⟨"a", ["A"], false, false, ["A"]⟩],
        .ofFields "C" "a.d.ts" [⟨"b", ["B"], false, false, ["B"]⟩]]⟩]

/-- The second module of `overlaySources` imports the scheme of the other source, and not its own. -/
theorem convert_overlayFiles :
    parse overlaySources = .ok overlayFiles ∧
      ∃ first second, convert {} overlayFiles = .ok [first, second] ∧
        Imports second "AScheme" ∧ ¬ Imports second "BScheme" := by
  have hparse : parse overlaySources = .ok overlayFiles := by decide +kernel
  have hsort : sort (records overlayFiles) = .ok (records overlayFiles) := by cbv
  obtain ⟨first, second, hconvert, hschemes⟩ : ∃ first second,
      convert {} overlayFiles = .ok [first, second] ∧
        (∃ d ∈ second.schemes, d.name = "BScheme" ∧ d.sourcePath = "a.d.ts") ∧
        ∃ d ∈ second.schemes, d.name = "CScheme" ∧ d.sourcePath = "a.d.ts" := by
    rw [convert, hsort]
    exact ⟨_, _, rfl, by decide +kernel, by decide +kernel⟩
  obtain ⟨⟨b, hb, hbname, hbpath⟩, c, hc, hcname, hcpath⟩ := hschemes
  have himports := convert_imports_iff hparse hconvert second (by simp)
  have hB := himports b hb (.ofFields "B" "a.d.ts" [⟨"a", ["A"], false, false, ["A"]⟩])
    (by decide +kernel) hbname (.ofFields "A" "a.ts" []) (by decide +kernel) (by decide +kernel)
    (by decide +kernel)
  have hC := himports c hc (.ofFields "C" "a.d.ts" [⟨"b", ["B"], false, false, ["B"]⟩])
    (by decide +kernel) hcname (.ofFields "B" "a.d.ts" [⟨"a", ["A"], false, false, ["A"]⟩])
    (by decide +kernel) (by decide +kernel) (by decide +kernel)
  rw [hbpath] at hB
  rw [hcpath] at hC
  refine ⟨hparse, first, second, hconvert, ?_, ?_⟩
  · exact (hB.2 (by decide +kernel) (by decide +kernel)).mpr (by decide +kernel)
  · exact fun himport => (hC.2 (by decide +kernel) fun _ => rfl).mp himport rfl

/-- A source without an extension that uses a record of its own. -/
def bareFiles : List SourceRecords :=
  [⟨"models",
    [.ofFields "A" "models" [], .ofFields "B" "models" [⟨"a", ["A"], false, false, ["A"]⟩]]⟩]

/-- Two sources that are twins, the second with a use of the first. -/
def twinFiles : List SourceRecords :=
  [⟨"a.ts", [.ofFields "A" "a.ts" []]⟩,
    ⟨"a.tsx", [.ofFields "B" "a.tsx" [⟨"a", ["A"], false, false, ["A"]⟩]]⟩]

/-- **The two mistakes of the test.** The module of a source without an extension imports from itself,
and the module of a source lacks the import of its twin. -/
theorem convert_bareFiles_twinFiles :
    (parse [⟨"models", "interface A \x7b \x7d interface B \x7b a: A \x7d"⟩] = .ok bareFiles ∧
      ∃ m, convert {} bareFiles = .ok [m] ∧ m.schemes.map SchemeDecl.name = ["AScheme", "BScheme"] ∧
        Imports m "AScheme") ∧
    (parse [⟨"a.ts", "interface A \x7b \x7d"⟩, ⟨"a.tsx", "interface B \x7b a: A \x7d"⟩]
        = .ok twinFiles ∧
      ∃ first second, convert {} twinFiles = .ok [first, second] ∧
        second.schemes.map SchemeDecl.name = ["BScheme"] ∧ ¬ Imports second "AScheme") := by
  have hbare : sort (records bareFiles) = .ok (records bareFiles) := by cbv
  have htwin : sort (records twinFiles) = .ok (records twinFiles) := by cbv
  rw [convert, hbare, convert, htwin]
  exact ⟨⟨by decide +kernel, _, rfl, by decide +kernel, by decide +kernel⟩,
    by decide +kernel, _, _, rfl, by decide +kernel, by decide +kernel⟩

end Batch

end InterfaceSchemes
