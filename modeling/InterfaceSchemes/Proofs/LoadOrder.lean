import InterfaceSchemes.Proofs.SelfImport
import InterfaceSchemes.Proofs.Validity
import Mathlib.Data.List.Sort
import Mathlib.Order.Extension.Linear

/-! # In which order modules can be loaded

A module can be loaded after the modules that it imports from. The sort of a batch looks at records
and not at sources, so this file asks what it says about whole modules.

* **`Import.PointsTo`** — which module an import points to, by the path of the module alone.
* **`OutputModule.Loadable`** — the modules of a batch can be put in an order in which each comes
  after those that its imports point to.
* **`OutputModule.loadable_iff`** — this is so exactly if the imports run in no circle.
* **`Batch.ImportsFirst`** — the same for single schemes instead of modules.
* **`Batch.SourceUses`** — a source uses a record of another source.
* **`Settings.pointsTo_iff_eq`** — an import points to the module of its record only, where no two
  sources can be confused.
* **`Batch.convert_loadable`** — the schemes of a batch always have an order; its modules have one
  exactly if the sources do not use each other in a circle.
* **`Batch.convert_crossFiles_not_loadable`** — a batch whose modules have no order. -/

namespace InterfaceSchemes

open Relation

/-! ## (1) Orders of modules -/

/-- **`i.PointsTo path`**: `i` is relative, and its origin is `path`, with or without the extension of
`path`. The second is the test by which a module leaves out imports of itself. -/
def Import.PointsTo (i : Import) (path : Text) : Prop :=
  i.resolveRelative = true ∧ (i.origin = path ∨ OutputModule.isSelfImport path i = true)

instance (i : Import) (path : Text) : Decidable (i.PointsTo path) :=
  inferInstanceAs (Decidable (_ ∧ (_ ∨ _)))

namespace OutputModule

/-- **`m.Links other`**: an import of `m` points to the path of `other`, whatever it imports. -/
def Links (m other : OutputModule) : Prop := ∃ i ∈ m.imports, i.PointsTo other.path

instance (m other : OutputModule) : Decidable (m.Links other) :=
  inferInstanceAs (Decidable (∃ i ∈ m.imports, _))

/-- **`LinksIn out m other`**: an import of the module `m` of a batch points to another of its modules. -/
def LinksIn (out : List OutputModule) (m other : OutputModule) : Prop :=
  m ∈ out ∧ other ∈ out ∧ other ≠ m ∧ m.Links other

/-- **The modules can be loaded** one after the other, each after those that its imports point to. -/
def Loadable (out : List OutputModule) : Prop :=
  ∃ order, order.Perm out ∧ ∀ before m after, order = before ++ m :: after →
    ∀ other, LinksIn out m other → other ∈ before

variable {out : List OutputModule}

/-- `order.idxOf other < order.idxOf m` where `LinksIn out m other`: in an order of loading, a
module stands behind those that its imports point to. -/
theorem idxOf_lt_of_linksIn {order : List OutputModule} (hnodup : order.Nodup)
    (hperm : order.Perm out)
    (hfirst : ∀ before m after, order = before ++ m :: after →
      ∀ other, LinksIn out m other → other ∈ before)
    {m other : OutputModule} (hlinks : LinksIn out m other) :
    order.idxOf other < order.idxOf m := by
  obtain ⟨before, after, rfl⟩ := List.append_of_mem (hperm.mem_iff.mpr hlinks.1)
  have hother := hfirst before m after rfl other hlinks
  have hm : m ∉ before := fun hm => List.disjoint_of_nodup_append hnodup hm (by simp)
  rw [List.idxOf_append_of_mem hother, List.idxOf_append_of_notMem hm]
  have hlt := List.idxOf_lt_length_of_mem hother
  omega

/-- `ReflTransGen (LinksIn out)` is a partial order, backwards, where imports run in no circle. -/
theorem isPartialOrder_of_acyclic (hacyclic : ∀ m, ¬ TransGen (LinksIn out) m m) :
    IsPartialOrder OutputModule (fun a b => ReflTransGen (LinksIn out) b a) where
  refl := fun a => .refl
  trans := fun a b c hba hcb => hcb.trans hba
  antisymm := by
    intro a b hba hab
    rcases reflTransGen_iff_eq_or_transGen.mp hba with heq | hchain
    · exact heq
    · exact absurd (hchain.trans_left hab) (hacyclic b)

/-- **`Loadable out` exactly if `LinksIn out` runs in no circle.** -/
theorem loadable_iff (hnodup : out.Nodup) :
    Loadable out ↔ ∀ m, ¬ TransGen (LinksIn out) m m := by
  constructor
  · rintro ⟨order, hperm, hfirst⟩ m hchain
    -- along a chain of imports the positions go down
    have hdown : ∀ a b, TransGen (LinksIn out) a b → order.idxOf b < order.idxOf a := by
      intro a b hchain
      have hstep : ∀ c d, LinksIn out c d → order.idxOf d < order.idxOf c :=
        fun c d hlinks => idxOf_lt_of_linksIn (hperm.nodup_iff.mpr hnodup) hperm hfirst hlinks
      induction hchain with
      | single hlinks => exact hstep _ _ hlinks
      | tail _ hlinks ih => exact Nat.lt_trans (hstep _ _ hlinks) ih
    exact Nat.lt_irrefl _ (hdown m m hchain)
  · intro hacyclic
    classical
    have := isPartialOrder_of_acyclic hacyclic
    -- the modules are sorted by a linear order that extends the imports
    obtain ⟨before, hlinear, hextends⟩ :=
      extend_partialOrder fun a b => ReflTransGen (LinksIn out) b a
    refine ⟨out.insertionSort before, List.perm_insertionSort before out, ?_⟩
    intro front m back hsplit other hlinks
    have hle : before other m := hextends other m (ReflTransGen.single hlinks)
    have hmem : other ∈ front ++ m :: back := by
      rw [← hsplit, List.mem_insertionSort]
      exact hlinks.2.1
    rcases List.mem_append.mp hmem with hfront | hback
    · exact hfront
    · -- behind `m` stands nothing that is smaller
      have hsorted := List.pairwise_insertionSort before out
      rw [hsplit, List.pairwise_append, List.pairwise_cons] at hsorted
      rcases List.mem_cons.mp hback with heq | hback
      · exact absurd heq hlinks.2.2.1
      · exact absurd (antisymm hle (hsorted.2.1.1 other hback)) hlinks.2.2.1

/-! ## (2) Modules and their sources -/

/-- Modules with schemes belong to one source each. -/
theorem ofSource_inj {settings : Settings} {decls : List SchemeDecl} {p q : Text}
    (hp : p ∈ decls.map SchemeDecl.sourcePath)
    (heq : ofSource settings decls p = ofSource settings decls q) : p = q := by
  obtain ⟨d, hd, rfl⟩ := List.mem_map.mp hp
  have hmem : d ∈ (ofSource settings decls d.sourcePath).schemes :=
    mem_ofSource_schemes.mpr ⟨hd, rfl⟩
  rw [heq] at hmem
  exact (mem_ofSource_schemes.mp hmem).2

/-- `(group settings decls).Nodup`. -/
theorem nodup_group (settings : Settings) (decls : List SchemeDecl) :
    (group settings decls).Nodup := by
  rw [group_eq]
  refine (nodup_eraseDups _).map_on fun p hp q _ heq => ?_
  exact ofSource_inj (List.mem_eraseDups.mp hp) heq

/-- The modules of a group have the schemes that were grouped. -/
theorem perm_flatMap_group (settings : Settings) {decls : List SchemeDecl} (hnodup : decls.Nodup) :
    decls.Perm ((group settings decls).flatMap schemes) := by
  refine (List.perm_ext_iff_of_nodup hnodup ?_).mpr fun d => ?_
  · rw [group_eq, List.flatMap_map, List.nodup_flatMap]
    refine ⟨fun p _ => ?_, (nodup_eraseDups _).imp fun {p q} hne => ?_⟩
    · rw [ofSource_schemes]
      exact hnodup.filter _
    · -- a scheme has one source
      intro d hd hd'
      exact hne ((mem_ofSource_schemes.mp hd).2.symm.trans (mem_ofSource_schemes.mp hd').2)
  · rw [List.mem_flatMap]
    constructor
    · intro hd
      refine ⟨ofSource settings decls d.sourcePath, ?_, mem_ofSource_schemes.mpr ⟨hd, rfl⟩⟩
      exact mem_group_iff.mpr ⟨_, List.mem_map_of_mem hd, rfl⟩
    · rintro ⟨m, hm, hd⟩
      obtain ⟨p, -, rfl⟩ := mem_group_iff.mp hm
      exact (mem_ofSource_schemes.mp hd).1

end OutputModule

namespace Batch

/-! ## (3) Orders of schemes -/

/-- **Imports first**: what a scheme imports from another module has been declared before it. -/
def ImportsFirst (decls : List SchemeDecl) : Prop :=
  ∀ before d after, decls = before ++ d :: after → ∀ i ∈ d.imports, i.resolveRelative = true →
    ∀ symbol ∈ i.symbols, symbol ∈ before.map SchemeDecl.name

/-- **A record of the source `p` uses a record of the other source `q`.** -/
def SourceUses (records : List Record) (p q : Text) : Prop :=
  p ≠ q ∧ ∃ r ∈ records, r.sourcePath = p ∧ ∃ used, Uses records r used ∧ used.sourcePath = q

section Conversion

variable {settings : Settings} {recs sorted : List Record} {decls : List SchemeDecl}
  (hconv : Conversion settings recs sorted decls) (hwell : ∀ r ∈ recs, r.WellFormed)

include hconv hwell

/-- A relative import that the scheme of a type needs is that of a record in use. -/
theorem Conversion.exists_uses {r : Record} (hr : r ∈ recs) {f : Field} (hf : f ∈ r.fields) {t : Text}
    (ht : t ∈ f.types) {scheme : Scheme}
    (hscheme : (Registry.ofRecords settings recs).scheme t = .ok scheme) {i : Import}
    (hi : i ∈ scheme.imports) (hrelative : i.resolveRelative = true) :
    ∃ used, Uses recs r used ∧ i = Registry.recordImport settings used := by
  cases hprimitive : Primitive.scheme? t with
  | some known =>
    rw [Registry.scheme_of_primitive hprimitive] at hscheme
    cases hscheme
    rw [Primitive.eq_dateImport hprimitive hi] at hrelative
    cases hrelative
  | none =>
    have hnot : Primitive.isPrimitive t = false := Registry.isPrimitive_eq_false_iff.mpr hprimitive
    obtain ⟨used, hused, rfl, hknown⟩ := hconv.exists_used hr (hwell r hr) hf ht hnot
    rw [hscheme] at hknown
    cases hknown
    exact ⟨used, ⟨hused, hnot, f, hf, ht⟩, List.mem_singleton.mp hi⟩

/-- **`ImportsFirst decls`**: emitted schemes stand after what they import. -/
theorem Conversion.importsFirst : ImportsFirst decls := by
  intro before d after hsplit i hi hrelative symbol hsymbol
  have hemitted := hconv.emitted
  rw [hsplit] at hemitted
  -- the records are split where the schemes are
  have hfront := List.forall₂_take_append _ _ _ hemitted
  have hback := List.forall₂_drop_append _ _ _ hemitted
  obtain ⟨r, rest, hemit, -, hdrop⟩ := List.forall₂_cons_right_iff.mp hback
  have hsorted : sorted = sorted.take before.length ++ r :: rest := by
    rw [← hdrop, List.take_append_drop]
  have hr : r ∈ recs := hconv.perm.mem_iff.mp (by rw [hsorted]; simp)
  obtain ⟨f, hf, t, ht, scheme, hscheme, hi⟩ := (Registry.mem_imports_of_emitDecl hemit).mp hi
  obtain ⟨used, ⟨-, hnot, huse⟩, rfl⟩ := hconv.exists_uses hwell hr hf ht hscheme hi hrelative
  obtain ⟨f, hf, ht⟩ := huse
  obtain rfl := List.mem_singleton.mp hsymbol
  -- the record in use was sorted before, and so emitted before
  obtain ⟨earlier, hearlier, hname⟩ := hconv.ordered _ r rest hsorted used.name
    ((hwell r hr).mem_dependsOn.mpr ⟨f, hf, ht, hnot⟩)
  obtain ⟨e, he, hemitted⟩ := Fallible.exists_of_mem_left hfront hearlier
  refine List.mem_map.mpr ⟨e, he, ?_⟩
  rw [(Registry.emitDecl_spec hemitted).2, hname]

/-! ## (4) Sources that use each other -/

/-- `(ofSource settings decls p).Links m`: a record of `p` uses another one, whose import points to
`m` and was not left out as a self import. -/
theorem Conversion.links_iff (hfresh : Fresh settings recs) {p : Text} {m : OutputModule} :
    (OutputModule.ofSource settings decls p).Links m ↔
      ∃ r ∈ recs, r.sourcePath = p ∧ ∃ used, Uses recs r used ∧
        OutputModule.isSelfImport (settings.outputPath p)
          (Registry.recordImport settings used) = false ∧
        (Registry.recordImport settings used).PointsTo m.path := by
  constructor
  · rintro ⟨i, hi, hpoints⟩
    rcases (hconv.mem_imports_iff hfresh p).mp hi with ⟨-, rfl⟩ | ⟨hdemand, hself⟩
    · cases hpoints.1
    · obtain ⟨r, hr, hp, f, hf, t, ht, scheme, hscheme, hi⟩ := hdemand
      obtain ⟨used, huses, rfl⟩ := hconv.exists_uses hwell hr hf ht hscheme hi hpoints.1
      exact ⟨r, hr, hp, used, huses, hself, hpoints⟩
  · rintro ⟨r, hr, rfl, used, ⟨hused, hnot, f, hf, ht⟩, hself, hpoints⟩
    have hdemand : Demands settings recs r.sourcePath (Registry.recordImport settings used) :=
      ⟨r, hr, rfl, f, hf, used.name, ht, _, Registry.scheme_ofRecords hconv.distinct hused hnot,
        List.mem_singleton.mpr rfl⟩
    exact ⟨_, (hconv.mem_imports_iff hfresh _).mpr (Or.inr ⟨hdemand, hself⟩), hpoints⟩

section Unambiguous

variable (hfresh : Fresh settings recs)
  (hpoints : ∀ used ∈ recs, ∀ r ∈ recs,
    (Registry.recordImport settings used).PointsTo (settings.outputPath r.sourcePath) ↔
      used.sourcePath = r.sourcePath)

include hfresh hpoints

/-- **`LinksIn` between modules is `SourceUses` between their sources**, if each import points to the
module of its record only. In particular no import of another source is left out. -/
theorem Conversion.linksIn_iff {p q : Text} (hp : p ∈ decls.map SchemeDecl.sourcePath)
    (hq : q ∈ decls.map SchemeDecl.sourcePath) :
    OutputModule.LinksIn (OutputModule.group settings decls)
        (OutputModule.ofSource settings decls p) (OutputModule.ofSource settings decls q) ↔
      SourceUses recs p q := by
  have hdistinct : OutputModule.ofSource settings decls q ≠ OutputModule.ofSource settings decls p ↔
      p ≠ q :=
    not_congr ⟨fun heq => (OutputModule.ofSource_inj hq heq).symm, fun heq => by rw [heq]⟩
  obtain ⟨target, htarget, rfl⟩ := hconv.mem_sourcePaths_iff.mp hq
  rw [OutputModule.LinksIn, hdistinct, hconv.links_iff hwell hfresh, SourceUses,
    OutputModule.ofSource_path]
  constructor
  · rintro ⟨-, -, hne, r, hr, hrp, used, huses, -, hpoint⟩
    exact ⟨hne, r, hr, hrp, used, huses, (hpoints used huses.1 target htarget).mp hpoint⟩
  · rintro ⟨hne, r, hr, rfl, used, huses, hused⟩
    have hpoint := (hpoints used huses.1 target htarget).mpr hused
    refine ⟨OutputModule.mem_group_iff.mpr ⟨_, hp, rfl⟩, OutputModule.mem_group_iff.mpr ⟨_, hq, rfl⟩,
      hne, r, hr, rfl, used, huses, ?_, hpoint⟩
    -- an import that was left out would point to the module that it is left out of
    rw [← Bool.not_eq_true]
    intro hself
    have hsame := (hpoints used huses.1 r hr).mp ⟨hpoint.1, Or.inr hself⟩
    exact hne (hsame.symm.trans hused)

/-- A chain of `LinksIn` between modules is a chain of `SourceUses` between their sources. -/
theorem Conversion.exists_transGen_sourceUses {m other : OutputModule}
    (hchain : TransGen (OutputModule.LinksIn (OutputModule.group settings decls)) m other) :
    ∃ p ∈ decls.map SchemeDecl.sourcePath, ∃ q ∈ decls.map SchemeDecl.sourcePath,
      OutputModule.ofSource settings decls p = m ∧
        OutputModule.ofSource settings decls q = other ∧ TransGen (SourceUses recs) p q := by
  have hstep : ∀ m other, OutputModule.LinksIn (OutputModule.group settings decls) m other →
      ∃ p ∈ decls.map SchemeDecl.sourcePath, ∃ q ∈ decls.map SchemeDecl.sourcePath,
        OutputModule.ofSource settings decls p = m ∧
          OutputModule.ofSource settings decls q = other ∧ SourceUses recs p q := by
    intro m other hlinks
    obtain ⟨p, hp, rfl⟩ := OutputModule.mem_group_iff.mp hlinks.1
    obtain ⟨q, hq, rfl⟩ := OutputModule.mem_group_iff.mp hlinks.2.1
    exact ⟨p, hp, q, hq, rfl, rfl, (hconv.linksIn_iff hwell hfresh hpoints hp hq).mp hlinks⟩
  induction hchain with
  | single hlinks =>
    obtain ⟨p, hp, q, hq, hm, hother, huses⟩ := hstep _ _ hlinks
    exact ⟨p, hp, q, hq, hm, hother, .single huses⟩
  | tail _ hlinks ih =>
    obtain ⟨p, hp, q, hq, hm, rfl, hchain⟩ := ih
    obtain ⟨q', hq', s, hs, hmiddle, hother, huses⟩ := hstep _ _ hlinks
    obtain rfl := OutputModule.ofSource_inj hq' hmiddle
    exact ⟨p, hp, s, hs, hm, hother, hchain.tail huses⟩

/-- **`Loadable` for the modules of a batch is acyclicity of `SourceUses`**, if each import points to
the module of its record only. -/
theorem Conversion.loadable_iff :
    OutputModule.Loadable (OutputModule.group settings decls) ↔
      ∀ p, ¬ TransGen (SourceUses recs) p p := by
  rw [OutputModule.loadable_iff (OutputModule.nodup_group settings decls)]
  constructor
  · intro hacyclic p hchain
    have hstep : ∀ p q, SourceUses recs p q →
        OutputModule.LinksIn (OutputModule.group settings decls)
          (OutputModule.ofSource settings decls p) (OutputModule.ofSource settings decls q) := by
      intro p q huses
      obtain ⟨-, r, hr, hp, used, hused, hq⟩ := id huses
      exact (hconv.linksIn_iff hwell hfresh hpoints (hconv.mem_sourcePaths_iff.mpr ⟨r, hr, hp⟩)
        (hconv.mem_sourcePaths_iff.mpr ⟨used, hused.1, hq⟩)).mpr huses
    exact hacyclic _ (TransGen.lift (OutputModule.ofSource settings decls) hstep p p hchain)
  · intro hacyclic m hchain
    obtain ⟨p, hp, q, -, hm, hother, hchain⟩ :=
      hconv.exists_transGen_sourceUses hwell hfresh hpoints hchain
    obtain rfl := OutputModule.ofSource_inj hp (hm.trans hother.symm)
    exact hacyclic p hchain

end Unambiguous

end Conversion

end Batch

/-! ## (5) Sources that can be confused -/

/-- **`Confusable p q`**: the files have one directory, and the stem of `p` is the stem or the whole
name of `q`. Then the module of `q` may be found where the module of `p` is looked for. -/
def Path.Confusable (p q : Text) : Prop :=
  directory p = directory q ∧ (stem? p = stem? q ∨ stem? p = fileName? q)

instance (p q : Text) : Decidable (Path.Confusable p q) :=
  inferInstanceAs (Decidable (_ ∧ (_ ∨ _)))

namespace Settings

variable (s : Settings) (hslash : '/' ∉ s.schemeInfix) (hdot : '.' ∉ s.schemeInfix)

include hslash hdot

/-- `s.schemeBase p = s.outputPath q` only if the stem of `p` is the whole name of `q`: where `q` has
an extension, that is the infix once more. -/
theorem stem?_eq_of_schemeBase_eq {p q : Text} (hp : Path.fileName? p ≠ none)
    (hq : Path.fileName? q ≠ none) (heq : s.schemeBase p = s.outputPath q) :
    Path.directory p = Path.directory q ∧ Path.stem? p = Path.fileName? q := by
  obtain ⟨a, ha⟩ := Option.ne_none_iff_exists'.mp hp
  obtain ⟨b, hb⟩ := Option.ne_none_iff_exists'.mp hq
  have hfree : '/' ∉ (Path.stem? p).getD [] ++ '.' :: s.schemeInfix := by
    simp [slash_notMem_stem p, hslash]
  -- both texts are a directory and a file name
  have hsplit : (Path.directory p ++ '/' :: s.schemesDir) ++
        '/' :: ((Path.stem? p).getD [] ++ '.' :: s.schemeInfix)
      = (Path.directory q ++ '/' :: s.schemesDir) ++ '/' :: s.moduleName q := by
    rw [schemeBase_eq, outputPath_eq] at heq
    simpa using heq
  obtain ⟨hfront, hmodule⟩ :=
    Text.append_cons_inj hfree (slash_notMem_moduleName s hslash q) hsplit
  refine ⟨List.append_cancel_right hfront, ?_⟩
  have hstem : (Path.stem? p).getD [] = b := by
    rcases moduleName_cases s hb with ⟨-, hbare⟩ | ⟨stem, ext, rfl, -, hext, hmarked⟩
    · rw [hbare] at hmodule
      exact List.append_cancel_right hmodule
    · rw [hmarked] at hmodule
      obtain ⟨hstem, rfl⟩ := Text.append_cons_inj hdot hext hmodule
      exact hstem
  rw [Path.stem?, ha] at hstem ⊢
  rw [hb]
  exact congrArg some hstem

/-- **`(recordImport s r).PointsTo (s.outputPath q) ↔ r.sourcePath = q`**: the import of a record
points to the module of its source, and to no other module if sources have names and none can be
confused with another. -/
theorem pointsTo_iff_eq (hne : s.schemeInfix ≠ []) {r : Record} {q : Text}
    (hr : Path.fileName? r.sourcePath ≠ none) (hq : Path.fileName? q ≠ none)
    (hapart : Path.Confusable r.sourcePath q → r.sourcePath = q) :
    (Registry.recordImport s r).PointsTo (s.outputPath q) ↔ r.sourcePath = q := by
  constructor
  · rintro ⟨-, hplace | hself⟩
    · obtain ⟨hdir, hstem⟩ := stem?_eq_of_schemeBase_eq s hslash hdot hr hq hplace
      exact hapart ⟨hdir, Or.inr hstem⟩
    · rcases (isSelfImport_iff s hslash hdot hne q r).mp hself with ⟨-, hdir, hstem⟩ | ⟨-, hnameless, -⟩
      · exact hapart ⟨hdir, Or.inl hstem⟩
      · exact absurd hnameless hr
  · rintro rfl
    refine ⟨rfl, ?_⟩
    by_cases hext : Path.extension r.sourcePath = []
    · left
      rw [outputPath, hext, List.append_nil]
      rfl
    · right
      rw [isSelfImport_iff s hslash hdot hne]
      exact Or.inl ⟨fun hbare => hext hbare.2, rfl, rfl⟩

end Settings

namespace Batch

/-! ## (6) Every batch -/

/-- **What the sort of records means for loading.** The schemes of all modules always have one order
that keeps the order in each module and in which each scheme comes after those that it imports. The
modules themselves are `Loadable` exactly if no source uses itself through other sources, provided
that all sources have a name and no two of them are `Confusable`. Without this an import can point to
a module that has nothing to do with what it imports. -/
theorem convert_loadable {sources : List Source} {files : List SourceRecords}
    {out : List OutputModule} (hparse : parse sources = .ok files)
    (hconvert : convert {} files = .ok out) :
    (∃ decls, decls.Perm (out.flatMap OutputModule.schemes) ∧
        (∀ m ∈ out, m.schemes.Sublist decls) ∧ ImportsFirst decls) ∧
      ((∀ p ∈ sources.map Source.path, Path.fileName? p ≠ none) →
        (∀ p ∈ sources.map Source.path, ∀ q ∈ sources.map Source.path,
          Path.Confusable p q → p = q) →
        (OutputModule.Loadable out ↔ ∀ p, ¬ TransGen (SourceUses (records files)) p p)) := by
  have hwell := parse_wellFormed hparse
  have hpaths := parse_sourcePath_mem hparse
  have hfresh : Fresh {} (records files) := fresh_of_default rfl _
  obtain ⟨sorted, decls, hconv, rfl⟩ := convert_eq_ok hwell hconvert
  refine ⟨⟨decls, OutputModule.perm_flatMap_group {} hconv.nodup_names.of_map, ?_,
    hconv.importsFirst hwell⟩, fun hnamed hapart => hconv.loadable_iff hwell hfresh ?_⟩
  · intro m hm
    obtain ⟨p, -, rfl⟩ := OutputModule.mem_group_iff.mp hm
    rw [OutputModule.ofSource_schemes]
    exact List.filter_sublist
  · intro used hused r hr
    exact Settings.pointsTo_iff_eq {} (by decide) (by decide) (by decide)
      (hnamed _ (hpaths used hused)) (hnamed _ (hpaths r hr))
      (hapart _ (hpaths used hused) _ (hpaths r hr))

/-- The modules of the pets can be loaded: pets use owners, and owners use nothing. -/
theorem convert_petFiles_loadable :
    parse petSources = .ok petFiles ∧ ∃ out, convert {} petFiles = .ok out ∧ out.length = 2 ∧
      OutputModule.Loadable out := by
  obtain ⟨out, hconvert, hlength⟩ : ∃ out, convert {} petFiles = .ok out ∧ out.length = 2 := by
    rw [convert, DependencyOrder.sort_of_dependenciesFirst (by decide +kernel)
      dependenciesFirst_petFiles]
    exact ⟨_, rfl, by decide +kernel⟩
  have huses : ∀ r ∈ records petFiles, ∀ used ∈ records petFiles, r.sourcePath ≠ used.sourcePath →
      (∃ f ∈ r.fields, used.name ∈ f.types) →
        r.sourcePath ≠ "app/owner.ts" ∧ used.sourcePath = "app/owner.ts" := by decide +kernel
  have hsource : ∀ p q, SourceUses (records petFiles) p q →
      p ≠ "app/owner.ts" ∧ q = "app/owner.ts" := by
    rintro p q ⟨hne, r, hr, rfl, used, ⟨hused, -, hfields⟩, rfl⟩
    exact huses r hr used hused hne hfields
  have hchain : ∀ p q, TransGen (SourceUses (records petFiles)) p q →
      p ≠ "app/owner.ts" ∧ q = "app/owner.ts" := by
    intro p q hchain
    induction hchain with
    | single huse => exact hsource _ _ huse
    | tail _ huse ih => exact ⟨ih.1, (hsource _ _ huse).2⟩
  have hload := (convert_loadable parse_petSources hconvert).2 (by decide +kernel)
    (by decide +kernel)
  exact ⟨parse_petSources, out, hconvert, hlength,
    hload.mpr fun p hp => (hchain p p hp).1 (hchain p p hp).2⟩

/-- Two sources that use each other, though no record uses itself through others. -/
def crossSources : List Source :=
  [⟨"a.ts", "interface A \x7b b: B \x7d interface C \x7b \x7d"⟩,
    ⟨"b.ts", "interface B \x7b \x7d interface D \x7b c: C \x7d"⟩]

/-- The records of `crossSources`. -/
def crossFiles : List SourceRecords :=
  [⟨"a.ts",
      [.ofFields "A" "a.ts" [⟨"b", ["B"], false, false, ["B"]⟩], .ofFields "C" "a.ts" []]⟩,
    ⟨"b.ts",
      [.ofFields "B" "b.ts" [], .ofFields "D" "b.ts" [⟨"c", ["C"], false, false, ["C"]⟩]]⟩]

/-- The records of `crossFiles` in dependency order. -/
def crossSorted : List Record :=
  [.ofFields "B" "b.ts" [], .ofFields "A" "a.ts" [⟨"b", ["B"], false, false, ["B"]⟩],
    .ofFields "C" "a.ts" [], .ofFields "D" "b.ts" [⟨"c", ["C"], false, false, ["C"]⟩]]

/-- **Two modules that import from each other.** The batch is accepted, and no order of its modules is
an order of loading. -/
theorem convert_crossFiles_not_loadable :
    parse crossSources = .ok crossFiles ∧ ∃ out, convert {} crossFiles = .ok out ∧
      ¬ OutputModule.Loadable out := by
  have hsort : DependencyOrder.sort (records crossFiles) = .ok crossSorted := by cbv
  obtain ⟨first, second, hconvert, hne, hlinks, hback⟩ : ∃ first second,
      convert {} crossFiles = .ok [first, second] ∧ first ≠ second ∧
        first.Links second ∧ second.Links first := by
    rw [convert, hsort]
    exact ⟨_, _, rfl, by decide +kernel, by decide +kernel, by decide +kernel⟩
  refine ⟨by decide +kernel, [first, second], hconvert, ?_⟩
  rw [OutputModule.loadable_iff (by simpa using hne)]
  intro hacyclic
  refine hacyclic first (.tail (.single (b := second) ?_) ?_)
  · exact ⟨by simp, by simp, hne.symm, hlinks⟩
  · exact ⟨by simp, by simp, hne, hback⟩

end Batch

end InterfaceSchemes
