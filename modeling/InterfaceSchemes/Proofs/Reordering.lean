import InterfaceSchemes.Proofs.SchemeText
import InterfaceSchemes.Proofs.Scoping
import Mathlib.Data.List.Perm.Basic

/-! # The order of the input only reorders the output

The order of files, records and fields decides how the sort walks, what is registered when a record
is emitted and which import comes first. None of this shows in the content of a module: this file
compares the conversions of two batches that differ in order only.

* **`Rearranged`** — one list is another in a different order, up to a relation.
* **`Record.Reordered`**, **`SourceRecords.Reordered`** — the same record with its fields in another
  order, the same file with its records in another order.
* **`Batch.SameLines`**, **`Batch.SameModule`** — schemes and modules with the same content in
  another order.
* **`Batch.convert_reordered`** — both batches are converted or none is, to the same modules. -/

namespace InterfaceSchemes

open DependencyOrder

/-! ## (1) Lists in another order -/

/-- **`Rearranged R as bs`**: `bs` is `as` in another order, each element related to its own. -/
def Rearranged {α β : Type} (R : α → β → Prop) (as : List α) (bs : List β) : Prop :=
  ∃ mid, as.Perm mid ∧ List.Forall₂ R mid bs

namespace Rearranged

variable {α β γ δ : Type} {R : α → β → Prop} {as : List α} {bs : List β}

/-- Each element has a counterpart. -/
theorem exists_right (h : Rearranged R as bs) {a : α} (ha : a ∈ as) : ∃ b ∈ bs, R a b := by
  obtain ⟨mid, hperm, hall⟩ := h
  exact Fallible.exists_of_mem_left hall (hperm.mem_iff.mp ha)

/-- Each element is a counterpart. -/
theorem exists_left (h : Rearranged R as bs) {b : β} (hb : b ∈ bs) : ∃ a ∈ as, R a b := by
  obtain ⟨mid, hperm, hall⟩ := h
  obtain ⟨a, ha, hR⟩ := Fallible.exists_of_mem_right hall hb
  exact ⟨a, hperm.mem_iff.mpr ha, hR⟩

/-- `Rearranged S bs as`: what is in another order can be put back. -/
theorem symm {S : β → α → Prop} (h : Rearranged R as bs) (hRS : ∀ a ∈ as, ∀ b, R a b → S b a) :
    Rearranged S bs as := by
  obtain ⟨mid, hperm, hall⟩ := h
  have hmid : List.Forall₂ (fun a b => a ∈ as ∧ R a b) mid bs :=
    (List.forall₂_and_left mid bs).mpr ⟨fun a ha => hperm.mem_iff.mpr ha, hall⟩
  have hback : List.Forall₂ S bs mid := (hmid.imp fun a b hab => hRS a hab.1 b hab.2).flip
  -- relating and then permuting is permuting and then relating
  have hcomp : Relation.Comp (List.Forall₂ S) List.Perm bs as := ⟨mid, hback, hperm.symm⟩
  rw [List.forall₂_comp_perm_eq_perm_comp_forall₂] at hcomp
  exact hcomp

/-- `Rearranged S (as.flatMap f) (bs.flatMap g)` if `f` and `g` give related elements lists in
another order. -/
theorem flatMap {S : γ → δ → Prop} {f : α → List γ} {g : β → List δ}
    (hR : ∀ a b, R a b → Rearranged S (f a) (g b)) (h : Rearranged R as bs) :
    Rearranged S (as.flatMap f) (bs.flatMap g) := by
  obtain ⟨mid, hperm, hall⟩ := h
  have hinner : Rearranged S (mid.flatMap f) (bs.flatMap g) := by
    clear hperm
    induction hall with
    | nil => exact ⟨[], .nil, .nil⟩
    | cons hhead _ ih =>
      obtain ⟨first, hfirst, hfirstAll⟩ := hR _ _ hhead
      obtain ⟨rest, hrest, hrestAll⟩ := ih
      exact ⟨first ++ rest, hfirst.append hrest, List.rel_append hfirstAll hrestAll⟩
  obtain ⟨inner, hpermInner, hallInner⟩ := hinner
  exact ⟨inner, (hperm.flatMap_right f).trans hpermInner, hallInner⟩

end Rearranged

/-! ## (2) Records in another order -/

/-- **The same record with its fields in another order.** What it depends on is counted again. -/
structure Record.Reordered (r s : Record) : Prop where
  /-- The name stays. -/
  name : r.name = s.name
  /-- The source stays. -/
  sourcePath : r.sourcePath = s.sourcePath
  /-- The fields are rearranged. -/
  fields : r.fields.Perm s.fields
  /-- The record depends on what its fields depend on. -/
  dependsOn : s.dependsOn = (s.fields.flatMap Field.dependsOn).eraseDups

/-- **The same file with its records in another order**, and with their fields in another order. -/
structure SourceRecords.Reordered (file other : SourceRecords) : Prop where
  /-- The source stays. -/
  sourcePath : file.sourcePath = other.sourcePath
  /-- The records are rearranged. -/
  records : Rearranged Record.Reordered file.records other.records

/-- `s.WellFormed` for a record that is `Reordered`. -/
theorem Record.Reordered.wellFormed {r s : Record} (h : r.Reordered s) (hr : r.WellFormed) :
    s.WellFormed where
  name_ne_nil := h.name ▸ hr.name_ne_nil
  name_word := h.name ▸ hr.name_word
  fields := fun f hf => hr.fields f (h.fields.mem_iff.mpr hf)
  dependsOn := h.dependsOn

/-- `s.Reordered r`: the fields can be put back. -/
theorem Record.Reordered.symm {r s : Record} (h : r.Reordered s) (hr : r.WellFormed) :
    s.Reordered r :=
  ⟨h.name.symm, h.sourcePath.symm, h.fields.symm, hr.dependsOn⟩

/-- `d ∈ r.dependsOn ↔ d ∈ s.dependsOn`: a reordered record depends on the same records. -/
theorem Record.Reordered.mem_dependsOn_iff {r s : Record} (h : r.Reordered s) (hr : r.WellFormed)
    {d : Text} : d ∈ r.dependsOn ↔ d ∈ s.dependsOn := by
  rw [hr.mem_dependsOn, (h.wellFormed hr).mem_dependsOn]
  simp only [h.fields.mem_iff]

/-- `recordScheme` is the same for a reordered record. -/
theorem Record.Reordered.recordScheme_eq {r s : Record} (h : r.Reordered s) (settings : Settings) :
    Registry.recordScheme settings r = Registry.recordScheme settings s := by
  rw [Registry.recordScheme, Registry.recordScheme, h.name, h.sourcePath]

variable {recs others : List Record}

/-- The names of reordered records are the same, in another order. -/
theorem Rearranged.map_name_perm (h : Rearranged Record.Reordered recs others) :
    (recs.map Record.name).Perm (others.map Record.name) := by
  obtain ⟨mid, hperm, hall⟩ := h
  have hnames : mid.map Record.name = others.map Record.name := by
    clear hperm
    induction hall with
    | nil => rfl
    | cons hhead _ ih => rw [List.map_cons, List.map_cons, hhead.name, ih]
  exact hnames ▸ hperm.map Record.name

/-- `Needs others a b` only where `Needs recs a b`: reordered records need no more than before. -/
theorem Rearranged.needs (h : Rearranged Record.Reordered recs others)
    (hwell : ∀ r ∈ recs, r.WellFormed) {a b : Text} (hneeds : Needs others a b) :
    Needs recs a b := by
  obtain ⟨s, hs, rfl, hb⟩ := hneeds
  obtain ⟨r, hr, hrs⟩ := h.exists_left hs
  exact ⟨r, hr, hrs.name, (hrs.mem_dependsOn_iff (hwell r hr)).mpr hb⟩

/-- **`Orderable others`**: records that can be sorted can be sorted in another order. -/
theorem Rearranged.orderable (h : Rearranged Record.Reordered recs others)
    (hwell : ∀ r ∈ recs, r.WellFormed) (horderable : Orderable recs) : Orderable others :=
  horderable.of_needs h.map_name_perm fun _ _ hneeds => h.needs hwell hneeds

/-- Reordered records are well formed. -/
theorem Rearranged.wellFormed (h : Rearranged Record.Reordered recs others)
    (hwell : ∀ r ∈ recs, r.WellFormed) : ∀ s ∈ others, s.WellFormed := by
  intro s hs
  obtain ⟨r, hr, hrs⟩ := h.exists_left hs
  exact hrs.wellFormed (hwell r hr)

/-- The records can be put back. -/
theorem Rearranged.symm_of_wellFormed (h : Rearranged Record.Reordered recs others)
    (hwell : ∀ r ∈ recs, r.WellFormed) : Rearranged Record.Reordered others recs :=
  h.symm fun r hr _ hrs => hrs.symm (hwell r hr)

/-- **`scheme t` is the same** in the registries of reordered records. -/
theorem Rearranged.scheme_eq (h : Rearranged Record.Reordered recs others)
    (hdistinct : (recs.map Record.name).Nodup) (settings : Settings) (t : Text) :
    (Registry.ofRecords settings recs).scheme t
      = (Registry.ofRecords settings others).scheme t := by
  obtain ⟨mid, hperm, hall⟩ := h
  have hregistry : Registry.ofRecords settings mid = Registry.ofRecords settings others := by
    rw [Registry.ofRecords, Registry.ofRecords]
    refine congrArg List.reverse ?_
    clear hperm
    induction hall with
    | nil => rfl
    | cons hhead _ ih =>
      rw [List.map_cons, List.map_cons, hhead.name, hhead.recordScheme_eq, ih]
  rw [Registry.scheme_ofRecords_perm hdistinct hperm, hregistry]

/-! ## (3) Modules in another order -/

namespace Batch

/-- **The schemes `d` and `e` have the same lines**: they are schemes of a record and of its
reordered self, each field has one line, and the lines stand in the order of the fields. -/
def SameLines (settings : Settings) (recs others : List Record) (d e : SchemeDecl) : Prop :=
  ∃ r ∈ recs, ∃ s ∈ others, r.Reordered s ∧ d.name = r.name ++ settings.schemeSuffix ∧
    ∃ line : Field → Text,
      (∀ f ∈ r.fields, ("\t" ++ f.name ++ ": " : Text) <+: line f) ∧
      Text.splitAt '\n' d.raw = Registry.headerLine d.name ::
        (r.fields.map line ++ [Registry.footerLine]) ∧
      Text.splitAt '\n' e.raw = Registry.headerLine d.name ::
        (s.fields.map line ++ [Registry.footerLine])

/-- **The module `n` is the module `m` in another order**, for the records of two batches. -/
structure SameModule (settings : Settings) (recs others : List Record) (m n : OutputModule) :
    Prop where
  /-- The paths are the same. -/
  path : m.path = n.path
  /-- There is a scheme. -/
  nonempty : m.schemes ≠ []
  /-- The sources are the same. -/
  sourcePath : ∀ d ∈ m.schemes, ∀ e ∈ n.schemes, d.sourcePath = e.sourcePath
  /-- The imports are the same. -/
  imports : ∀ i, i ∈ m.imports ↔ i ∈ n.imports
  /-- The schemes have the same names. -/
  names : ∀ name, name ∈ m.schemes.map SchemeDecl.name ↔ name ∈ n.schemes.map SchemeDecl.name
  /-- Schemes with one name have the same lines. -/
  lines : ∀ d ∈ m.schemes, ∀ e ∈ n.schemes, d.name = e.name → SameLines settings recs others d e

variable {settings : Settings}

/-- `Fresh settings recs` with the default suffix: no scheme has the name of a library symbol. -/
theorem fresh_of_default (hsuffix : settings.schemeSuffix = ({} : Settings).schemeSuffix)
    (recs : List Record) : Fresh settings recs := by
  have hlibrary : ¬ ({} : Settings).schemeSuffix <:+ ("z" : Text) := by decide +kernel
  have hdate : ¬ ({} : Settings).schemeSuffix <:+ ("DateTime" : Text) := by decide +kernel
  intro r _
  rw [hsuffix]
  exact ⟨fun heq => hlibrary ⟨r.name, heq⟩, fun heq => hdate ⟨r.name, heq⟩⟩

/-- `Demands settings others p i`: reordered records demand the same imports. -/
theorem Demands.reordered (h : Rearranged Record.Reordered recs others)
    (hdistinct : (recs.map Record.name).Nodup) {p : Text} {i : Import}
    (hi : Demands settings recs p i) : Demands settings others p i := by
  obtain ⟨r, hr, rfl, f, hf, t, ht, scheme, hscheme, hi⟩ := hi
  obtain ⟨s, hs, hrs⟩ := h.exists_right hr
  exact ⟨s, hs, hrs.sourcePath.symm, f, hrs.fields.mem_iff.mp hf, t, ht, scheme,
    h.scheme_eq hdistinct settings t ▸ hscheme, hi⟩

section Conversions

variable {sorted sorted' : List Record} {decls decls' : List SchemeDecl}

/-- The modules of reordered records declare the same names. -/
theorem mem_names_of_reordered (h : Rearranged Record.Reordered recs others)
    (hconv : Conversion settings recs sorted decls)
    (hconv' : Conversion settings others sorted' decls') {p name : Text}
    (hname : name ∈ (OutputModule.ofSource settings decls p).schemes.map SchemeDecl.name) :
    name ∈ (OutputModule.ofSource settings decls' p).schemes.map SchemeDecl.name := by
  obtain ⟨d, hmem, rfl⟩ := List.mem_map.mp hname
  obtain ⟨hd, rfl⟩ := OutputModule.mem_ofSource_schemes.mp hmem
  obtain ⟨r, hr, hemit⟩ := hconv.exists_record hd
  obtain ⟨s, hs, hrs⟩ := h.exists_right hr
  obtain ⟨e, he, hemit'⟩ := hconv'.exists_decl hs
  obtain ⟨hpath, hlabel⟩ := Registry.emitDecl_spec hemit
  obtain ⟨hpath', hlabel'⟩ := Registry.emitDecl_spec hemit'
  refine List.mem_map.mpr ⟨e, OutputModule.mem_ofSource_schemes.mpr ⟨he, ?_⟩, ?_⟩
  · rw [hpath', ← hrs.sourcePath, hpath]
  · rw [hlabel', ← hrs.name, hlabel]

variable (h : Rearranged Record.Reordered recs others) (hwell : ∀ r ∈ recs, r.WellFormed)
  (hsuffix : settings.schemeSuffix = ({} : Settings).schemeSuffix)
  (hconv : Conversion settings recs sorted decls)
  (hconv' : Conversion settings others sorted' decls')

include h hwell hsuffix hconv hconv'

/-- **`SameLines`: the scheme of a reordered record has the same lines.** -/
theorem sameLines_of_reordered {d e : SchemeDecl} (hd : d ∈ decls) (he : e ∈ decls')
    (hname : d.name = e.name) : SameLines settings recs others d e := by
  have hline : '\n' ∉ settings.schemeSuffix := by
    rw [hsuffix]
    decide
  obtain ⟨r, hr, hemit⟩ := hconv.exists_record hd
  obtain ⟨s, hs, hrs⟩ := h.exists_right hr
  obtain ⟨-, hlabel⟩ := Registry.emitDecl_spec hemit
  -- the other scheme with this name is that of the reordered record
  have hemit' : Registry.emitDecl settings (Registry.ofRecords settings others) s = .ok e := by
    obtain ⟨s', hs', hemitted⟩ := hconv'.exists_record he
    have hlabels : s'.name ++ settings.schemeSuffix = s.name ++ settings.schemeSuffix := by
      rw [← (Registry.emitDecl_spec hemitted).2, ← hname, hlabel, hrs.name]
    rwa [← eq_of_name_eq hconv'.distinct hs' hs (List.append_cancel_right hlabels)]
  -- both registries give a type the same scheme, and so a field the same line
  have hlineOf : Registry.lineOf (Registry.ofRecords settings others) s.sourcePath =
      Registry.lineOf (Registry.ofRecords settings recs) r.sourcePath := by
    funext f
    rw [Registry.lineOf, Registry.lineOf, hrs.sourcePath, Registry.emitField_congr]
    exact fun t _ => (h.scheme_eq hconv.distinct settings t).symm
  refine ⟨r, hr, s, hs, hrs, hlabel,
    Registry.lineOf (Registry.ofRecords settings recs) r.sourcePath, ?_,
    Registry.splitAt_raw hline (fun q hq => (hwell q hq).name_word) (hwell r hr) hemit, ?_⟩
  · intro f hf
    obtain ⟨fields, hfields, -⟩ := Registry.emitDecl_eq_ok_iff.mp hemit
    obtain ⟨field, -, hfield⟩ := Fallible.exists_of_mem_left hfields hf
    exact Registry.prefix_lineOf hfield
  · rw [hname, ← hlineOf]
    have hwell' := h.wellFormed hwell
    exact Registry.splitAt_raw hline (fun q hq => (hwell' q hq).name_word) (hwell' s hs) hemit'

/-- **`SameModule`: the module of a source has the same content in both batches.** -/
theorem sameModule_of_reordered {p : Text} (hp : p ∈ decls.map SchemeDecl.sourcePath) :
    SameModule settings recs others (OutputModule.ofSource settings decls p)
      (OutputModule.ofSource settings decls' p) := by
  have hback := h.symm_of_wellFormed hwell
  refine ⟨by simp, ?_, ?_, ?_, ?_, ?_⟩
  · obtain ⟨d, hd, hpath⟩ := List.mem_map.mp hp
    exact List.ne_nil_of_mem (OutputModule.mem_ofSource_schemes.mpr ⟨hd, hpath⟩)
  · intro d hd e he
    rw [(OutputModule.mem_ofSource_schemes.mp hd).2, (OutputModule.mem_ofSource_schemes.mp he).2]
  · intro i
    rw [hconv.mem_imports_iff (fresh_of_default hsuffix recs),
      hconv'.mem_imports_iff (fresh_of_default hsuffix others)]
    have hdemands : Demands settings recs p i ↔ Demands settings others p i :=
      ⟨fun hi => hi.reordered h hconv.distinct, fun hi => hi.reordered hback hconv'.distinct⟩
    rw [hdemands]
  · intro name
    exact ⟨mem_names_of_reordered h hconv hconv', mem_names_of_reordered hback hconv' hconv⟩
  · intro d hd e he hname
    exact sameLines_of_reordered h hwell hsuffix hconv hconv'
      (OutputModule.mem_ofSource_schemes.mp hd).1 (OutputModule.mem_ofSource_schemes.mp he).1 hname

/-- `group` gives reordered records the same modules in another order. -/
theorem rearranged_group :
    Rearranged (SameModule settings recs others) (OutputModule.group settings decls)
      (OutputModule.group settings decls') := by
  have hmem : ∀ p, p ∈ decls.map SchemeDecl.sourcePath ↔ p ∈ decls'.map SchemeDecl.sourcePath := by
    intro p
    rw [hconv.mem_sourcePaths_iff, hconv'.mem_sourcePaths_iff]
    constructor
    · rintro ⟨r, hr, rfl⟩
      obtain ⟨s, hs, hrs⟩ := h.exists_right hr
      exact ⟨s, hs, hrs.sourcePath.symm⟩
    · rintro ⟨s, hs, rfl⟩
      obtain ⟨r, hr, hrs⟩ := h.exists_left hs
      exact ⟨r, hr, hrs.sourcePath⟩
  -- there is one module for each source, so the modules are permuted like the sources
  have hperm : (decls.map SchemeDecl.sourcePath).eraseDups.Perm
      (decls'.map SchemeDecl.sourcePath).eraseDups := by
    refine (List.perm_ext_iff_of_nodup (OutputModule.nodup_eraseDups _)
      (OutputModule.nodup_eraseDups _)).mpr fun p => ?_
    rw [List.mem_eraseDups, List.mem_eraseDups, hmem p]
  rw [OutputModule.group_eq, OutputModule.group_eq]
  refine ⟨_, hperm.map (OutputModule.ofSource settings decls), ?_⟩
  rw [List.forall₂_map_left_iff, List.forall₂_map_right_iff, List.forall₂_same]
  intro p hp
  exact sameModule_of_reordered h hwell hsuffix hconv hconv'
    ((hmem p).mpr (List.mem_eraseDups.mp hp))

end Conversions

/-- `records` of reordered files are reordered. -/
theorem rearranged_records {files files' : List SourceRecords}
    (h : Rearranged SourceRecords.Reordered files files') :
    Rearranged Record.Reordered (records files) (records files') :=
  h.flatMap fun _ _ hfile => hfile.records

/-- **The order of the input only reorders the output of `convert`.** -/
theorem convert_reordered {settings : Settings}
    (hsuffix : settings.schemeSuffix = ({} : Settings).schemeSuffix) {sources : List Source}
    {files files' : List SourceRecords} (hparse : parse sources = .ok files)
    (hreordered : Rearranged SourceRecords.Reordered files files') :
    ((∃ out, convert settings files = .ok out) ↔ ∃ out, convert settings files' = .ok out) ∧
      ∀ out out', convert settings files = .ok out → convert settings files' = .ok out' →
        Rearranged (SameModule settings (records files) (records files')) out out' := by
  have hrecords := rearranged_records hreordered
  have hwell := parse_wellFormed hparse
  have hwell' := hrecords.wellFormed hwell
  constructor
  · rw [exists_convert_eq_ok_iff settings hwell, exists_convert_eq_ok_iff settings hwell']
    exact ⟨hrecords.orderable hwell, (hrecords.symm_of_wellFormed hwell).orderable hwell'⟩
  · intro out out' hconvert hconvert'
    obtain ⟨sorted, decls, hconv, rfl⟩ := convert_eq_ok hwell hconvert
    obtain ⟨sorted', decls', hconv', rfl⟩ := convert_eq_ok hwell' hconvert'
    exact rearranged_group hrecords hwell hsuffix hconv hconv'

/-- The files of `petFiles`, their records and the fields of a pet in another order. -/
def shuffledPetFiles : List SourceRecords :=
  [⟨"app/pet.ts",
      [.ofFields "Pet" "app/pet.ts"
          [⟨"at", ["DateTime"], false, false, []⟩,
            ⟨"by", ["Owner", "null"], false, false, ["Owner"]⟩,
            ⟨"tag", ["Tag"], false, false, ["Tag"]⟩],
        .ofFields "Tag" "app/pet.ts" [⟨"n", ["number"], false, false, []⟩]]⟩,
    ⟨"app/owner.ts", [.ofFields "Owner" "app/owner.ts" [⟨"name", ["string"], true, true, []⟩]]⟩]

/-- Both batches of pets are converted, to the same modules in another order. -/
theorem convert_shuffledPetFiles :
    parse petSources = .ok petFiles ∧ Rearranged SourceRecords.Reordered petFiles shuffledPetFiles ∧
      ∃ out out', convert {} petFiles = .ok out ∧ convert {} shuffledPetFiles = .ok out' ∧
        Rearranged (SameModule {} (records petFiles) (records shuffledPetFiles)) out out' := by
  have hreordered : Rearranged SourceRecords.Reordered petFiles shuffledPetFiles :=
    ⟨petFiles.reverse, by decide +kernel,
      .cons ⟨rfl, _, List.Perm.swap _ _ [],
          .cons ⟨rfl, rfl, by decide +kernel, rfl⟩ (.cons ⟨rfl, rfl, by decide +kernel, rfl⟩ .nil)⟩
        (.cons ⟨rfl, _, .rfl, .cons ⟨rfl, rfl, by decide +kernel, rfl⟩ .nil⟩ .nil)⟩
  have horderable : DependencyOrder.Orderable (records petFiles) :=
    dependenciesFirst_petFiles.orderable (by decide +kernel)
  obtain ⟨hboth, hsame⟩ := convert_reordered rfl parse_petSources hreordered
  obtain ⟨out, hout⟩ :=
    (exists_convert_eq_ok_iff {} (parse_wellFormed parse_petSources)).mpr horderable
  obtain ⟨out', hout'⟩ := hboth.mp ⟨out, hout⟩
  exact ⟨parse_petSources, hreordered, out, out', hout, hout', hsame out out' hout hout'⟩

end Batch

end InterfaceSchemes
