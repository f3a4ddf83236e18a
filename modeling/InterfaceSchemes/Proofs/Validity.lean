import InterfaceSchemes.Proofs.Conversion
import InterfaceSchemes.Proofs.Placement

/-! # Which batches are accepted

A run can fail in many places: while it reads, sorts, looks schemes up, builds fields or writes the
modules. This file proves that after reading only the sort decides. What the later stages check is
guaranteed by the earlier ones.

* **`Batch.Valid`** — what a batch of records has to satisfy, said of records alone.
* **`Batch.valid_iff_orderable`** — these are the batches that can be sorted.
* **`Batch.Placeable`** — settings and source paths between which imports can be spelled.
* **`Batch.exists_renderOutput`** — the modules of a batch can all be written.
* **`Batch.generate_succeeds_iff`** — a run succeeds exactly on the valid batches. -/

namespace InterfaceSchemes

open Relation DependencyOrder

/-! ## (1) Valid batches -/

namespace Batch

/-- **`Uses records r s`**: `s` is a record of the batch, and a field of `r` has its name for a
type. The name of a primitive type always means the primitive type. -/
def Uses (records : List Record) (r s : Record) : Prop :=
  s ∈ records ∧ Primitive.isPrimitive s.name = false ∧ ∃ f ∈ r.fields, s.name ∈ f.types

/-- **A valid batch of records.** -/
structure Valid (records : List Record) : Prop where
  /-- No two records have one name. -/
  distinct : (records.map Record.name).Nodup
  /-- Each type is primitive or the name of a record. -/
  declared : ∀ r ∈ records, ∀ f ∈ r.fields, ∀ t ∈ f.types, Primitive.isPrimitive t = false →
    ∃ s ∈ records, s.name = t
  /-- No record uses itself, not even through others. -/
  acyclic : ∀ r ∈ records, ¬ TransGen (Uses records) r r

variable {recs : List Record}

/-- `Uses recs r s` is `Needs recs` between the names. -/
theorem needs_of_uses (hwell : ∀ r ∈ recs, r.WellFormed) {r s : Record} (hr : r ∈ recs)
    (huses : Uses recs r s) : Needs recs r.name s.name := by
  obtain ⟨-, hnot, f, hf, ht⟩ := huses
  exact ⟨r, hr, rfl, (hwell r hr).mem_dependsOn.mpr ⟨f, hf, ht, hnot⟩⟩

/-- `Needs recs` between the names of two records is `Uses recs`. -/
theorem uses_of_needs (hwell : ∀ r ∈ recs, r.WellFormed) (hdistinct : (recs.map Record.name).Nodup)
    {r s : Record} (hr : r ∈ recs) (hs : s ∈ recs) (hneeds : Needs recs r.name s.name) :
    Uses recs r s := by
  obtain ⟨r', hr', hname, hdepends⟩ := hneeds
  obtain rfl := eq_of_name_eq hdistinct hr' hr hname
  obtain ⟨f, hf, ht, hnot⟩ := (hwell r' hr').mem_dependsOn.mp hdepends
  exact ⟨hs, hnot, f, hf, ht⟩

/-- A chain of `Uses recs` that starts in the batch is a chain of `Needs recs`. -/
theorem transGen_needs (hwell : ∀ r ∈ recs, r.WellFormed) {r s : Record} (hr : r ∈ recs)
    (hchain : TransGen (Uses recs) r s) : s ∈ recs ∧ TransGen (Needs recs) r.name s.name := by
  induction hchain with
  | single huses => exact ⟨huses.1, .single (needs_of_uses hwell hr huses)⟩
  | tail _ huses ih => exact ⟨huses.1, ih.2.tail (needs_of_uses hwell ih.1 huses)⟩

/-- A chain of `Needs recs` that starts at a record is a chain of `Uses recs`, if everything is
declared. -/
theorem transGen_uses (hwell : ∀ r ∈ recs, r.WellFormed) (hvalid : Valid recs) {r : Record}
    (hr : r ∈ recs) {b : Text} (hchain : TransGen (Needs recs) r.name b) :
    ∃ s ∈ recs, s.name = b ∧ TransGen (Uses recs) r s := by
  -- the name at the end of a need is that of a record
  have hstep : ∀ q ∈ recs, ∀ b, Needs recs q.name b → ∃ s ∈ recs, s.name = b ∧ Uses recs q s := by
    intro q hq b hneeds
    obtain ⟨q', hq', -, hdepends⟩ := id hneeds
    obtain ⟨f, hf, ht, hnot⟩ := (hwell q' hq').mem_dependsOn.mp hdepends
    obtain ⟨s, hs, rfl⟩ := hvalid.declared q' hq' f hf b ht hnot
    exact ⟨s, hs, rfl, uses_of_needs hwell hvalid.distinct hq hs hneeds⟩
  induction hchain with
  | single hneeds =>
    obtain ⟨s, hs, hname, huses⟩ := hstep r hr _ hneeds
    exact ⟨s, hs, hname, .single huses⟩
  | tail _ hneeds ih =>
    obtain ⟨q, hq, rfl, hq'⟩ := ih
    obtain ⟨s, hs, hname, huses⟩ := hstep q hq _ hneeds
    exact ⟨s, hs, hname, hq'.tail huses⟩

/-- **`Valid recs ↔ Orderable recs`**: the valid batches are those that can be sorted. -/
theorem valid_iff_orderable (hwell : ∀ r ∈ recs, r.WellFormed) : Valid recs ↔ Orderable recs := by
  constructor
  · intro hvalid
    refine ⟨hvalid.distinct, ?_, ?_⟩
    · intro r hr d hd
      obtain ⟨f, hf, ht, hnot⟩ := (hwell r hr).mem_dependsOn.mp hd
      exact hvalid.declared r hr f hf d ht hnot
    · intro n hchain
      -- a circle of needs starts at a record, and closes at the same record
      obtain ⟨r, hr, rfl⟩ : ∃ r ∈ recs, r.name = n := by
        obtain ⟨b, ⟨r, hr, hname, -⟩, -⟩ := TransGen.head'_iff.mp hchain
        exact ⟨r, hr, hname⟩
      obtain ⟨s, hs, hname, huses⟩ := transGen_uses hwell hvalid hr hchain
      obtain rfl := eq_of_name_eq hvalid.distinct hs hr hname
      exact hvalid.acyclic s hs huses
  · intro horderable
    refine ⟨horderable.distinct, ?_, ?_⟩
    · intro r hr f hf t ht hnot
      exact horderable.declared r hr t ((hwell r hr).mem_dependsOn.mpr ⟨f, hf, ht, hnot⟩)
    · intro r hr hchain
      exact horderable.acyclic r.name (transGen_needs hwell hr hchain).2

end Batch

/-! ## (2) Spelling the imports -/

namespace Path

/-- **A path that is one name:** its one component is neither the root nor a step to the current
directory or upward. -/
def IsName (p : Text) : Prop :=
  ∃ name, components p = [name] ∧ name ≠ ("/" : Text) ∧ name ≠ ("." : Text) ∧ name ≠ up

/-- `names p <:+ components p`. -/
theorem names_suffix_components (p : Text) : names p <:+ components p := by
  unfold components
  split
  · exact List.suffix_rfl
  · exact List.suffix_cons _ _

/-- A path that is one name has that name only. -/
theorem IsName.names_eq {p : Text} (hp : IsName p) : ∃ name, names p = [name] ∧ name ≠ up := by
  obtain ⟨name, hname, hroot, hhere, hup⟩ := hp
  rw [components] at hname
  cases hlead : lead p with
  | root =>
    rw [hlead] at hname
    exact absurd (List.cons.inj hname).1.symm hroot
  | here =>
    rw [hlead] at hname
    exact absurd (List.cons.inj hname).1.symm hhere
  | bare =>
    rw [hlead] at hname
    exact ⟨name, hname, hup⟩

end Path

namespace Batch

/-- **Imports can be spelled between the modules of these sources.** -/
structure Placeable (settings : Settings) (paths : List Text) : Prop where
  /-- The scheme directory is one directory beside the source. -/
  schemesDir : Path.IsName settings.schemesDir
  /-- The infix does not lead into another directory. -/
  schemeInfix : '/' ∉ settings.schemeInfix
  /-- Each path has a file name. -/
  fileName : ∀ p ∈ paths, Path.fileName? p ≠ none
  /-- All paths are rooted, or all are relative and none leads upward. -/
  alike : (∀ p ∈ paths, Path.isRooted p = true) ∨
    ∀ p ∈ paths, Path.isRooted p = false ∧ Path.up ∉ Path.components p

variable {settings : Settings} {paths : List Text}

/-- `settings.importPath` exists from the module of any `Placeable` source to that of any other. -/
theorem Placeable.exists_importPath (hplace : Placeable settings paths) {p q : Text}
    (hp : p ∈ paths) (hq : q ∈ paths) :
    ∃ path, settings.importPath (settings.outputPath p) (settings.schemeBase q) = .ok path := by
  obtain ⟨dir, hdir, hdirUp⟩ := hplace.schemesDir.names_eq
  obtain ⟨name, hname⟩ := Option.ne_none_iff_exists'.mp (hplace.fileName p hp)
  have hnames : Path.names q ≠ [] := by
    obtain ⟨other, hother⟩ := Option.ne_none_iff_exists'.mp (hplace.fileName q hq)
    exact List.ne_nil_of_mem (Path.mem_names_of_fileName? hother)
  have hrooted : Path.isRooted p = Path.isRooted q := by
    rcases hplace.alike with hall | hall
    · rw [hall p hp, hall q hq]
    · rw [(hall p hp).1, (hall q hq).1]
  have hup : Path.isRooted p = true ∨ Path.up ∉ Path.names p := by
    refine hplace.alike.imp (fun hall => hall p hp) fun hall hmem => ?_
    exact (hall p hp).2 ((Path.names_suffix_components p).subset hmem)
  exact Settings.exists_importPath settings (by simp [hdir]) (by simp [hdir, hdirUp.symm])
    hplace.schemeInfix hname hnames hrooted hup

variable {sorted : List Record} {decls : List SchemeDecl}

/-- **`renderOutput` succeeds on every module of a conversion.** Its imports come from a library, or
from the module of another source. -/
theorem exists_renderOutput (hconv : Conversion settings recs sorted decls)
    (hplace : Placeable settings paths) (hpaths : ∀ r ∈ recs, r.sourcePath ∈ paths) {p : Text}
    (hp : p ∈ paths) :
    ∃ written, renderOutput settings (OutputModule.ofSource settings decls p) = .ok written := by
  have hlines : ∀ i ∈ (OutputModule.ofSource settings decls p).imports, ∃ line,
      OutputModule.importLine settings (OutputModule.ofSource settings decls p).path i
        = .ok line := by
    intro i hi
    rw [OutputModule.ofSource_path]
    rcases hconv.of_mem_imports hi with rfl | hdemand
    · exact ⟨_, rfl⟩
    · rcases hdemand.cases with rfl | ⟨r, hr, rfl⟩
      · exact ⟨_, rfl⟩
      · obtain ⟨path, hpath⟩ := hplace.exists_importPath hp (hpaths r hr)
        exact ⟨_, Fallible.bind_eq_ok_iff.mpr ⟨path, hpath, rfl⟩⟩
  obtain ⟨lines, hmapM⟩ := Fallible.exists_mapM_eq_ok hlines
  have hrender : ∃ text, (OutputModule.ofSource settings decls p).render settings = .ok text :=
    ⟨_, Fallible.bind_eq_ok_iff.mpr ⟨lines, hmapM, rfl⟩⟩
  obtain ⟨text, htext⟩ := hrender
  exact ⟨_, Fallible.bind_eq_ok_iff.mpr ⟨text, htext, rfl⟩⟩

/-! ## (3) Runs -/

variable {sources : List Source} {files : List SourceRecords}

/-- The modules of a batch that was read from placeable sources can all be written. -/
theorem exists_written (hparse : parse sources = .ok files)
    (hplace : Placeable settings (sources.map Source.path)) {modules : List OutputModule}
    (hconvert : convert settings files = .ok modules) :
    ∃ out, modules.mapM (renderOutput settings) = .ok out := by
  have hpaths := parse_sourcePath_mem hparse
  obtain ⟨sorted, decls, hconv, rfl⟩ := convert_eq_ok (parse_wellFormed hparse) hconvert
  refine Fallible.exists_mapM_eq_ok fun m hm => ?_
  obtain ⟨p, hp, rfl⟩ := OutputModule.mem_group_iff.mp hm
  obtain ⟨r, hr, rfl⟩ := hconv.mem_sourcePaths_iff.mp hp
  exact exists_renderOutput hconv hplace hpaths (hpaths r hr)

/-- **`generate` succeeds exactly on the `Valid` batches**, and once the sources are read it fails
only for a repeated name, a missing or a cyclic dependency. -/
theorem generate_succeeds_iff (settings : Settings) (sources : List Source)
    (hplace : Placeable settings (sources.map Source.path)) :
    ((∃ out, generate settings sources = .ok out) ↔
        ∃ files, parse sources = .ok files ∧ Valid (records files)) ∧
      ∀ files e, parse sources = .ok files → generate settings sources = .error e →
        (∃ name first second, e = .duplicateRecord name first second) ∨
          (∃ name requiredBy, e = .missingDependency name requiredBy) ∨
            ∃ cycle, e = .cyclicDependency cycle := by
  refine ⟨⟨?_, ?_⟩, ?_⟩
  · rintro ⟨out, hgenerate⟩
    obtain ⟨files, hparse, hrest⟩ := Fallible.bind_eq_ok_iff.mp hgenerate
    obtain ⟨modules, hconvert, -⟩ := Fallible.bind_eq_ok_iff.mp hrest
    have hwell := parse_wellFormed hparse
    refine ⟨files, hparse, (valid_iff_orderable hwell).mpr ?_⟩
    exact (exists_convert_eq_ok_iff settings hwell).mp ⟨modules, hconvert⟩
  · rintro ⟨files, hparse, hvalid⟩
    have hwell := parse_wellFormed hparse
    obtain ⟨modules, hconvert⟩ :=
      (exists_convert_eq_ok_iff settings hwell).mpr ((valid_iff_orderable hwell).mp hvalid)
    obtain ⟨out, hwritten⟩ := exists_written hparse hplace hconvert
    exact ⟨out, Fallible.bind_eq_ok_iff.mpr
      ⟨files, hparse, Fallible.bind_eq_ok_iff.mpr ⟨modules, hconvert, hwritten⟩⟩⟩
  · intro files e hparse hgenerate
    rw [generate, hparse] at hgenerate
    change (convert settings files >>= _) = _ at hgenerate
    rcases Fallible.bind_eq_error_iff.mp hgenerate with hconvert | ⟨modules, hconvert, hrender⟩
    · exact sort_eq_error (convert_eq_error (parse_wellFormed hparse) hconvert)
    · obtain ⟨out, hwritten⟩ := exists_written hparse hplace hconvert
      rw [hwritten] at hrender
      cases hrender

/-- Two sources, one of them in the root directory. It declares a record that has the name of a
primitive type and a field of that type. -/
def rootSources : List Source :=
  [⟨"/a.ts", "interface string \x7b x: string \x7d interface A \x7b y: string | B; z: B \x7d"⟩,
    ⟨"/lib/b.ts", "interface B \x7b \x7d"⟩]

/-- The records of `rootSources`. -/
def rootFiles : List SourceRecords :=
  [⟨"/a.ts",
      [.ofFields "string" "/a.ts" [⟨"x", ["string"], false, false, []⟩],
        .ofFields "A" "/a.ts"
          [⟨"y", ["string", "B"], false, false, ["B"]⟩, ⟨"z", ["B"], false, false, ["B"]⟩]]⟩,
    ⟨"/lib/b.ts", [.ofFields "B" "/lib/b.ts" []]⟩]

/-- The run on `rootSources` succeeds, with and without the leading dot. -/
theorem generate_rootSources_succeeds :
    (∃ out, generate {} rootSources = .ok out) ∧
      ∃ out, generate { stripLeadingDot := false } rootSources = .ok out := by
  have hparse : parse rootSources = .ok rootFiles := by decide +kernel
  have hordered : DependenciesFirst
      [.ofFields "B" "/lib/b.ts" [],
        .ofFields "string" "/a.ts" [⟨"x", ["string"], false, false, []⟩],
        .ofFields "A" "/a.ts"
          [⟨"y", ["string", "B"], false, false, ["B"]⟩, ⟨"z", ["B"], false, false, ["B"]⟩]] :=
    ((dependenciesFirst_nil.concat (by decide +kernel)).concat (by decide +kernel)).concat
      (by decide +kernel)
  have hvalid : Valid (records rootFiles) :=
    (valid_iff_orderable (parse_wellFormed hparse)).mpr
      ((hordered.orderable (by decide +kernel)).perm (by decide +kernel))
  have hplace : ∀ strip, Placeable { stripLeadingDot := strip } (rootSources.map Source.path) := by
    intro strip
    refine ⟨⟨"schemes", rfl, by decide, by decide, by decide⟩, ?_, by decide +kernel,
      Or.inl (by decide +kernel)⟩
    change '/' ∉ ("scheme" : Text)
    decide
  exact ⟨(generate_succeeds_iff _ rootSources (hplace true)).1.mpr ⟨rootFiles, hparse, hvalid⟩,
    (generate_succeeds_iff _ rootSources (hplace false)).1.mpr ⟨rootFiles, hparse, hvalid⟩⟩

end Batch

end InterfaceSchemes
