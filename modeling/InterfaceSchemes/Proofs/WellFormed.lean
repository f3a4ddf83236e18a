import InterfaceSchemes.Batch
import InterfaceSchemes.Proofs.Declaration
import InterfaceSchemes.Proofs.Fallible
import InterfaceSchemes.Proofs.FirstOccurrence

/-! # What is read from sources

The stages after the reader do not check their input again: they rely on what is proved here of
every record that was read.

* **`Field.Atomic`** — a name or a type: not empty, trimmed, without the characters that divide.
* **`Field.WellFormed`**, **`Record.WellFormed`** — atomic parts, at least one type in each field,
  and dependencies that are exactly the types that are not primitive.
* **`SourceRecords.ofSource_spec`** — the records of a source are well formed and bear its path.
* **`SourceRecords.ofSource_wellFormed`** — the same clause by clause, with blanks and positions in
  place of the operations that trim and that erase repetitions.
* **`Batch.parse_spec`** — the same for all records of a batch. -/

namespace InterfaceSchemes

/-! ## (1) Well-formed fields and records -/

/-- The characters that divide a declaration into fields, a field into its halves, and declarations
from each other. -/
def Field.dividers : List Char := [':', ';', '\n', '\x7b', '\x7d']

/-- **A name or a type as it stands in a field.** -/
structure Field.Atomic (s : Text) : Prop where
  /-- There is something. -/
  ne_nil : s ≠ []
  /-- There are no blanks around it. -/
  trimmed : Text.trim s = s
  /-- Nothing in it divides. -/
  undivided : ∀ c ∈ s, c ∉ Field.dividers

instance (s : Text) : Decidable (Field.Atomic s) :=
  letI : Decidable (∀ c ∈ s, c ∉ Field.dividers) := List.decidableBAll _ s
  decidable_of_iff (s ≠ [] ∧ Text.trim s = s ∧ ∀ c ∈ s, c ∉ Field.dividers)
    ⟨fun h => ⟨h.1, h.2.1, h.2.2⟩, fun h => ⟨h.ne_nil, h.trimmed, h.undivided⟩⟩

/-- **A field as the reader gives it.** -/
structure Field.WellFormed (f : Field) : Prop where
  /-- The name is one. -/
  name : Atomic f.name
  /-- There is a type. -/
  types_ne_nil : f.types ≠ []
  /-- Each type is one, and no union of several. -/
  types : ∀ t ∈ f.types, Atomic t ∧ '|' ∉ t
  /-- The field depends on the types that are not primitive. -/
  dependsOn : f.dependsOn = recordTypes f.types

instance (f : Field) : Decidable f.WellFormed :=
  decidable_of_iff (Field.Atomic f.name ∧ f.types ≠ [] ∧ (∀ t ∈ f.types, Field.Atomic t ∧ '|' ∉ t) ∧
      f.dependsOn = Field.recordTypes f.types)
    ⟨fun h => ⟨h.1, h.2.1, h.2.2.1, h.2.2.2⟩,
      fun h => ⟨h.name, h.types_ne_nil, h.types, h.dependsOn⟩⟩

/-- **A record as the reader gives it.** -/
structure Record.WellFormed (r : Record) : Prop where
  /-- There is a name. -/
  name_ne_nil : r.name ≠ []
  /-- The name is a word. -/
  name_word : ∀ c ∈ r.name, Text.isWord c = true
  /-- Each field is well formed. -/
  fields : ∀ f ∈ r.fields, f.WellFormed
  /-- The record depends on what its fields depend on. -/
  dependsOn : r.dependsOn = (r.fields.flatMap Field.dependsOn).eraseDups

instance (r : Record) : Decidable r.WellFormed :=
  letI : Decidable (∀ c ∈ r.name, Text.isWord c = true) := List.decidableBAll _ r.name
  decidable_of_iff (r.name ≠ [] ∧ (∀ c ∈ r.name, Text.isWord c = true) ∧
      (∀ f ∈ r.fields, f.WellFormed) ∧ r.dependsOn = (r.fields.flatMap Field.dependsOn).eraseDups)
    ⟨fun h => ⟨h.1, h.2.1, h.2.2.1, h.2.2.2⟩,
      fun h => ⟨h.name_ne_nil, h.name_word, h.fields, h.dependsOn⟩⟩

/-- `r.dependsOn` are exactly the types of the fields of `r` that are not primitive. -/
theorem Record.WellFormed.mem_dependsOn {r : Record} (hr : r.WellFormed) {d : Text} :
    d ∈ r.dependsOn ↔ ∃ f ∈ r.fields, d ∈ f.types ∧ Primitive.isPrimitive d = false := by
  rw [hr.dependsOn, List.mem_eraseDups, List.mem_flatMap]
  refine exists_congr fun f => and_congr_right fun hf => ?_
  rw [(hr.fields f hf).dependsOn, Field.recordTypes, List.mem_eraseDups, List.mem_filter]
  simp

/-! ## (2) Reading a field -/

namespace Field

/-- `readName s` is trimmed, and its characters are those of the text. -/
theorem readName_spec (s : Text) :
    Text.trim (readName s).1 = (readName s).1 ∧ ∀ c ∈ (readName s).1, c ∈ s := by
  rw [readName]
  split
  · rename_i name hback
    refine ⟨Text.trim_trim name, fun c hc => ?_⟩
    have hwhole := beforeBack?_eq_some_iff.mp hback
    refine Text.mem_of_mem_trim ?_
    rw [hwhole]
    exact List.mem_append_left _ (Text.mem_of_mem_trim hc)
  · exact ⟨Text.trim_trim s, fun c hc => Text.mem_of_mem_trim hc⟩

/-- `readTypes s` are the trimmed pieces of a text between bars. -/
theorem readTypes_eq (s : Text) :
    ∃ union, (readTypes s).1 = (Text.splitAt '|' union).map Text.trim ∧ ∀ c ∈ union, c ∈ s := by
  rw [readTypes]
  split
  · rename_i union hback
    have hwhole := beforeBack?_eq_some_iff.mp hback
    refine ⟨union, rfl, fun c hc => Text.mem_of_mem_trim ?_⟩
    rw [hwhole]
    exact List.mem_append_left _ hc
  · exact ⟨Text.trim s, rfl, fun c hc => Text.mem_of_mem_trim hc⟩

/-- There is a type, and each is trimmed, holds no bar and has its characters from the text. -/
theorem readTypes_spec (s : Text) :
    (readTypes s).1 ≠ [] ∧
      ∀ t ∈ (readTypes s).1, Text.trim t = t ∧ '|' ∉ t ∧ ∀ c ∈ t, c ∈ s := by
  obtain ⟨union, hunion, hsub⟩ := readTypes_eq s
  rw [hunion]
  refine ⟨by simp [Text.splitAt, Text.splitWhere_ne_nil], ?_⟩
  intro t ht
  obtain ⟨piece, hpiece, rfl⟩ := List.mem_map.mp ht
  refine ⟨Text.trim_trim piece, ?_, ?_⟩
  · intro hbar
    exact (Text.of_mem_splitAt hpiece (Text.mem_of_mem_trim hbar)).2 rfl
  · intro c hc
    exact hsub c (Text.of_mem_splitAt hpiece (Text.mem_of_mem_trim hc)).1

/-- **`f.WellFormed` for every field that `read?` gives**, if its text holds no other divider than
colons. -/
theorem wellFormed_of_read? {s : Text} (hs : ∀ c ∈ s, c = ':' ∨ c ∉ dividers) {f : Field}
    (hread : read? s = some f) : f.WellFormed := by
  unfold read? at hread
  split at hread
  · rename_i left right hsplit
    have hundivided : ∀ half ∈ Text.splitAt ':' s, ∀ c ∈ half, c ∉ dividers := by
      intro half hhalf c hc
      obtain ⟨hmem, hcolon⟩ := Text.of_mem_splitAt hhalf hc
      exact (hs c hmem).resolve_left hcolon
    rw [hsplit] at hundivided
    obtain ⟨hname, hnameSub⟩ := readName_spec left
    obtain ⟨htypes, htypesSub⟩ := readTypes_spec right
    dsimp only at hread
    split at hread
    · cases hread
    · rename_i hnonempty
      cases hread
      simp only [Bool.or_eq_true, List.isEmpty_iff, List.any_eq_true, not_or, not_exists,
        not_and] at hnonempty
      refine ⟨⟨hnonempty.1, hname, fun c hc => ?_⟩, htypes, ?_, rfl⟩
      · exact hundivided left (by simp) c (hnameSub c hc)
      · intro t ht
        obtain ⟨htrim, hbar, hsub⟩ := htypesSub t ht
        exact ⟨⟨hnonempty.2 t ht, htrim, fun c hc => hundivided right (by simp) c (hsub c hc)⟩,
          hbar⟩
  · cases hread

/-- `texts body` hold no other divider than colons, if the body is without braces. -/
theorem of_mem_texts {body : Text} (hbody : Braceless body) {s : Text} (hs : s ∈ texts body) :
    ∀ c ∈ s, c = ':' ∨ c ∉ dividers := by
  intro c hc
  obtain ⟨hmem, -⟩ := List.mem_filter.mp hs
  obtain ⟨piece, hpiece, rfl⟩ := List.mem_map.mp hmem
  obtain ⟨hin, hsep⟩ := Text.of_mem_splitWhere hpiece (Text.mem_of_mem_trim hc)
  obtain ⟨hopen, hclose⟩ := hbody c hin
  simp only [isSeparator, Bool.or_eq_false_iff, beq_eq_false_iff_ne] at hsep
  simp only [dividers, List.mem_cons, List.not_mem_nil, or_false]
  by_cases hcolon : c = ':'
  · exact Or.inl hcolon
  · simp [hcolon, hsep, hopen, hclose]

end Field

/-! ## (3) Reading sources -/

/-- **`r.WellFormed` for the record of an admitted declaration.** -/
theorem Record.ofDeclaration_spec {path : Text} {d : Declaration} (hd : d.Admits) {r : Record}
    (hread : ofDeclaration path d = .ok r) : r.sourcePath = path ∧ r.WellFormed := by
  unfold ofDeclaration at hread
  split at hread
  · obtain ⟨fields, hfields, hpure⟩ := Fallible.bind_eq_ok_iff.mp hread
    cases hpure
    refine ⟨rfl, hd.name_ne_nil, hd.name_word, ?_, rfl⟩
    intro f hf
    obtain ⟨s, hs, hofText⟩ := Fallible.exists_of_mem_right (Fallible.mapM_eq_ok_iff.mp hfields) hf
    unfold Field.ofText at hofText
    split at hofText
    · rename_i f' hf'
      cases hofText
      exact Field.wellFormed_of_read? (Field.of_mem_texts hd.body_plain.first hs) hf'
    · cases hofText
  · cases hread

/-- **The records of `ofSource source`** bear its path and are well formed. -/
theorem SourceRecords.ofSource_spec {source : Source} {file : SourceRecords}
    (hread : ofSource source = .ok file) :
    file.sourcePath = source.path ∧
      ∀ r ∈ file.records, r.sourcePath = source.path ∧ r.WellFormed := by
  obtain ⟨records, hrecords, hpure⟩ := Fallible.bind_eq_ok_iff.mp hread
  cases hpure
  refine ⟨rfl, fun r hr => ?_⟩
  obtain ⟨d, hd, hofDecl⟩ := Fallible.exists_of_mem_right (Fallible.mapM_eq_ok_iff.mp hrecords) hr
  exact Record.ofDeclaration_spec (Declaration.admits_of_mem_all hd) hofDecl

/-- A text that neither begins nor ends with a blank. -/
def Text.Trimmed (s : Text) : Prop :=
  (∀ c ∈ s.head?, Text.isBlank c = false) ∧ ∀ c ∈ s.getLast?, Text.isBlank c = false

/-- What stands in a field is trimmed. -/
theorem Field.Atomic.text_trimmed {s : Text} (hs : Atomic s) : s.Trimmed :=
  Text.trim_eq_self_iff.mp hs.trimmed

/-- **Everything that `ofSource` reads is well formed.** The file and its records bear the path of
the source. The name of a record is a word. The name and the types of a field are not empty and not
surrounded by blanks, nothing in them divides, and a type is no union; there is at least one type. A
field depends on its types that are not primitive and a record on what its fields depend on, each at
the place where it first occurs. -/
theorem SourceRecords.ofSource_wellFormed {source : Source} {file : SourceRecords}
    (hread : ofSource source = .ok file) :
    file.sourcePath = source.path ∧ ∀ r ∈ file.records, r.sourcePath = source.path ∧
      (r.name ≠ [] ∧ ∀ c ∈ r.name, Text.isWord c = true) ∧
      (∀ f ∈ r.fields,
        (Field.Atomic f.name ∧ f.name.Trimmed) ∧ f.types ≠ [] ∧
        (∀ t ∈ f.types, Field.Atomic t ∧ t.Trimmed ∧ '|' ∉ t) ∧
        f.dependsOn = firsts id (f.types.filter fun t => !Primitive.isPrimitive t)) ∧
      r.dependsOn = firsts id (r.fields.flatMap Field.dependsOn) := by
  obtain ⟨hpath, hrecords⟩ := ofSource_spec hread
  refine ⟨hpath, fun r hr => ?_⟩
  obtain ⟨hsource, hwell⟩ := hrecords r hr
  refine ⟨hsource, ⟨hwell.name_ne_nil, hwell.name_word⟩, fun f hf => ?_, ?_⟩
  · have hfield := hwell.fields f hf
    refine ⟨⟨hfield.name, hfield.name.text_trimmed⟩, hfield.types_ne_nil, fun t ht => ?_, ?_⟩
    · obtain ⟨hatomic, hbar⟩ := hfield.types t ht
      exact ⟨hatomic, hatomic.text_trimmed, hbar⟩
    · rw [firsts_id_eq_eraseDups, hfield.dependsOn, Field.recordTypes]
  · rw [firsts_id_eq_eraseDups, hwell.dependsOn]

/-- A source with blanks of several kinds, both marks on one field, and a type that occurs again. -/
def spacedSource : Source :=
  ⟨"a.ts", "interface Größe\u3000\x7b\u00a0 wert ?:\tB | string|C|B [] ;\n c\u2003: C\x7d"⟩

/-- What `spacedSource` declares. -/
def spacedFields : List Field :=
  [⟨"wert", ["B", "string", "C", "B"], true, true, ["B", "C"]⟩, ⟨"c", ["C"], false, false, ["C"]⟩]

/-- The record of `spacedSource` is read, and all its parts are trimmed. -/
theorem SourceRecords.ofSource_spaced :
    ofSource spacedSource = .ok ⟨"a.ts", [.ofFields "Größe" "a.ts" spacedFields]⟩ ∧
      (∀ f ∈ spacedFields, f.name.Trimmed ∧ ∀ t ∈ f.types, t.Trimmed ∧ '|' ∉ t) ∧
      (Record.ofFields "Größe" "a.ts" spacedFields).dependsOn = ["B", "C"] := by
  have hread : ofSource spacedSource = .ok ⟨"a.ts", [.ofFields "Größe" "a.ts" spacedFields]⟩ := by
    decide +kernel
  obtain ⟨-, hrecords⟩ := ofSource_wellFormed hread
  obtain ⟨-, -, hfields, hdepends⟩ := hrecords _ (List.mem_singleton.mpr rfl)
  refine ⟨hread, fun f hf => ?_, hdepends.trans (by decide +kernel)⟩
  obtain ⟨⟨-, hname⟩, -, htypes, -⟩ := hfields f hf
  exact ⟨hname, fun t ht => (htypes t ht).2⟩

/-- **The records that `parse` gives** are well formed, and each bears the path of a source. -/
theorem Batch.parse_spec {sources : List Source} {files : List SourceRecords}
    (hparse : Batch.parse sources = .ok files) :
    ∀ r ∈ Batch.records files, r.WellFormed ∧ ∃ source ∈ sources, source.path = r.sourcePath := by
  intro r hr
  obtain ⟨file, hfile, hrecord⟩ := List.mem_flatMap.mp hr
  obtain ⟨source, hsource, hread⟩ :=
    Fallible.exists_of_mem_right (Fallible.mapM_eq_ok_iff.mp hparse) hfile
  obtain ⟨hpath, hwell⟩ := (SourceRecords.ofSource_spec hread).2 r hrecord
  exact ⟨hwell, source, hsource, hpath.symm⟩

/-- The records of a batch are well formed. -/
theorem Batch.parse_wellFormed {sources : List Source} {files : List SourceRecords}
    (hparse : Batch.parse sources = .ok files) : ∀ r ∈ Batch.records files, r.WellFormed :=
  fun r hr => (Batch.parse_spec hparse r hr).1

/-- The records of a batch bear paths of its sources. -/
theorem Batch.parse_sourcePath_mem {sources : List Source} {files : List SourceRecords}
    (hparse : Batch.parse sources = .ok files) :
    ∀ r ∈ Batch.records files, r.sourcePath ∈ sources.map Source.path :=
  fun r hr => List.mem_map.mpr (Batch.parse_spec hparse r hr).2

end InterfaceSchemes
