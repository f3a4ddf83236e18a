import InterfaceSchemes.Scheme.Registry
import InterfaceSchemes.Proofs.DependencyOrder
import InterfaceSchemes.Proofs.WellFormed

/-! # Emission in dependency order

While records are emitted the registry grows, and a record sees only the schemes of the records
before it. In dependency order this makes no difference: every record is emitted as if all records
had been registered from the start.

* **`Registry.ofRecords`** — the registry after a list of records, read off the list.
* **`Registry.emitField_eq_ok_iff`**, **`Registry.emitDecl_eq_ok_iff`** — what is emitted, without
  the chain of steps that emits it.
* **`Registry.emitDecl_congr`** — a record is emitted alike under registries that agree on its
  types.
* **`Registry.emitAll_ordered`** — in dependency order emission succeeds, and gives each record the
  scheme that the registry of all records gives it. -/

namespace InterfaceSchemes.Registry

open DependencyOrder

variable {settings : Settings}

/-! ## (1) The registry of a list of records -/

/-- What a table finds is one of its entries. -/
theorem mem_of_lookup_eq_some {table : List (Text × Scheme)} {name : Text} {scheme : Scheme}
    (hlookup : table.lookup name = some scheme) : (name, scheme) ∈ table := by
  obtain ⟨front, back, hsplit, -⟩ := List.lookup_eq_some_iff.mp hlookup
  simp [hsplit]

/-- `isPrimitive name = false ↔ scheme? name = none`. -/
theorem isPrimitive_eq_false_iff {name : Text} :
    Primitive.isPrimitive name = false ↔ Primitive.scheme? name = none := by
  rw [Primitive.isPrimitive, Option.isSome_eq_false_iff, Option.isNone_iff_eq_none]

/-- The registry after these records have been emitted one after the other. -/
def ofRecords (settings : Settings) (records : List Record) : Registry :=
  (records.map fun r => (r.name, recordScheme settings r)).reverse

/-- `ofRecords (records ++ [r])` has the entry of `r` in front. -/
theorem ofRecords_concat (records : List Record) (r : Record) :
    ofRecords settings (records ++ [r])
      = (r.name, recordScheme settings r) :: ofRecords settings records := by
  simp [ofRecords]

/-- The entries of `ofRecords settings records` are `(r.name, recordScheme settings r)`. -/
theorem mem_ofRecords {records : List Record} {entry : Text × Scheme} :
    entry ∈ ofRecords settings records ↔
      ∃ r ∈ records, (r.name, recordScheme settings r) = entry := by
  rw [ofRecords, List.mem_reverse, List.mem_map]

/-- What the registry finds is the scheme of a record with the given name. -/
theorem exists_of_lookup_ofRecords {records : List Record} {name : Text} {scheme : Scheme}
    (hlookup : (ofRecords settings records).lookup name = some scheme) :
    ∃ r ∈ records, r.name = name ∧ recordScheme settings r = scheme := by
  obtain ⟨r, hr, hentry⟩ := mem_ofRecords.mp (mem_of_lookup_eq_some hlookup)
  obtain ⟨hname, hscheme⟩ := Prod.mk.inj hentry
  exact ⟨r, hr, hname, hscheme⟩

/-- `ofRecords` finds `recordScheme settings r` under `r.name`, if names are distinct. -/
theorem lookup_ofRecords {records : List Record} (hdistinct : (records.map Record.name).Nodup)
    {r : Record} (hr : r ∈ records) :
    (ofRecords settings records).lookup r.name = some (recordScheme settings r) := by
  cases hlookup : (ofRecords settings records).lookup r.name with
  | none =>
    have habsent := List.lookup_eq_none_iff.mp hlookup _ (mem_ofRecords.mpr ⟨r, hr, rfl⟩)
    simp at habsent
  | some scheme =>
    obtain ⟨s, hs, hname, rfl⟩ := exists_of_lookup_ofRecords hlookup
    rw [eq_of_name_eq hdistinct hs hr hname]

/-- `ofRecords` finds nothing under a name that no record has. -/
theorem lookup_ofRecords_eq_none {records : List Record} {name : Text}
    (habsent : ∀ r ∈ records, r.name ≠ name) : (ofRecords settings records).lookup name = none := by
  rw [List.lookup_eq_none_iff]
  intro entry hentry
  obtain ⟨r, hr, rfl⟩ := mem_ofRecords.mp hentry
  simpa using (habsent r hr).symm

/-- `registry.scheme` of a primitive type is that of the table, whatever is registered. -/
theorem scheme_of_primitive {name : Text} {scheme : Scheme}
    (hprimitive : Primitive.scheme? name = some scheme) (registry : Registry) :
    registry.scheme name = .ok scheme := by
  rw [Registry.scheme, hprimitive, Option.some_or]

/-- `registry.scheme` of a type that is not primitive is what is registered for it. -/
theorem scheme_of_lookup {registry : Registry} {name : Text} {scheme : Scheme}
    (hname : Primitive.isPrimitive name = false) (hlookup : registry.lookup name = some scheme) :
    registry.scheme name = .ok scheme := by
  rw [Registry.scheme, isPrimitive_eq_false_iff.mp hname, hlookup, Option.none_or]

/-- `.unknownType name`: a type that is neither primitive nor registered. -/
theorem scheme_of_lookup_eq_none {registry : Registry} {name : Text}
    (hname : Primitive.isPrimitive name = false) (hlookup : registry.lookup name = none) :
    registry.scheme name = .error (.unknownType name) := by
  rw [Registry.scheme, isPrimitive_eq_false_iff.mp hname, hlookup, Option.none_or]

/-- `(ofRecords settings records).scheme r.name = .ok (recordScheme settings r)`, if names are
distinct. -/
theorem scheme_ofRecords {records : List Record} (hdistinct : (records.map Record.name).Nodup)
    {r : Record} (hr : r ∈ records) (hname : Primitive.isPrimitive r.name = false) :
    (ofRecords settings records).scheme r.name = .ok (recordScheme settings r) :=
  scheme_of_lookup hname (lookup_ofRecords hdistinct hr)

/-- **What is found in the registry of some records** is the scheme of a primitive type or of one of
the records. -/
theorem scheme_cases {records : List Record} {t : Text} {scheme : Scheme}
    (hscheme : (ofRecords settings records).scheme t = .ok scheme) :
    Primitive.scheme? t = some scheme ∨
      ∃ r ∈ records, r.name = t ∧ recordScheme settings r = scheme := by
  rw [Registry.scheme] at hscheme
  cases hprimitive : Primitive.scheme? t with
  | some known =>
    rw [hprimitive, Option.some_or] at hscheme
    cases hscheme
    exact Or.inl rfl
  | none =>
    rw [hprimitive, Option.none_or] at hscheme
    cases hlookup : (ofRecords settings records).lookup t with
    | none =>
      rw [hlookup] at hscheme
      cases hscheme
    | some known =>
      rw [hlookup] at hscheme
      cases hscheme
      exact Or.inr (exists_of_lookup_ofRecords hlookup)

/-- **The order of registration does not matter** to `scheme`, when names are distinct. -/
theorem scheme_ofRecords_perm {records others : List Record}
    (hdistinct : (records.map Record.name).Nodup) (hperm : records.Perm others) (name : Text) :
    (ofRecords settings records).scheme name = (ofRecords settings others).scheme name := by
  have hdistinct' : (others.map Record.name).Nodup :=
    (hperm.map Record.name).nodup_iff.mp hdistinct
  cases hprimitive : Primitive.scheme? name with
  | some scheme => rw [scheme_of_primitive hprimitive, scheme_of_primitive hprimitive]
  | none =>
    have hname : Primitive.isPrimitive name = false := isPrimitive_eq_false_iff.mpr hprimitive
    by_cases hdeclared : ∃ r ∈ records, r.name = name
    · obtain ⟨r, hr, rfl⟩ := hdeclared
      rw [scheme_ofRecords hdistinct hr hname,
        scheme_ofRecords hdistinct' (hperm.mem_iff.mp hr) hname]
    · have habsent : ∀ r ∈ records, r.name ≠ name := fun r hr heq => hdeclared ⟨r, hr, heq⟩
      have habsent' : ∀ r ∈ others, r.name ≠ name :=
        fun r hr => habsent r (hperm.mem_iff.mpr hr)
      rw [scheme_of_lookup_eq_none hname (lookup_ofRecords_eq_none habsent),
        scheme_of_lookup_eq_none hname (lookup_ofRecords_eq_none habsent')]

/-! ## (2) Emitting one record -/

/-- **`emitField`:** the union of the schemes of the types of the field. -/
theorem emitField_eq_ok_iff {registry : Registry} {path : Text} {f : Field} {sf : SchemeField} :
    registry.emitField path f = .ok sf ↔
      ∃ first others,
        List.Forall₂ (fun t scheme => registry.scheme t = .ok scheme) f.types (first :: others) ∧
          sf = ⟨f.name, fieldExpr f (unionExpr first others),
            (first :: others).flatMap Scheme.imports⟩ := by
  rw [emitField, Fallible.bind_eq_ok_iff]
  constructor
  · rintro ⟨schemes, hschemes, hresult⟩
    cases schemes with
    | nil => cases hresult
    | cons first others =>
      cases hresult
      exact ⟨first, others, Fallible.mapM_eq_ok_iff.mp hschemes, rfl⟩
  · rintro ⟨first, others, hschemes, rfl⟩
    exact ⟨first :: others, Fallible.mapM_eq_ok_iff.mpr hschemes, rfl⟩

/-- **`emitDecl`:** the fields of the record, and their text and imports together. -/
theorem emitDecl_eq_ok_iff {registry : Registry} {r : Record} {d : SchemeDecl} :
    emitDecl settings registry r = .ok d ↔
      ∃ fields,
        List.Forall₂ (fun f sf => registry.emitField r.sourcePath f = .ok sf) r.fields fields ∧
          d = ⟨r.sourcePath, r.name ++ settings.schemeSuffix, fields,
            declText (r.name ++ settings.schemeSuffix) fields,
            fields.flatMap SchemeField.imports⟩ := by
  rw [emitDecl, Fallible.bind_eq_ok_iff]
  constructor
  · rintro ⟨fields, hfields, hresult⟩
    cases hresult
    exact ⟨fields, Fallible.mapM_eq_ok_iff.mp hfields, rfl⟩
  · rintro ⟨fields, hfields, rfl⟩
    exact ⟨fields, Fallible.mapM_eq_ok_iff.mpr hfields, rfl⟩

/-- `d.sourcePath = r.sourcePath` and `d.name = r.name ++ settings.schemeSuffix`. -/
theorem emitDecl_spec {registry : Registry} {r : Record} {d : SchemeDecl}
    (hemit : emitDecl settings registry r = .ok d) :
    d.sourcePath = r.sourcePath ∧ d.name = r.name ++ settings.schemeSuffix := by
  obtain ⟨fields, -, rfl⟩ := emitDecl_eq_ok_iff.mp hemit
  exact ⟨rfl, rfl⟩

/-- **`emitAll` takes records one by one**: the first of them, and then the others with its scheme
registered. -/
theorem emitAll_cons_eq_ok_iff {registry : Registry} {r : Record} {records : List Record}
    {decls : List SchemeDecl} :
    (emitAll settings registry (r :: records)).1 = .ok decls ↔
      ∃ d rest, emitDecl settings registry r = .ok d ∧
        (emitAll settings ((r.name, recordScheme settings r) :: registry) records).1 = .ok rest ∧
        d :: rest = decls := by
  rw [emitAll, emit]
  cases hdecl : emitDecl settings registry r with
  | error e => simp
  | ok d => simp [Fallible.map_eq_ok_iff]

/-- `emitAll` gives the schemes the sources of their records. -/
theorem map_sourcePath_emitAll {registry : Registry} {records : List Record} {decls : List SchemeDecl}
    (hemit : (emitAll settings registry records).1 = .ok decls) :
    decls.map SchemeDecl.sourcePath = records.map Record.sourcePath := by
  induction records generalizing registry decls with
  | nil =>
    cases hemit
    rfl
  | cons r records ih =>
    obtain ⟨d, rest, hdecl, hrest, rfl⟩ := emitAll_cons_eq_ok_iff.mp hemit
    rw [List.map_cons, List.map_cons, (emitDecl_spec hdecl).1, ih hrest]

/-- A field with types is emitted if each of them has a scheme. -/
theorem exists_emitField_eq_ok {registry : Registry} {path : Text} {f : Field} (hf : f.types ≠ [])
    (hschemes : ∀ t ∈ f.types, ∃ scheme, registry.scheme t = .ok scheme) :
    ∃ sf, registry.emitField path f = .ok sf := by
  obtain ⟨schemes, hmapM⟩ := Fallible.exists_mapM_eq_ok hschemes
  have hall := Fallible.mapM_eq_ok_iff.mp hmapM
  cases schemes with
  | nil => exact absurd (List.forall₂_nil_right_iff.mp hall) hf
  | cons first others => exact ⟨_, emitField_eq_ok_iff.mpr ⟨first, others, hall, rfl⟩⟩

/-- A record is emitted if each of its fields has types and each of these has a scheme. -/
theorem exists_emitDecl_eq_ok {registry : Registry} {r : Record}
    (hfields : ∀ f ∈ r.fields, f.types ≠ [])
    (hschemes : ∀ f ∈ r.fields, ∀ t ∈ f.types, ∃ scheme, registry.scheme t = .ok scheme) :
    ∃ d, emitDecl settings registry r = .ok d := by
  obtain ⟨fields, hmapM⟩ := Fallible.exists_mapM_eq_ok (f := registry.emitField r.sourcePath)
    fun f hf => exists_emitField_eq_ok (hfields f hf) (hschemes f hf)
  exact ⟨_, emitDecl_eq_ok_iff.mpr ⟨fields, Fallible.mapM_eq_ok_iff.mp hmapM, rfl⟩⟩

/-- `emitField` is the same under registries that agree on the types of the field. -/
theorem emitField_congr {registry other : Registry} {path : Text} {f : Field}
    (hagree : ∀ t ∈ f.types, registry.scheme t = other.scheme t) :
    registry.emitField path f = other.emitField path f := by
  rw [emitField, emitField, Fallible.mapM_congr hagree]

/-- **`emitDecl` is the same under registries that agree on the types of the record.** -/
theorem emitDecl_congr {registry other : Registry} {r : Record}
    (hagree : ∀ f ∈ r.fields, ∀ t ∈ f.types, registry.scheme t = other.scheme t) :
    emitDecl settings registry r = emitDecl settings other r := by
  rw [emitDecl, emitDecl, Fallible.mapM_congr fun f hf => emitField_congr (hagree f hf)]

/-- **`d.imports`** are those of the schemes of the types of the record. -/
theorem mem_imports_of_emitDecl {registry : Registry} {r : Record} {d : SchemeDecl}
    (hemit : emitDecl settings registry r = .ok d) {i : Import} :
    i ∈ d.imports ↔
      ∃ f ∈ r.fields, ∃ t ∈ f.types, ∃ scheme, registry.scheme t = .ok scheme ∧
        i ∈ scheme.imports := by
  obtain ⟨fields, hfields, rfl⟩ := emitDecl_eq_ok_iff.mp hemit
  rw [List.mem_flatMap]
  constructor
  · rintro ⟨sf, hsf, hi⟩
    obtain ⟨f, hf, hfield⟩ := Fallible.exists_of_mem_right hfields hsf
    obtain ⟨first, others, hschemes, rfl⟩ := emitField_eq_ok_iff.mp hfield
    obtain ⟨scheme, hscheme, hi⟩ := List.mem_flatMap.mp hi
    obtain ⟨t, ht, hlookup⟩ := Fallible.exists_of_mem_right hschemes hscheme
    exact ⟨f, hf, t, ht, scheme, hlookup, hi⟩
  · rintro ⟨f, hf, t, ht, scheme, hlookup, hi⟩
    obtain ⟨sf, hsf, hfield⟩ := Fallible.exists_of_mem_left hfields hf
    refine ⟨sf, hsf, ?_⟩
    obtain ⟨first, others, hschemes, rfl⟩ := emitField_eq_ok_iff.mp hfield
    obtain ⟨scheme', hscheme', hlookup'⟩ := Fallible.exists_of_mem_left hschemes ht
    rw [hlookup] at hlookup'
    cases hlookup'
    exact List.mem_flatMap.mpr ⟨scheme, hscheme', hi⟩

/-! ## (3) Emitting in dependency order -/

/-- `Known records t`: a record may use the type `t` after `records` have been emitted. -/
def Known (records : List Record) (t : Text) : Prop :=
  Primitive.isPrimitive t = true ∨ ∃ r ∈ records, r.name = t

/-- A `Known` type has a scheme, and keeps it while more records are registered. -/
theorem scheme_of_known {done records : List Record} (hdone : done.Sublist records)
    (hdistinct : (records.map Record.name).Nodup) {t : Text} (ht : Known done t) :
    ∃ scheme, (ofRecords settings done).scheme t = .ok scheme ∧
      (ofRecords settings records).scheme t = .ok scheme := by
  cases hprimitive : Primitive.scheme? t with
  | some scheme =>
    exact ⟨scheme, scheme_of_primitive hprimitive _, scheme_of_primitive hprimitive _⟩
  | none =>
    have hname : Primitive.isPrimitive t = false := isPrimitive_eq_false_iff.mpr hprimitive
    rcases ht with ht | ⟨r, hr, rfl⟩
    · rw [hname] at ht
      cases ht
    · exact ⟨recordScheme settings r,
        scheme_ofRecords (hdistinct.sublist (hdone.map Record.name)) hr hname,
        scheme_ofRecords hdistinct (hdone.subset hr) hname⟩

/-- `Known done t`: in dependency order, a record uses primitive types and the records before it. -/
theorem known_of_dependenciesFirst {done after : List Record} {r : Record}
    (hordered : DependenciesFirst (done ++ r :: after)) (hr : r.WellFormed) {f : Field}
    (hf : f ∈ r.fields) {t : Text} (ht : t ∈ f.types) : Known done t := by
  cases hname : Primitive.isPrimitive t with
  | true => exact Or.inl hname
  | false =>
    exact Or.inr (hordered done r after rfl t (hr.mem_dependsOn.mpr ⟨f, hf, ht, hname⟩))

/-- **The step:** `emitDecl` gives the next record in dependency order what it would if all were
registered. -/
theorem emitDecl_ordered (settings : Settings) {done after : List Record} {r : Record}
    (hdistinct : ((done ++ r :: after).map Record.name).Nodup)
    (hordered : DependenciesFirst (done ++ r :: after)) (hr : r.WellFormed) :
    ∃ d, emitDecl settings (ofRecords settings done) r = .ok d ∧
      emitDecl settings (ofRecords settings (done ++ r :: after)) r = .ok d := by
  have hknown : ∀ f ∈ r.fields, ∀ t ∈ f.types, ∃ scheme,
      (ofRecords settings done).scheme t = .ok scheme ∧
        (ofRecords settings (done ++ r :: after)).scheme t = .ok scheme := fun f hf t ht =>
    scheme_of_known (List.sublist_append_left done _) hdistinct
      (known_of_dependenciesFirst hordered hr hf ht)
  obtain ⟨d, hd⟩ : ∃ d, emitDecl settings (ofRecords settings done) r = .ok d :=
    exists_emitDecl_eq_ok (fun f hf => (hr.fields f hf).types_ne_nil)
      (fun f hf t ht => (hknown f hf t ht).imp fun _ h => h.1)
  refine ⟨d, hd, ?_⟩
  rw [← hd]
  refine emitDecl_congr fun f hf t ht => ?_
  obtain ⟨scheme, hdone, hall⟩ := hknown f hf t ht
  rw [hdone, hall]

/-- **The run.** From the registry of the records before them, the other records in dependency order
are all emitted, each as if all were registered. The induction is on the records to come. -/
theorem emitAll_ordered_from (settings : Settings) {records : List Record}
    (hdistinct : (records.map Record.name).Nodup) (hordered : DependenciesFirst records)
    (hwell : ∀ r ∈ records, r.WellFormed) (done rest : List Record)
    (hsplit : records = done ++ rest) :
    ∃ decls, emitAll settings (ofRecords settings done) rest
        = (.ok decls, ofRecords settings records) ∧
      List.Forall₂ (fun r d => emitDecl settings (ofRecords settings records) r = .ok d)
        rest decls := by
  induction rest generalizing done with
  | nil => exact ⟨[], by simp [emitAll, hsplit], .nil⟩
  | cons r rest ih =>
    subst hsplit
    obtain ⟨d, hd, hall⟩ := emitDecl_ordered settings hdistinct hordered (hwell r (by simp))
    obtain ⟨decls, hrun, hdecls⟩ := ih (done ++ [r]) (by simp)
    refine ⟨d :: decls, ?_, .cons hall hdecls⟩
    rw [ofRecords_concat] at hrun
    rw [emitAll, emit, hd]
    dsimp only
    rw [hrun]
    rfl

/-- **In dependency order emission succeeds**, and each record is emitted under the registry of all
of them. -/
theorem emitAll_ordered (settings : Settings) {records : List Record}
    (hdistinct : (records.map Record.name).Nodup) (hordered : DependenciesFirst records)
    (hwell : ∀ r ∈ records, r.WellFormed) :
    ∃ decls, (emitAll settings [] records).1 = .ok decls ∧
      List.Forall₂ (fun r d => emitDecl settings (ofRecords settings records) r = .ok d)
        records decls := by
  obtain ⟨decls, hrun, hdecls⟩ :=
    emitAll_ordered_from settings hdistinct hordered hwell [] records rfl
  exact ⟨decls, congrArg Prod.fst hrun, hdecls⟩

end InterfaceSchemes.Registry
