import InterfaceSchemes.Proofs.Emission
import Mathlib.Data.List.Induction

/-! # A registry through its history

A registry may be used in any way: records are emitted alone or several at once, some of them fail,
a name is emitted again from another source or is the name of a primitive type, and types are looked
up in between. Whatever the calls were, the registry answers from the history of the emissions that
succeeded.

* **`Registry.Call`**, **`Registry.Session.run`** — a run of calls on one registry, with a log of
  the emissions that were tried.
* **`Registry.Session.emitted`** — the history: the records whose emission succeeded, in order.
* **`Registry.Reflects`** — the answers of a registry as a function of a history.
* **`Registry.Session.call_emitAll`** — emitting several records is emitting them one by one.
* **`Registry.Session.run_faithful`** — after every run the registry reflects the history, a failure
  leaves no trace, and each success was built from the answers that the registry gave before it. -/

namespace InterfaceSchemes.Registry

variable {settings : Settings}

/-! ## (1) Runs of calls -/

/-- A use of a registry. -/
inductive Call where
  /-- One record is to be emitted. -/
  | emit (record : Record)
  /-- Records are to be emitted in order, up to the first that fails. -/
  | emitAll (records : List Record)
  /-- A type is looked up. -/
  | scheme (name : Text)

/-- An emission that was tried. -/
structure Attempt where
  /-- The registry at that time. -/
  met : Registry
  /-- The record that was to be emitted. -/
  record : Record
  /-- What came of it. -/
  outcome : Except Error SchemeDecl

/-- The emissions that are tried when records are emitted in order: each meets the registry that the
one before it has left, and none follows one that fails. -/
def attempts (settings : Settings) (registry : Registry) : List Record → List Attempt
  | [] => []
  | r :: records =>
    match emit settings registry r with
    | (.ok d, next) => ⟨registry, r, .ok d⟩ :: attempts settings next records
    | (.error e, _) => [⟨registry, r, .error e⟩]

/-- A registry in use. -/
structure Session where
  /-- The registry as it is now. -/
  registry : Registry
  /-- All emissions that were tried, in order. -/
  log : List Attempt

namespace Session

/-- What a call does. The registry is the one that the call leaves; the log is kept beside it. -/
def call (settings : Settings) (s : Session) : Call → Session
  | .emit r =>
    ⟨(emit settings s.registry r).2,
      s.log ++ [⟨s.registry, r, (emit settings s.registry r).1⟩]⟩
  | .emitAll records =>
    ⟨(emitAll settings s.registry records).2, s.log ++ attempts settings s.registry records⟩
  | .scheme _ => s

/-- A run of calls on a new registry. -/
def run (settings : Settings) (calls : List Call) : Session :=
  calls.foldl (call settings) ⟨[], []⟩

/-- **The history**: the records of a log whose emission succeeded. -/
def emitted (log : List Attempt) : List Record :=
  log.filterMap fun a =>
    match a.outcome with
    | .ok _ => some a.record
    | .error _ => none

/-- `emitted (log ++ more) = emitted log ++ emitted more`. -/
theorem emitted_append (log more : List Attempt) :
    emitted (log ++ more) = emitted log ++ emitted more :=
  List.filterMap_append

/-- `emitted (attempts ..) = records` for records that are all emitted. -/
theorem emitted_attempts {registry : Registry} {records : List Record} {decls : List SchemeDecl}
    (hok : (emitAll settings registry records).1 = .ok decls) :
    emitted (attempts settings registry records) = records := by
  induction records generalizing registry decls with
  | nil => rfl
  | cons r records ih =>
    obtain ⟨d, rest, hdecl, hrest, -⟩ := emitAll_cons_eq_ok_iff.mp hok
    rw [attempts, emit, hdecl]
    exact congrArg (r :: ·) (ih hrest)

/-- **`.emitAll records` is `.emit` for each record**, as many as are tried. -/
theorem call_emitAll (s : Session) (records : List Record) :
    s.call settings (.emitAll records)
      = (attempts settings s.registry records).foldl (fun s a => s.call settings (.emit a.record)) s
        := by
  induction records generalizing s with
  | nil => simp [call, emitAll, attempts]
  | cons r records ih =>
    rcases hemit : emit settings s.registry r with ⟨outcome, next⟩
    cases outcome with
    | error e => simp [call, emitAll, attempts, hemit]
    | ok d =>
      -- the other records meet the registry that the first one leaves
      have hfirst : s.call settings (.emit r) = ⟨next, s.log ++ [⟨s.registry, r, .ok d⟩]⟩ := by
        rw [call, hemit]
      have hrest := ih ⟨next, s.log ++ [⟨s.registry, r, .ok d⟩]⟩
      simp only [attempts, hemit, List.foldl_cons, hfirst, ← hrest]
      simp [call, emitAll, attempts, hemit]

end Session

/-! ## (2) Answers from a history -/

/-- **The registry answers from the history.** -/
structure Reflects (settings : Settings) (history : List Record) (registry : Registry) : Prop where
  /-- A primitive type has its scheme from the table, also if a record has its name. -/
  primitive : ∀ name scheme, Primitive.scheme? name = some scheme →
    registry.scheme name = .ok scheme
  /-- The name of a record stands for the most recent record of that name: the expression is the
  name with the suffix, imported from the place of the schemes of the source of that record. -/
  latest : ∀ before r after, history = before ++ r :: after →
    (∀ later ∈ after, later.name ≠ r.name) → Primitive.isPrimitive r.name = false →
      registry.scheme r.name = .ok ⟨r.name ++ settings.schemeSuffix,
        [⟨[r.name ++ settings.schemeSuffix], settings.schemeBase r.sourcePath, true⟩]⟩
  /-- Any other name is unknown. -/
  unknown : ∀ name, Primitive.isPrimitive name = false → (∀ r ∈ history, r.name ≠ name) →
    registry.scheme name = .error (.unknownType name)

/-- `ofRecords` has the most recent record of a name. -/
theorem lookup_ofRecords_latest {before after : List Record} {r : Record}
    (hafter : ∀ later ∈ after, later.name ≠ r.name) :
    (ofRecords settings (before ++ r :: after)).lookup r.name = some (recordScheme settings r) := by
  have hsplit : ofRecords settings (before ++ r :: after) = ofRecords settings after ++
      (r.name, recordScheme settings r) :: ofRecords settings before := by
    simp [ofRecords]
  rw [hsplit, List.lookup_append, lookup_ofRecords_eq_none hafter, Option.none_or,
    List.lookup_cons_self]

/-- **`Reflects settings history (ofRecords settings history)`**: the registry of some records
answers from them. -/
theorem reflects_ofRecords (settings : Settings) (history : List Record) :
    Reflects settings history (ofRecords settings history) where
  primitive name scheme hprimitive := scheme_of_primitive hprimitive _
  latest before r after hsplit hafter hname := by
    subst hsplit
    exact scheme_of_lookup hname (lookup_ofRecords_latest hafter)
  unknown name hname habsent :=
    scheme_of_lookup_eq_none hname (lookup_ofRecords_eq_none habsent)

/-- **What a successful emission is built from**: each field has the union of what the registry
answers for its types. -/
def BuiltFrom (registry : Registry) (r : Record) (d : SchemeDecl) : Prop :=
  List.Forall₂ (fun f field => ∃ first others,
    List.Forall₂ (fun t scheme => registry.scheme t = .ok scheme) f.types (first :: others) ∧
      field = ⟨f.name, fieldExpr f (unionExpr first others),
        (first :: others).flatMap Scheme.imports⟩) r.fields d.fields

/-- `BuiltFrom registry r d` for every record that is emitted. -/
theorem builtFrom_of_emitDecl {registry : Registry} {r : Record} {d : SchemeDecl}
    (hemit : emitDecl settings registry r = .ok d) : BuiltFrom registry r d := by
  obtain ⟨fields, hfields, rfl⟩ := emitDecl_eq_ok_iff.mp hemit
  exact hfields.imp fun f field hfield => emitField_eq_ok_iff.mp hfield

/-- Each type of what was built has a scheme. -/
theorem BuiltFrom.exists_scheme {registry : Registry} {r : Record} {d : SchemeDecl}
    (hbuilt : BuiltFrom registry r d) {f : Field} (hf : f ∈ r.fields) {t : Text}
    (ht : t ∈ f.types) : ∃ scheme, registry.scheme t = .ok scheme := by
  obtain ⟨field, -, first, others, hschemes, -⟩ := Fallible.exists_of_mem_left hbuilt hf
  obtain ⟨scheme, -, hscheme⟩ := Fallible.exists_of_mem_left hschemes ht
  exact ⟨scheme, hscheme⟩

/-! ## (3) One call -/

/-- What `emit` gives and leaves: a scheme and one more entry, or an error and the registry as it
was. -/
theorem emit_cases (settings : Settings) (registry : Registry) (r : Record) :
    (∃ d, emitDecl settings registry r = .ok d ∧
        emit settings registry r = (.ok d, (r.name, recordScheme settings r) :: registry)) ∨
      ∃ e, emit settings registry r = (.error e, registry) := by
  cases hdecl : emitDecl settings registry r with
  | ok d => exact Or.inl ⟨d, rfl, by rw [emit, hdecl]⟩
  | error e => exact Or.inr ⟨e, by rw [emit, hdecl]⟩

/-- What comes of a record that is emitted is its scheme. -/
theorem emitDecl_of_emit {registry : Registry} {r : Record} {d : SchemeDecl}
    (hok : (emit settings registry r).1 = .ok d) : emitDecl settings registry r = .ok d := by
  rcases emit_cases settings registry r with ⟨d', hdecl, hemit⟩ | ⟨e, hemit⟩
  · rw [hemit] at hok
    cases hok
    exact hdecl
  · rw [hemit] at hok
    cases hok

/-- `ofRecords settings (history ++ [r])`: a record that is emitted is one more entry of its
history. -/
theorem emit_ofRecords_of_ok {history : List Record} {r : Record} {d : SchemeDecl}
    (hok : (emit settings (ofRecords settings history) r).1 = .ok d) :
    (emit settings (ofRecords settings history) r).2 = ofRecords settings (history ++ [r]) := by
  rcases emit_cases settings (ofRecords settings history) r with ⟨d', -, hemit⟩ | ⟨e, hemit⟩
  · rw [hemit, ofRecords_concat]
  · rw [hemit] at hok
    cases hok

/-- `emit` leaves the registry as it was where it fails. -/
theorem emit_of_error {registry : Registry} {r : Record} {e : Error}
    (herror : (emit settings registry r).1 = .error e) :
    (emit settings registry r).2 = registry := by
  rcases emit_cases settings registry r with ⟨d, -, hemit⟩ | ⟨e', hemit⟩
  · rw [hemit] at herror
    cases herror
  · rw [hemit]

/-- **`emitAll` fails at one of the records**, and those after it are not tried: the registry is the
one that the records before it leave, and these enter the history. -/
theorem exists_split_of_emitAll_error {history records : List Record} {e : Error}
    (herror : (emitAll settings (ofRecords settings history) records).1 = .error e) :
    ∃ front r back decls, records = front ++ r :: back ∧
      emitAll settings (ofRecords settings history) front
        = (.ok decls, ofRecords settings (history ++ front)) ∧
      emitAll settings (ofRecords settings history) records
        = (.error e, ofRecords settings (history ++ front)) ∧
      (emit settings (ofRecords settings (history ++ front)) r).1 = .error e ∧
      Session.emitted (attempts settings (ofRecords settings history) records) = front := by
  induction records generalizing history with
  | nil => cases herror
  | cons r records ih =>
    rcases emit_cases settings (ofRecords settings history) r with ⟨d, -, hemit⟩ | ⟨e', hemit⟩
    · rw [← ofRecords_concat] at hemit
      have hrest :
          (emitAll settings (ofRecords settings (history ++ [r])) records).1 = .error e := by
        rw [emitAll, hemit] at herror
        cases htail : (emitAll settings (ofRecords settings (history ++ [r])) records).1 with
        | ok decls => simp [htail, Except.map] at herror
        | error e' => simpa [htail, Except.map] using herror
      obtain ⟨front, r', back, decls, rfl, hfront, hall, hfails, hhistory⟩ := ih hrest
      rw [List.append_assoc, List.singleton_append] at hfront hall hfails
      refine ⟨r :: front, r', back, d :: decls, rfl, ?_, ?_, hfails, ?_⟩
      · rw [emitAll, hemit]
        simp [hfront, Except.map]
      · rw [emitAll, hemit]
        simp [hall, Except.map]
      · rw [attempts, hemit]
        exact congrArg (r :: ·) hhistory
    · rw [emitAll, hemit] at herror
      cases herror
      refine ⟨[], r, records, [], rfl, ?_, ?_, ?_, ?_⟩
      · rw [emitAll, List.append_nil]
      · rw [emitAll, hemit, List.append_nil]
      · rw [List.append_nil, hemit]
      · rw [attempts, hemit]
        rfl

/-! ## (4) Whole runs -/

namespace Session

/-- **The invariant of a run**: the registry is that of the history, and each emission in the log
met the registry of the history before it. -/
structure Traced (settings : Settings) (s : Session) : Prop where
  /-- The registry as it is now. -/
  registry : s.registry = ofRecords settings (emitted s.log)
  /-- The registries that were met, and what came of it. -/
  met : ∀ before a after, s.log = before ++ a :: after →
    a.met = ofRecords settings (emitted before) ∧ (emit settings a.met a.record).1 = a.outcome

/-- **The step**: `.emit r` keeps a session `Traced`. -/
theorem Traced.emit {s : Session} (hs : s.Traced settings) (r : Record) :
    (s.call settings (.emit r)).Traced settings := by
  have hregistry := hs.registry
  constructor
  · -- the history and the registry grow together, or both stay
    rw [call, emitted_append, hregistry]
    cases hout : (Registry.emit settings (ofRecords settings (emitted s.log)) r).1 with
    | ok d =>
      rw [emit_ofRecords_of_ok hout]
      rfl
    | error e =>
      rw [emit_of_error hout]
      exact congrArg (ofRecords settings) (List.append_nil _).symm
  · intro before a after hsplit
    rcases List.eq_nil_or_concat after with rfl | ⟨after, last, rfl⟩
    · -- the new emission
      obtain ⟨hbefore, hlast⟩ := List.append_inj' hsplit rfl
      cases hlast
      rw [← hbefore]
      exact ⟨hregistry, rfl⟩
    · -- an emission that was there before
      rw [call, List.concat_eq_append, ← List.cons_append, ← List.append_assoc] at hsplit
      exact hs.met before a after (List.append_inj' hsplit rfl).1

/-- One more record after the other is emitted. -/
theorem Traced.emits (more : List Attempt) {s : Session} (hs : s.Traced settings) :
    (more.foldl (fun s a => s.call settings (.emit a.record)) s).Traced settings := by
  induction more generalizing s with
  | nil => exact hs
  | cons a more ih => exact ih (hs.emit a.record)

/-- **The run**: the session is `Traced` after every run of calls. -/
theorem traced_run (settings : Settings) (calls : List Call) :
    (run settings calls).Traced settings := by
  induction calls using List.reverseRecOn with
  | nil => exact ⟨rfl, by simp [run]⟩
  | append_singleton calls c ih =>
    rw [run, List.foldl_append, List.foldl_cons, List.foldl_nil, ← run]
    cases c with
    | emit r => exact ih.emit r
    | emitAll records =>
      rw [call_emitAll]
      exact ih.emits _
    | scheme name => exact ih

/-- **A session that is true to its history.** -/
structure Faithful (settings : Settings) (s : Session) : Prop where
  /-- The registry answers from the history. -/
  reflects : Reflects settings (emitted s.log) s.registry
  /-- A record that is emitted enters the history. -/
  emit_ok : ∀ r d, (Registry.emit settings s.registry r).1 = .ok d →
    emitted (s.call settings (.emit r)).log = emitted s.log ++ [r]
  /-- A record that fails leaves the registry as it was, and does not enter the history. -/
  emit_error : ∀ r e, (Registry.emit settings s.registry r).1 = .error e →
    (Registry.emit settings s.registry r).2 = s.registry ∧
      emitted (s.call settings (.emit r)).log = emitted s.log
  /-- Records that are all emitted enter the history in order. -/
  emitAll_ok : ∀ records decls, (Registry.emitAll settings s.registry records).1 = .ok decls →
    emitted (s.call settings (.emitAll records)).log = emitted s.log ++ records
  /-- If records that are emitted in order fail at one of them, then those before it have been
  emitted, are registered and enter the history, and no others. -/
  emitAll_error : ∀ records e, (Registry.emitAll settings s.registry records).1 = .error e →
    ∃ front r back decls, records = front ++ r :: back ∧
      Registry.emitAll settings s.registry front
        = (.ok decls, (Registry.emitAll settings s.registry records).2) ∧
      (Registry.emit settings (Registry.emitAll settings s.registry records).2 r).1 = .error e ∧
      Reflects settings (emitted s.log ++ front) (Registry.emitAll settings s.registry records).2 ∧
      emitted (s.call settings (.emitAll records)).log = emitted s.log ++ front
  /-- Each emission of the log met a registry that answered from the history before it. -/
  met : ∀ before a after, s.log = before ++ a :: after → Reflects settings (emitted before) a.met
  /-- What was emitted is built from those answers. -/
  built : ∀ a ∈ s.log, ∀ d, a.outcome = .ok d → BuiltFrom a.met a.record d
  /-- A record of a new name was emitted only if it does not use that name. -/
  selfless : ∀ before a after d, s.log = before ++ a :: after → a.outcome = .ok d →
    Primitive.isPrimitive a.record.name = false →
    (∀ r ∈ emitted before, r.name ≠ a.record.name) → ∀ f ∈ a.record.fields, a.record.name ∉ f.types

/-- `BuiltFrom a.met a.record d`: what came of an emission of the log is built from the answers of
the registry that it met. -/
theorem Traced.builtFrom {s : Session} (hs : s.Traced settings) {a : Attempt} (ha : a ∈ s.log)
    {d : SchemeDecl} (hok : a.outcome = .ok d) : BuiltFrom a.met a.record d := by
  obtain ⟨before, after, hsplit⟩ := List.append_of_mem ha
  have hout : (Registry.emit settings a.met a.record).1 = .ok d :=
    (hs.met before a after hsplit).2.trans hok
  exact builtFrom_of_emitDecl (emitDecl_of_emit hout)

/-- The history after one more record was tried, by what came of it. -/
theorem emitted_call_emit (s : Session) (r : Record) :
    emitted (s.call settings (.emit r)).log = emitted s.log ++
      match (Registry.emit settings s.registry r).1 with
      | .ok _ => [r]
      | .error _ => [] := by
  rw [call, emitted_append]
  cases hout : (Registry.emit settings s.registry r).1 <;> rfl

/-- **The registry answers from the history of successful emissions**, after every run of calls: a
failure leaves no trace, and each success was built from the answers that the registry gave before
it, so no record of a new name has resolved itself. -/
theorem run_faithful (settings : Settings) (calls : List Call) :
    (run settings calls).Faithful settings := by
  have htraced := traced_run settings calls
  constructor
  case reflects =>
    rw [htraced.registry]
    exact reflects_ofRecords settings _
  case emit_ok =>
    intro r d hok
    rw [emitted_call_emit, hok]
  case emit_error =>
    intro r e herror
    refine ⟨emit_of_error herror, ?_⟩
    rw [emitted_call_emit, herror]
    exact List.append_nil _
  case emitAll_ok =>
    intro records decls hok
    rw [call, emitted_append, emitted_attempts hok]
  case emitAll_error =>
    intro records e herror
    rw [call, emitted_append]
    rw [htraced.registry] at herror ⊢
    obtain ⟨front, r, back, decls, hsplit, hfront, hall, hfails, hhistory⟩ :=
      exists_split_of_emitAll_error herror
    rw [hall, hhistory]
    exact ⟨front, r, back, decls, hsplit, hfront, hfails, reflects_ofRecords settings _, rfl⟩
  case met =>
    intro before a after hsplit
    rw [(htraced.met before a after hsplit).1]
    exact reflects_ofRecords settings _
  case built => exact fun a ha d hok => htraced.builtFrom ha hok
  case selfless =>
    intro before a after d hsplit hok hname hnew f hf hself
    obtain ⟨scheme, hscheme⟩ :=
      (htraced.builtFrom (hsplit ▸ List.mem_append_cons_self) hok).exists_scheme hf hself
    -- the registry that the record met does not know the name
    rw [(htraced.met before a after hsplit).1,
      (reflects_ofRecords settings _).unknown _ hname hnew] at hscheme
    cases hscheme

/-- A record that uses itself, records of which the second fails, a name that is emitted again from
another source, and a record with the name of a primitive type. -/
def wildCalls : List Call :=
  [.emit (.ofFields "A" "a.ts" []),
    .emit (.ofFields "Node" "n.ts" [⟨"next", ["Node"], true, false, ["Node"]⟩]),
    .emitAll [.ofFields "B" "b.ts" [⟨"a", ["A"], false, false, ["A"]⟩],
      .ofFields "C" "c.ts" [⟨"g", ["Ghost"], false, true, ["Ghost"]⟩], .ofFields "D" "d.ts" []],
    .scheme "D",
    .emit (.ofFields "A" "x/a.ts" []),
    .emit (.ofFields "string" "s.ts" [])]

/-- The answers after `wildCalls`: the second `A` counts, `D` was not tried, and `string` is what it
always is. -/
theorem run_wildCalls :
    (emitted (run {} wildCalls).log).map (fun r => (r.name, r.sourcePath))
        = ([("A", "a.ts"), ("B", "b.ts"), ("A", "x/a.ts"), ("string", "s.ts")]
            : List (Text × Text)) ∧
      (run {} wildCalls).registry.scheme "A"
        = .ok ⟨"AScheme", [⟨["AScheme"], "x/schemes/a.scheme", true⟩]⟩ ∧
      (run {} wildCalls).registry.scheme "string" = .ok ⟨"z.string()", []⟩ ∧
      (run {} wildCalls).registry.scheme "D" = .error (.unknownType "D") := by
  have hreflects := (run_faithful {} wildCalls).reflects
  refine ⟨by decide +kernel, ?_, hreflects.primitive _ _ (by decide +kernel),
    hreflects.unknown _ (by decide +kernel) (by decide +kernel)⟩
  have hlatest := hreflects.latest
    [.ofFields "A" "a.ts" [], .ofFields "B" "b.ts" [⟨"a", ["A"], false, false, ["A"]⟩]]
    (.ofFields "A" "x/a.ts" []) [.ofFields "string" "s.ts" []] (by decide +kernel)
    (by decide +kernel) (by decide +kernel)
  refine hlatest.trans ?_
  decide +kernel

end Session

end InterfaceSchemes.Registry
