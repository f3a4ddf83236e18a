import InterfaceSchemes.Proofs.History
import InterfaceSchemes.Proofs.SchemeText

/-! # The text of a scheme determines its record

Expressions are put together from those of types without any mark that says where one of them ends,
and the expression of a string is the beginning of that of a date. Still no two fields have one
expression: that of a type is followed by a bracket, by one more call or by nothing, and no other
expression goes on in such a way.

* **`Registry.Denotes`** — what a type may be written as: by the table, or by a word and the suffix.
* **`Registry.Stops`** — a text at which an expression ends.
* **`Registry.Denotes.append_inj`** — an expression before such a text can be read in one way only.
* **`Registry.fieldExpr_inj`** — the expression of a field determines its types and both marks.
* **`Registry.eq_of_raw_eq`** — records with one text have the same name and the same fields. -/

namespace InterfaceSchemes.Registry

variable {settings : Settings}

/-! ## (1) Where an expression ends -/

/-- **A text at which an expression ends**: it makes neither a word longer nor a string a date. -/
structure Stops (rest : Text) : Prop where
  /-- It begins with no word character. -/
  head : ∀ c ∈ rest.head?, Text.isWord c = false
  /-- It does not begin as the expression of a date goes on. -/
  undated : ¬ ['.', 'd'] <+: rest

/-- A closing bracket ends an expression. -/
theorem stops_paren (rest : Text) : Stops (')' :: rest) where
  head := by
    rintro c ⟨⟩
    decide +kernel
  undated := by simp

/-- `Stops ('.' :: c :: rest)`: a call that is not the one of a date ends an expression. -/
theorem stops_dot {c : Char} (hc : c ≠ 'd') (rest : Text) : Stops ('.' :: c :: rest) where
  head := by
    rintro c ⟨⟩
    decide +kernel
  undated := by simpa [List.cons_prefix_cons] using Ne.symm hc

/-- `alternative scheme ++ rest` is a call with the expression of the scheme. -/
theorem alternative_append (scheme : Scheme) (rest : Text) :
    alternative scheme ++ rest = ".or(" ++ (scheme.expr ++ ')' :: rest) := by
  show ".or(" ++ scheme.expr ++ [')'] ++ rest = _
  rw [List.append_assoc, List.append_assoc, List.singleton_append]

/-- `Stops (alternative scheme ++ rest)`: one more type ends an expression. -/
theorem stops_alternative (scheme : Scheme) (rest : Text) : Stops (alternative scheme ++ rest) := by
  rw [alternative_append]
  exact stops_dot (by decide) ("r(" ++ (scheme.expr ++ ')' :: rest))

/-! ## (2) Reading one type -/

/-- **What a type may be written as.** -/
inductive Denotes (t : Text) : Text → Prop
  /-- A primitive type has its expression from the table. -/
  | primitive {scheme : Scheme} (htable : Primitive.scheme? t = some scheme) : Denotes t scheme.expr
  /-- A record is its name, which is a word, and the suffix. -/
  | record (hword : ∀ c ∈ t, Text.isWord c = true) : Denotes t (t ++ "Scheme")

/-- The first word of an expression that calls the library. -/
theorem takeWhile_library (rest : Text) : ('z' :: '.' :: rest).takeWhile Text.isWord = ['z'] := by
  have hz : Text.isWord 'z' = true := by decide +kernel
  have hdot : ¬ Text.isWord '.' = true := by decide +kernel
  rw [List.takeWhile_cons_of_pos hz, List.takeWhile_cons_of_neg hdot]

/-- The expressions of primitive types begin with the word `z`: they call the library. -/
theorem takeWhile_primitive {t : Text} {scheme : Scheme}
    (htable : Primitive.scheme? t = some scheme) (rest : Text) :
    (scheme.expr ++ rest).takeWhile Text.isWord = ['z'] := by
  have hfront : ∀ entry ∈ Primitive.table, entry.2.expr = 'z' :: '.' :: entry.2.expr.drop 2 := by
    decide
  rw [hfront _ (mem_of_lookup_eq_some htable)]
  exact takeWhile_library _

/-- `t ++ "Scheme"` is the word that the expression of a record begins with. -/
theorem takeWhile_record {t rest : Text} (hword : ∀ c ∈ t, Text.isWord c = true)
    (hstop : Stops rest) :
    (t ++ "Scheme" ++ rest).takeWhile Text.isWord = t ++ "Scheme" := by
  have hsuffix : ∀ c ∈ ("Scheme" : Text), Text.isWord c = true :=
    List.all_eq_true.mp (by decide +kernel)
  refine (Text.span_append (fun c hc => ?_) hstop.head).1
  exact (List.mem_append.mp hc).elim (hword c) (hsuffix c)

/-- No record is written as the word that primitive types begin with. -/
theorem append_suffix_ne (t : Text) : t ++ "Scheme" ≠ ['z'] := by
  intro heq
  have hlength := congrArg List.length heq
  have hsuffix : ("Scheme" : Text).length = 6 := rfl
  rw [List.length_append, hsuffix, List.length_singleton] at hlength
  omega

/-- `scheme'.expr = scheme.expr ++ mid` between primitive types only if they are the same, or a
string and a date. -/
theorem primitive_of_prefix {t t' : Text} {scheme scheme' : Scheme}
    (htable : Primitive.scheme? t = some scheme) (htable' : Primitive.scheme? t' = some scheme')
    {mid : Text} (hmid : scheme'.expr = scheme.expr ++ mid) :
    (t = t' ∧ mid = []) ∨ ['.', 'd'] <+: mid := by
  have hpairs : ∀ a ∈ Primitive.table, ∀ b ∈ Primitive.table, a.2.expr <+: b.2.expr →
      a = b ∨ ['.', 'd'] <+: b.2.expr.drop a.2.expr.length := by
    decide
  rcases hpairs _ (mem_of_lookup_eq_some htable) _ (mem_of_lookup_eq_some htable')
      ⟨mid, hmid.symm⟩ with heq | hdate
  · cases heq
    exact Or.inl ⟨rfl, by simpa using hmid⟩
  · refine Or.inr ?_
    dsimp only at hdate
    rwa [hmid, List.drop_left] at hdate

/-- **`e ++ rest` is read in one way only**, where `e` is an expression and `rest` ends it. -/
theorem Denotes.append_inj {t t' e e' rest rest' : Text} (he : Denotes t e) (he' : Denotes t' e')
    (hstop : Stops rest) (hstop' : Stops rest') (heq : e ++ rest = e' ++ rest') :
    t = t' ∧ rest = rest' := by
  have hwords := congrArg (List.takeWhile Text.isWord) heq
  cases he with
  | primitive htable =>
    cases he' with
    | primitive htable' =>
      -- one of the two expressions begins the other, and what is left over cannot go on with a date
      rcases List.append_eq_append_iff.mp heq with ⟨mid, hmid, hrest⟩ | ⟨mid, hmid, hrest⟩
      · rcases primitive_of_prefix htable htable' hmid with ⟨htypes, rfl⟩ | hdate
        · exact ⟨htypes, hrest⟩
        · exact absurd (hrest ▸ hdate.trans (List.prefix_append _ _)) hstop.undated
      · rcases primitive_of_prefix htable' htable hmid with ⟨htypes, rfl⟩ | hdate
        · exact ⟨htypes.symm, hrest.symm⟩
        · exact absurd (hrest ▸ hdate.trans (List.prefix_append _ _)) hstop'.undated
    | record hword' =>
      rw [takeWhile_primitive htable, takeWhile_record hword' hstop'] at hwords
      exact absurd hwords.symm (append_suffix_ne t')
  | record hword =>
    cases he' with
    | primitive htable' =>
      rw [takeWhile_primitive htable', takeWhile_record hword hstop] at hwords
      exact absurd hwords (append_suffix_ne t)
    | record hword' =>
      rw [takeWhile_record hword hstop, takeWhile_record hword' hstop'] at hwords
      obtain rfl := List.append_cancel_right hwords
      exact ⟨rfl, List.append_cancel_left heq⟩

/-! ## (3) Reading a field -/

/-- What stands before the union of a field. -/
def opening : Bool → Text
  | true => "z.array("
  | false => []

/-- What stands after the union of a field. -/
def closing : Bool → Bool → Text
  | true, true => ").nullable()"
  | true, false => ")"
  | false, true => ".nullable()"
  | false, false => []

/-- `fieldExpr f union` is the union between `opening` and `closing`. -/
theorem fieldExpr_eq (f : Field) (union : Text) :
    fieldExpr f union = opening f.isArray ++ (union ++ closing f.isArray f.nullable) := by
  unfold fieldExpr opening closing
  cases f.isArray <;> cases f.nullable <;> simp

/-- `Stops (closing isArray nullable)`: what stands after a union ends an expression. -/
theorem stops_closing (isArray nullable : Bool) : Stops (closing isArray nullable) := by
  cases isArray with
  | true =>
    cases nullable with
    | true => exact stops_paren ".nullable()"
    | false => exact stops_paren []
  | false =>
    cases nullable with
    | true => exact stops_dot (by decide) "ullable()"
    | false => exact ⟨by rintro c ⟨⟩, by decide⟩

/-- What stands after a union is not one more type. -/
theorem closing_ne_alternative (isArray nullable : Bool) (scheme : Scheme) (rest : Text) :
    closing isArray nullable ≠ alternative scheme ++ rest := by
  have hfront : ∀ a n, ¬ ['.', 'o'] <+: closing a n := by decide
  intro heq
  rw [alternative_append] at heq
  exact hfront isArray nullable ⟨"r(" ++ (scheme.expr ++ ')' :: rest), heq.symm⟩

/-- `closing` shows the mark of a value that may be missing. -/
theorem closing_inj {isArray nullable nullable' : Bool}
    (heq : closing isArray nullable = closing isArray nullable') : nullable = nullable' := by
  have hall : ∀ a n n', closing a n = closing a n' → n = n' := by decide
  exact hall _ _ _ heq

/-- **The further types of a union are read in one way only** from their `alternative` calls, by
induction on these types. -/
theorem alternatives_inj {isArray nullable nullable' : Bool} {ts ts' : List Text}
    {others others' : List Scheme}
    (hothers : List.Forall₂ (fun t (scheme : Scheme) => Denotes t scheme.expr) ts others)
    (hothers' : List.Forall₂ (fun t (scheme : Scheme) => Denotes t scheme.expr) ts' others')
    (heq : others.flatMap alternative ++ closing isArray nullable
      = others'.flatMap alternative ++ closing isArray nullable') :
    ts = ts' ∧ nullable = nullable' := by
  induction hothers generalizing ts' others' with
  | nil =>
    cases hothers' with
    | nil => exact ⟨rfl, closing_inj heq⟩
    | cons _ _ =>
      rw [List.flatMap_cons, List.append_assoc] at heq
      exact absurd heq (closing_ne_alternative _ _ _ _)
  | @cons t scheme ts others hscheme hrest ih =>
    cases hothers' with
    | nil =>
      rw [List.flatMap_cons, List.append_assoc] at heq
      exact absurd heq.symm (closing_ne_alternative _ _ _ _)
    | @cons t' scheme' ts' others' hscheme' hrest' =>
      rw [List.flatMap_cons, List.flatMap_cons, List.append_assoc, List.append_assoc,
        alternative_append, alternative_append] at heq
      obtain ⟨rfl, hparen⟩ := hscheme.append_inj hscheme' (stops_paren _) (stops_paren _)
        (List.append_cancel_left heq)
      obtain ⟨rfl, rfl⟩ := ih hrest' (List.cons.inj hparen).2
      exact ⟨rfl, rfl⟩

/-- What stands after the first type of a union ends its expression. -/
theorem stops_tail (others : List Scheme) (isArray nullable : Bool) :
    Stops (others.flatMap alternative ++ closing isArray nullable) := by
  cases others with
  | nil => exact stops_closing isArray nullable
  | cons scheme others =>
    rw [List.flatMap_cons, List.append_assoc]
    exact stops_alternative scheme _

/-- No union begins like a list. -/
theorem opening_ne {t e rest more : Text} (he : Denotes t e) (hstop : Stops rest) :
    opening false ++ (e ++ rest) ≠ opening true ++ more := by
  intro hopening
  have heq : e ++ rest = "z.array(" ++ more := hopening
  cases he with
  | primitive htable =>
    rename_i scheme
    have hapart : ∀ entry ∈ Primitive.table, ¬ entry.2.expr <+: ("z.array(" : Text) ∧
        ¬ ("z.array(" : Text) <+: entry.2.expr := by
      decide
    obtain ⟨hshort, hlong⟩ := hapart _ (mem_of_lookup_eq_some htable)
    rcases List.prefix_or_prefix_of_prefix (⟨rest, heq⟩ : scheme.expr <+: "z.array(" ++ more)
      (List.prefix_append _ _) with hfront | hfront
    · exact hshort hfront
    · exact hlong hfront
  | record hword =>
    have hwords := congrArg (List.takeWhile Text.isWord) heq
    have hlist : ("z.array(" ++ more : Text) = 'z' :: '.' :: ("array(" ++ more) := rfl
    rw [takeWhile_record hword hstop, hlist, takeWhile_library] at hwords
    exact append_suffix_ne t hwords

/-- **`fieldExpr` determines the types of a field and both of its marks.** -/
theorem fieldExpr_inj {f f' : Field} {first first' : Scheme} {others others' : List Scheme}
    (htypes : List.Forall₂ (fun t (scheme : Scheme) => Denotes t scheme.expr) f.types
      (first :: others))
    (htypes' : List.Forall₂ (fun t (scheme : Scheme) => Denotes t scheme.expr) f'.types
      (first' :: others'))
    (heq : fieldExpr f (unionExpr first others) = fieldExpr f' (unionExpr first' others')) :
    f.types = f'.types ∧ f.nullable = f'.nullable ∧ f.isArray = f'.isArray := by
  obtain ⟨t, ts, hfirst, hothers, hcons⟩ := List.forall₂_cons_right_iff.mp htypes
  obtain ⟨t', ts', hfirst', hothers', hcons'⟩ := List.forall₂_cons_right_iff.mp htypes'
  rw [fieldExpr_eq, fieldExpr_eq, unionExpr, unionExpr, List.append_assoc, List.append_assoc] at heq
  have harray : f.isArray = f'.isArray := by
    by_contra hdiffer
    -- one of the two is opened as a list, and the other begins with the expression of a type
    cases hleft : f.isArray with
    | true =>
      have hright : f'.isArray = false := by simpa [hleft] using hdiffer
      rw [hleft, hright] at heq
      exact opening_ne hfirst' (stops_tail _ _ _) heq.symm
    | false =>
      have hright : f'.isArray = true := by simpa [hleft] using hdiffer
      rw [hleft, hright] at heq
      exact opening_ne hfirst (stops_tail _ _ _) heq
  rw [← harray] at heq
  obtain ⟨rfl, htail⟩ := hfirst.append_inj hfirst' (stops_tail _ _ _) (stops_tail _ _ _)
    (List.append_cancel_left heq)
  obtain ⟨rfl, hnullable⟩ := alternatives_inj hothers hothers' htail
  exact ⟨hcons.trans hcons'.symm, hnullable, harray⟩

/-! ## (4) Reading a scheme -/

/-- `bareLine field`, with the colon behind the name. -/
theorem bareLine_eq (field : SchemeField) :
    bareLine field = '\t' :: (field.name ++ ':' :: ' ' :: (field.expr ++ ",")) := by
  rw [bareLine, List.append_assoc, List.append_assoc, List.append_assoc]
  rfl

/-- `f.name` ends at the first colon. -/
theorem takeWhile_name {f : Field} (hf : f.WellFormed) (rest : Text) :
    (f.name ++ ':' :: rest).takeWhile (· != ':') = f.name := by
  refine (Text.span_append (fun c hc => ?_) (by simp)).1
  exact bne_iff_ne.mpr fun hcolon => hf.name.undivided c hc (hcolon ▸ by decide)

/-- The dependencies of a field as it is read follow from its other parts. -/
theorem eq_of_parts {f f' : Field} (hf : f.WellFormed) (hf' : f'.WellFormed)
    (hname : f.name = f'.name) (htypes : f.types = f'.types) (hnullable : f.nullable = f'.nullable)
    (harray : f.isArray = f'.isArray) : f = f' := by
  have hdepends : f.dependsOn = f'.dependsOn := by rw [hf.dependsOn, hf'.dependsOn, htypes]
  cases f
  cases f'
  simp only at hname htypes hnullable harray hdepends
  rw [hname, htypes, hnullable, harray, hdepends]

section Registered

variable (hsuffix : settings.schemeSuffix = "Scheme") {recs : List Record}
  (hwords : ∀ r ∈ recs, ∀ c ∈ r.name, Text.isWord c = true)
include hsuffix hwords

/-- `Denotes t scheme.expr`: what a registry of records answers for a type is what the type may be
written as. -/
theorem denotes_of_scheme {t : Text} {scheme : Scheme}
    (hscheme : (ofRecords settings recs).scheme t = .ok scheme) : Denotes t scheme.expr := by
  rcases scheme_cases hscheme with htable | ⟨r, hr, rfl, rfl⟩
  · exact .primitive htable
  · have hexpr : (recordScheme settings r).expr = r.name ++ "Scheme" := by
      rw [recordScheme, hsuffix]
    rw [hexpr]
    exact .record (hwords r hr)

/-- **`bareLine` determines the field.** -/
theorem bareLine_inj {f f' : Field} (hf : f.WellFormed) (hf' : f'.WellFormed) {path path' : Text}
    {field field' : SchemeField}
    (hemit : (ofRecords settings recs).emitField path f = .ok field)
    (hemit' : (ofRecords settings recs).emitField path' f' = .ok field')
    (heq : bareLine field = bareLine field') : f = f' := by
  obtain ⟨first, others, hschemes, rfl⟩ := emitField_eq_ok_iff.mp hemit
  obtain ⟨first', others', hschemes', rfl⟩ := emitField_eq_ok_iff.mp hemit'
  rw [bareLine_eq, bareLine_eq] at heq
  have hrest := (List.cons.inj heq).2
  have hname : f.name = f'.name := by
    rw [← takeWhile_name hf, hrest, takeWhile_name hf']
  rw [hname] at hrest
  have hafter := List.append_cancel_left hrest
  -- behind the name only the colon, a blank and the comma surround the expression
  have hexpr := List.append_cancel_right (List.cons.inj (List.cons.inj hafter).2).2
  obtain ⟨htypes, hnullable, harray⟩ := fieldExpr_inj
    (hschemes.imp fun _ _ h => denotes_of_scheme hsuffix hwords h)
    (hschemes'.imp fun _ _ h => denotes_of_scheme hsuffix hwords h) hexpr
  exact eq_of_parts hf hf' hname htypes hnullable harray

/-- The lines of fields determine the fields, by induction on them. -/
theorem lines_inj {path path' : Text} {fs fs' : List Field} (hfs : ∀ f ∈ fs, f.WellFormed)
    (hfs' : ∀ f ∈ fs', f.WellFormed) {fields fields' : List SchemeField}
    (hfields : List.Forall₂
      (fun f field => (ofRecords settings recs).emitField path f = .ok field) fs fields)
    (hfields' : List.Forall₂
      (fun f field => (ofRecords settings recs).emitField path' f = .ok field) fs' fields')
    (heq : fields.map bareLine = fields'.map bareLine) : fs = fs' := by
  induction hfields generalizing fs' fields' with
  | nil =>
    cases hfields' with
    | nil => rfl
    | cons _ _ => cases heq
  | @cons f field fs fields hemit hrest ih =>
    cases hfields' with
    | nil => cases heq
    | @cons f' field' fs' fields' hemit' hrest' =>
      obtain ⟨hhead, htail⟩ := List.cons.inj heq
      rw [bareLine_inj hsuffix hwords (hfs f (by simp)) (hfs' f' (by simp)) hemit hemit' hhead,
        ih (fun g hg => hfs g (List.mem_cons_of_mem _ hg))
          (fun g hg => hfs' g (List.mem_cons_of_mem _ hg)) hrest' htail]

/-- `d.raw`, after these records, determines the name and the fields of its record. -/
theorem emitDecl_raw_inj {r r' : Record} (hr : r.WellFormed) (hr' : r'.WellFormed)
    {d d' : SchemeDecl}
    (hemit : emitDecl settings (ofRecords settings recs) r = .ok d)
    (hemit' : emitDecl settings (ofRecords settings recs) r' = .ok d') (heq : d.raw = d'.raw) :
    r.name = r'.name ∧ r.fields = r'.fields := by
  have hnewline : '\n' ∉ settings.schemeSuffix := by
    rw [hsuffix]
    decide
  have hlines := congrArg (Text.splitAt '\n') heq
  rw [splitAt_raw hnewline hwords hr hemit, splitAt_raw hnewline hwords hr' hemit'] at hlines
  obtain ⟨fields, hfields, rfl⟩ := emitDecl_eq_ok_iff.mp hemit
  obtain ⟨fields', hfields', rfl⟩ := emitDecl_eq_ok_iff.mp hemit'
  obtain ⟨hheader, hbody⟩ := List.cons.inj hlines
  have hname := List.append_cancel_left (List.append_cancel_right hheader)
  have hmap := List.append_cancel_right hbody
  rw [← map_bareLine_eq hfields, ← map_bareLine_eq hfields'] at hmap
  exact ⟨List.append_cancel_right hname,
    lines_inj hsuffix hwords hr.fields hr'.fields hfields hfields' hmap⟩

end Registered

/-- **`d.raw`, the text of a scheme, determines its record.** Whatever was called before, as long as
all the registered names are words: two records that were read and are emitted with one text have
the same name and the same fields. -/
theorem eq_of_raw_eq (hsuffix : settings.schemeSuffix = ({} : Settings).schemeSuffix)
    {calls : List Call}
    (hwords : ∀ entry ∈ (Session.run settings calls).registry, ∀ c ∈ entry.1, Text.isWord c = true)
    {sources sources' : List Source} {files files' : List SourceRecords}
    (hparse : Batch.parse sources = .ok files) (hparse' : Batch.parse sources' = .ok files')
    {r r' : Record} (hr : r ∈ Batch.records files) (hr' : r' ∈ Batch.records files')
    {d d' : SchemeDecl} (hemit : (emit settings (Session.run settings calls).registry r).1 = .ok d)
    (hemit' : (emit settings (Session.run settings calls).registry r').1 = .ok d')
    (heq : d.raw = d'.raw) : r.name = r'.name ∧ r.fields = r'.fields := by
  rw [(Session.traced_run settings calls).registry] at hwords hemit hemit'
  refine emitDecl_raw_inj hsuffix (fun q hq => ?_) (Batch.parse_wellFormed hparse r hr)
    (Batch.parse_wellFormed hparse' r' hr') (emitDecl_of_emit hemit) (emitDecl_of_emit hemit') heq
  exact hwords (q.name, recordScheme settings q) (by simpa [ofRecords] using ⟨q, hq, rfl, rfl⟩)

/-- One declaration in two sources that space it in different ways. -/
def visitSources : List Source :=
  [⟨"visit.ts", "interface Visit \x7b at: DateTime | string; zoos?: string | Zoo[] \x7d"⟩,
    ⟨"x/visit.ts", "interface Visit\x7bat:DateTime|string\nzoos ?: string|Zoo []\n\x7d"⟩]

/-- The record that the source at `path` declares. -/
def visit (path : Text) : Record :=
  .ofFields "Visit" path [⟨"at", ["DateTime", "string"], false, false, []⟩,
    ⟨"zoos", ["string", "Zoo"], true, true, ["Zoo"]⟩]

/-- The scheme of the record from the source at `path`. -/
def visitDecl (path : Text) : SchemeDecl :=
  let luxon : Import := ⟨["DateTime"], "luxon", false⟩
  let zoo : Import := ⟨["ZooScheme"], "./schemes/zoo.scheme", true⟩
  let fields : List SchemeField :=
    [⟨"at", "z.string().datetime().transform(dt => DateTime.fromISO(dt)).or(z.string())", [luxon]⟩,
      ⟨"zoos", "z.array(z.string().or(ZooScheme)).nullable()", [zoo]⟩]
  ⟨path, "VisitScheme", fields, declText "VisitScheme" fields, [luxon, zoo]⟩

/-- The call that makes the type of a visit known. -/
def zooCalls : List Call := [.emit (.ofFields "Zoo" "zoo.ts" [])]

/-- The records of `visitSources` are emitted with one text, and differ in their source alone. -/
theorem raw_visitSources :
    Batch.parse visitSources
        = .ok [⟨"visit.ts", [visit "visit.ts"]⟩, ⟨"x/visit.ts", [visit "x/visit.ts"]⟩] ∧
      (∀ path ∈ (["visit.ts", "x/visit.ts"] : List Text),
        (emit {} (Session.run {} zooCalls).registry (visit path)).1 = .ok (visitDecl path)) ∧
      (visitDecl "visit.ts").raw = (visitDecl "x/visit.ts").raw ∧
      (visit "visit.ts").name = (visit "x/visit.ts").name ∧
      (visit "visit.ts").fields = (visit "x/visit.ts").fields := by
  have hparse : Batch.parse visitSources
      = .ok [⟨"visit.ts", [visit "visit.ts"]⟩, ⟨"x/visit.ts", [visit "x/visit.ts"]⟩] := by
    decide +kernel
  have hemit : ∀ path ∈ (["visit.ts", "x/visit.ts"] : List Text),
      (emit {} (Session.run {} zooCalls).registry (visit path)).1 = .ok (visitDecl path) := by
    decide +kernel
  have hwords : ∀ entry ∈ (Session.run {} zooCalls).registry, entry.1.all Text.isWord = true := by
    decide +kernel
  refine ⟨hparse, hemit, rfl, ?_⟩
  exact eq_of_raw_eq rfl (fun entry hentry => List.all_eq_true.mp (hwords entry hentry)) hparse
    hparse List.mem_cons_self (List.mem_cons_of_mem _ (List.mem_singleton.mpr rfl))
    (hemit _ (by decide)) (hemit _ (by decide)) rfl

end InterfaceSchemes.Registry
