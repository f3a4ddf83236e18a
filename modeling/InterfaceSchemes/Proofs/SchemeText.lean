import InterfaceSchemes.Proofs.Emission

/-! # The lines of a scheme

The text of an emitted record has a line for each field between a first and a last line, and no line
end stands anywhere else in it.

* **`Registry.headerLine`**, **`Registry.bareLine`**, **`Registry.footerLine`** — the lines without
  their ends; `Registry.lineOf` — the line that a field gets.
* **`Registry.splitAt_declText`** — a text of whole lines is cut into these lines.
* **`Registry.splitAt_raw`** — the text of an emitted record, line by line. -/

namespace InterfaceSchemes.Registry

variable {settings : Settings}

/-- The first line of a scheme. -/
def headerLine (name : Text) : Text := "export const " ++ name ++ " = z.object(\x7b"

/-- The last line of a scheme. -/
def footerLine : Text := "\x7d);"

/-- The line of a field without its end. -/
def bareLine (field : SchemeField) : Text := "\t" ++ field.name ++ ": " ++ field.expr ++ ","

/-- The line that a field gets in a scheme from the source at `path`. -/
def lineOf (registry : Registry) (path : Text) (f : Field) : Text :=
  match registry.emitField path f with
  | .ok field => bareLine field
  | .error _ => []

/-- `Text.splitAt '\n'` cuts lines at their ends. -/
theorem splitAt_lines {lines : List Text} (hlines : ∀ line ∈ lines, '\n' ∉ line) {last : Text}
    (hlast : '\n' ∉ last) :
    Text.splitAt '\n' (lines.flatMap (· ++ ['\n']) ++ last) = lines ++ [last] := by
  rw [Text.splitAt_eq_splitOn]
  induction lines with
  | nil => exact List.splitOn_eq_singleton hlast
  | cons line lines ih =>
    have hcut : (line :: lines).flatMap (· ++ ['\n']) ++ last
        = line ++ '\n' :: (lines.flatMap (· ++ ['\n']) ++ last) := by simp
    rw [hcut, List.splitOn_append_cons_self, List.splitOn_eq_singleton (hlines line (by simp)),
      ih fun l hl => hlines l (List.mem_cons_of_mem _ hl)]
    rfl

/-- **The lines of `declText name fields`:** the header, one line for each field, and the footer. -/
theorem splitAt_declText {name : Text} (hname : '\n' ∉ name) {fields : List SchemeField}
    (hfields : ∀ field ∈ fields, '\n' ∉ bareLine field) :
    Text.splitAt '\n' (declText name fields)
      = headerLine name :: (fields.map bareLine ++ [footerLine]) := by
  -- the line ends of the text are moved out of its literals
  have hcomma : (",\n" : Text) = ("," : Text) ++ ['\n'] := rfl
  have hopen : (" = z.object(\x7b\n" : Text) = (" = z.object(\x7b" : Text) ++ ['\n'] := rfl
  have hline : fieldLine = fun field => bareLine field ++ ['\n'] := by
    funext field
    rw [fieldLine, bareLine, hcomma, ← List.append_assoc]
  have hbody : fields.flatMap fieldLine = (fields.map bareLine).flatMap (· ++ ['\n']) := by
    rw [hline, List.flatMap_map]
  have htext : declText name fields
      = (headerLine name :: fields.map bareLine).flatMap (· ++ ['\n']) ++ footerLine := by
    unfold declText headerLine footerLine
    rw [hbody, hopen, List.flatMap_cons]
    simp only [List.append_assoc]
  rw [htext, splitAt_lines _ (by decide)]
  · rfl
  · intro line hline
    rcases List.mem_cons.mp hline with rfl | hline
    · unfold headerLine
      simp only [List.mem_append, not_or]
      exact ⟨⟨by decide, hname⟩, by decide⟩
    · obtain ⟨field, hfield, rfl⟩ := List.mem_map.mp hline
      exact hfields field hfield

/-- The name of a scheme stands on one line. -/
theorem newline_notMem_name (hsuffix : '\n' ∉ settings.schemeSuffix) {name : Text}
    (hname : ∀ c ∈ name, Text.isWord c = true) : '\n' ∉ name ++ settings.schemeSuffix := by
  rw [List.mem_append, not_or]
  refine ⟨fun hmem => ?_, hsuffix⟩
  exact absurd (hname _ hmem) (by decide +kernel)

/-- The expression of a type stands on one line. -/
theorem newline_notMem_expr (hsuffix : '\n' ∉ settings.schemeSuffix) {recs : List Record}
    (hwords : ∀ r ∈ recs, ∀ c ∈ r.name, Text.isWord c = true) {t : Text} {scheme : Scheme}
    (hscheme : (ofRecords settings recs).scheme t = .ok scheme) : '\n' ∉ scheme.expr := by
  rcases scheme_cases hscheme with hprimitive | ⟨r, hr, -, rfl⟩
  · have htable : ∀ entry ∈ Primitive.table, '\n' ∉ entry.2.expr := by decide
    exact htable (t, scheme) (mem_of_lookup_eq_some hprimitive)
  · exact newline_notMem_name hsuffix (hwords r hr)

/-- `fieldExpr f union` stands on one line if the union does. -/
theorem newline_notMem_fieldExpr {f : Field} {union : Text} (hunion : '\n' ∉ union) :
    '\n' ∉ fieldExpr f union := by
  have hlisted : '\n' ∉ (if f.isArray then "z.array(" ++ union ++ ")" else union : Text) := by
    split
    · simp only [List.mem_append, not_or]
      exact ⟨⟨by decide, hunion⟩, by decide⟩
    · exact hunion
  unfold fieldExpr
  dsimp only
  split
  · rw [List.mem_append, not_or]
    exact ⟨hlisted, by decide⟩
  · exact hlisted

/-- **`bareLine field` is one line.** -/
theorem newline_notMem_bareLine (hsuffix : '\n' ∉ settings.schemeSuffix) {recs : List Record}
    (hwords : ∀ r ∈ recs, ∀ c ∈ r.name, Text.isWord c = true) {f : Field} (hf : f.WellFormed)
    {path : Text} {field : SchemeField}
    (hemit : (ofRecords settings recs).emitField path f = .ok field) : '\n' ∉ bareLine field := by
  obtain ⟨first, rest, hschemes, rfl⟩ := emitField_eq_ok_iff.mp hemit
  have hexpr : ∀ scheme ∈ first :: rest, '\n' ∉ scheme.expr := by
    intro scheme hscheme
    obtain ⟨t, -, hlookup⟩ := Fallible.exists_of_mem_right hschemes hscheme
    exact newline_notMem_expr hsuffix hwords hlookup
  have hunion : '\n' ∉ unionExpr first rest := by
    have halternative : ∀ scheme ∈ rest, '\n' ∉ alternative scheme := by
      intro scheme hscheme
      unfold alternative
      simp only [List.mem_append, not_or]
      exact ⟨⟨by decide, hexpr scheme (List.mem_cons_of_mem _ hscheme)⟩, by decide⟩
    rw [unionExpr, List.mem_append, List.mem_flatMap]
    rintro (hmem | ⟨scheme, hscheme, hmem⟩)
    · exact hexpr first (by simp) hmem
    · exact halternative scheme hscheme hmem
  have hname : '\n' ∉ f.name := fun hmem => hf.name.undivided _ hmem (by decide)
  unfold bareLine
  simp only [List.mem_append, not_or]
  exact ⟨⟨⟨⟨by decide, hname⟩, by decide⟩, newline_notMem_fieldExpr hunion⟩, by decide⟩

/-- `bareLine` of emitted fields is `lineOf` of the fields that they come from. -/
theorem map_bareLine_eq {registry : Registry} {path : Text} {fs : List Field}
    {fields : List SchemeField}
    (hfields : List.Forall₂ (fun f field => registry.emitField path f = .ok field) fs fields) :
    fields.map bareLine = fs.map (lineOf registry path) := by
  induction hfields with
  | nil => rfl
  | cons hemit _ ih => rw [List.map_cons, List.map_cons, ih, lineOf, hemit]

/-- `lineOf registry path f` begins with the name of the field. -/
theorem prefix_lineOf {registry : Registry} {path : Text} {f : Field} {field : SchemeField}
    (hemit : registry.emitField path f = .ok field) :
    ("\t" ++ f.name ++ ": " : Text) <+: lineOf registry path f := by
  obtain ⟨first, rest, -, rfl⟩ := emitField_eq_ok_iff.mp hemit
  rw [lineOf, hemit]
  dsimp only
  unfold bareLine
  exact (List.prefix_append _ _).trans (List.prefix_append _ _)

/-- **`d.raw`, line by line**: the text of an emitted record. -/
theorem splitAt_raw (hsuffix : '\n' ∉ settings.schemeSuffix) {recs : List Record}
    (hwords : ∀ r ∈ recs, ∀ c ∈ r.name, Text.isWord c = true) {r : Record} (hr : r.WellFormed)
    {d : SchemeDecl} (hemit : emitDecl settings (ofRecords settings recs) r = .ok d) :
    Text.splitAt '\n' d.raw = headerLine d.name ::
      (r.fields.map (lineOf (ofRecords settings recs) r.sourcePath) ++ [footerLine]) := by
  obtain ⟨fields, hfields, rfl⟩ := emitDecl_eq_ok_iff.mp hemit
  rw [← map_bareLine_eq hfields]
  refine splitAt_declText (newline_notMem_name hsuffix hr.name_word) fun field hfield => ?_
  obtain ⟨f, hf, hfieldEmit⟩ := Fallible.exists_of_mem_right hfields hfield
  exact newline_notMem_bareLine hsuffix hwords (hr.fields f hf) hfieldEmit

end InterfaceSchemes.Registry
