import InterfaceSchemes.Proofs.WellFormed

/-! # Reading undoes printing in any layout

A record can be printed in many ways: with blanks around every part, fields on one line or on many,
and any other text around the declarations. The layouts are given here as a grammar that does not
mention the reader, and the reader is proved to get the records back from each of them.

* **`Field.Layout`**, **`Field.BodyLayout`**, **`Record.Layout`**, **`Record.SourceLayout`** — the
  texts in which a field, the fields of a record, a record and the records of a source are printed.
* **`Field.Printable`**, **`Record.Printable`** — what can be printed without being misread.
* **`Field.read?_layout`**, **`Field.texts_layout`**, **`Record.all_layout`** — one stage of the
  reader each, on the layouts of its kind.
* **`SourceRecords.ofSource_layout`** — the records of a source are read back from its layouts. -/

namespace InterfaceSchemes

/-! ## (1) Layouts -/

/-- Blanks. -/
def Text.Blanks (s : Text) : Prop := ∀ c ∈ s, Text.isBlank c = true

/-- Blanks on one line. -/
def Text.InlineBlanks (s : Text) : Prop := ∀ c ∈ s, Text.isBlank c = true ∧ c ≠ '\n'

/-- Blanks, line ends among them, and semicolons. -/
def Text.Separating (s : Text) : Prop := ∀ c ∈ s, Text.isBlank c = true ∨ c = ';'

instance (s : Text) : Decidable s.Blanks := List.decidableBAll _ s

instance (s : Text) : Decidable s.InlineBlanks := List.decidableBAll _ s

instance (s : Text) : Decidable s.Separating := List.decidableBAll _ s

namespace Field

/-- **The layouts of a name**, with a question mark if the value may be missing. -/
inductive NameLayout (f : Field) : Text → Prop where
  /-- The name between blanks. -/
  | required (before after : Text) (hflag : f.nullable = false) (hbefore : before.InlineBlanks)
      (hafter : after.InlineBlanks) : NameLayout f (before ++ f.name ++ after)
  /-- The name and the mark between blanks. -/
  | optional (before between after : Text) (hflag : f.nullable = true)
      (hbefore : before.InlineBlanks) (hbetween : between.InlineBlanks)
      (hafter : after.InlineBlanks) :
      NameLayout f (before ++ f.name ++ between ++ '?' :: after)

/-- **The layouts of a union of types**: the types between blanks, with bars between neighbours. -/
inductive UnionLayout : List Text → Text → Prop where
  /-- A type alone. -/
  | single (t before after : Text) (hbefore : before.InlineBlanks) (hafter : after.InlineBlanks) :
      UnionLayout [t] (before ++ t ++ after)
  /-- A type before others. -/
  | cons (t before after : Text) (ts : List Text) (s : Text) (hbefore : before.InlineBlanks)
      (hafter : after.InlineBlanks) (hrest : UnionLayout ts s) :
      UnionLayout (t :: ts) (before ++ t ++ after ++ '|' :: s)

/-- **The layouts of the types of a field**, with brackets if the value is a list. -/
inductive TypesLayout (f : Field) : Text → Prop where
  /-- The union alone. -/
  | one (s : Text) (hflag : f.isArray = false) (hunion : UnionLayout f.types s) : TypesLayout f s
  /-- The union and the brackets. -/
  | list (s after : Text) (hflag : f.isArray = true) (hunion : UnionLayout f.types s)
      (hafter : after.InlineBlanks) : TypesLayout f (s ++ '[' :: ']' :: after)

/-- **The layouts of a field**: its name, a colon and its types. -/
inductive Layout (f : Field) : Text → Prop where
  | intro (left right : Text) (hname : NameLayout f left) (htypes : TypesLayout f right) :
      Layout f (left ++ ':' :: right)

/-- **The layouts of one or more fields**: a semicolon or a line end between neighbours. -/
inductive ListLayout : List Field → Text → Prop where
  /-- The last field. -/
  | single (f : Field) (s after : Text) (hfield : Layout f s) (hafter : after.Separating) :
      ListLayout [f] (s ++ after)
  /-- A field before others. -/
  | cons (f : Field) (fields : List Field) (s between rest : Text) (hfield : Layout f s)
      (hbetween : between.Separating) (hdivides : ∃ c ∈ between, isSeparator c = true)
      (hrest : ListLayout fields rest) : ListLayout (f :: fields) (s ++ between ++ rest)

/-- **The layouts of a body**: blanks if there are no fields. -/
inductive BodyLayout : List Field → Text → Prop where
  /-- No fields. -/
  | empty (s : Text) (hs : s.Blanks) : BodyLayout [] s
  /-- Fields. -/
  | fields (fields : List Field) (before s : Text) (hbefore : before.Separating)
      (hfields : ListLayout fields s) : BodyLayout fields (before ++ s)

end Field

namespace Record

/-- **The layouts of a record**: a declaration with its name and its fields. -/
inductive Layout (r : Record) : Text → Prop where
  | intro (gap space body : Text) (hgap : gap ≠ []) (hgapBlanks : gap.Blanks)
      (hspace : space.Blanks) (hbody : Field.BodyLayout r.fields body) :
      Layout r (Declaration.keyword ++ gap ++ r.name ++ space ++ '\x7b' :: (body ++ ['\x7d']))

/-- **The layouts of the records of a source**: any text without the keyword may stand before,
between and after them. -/
inductive SourceLayout : List Record → Text → Prop where
  /-- What follows the last record. -/
  | nil (noise : Text) (hnoise : ¬ Declaration.keyword <:+: noise) : SourceLayout [] noise
  /-- A record before others. -/
  | cons (r : Record) (records : List Record) (noise s rest : Text)
      (hnoise : ¬ Declaration.keyword <:+: noise) (hrecord : Layout r s)
      (hrest : SourceLayout records rest) : SourceLayout (r :: records) (noise ++ s ++ rest)

end Record

/-- **A field that can be printed**: no mark is taken for a part of a name or a type. -/
structure Field.Printable (f : Field) : Prop extends Field.WellFormed f where
  /-- The name does not end like a marked one. -/
  unmarked : f.name.getLast? ≠ some '?'
  /-- The last type of a field that is no list does not end like that of a list. -/
  unbracketed : f.isArray = false → ∀ t ∈ f.types.getLast?, ¬ ['[', ']'] <:+ t

instance (f : Field) : Decidable f.Printable :=
  decidable_of_iff (f.WellFormed ∧ f.name.getLast? ≠ some '?' ∧
      (f.isArray = false → ∀ t ∈ f.types.getLast?, ¬ ['[', ']'] <:+ t))
    ⟨fun h => ⟨h.1, h.2.1, h.2.2⟩, fun h => ⟨h.toWellFormed, h.unmarked, h.unbracketed⟩⟩

/-- **A record that can be printed.** -/
structure Record.Printable (r : Record) : Prop extends Record.WellFormed r where
  /-- So can each of its fields. -/
  printable : ∀ f ∈ r.fields, f.Printable

instance (r : Record) : Decidable r.Printable :=
  decidable_of_iff (r.WellFormed ∧ ∀ f ∈ r.fields, f.Printable)
    ⟨fun h => ⟨h.1, h.2⟩, fun h => ⟨h.toWellFormed, h.printable⟩⟩

/-! ## (2) Reading a field -/

/-- Blanks on one line are blanks. -/
theorem Text.InlineBlanks.blanks {s : Text} (hs : s.InlineBlanks) : s.Blanks :=
  fun c hc => (hs c hc).1

/-- `Text.trim (before ++ s ++ after) = Text.trim s` for blanks around a text. -/
theorem Text.trim_padded {before after : Text} (hbefore : before.Blanks) (hafter : after.Blanks)
    (s : Text) : Text.trim (before ++ s ++ after) = Text.trim s := by
  rw [Text.trim_append_blank hafter, Text.blank_append_trim hbefore]

/-- `beforeBack? back s = none` where `s` does not end with `back`. -/
theorem beforeBack?_eq_none {back s : Text} (hback : ¬ back <:+ s) : beforeBack? back s = none := by
  rw [Option.eq_none_iff_forall_ne_some]
  intro rest hrest
  exact hback ⟨rest, (beforeBack?_eq_some_iff.mp hrest).symm⟩

/-- Trimming the end of blanks leaves nothing. -/
theorem Text.Blanks.trimEnd_eq_nil {s : Text} (hs : s.Blanks) : Text.trimEnd Text.isBlank s = [] :=
  List.rdropWhile_eq_nil_iff.mpr hs

namespace Field

/-- **`readName` reads a name back**, with its mark. -/
theorem readName_layout {f : Field} (hf : f.Printable) {s : Text} (hs : NameLayout f s) :
    readName s = (f.name, f.nullable) := by
  cases hs with
  | required before after hflag hbefore hafter =>
    have htrim : Text.trim (before ++ f.name ++ after) = f.name := by
      rw [Text.trim_padded hbefore.blanks hafter.blanks, hf.name.trimmed]
    have hmark : ¬ ['?'] <:+ f.name := by
      rintro ⟨front, hfront⟩
      exact hf.unmarked (by rw [← hfront, List.getLast?_concat])
    have hnone : beforeBack? "?" f.name = none := beforeBack?_eq_none hmark
    rw [readName, htrim, hflag, hnone]
  | optional before between after hflag hbefore hbetween hafter =>
    have hsome : beforeBack? "?" (Text.trim (before ++ f.name ++ between ++ '?' :: after))
        = some ((before ++ f.name ++ between).dropWhile Text.isBlank) := by
      rw [Text.trim_append_cons (by decide), hafter.blanks.trimEnd_eq_nil]
      exact beforeBack?_eq_some_iff.mpr rfl
    rw [readName, hsome, hflag]
    dsimp only
    rw [Text.trim_dropWhile, Text.trim_padded hbefore.blanks hbetween.blanks, hf.name.trimmed]

/-- The pieces of a union between its bars are the types `ts`, once trimmed. -/
theorem UnionLayout.map_trim_splitAt {ts : List Text} {s : Text} (hs : UnionLayout ts s)
    (hts : ∀ t ∈ ts, Atomic t ∧ '|' ∉ t) : (Text.splitAt '|' s).map Text.trim = ts := by
  -- there are no bars but those between the types
  have hpiece : ∀ t ∈ ts, ∀ before after : Text, before.InlineBlanks → after.InlineBlanks →
      '|' ∉ before ++ t ++ after ∧ Text.trim (before ++ t ++ after) = t := by
    intro t ht before after hbefore hafter
    constructor
    · have hblank : ∀ b : Text, b.InlineBlanks → '|' ∉ b :=
        fun b hb hmem => absurd (hb _ hmem).1 (by decide)
      simp [hblank before hbefore, hblank after hafter, (hts t ht).2]
    · rw [Text.trim_padded hbefore.blanks hafter.blanks, (hts t ht).1.trimmed]
  rw [Text.splitAt_eq_splitOn]
  induction hs with
  | single t before after hbefore hafter =>
    obtain ⟨hbar, htrim⟩ := hpiece t (by simp) before after hbefore hafter
    rw [List.splitOn_eq_singleton hbar, List.map_singleton, htrim]
  | cons t before after ts s hbefore hafter hrest ih =>
    obtain ⟨hbar, htrim⟩ := hpiece t (by simp) before after hbefore hafter
    rw [List.splitOn_append_cons_self, List.splitOn_eq_singleton hbar, List.singleton_append,
      List.map_cons, htrim, ih (fun t ht => hts t (List.mem_cons_of_mem _ ht))
        fun t ht => hpiece t (List.mem_cons_of_mem _ ht)]

/-- A text that ends with brackets has them after any other character `c`. -/
theorem brackets_suffix_of_append_cons {front back : Text} {c : Char}
    (hc : c ≠ '[' ∧ c ≠ ']') (hsuffix : ['[', ']'] <:+ front ++ c :: back) :
    ['[', ']'] <:+ back := by
  -- read from the end: the brackets are the first two characters
  have hprefix : [']', '['] <+: back.reverse ++ c :: front.reverse := by
    simpa using List.reverse_prefix.mpr hsuffix
  rw [← List.reverse_prefix]
  change [']', '['] <+: back.reverse
  cases hback : back.reverse with
  | nil =>
    rw [hback] at hprefix
    simp [hc.2.symm] at hprefix
  | cons d back =>
    rw [hback] at hprefix
    cases back with
    | nil => simp [hc.1.symm] at hprefix
    | cons e back => simpa using hprefix

/-- What is `Atomic` ends with a character that is no blank. -/
theorem Atomic.exists_last {s : Text} (hs : Atomic s) :
    ∃ front c, s = front ++ [c] ∧ Text.isBlank c = false := by
  rcases List.eq_nil_or_concat s with hnil | ⟨front, c, hconcat⟩
  · exact absurd hnil hs.ne_nil
  · rw [List.concat_eq_append] at hconcat
    refine ⟨front, c, hconcat, (Text.trim_eq_self_iff.mp hs.trimmed).2 c ?_⟩
    rw [hconcat, List.getLast?_concat]
    rfl

/-- A union does not end with brackets, if its last type does not. -/
theorem UnionLayout.not_brackets_suffix {ts : List Text} {s : Text} (hs : UnionLayout ts s)
    (hts : ∀ t ∈ ts, Atomic t) (hlast : ∀ t ∈ ts.getLast?, ¬ ['[', ']'] <:+ t) :
    ¬ ['[', ']'] <:+ Text.trimEnd Text.isBlank s := by
  induction hs with
  | single t before after hbefore hafter =>
    have ht := hts t (by simp)
    have htight : Text.trimEnd Text.isBlank (before ++ t ++ after) = before ++ t := by
      obtain ⟨front, c, rfl, hc⟩ := ht.exists_last
      have hcut : before ++ (front ++ [c]) ++ after = (before ++ front) ++ c :: after := by simp
      rw [hcut, Text.trimEnd_append_cons hc, hafter.blanks.trimEnd_eq_nil, List.append_assoc]
    rw [htight]
    intro hsuffix
    refine hlast t (by simp) ?_
    rcases List.eq_nil_or_concat before with rfl | ⟨front, c, rfl⟩
    · exact hsuffix
    · rw [List.concat_eq_append, List.append_assoc, List.singleton_append] at hsuffix
      have hblank := (hbefore c (by simp)).1
      refine brackets_suffix_of_append_cons ⟨?_, ?_⟩ hsuffix <;> rintro rfl <;>
        exact absurd hblank (by decide)
  | cons t before after ts s hbefore hafter hrest ih =>
    rw [Text.trimEnd_append_cons (by decide)]
    intro hsuffix
    refine ih (fun t ht => hts t (List.mem_cons_of_mem _ ht)) ?_
      (brackets_suffix_of_append_cons (by decide) hsuffix)
    intro u hu
    refine hlast u ?_
    rw [Option.mem_def] at hu ⊢
    rw [List.getLast?_cons, hu, Option.getD_some]

/-- **`readTypes` reads the types back**, with the brackets. -/
theorem readTypes_layout {f : Field} (hf : f.Printable) {s : Text} (hs : TypesLayout f s) :
    readTypes s = (f.types, f.isArray) := by
  cases hs with
  | one s hflag hunion =>
    have hbrackets : ¬ ['[', ']'] <:+ Text.trim s := fun hsuffix =>
      hunion.not_brackets_suffix (fun t ht => (hf.types t ht).1) (hf.unbracketed hflag)
        (hsuffix.trans (Text.trim_suffix_trimEnd s))
    have hnone : beforeBack? "[]" (Text.trim s) = none := beforeBack?_eq_none hbrackets
    rw [readTypes, hnone, hflag]
    dsimp only
    rw [Text.trim, Text.trimEnds, Text.map_trim_splitAt_trimEnd (by decide),
      Text.map_trim_splitAt_dropWhile (by decide), hunion.map_trim_splitAt hf.types]
  | list s after hflag hunion hafter =>
    have hsome : beforeBack? "[]" (Text.trim (s ++ '[' :: ']' :: after))
        = some (s.dropWhile Text.isBlank) := by
      have hend := Text.trimEnd_append_cons (by decide : Text.isBlank ']' = false) [] after
      rw [List.nil_append, hafter.blanks.trimEnd_eq_nil, List.nil_append] at hend
      rw [Text.trim_append_cons (by decide), hend]
      exact beforeBack?_eq_some_iff.mpr rfl
    rw [readTypes, hsome, hflag]
    dsimp only
    rw [Text.map_trim_splitAt_dropWhile (by decide), hunion.map_trim_splitAt hf.types]

/-- `s.InlineBlanks` holds no `dividers`. -/
theorem undivided_of_inlineBlanks {s : Text} (hs : s.InlineBlanks) : ∀ c ∈ s, c ∉ dividers := by
  intro c hc hdivider
  obtain ⟨hblank, hline⟩ := hs c hc
  simp only [dividers, List.mem_cons, List.not_mem_nil, or_false] at hdivider
  rcases hdivider with rfl | rfl | rfl | rfl | rfl
  · exact absurd hblank (by decide)
  · exact absurd hblank (by decide)
  · exact hline rfl
  · exact absurd hblank (by decide)
  · exact absurd hblank (by decide)

/-- Texts without dividers, put together, hold none. -/
theorem undivided_append {s t : Text} (hs : ∀ c ∈ s, c ∉ dividers) (ht : ∀ c ∈ t, c ∉ dividers) :
    ∀ c ∈ s ++ t, c ∉ dividers := by
  intro c hc
  exact (List.mem_append.mp hc).elim (hs c) (ht c)

/-- One more character that is no divider. -/
theorem undivided_cons {c : Char} {s : Text} (hc : c ∉ dividers) (hs : ∀ c ∈ s, c ∉ dividers) :
    ∀ d ∈ c :: s, d ∉ dividers := by
  intro d hd
  rcases List.mem_cons.mp hd with rfl | hd
  · exact hc
  · exact hs d hd

/-- `NameLayout f s` holds no `dividers`. -/
theorem NameLayout.undivided {f : Field} (hf : f.Printable) {s : Text} (hs : NameLayout f s) :
    ∀ c ∈ s, c ∉ dividers := by
  cases hs with
  | required before after hflag hbefore hafter =>
    exact undivided_append
      (undivided_append (undivided_of_inlineBlanks hbefore) hf.name.undivided)
      (undivided_of_inlineBlanks hafter)
  | optional before between after hflag hbefore hbetween hafter =>
    exact undivided_append
      (undivided_append
        (undivided_append (undivided_of_inlineBlanks hbefore) hf.name.undivided)
        (undivided_of_inlineBlanks hbetween))
      (undivided_cons (by decide) (undivided_of_inlineBlanks hafter))

/-- `UnionLayout ts s` holds no `dividers`. -/
theorem UnionLayout.undivided {ts : List Text} {s : Text} (hs : UnionLayout ts s)
    (hts : ∀ t ∈ ts, Atomic t) : ∀ c ∈ s, c ∉ dividers := by
  induction hs with
  | single t before after hbefore hafter =>
    exact undivided_append
      (undivided_append (undivided_of_inlineBlanks hbefore) (hts t (by simp)).undivided)
      (undivided_of_inlineBlanks hafter)
  | cons t before after ts s hbefore hafter hrest ih =>
    exact undivided_append
      (undivided_append
        (undivided_append (undivided_of_inlineBlanks hbefore) (hts t (by simp)).undivided)
        (undivided_of_inlineBlanks hafter))
      (undivided_cons (by decide) (ih fun t ht => hts t (List.mem_cons_of_mem _ ht)))

/-- `TypesLayout f s` holds no `dividers`. -/
theorem TypesLayout.undivided {f : Field} (hf : f.Printable) {s : Text} (hs : TypesLayout f s) :
    ∀ c ∈ s, c ∉ dividers := by
  cases hs with
  | one s hflag hunion => exact hunion.undivided fun t ht => (hf.types t ht).1
  | list s after hflag hunion hafter =>
    exact undivided_append (hunion.undivided fun t ht => (hf.types t ht).1)
      (undivided_cons (by decide)
        (undivided_cons (by decide) (undivided_of_inlineBlanks hafter)))

/-- **`read? (Text.trim s) = some f`** for every layout `s` of a field `f`. -/
theorem read?_layout {f : Field} (hf : f.Printable) {s : Text} (hs : Layout f s) :
    read? (Text.trim s) = some f := by
  obtain ⟨left, right, hname, htypes⟩ := hs
  have hleft : ':' ∉ left.dropWhile Text.isBlank := fun hmem =>
    hname.undivided hf ':' ((List.dropWhile_suffix Text.isBlank).subset hmem) (by decide)
  have hright : ':' ∉ Text.trimEnd Text.isBlank right := fun hmem =>
    htypes.undivided hf ':' ((Text.trimEnd_prefix_self Text.isBlank right).subset hmem) (by decide)
  have hsplit : Text.splitAt ':' (Text.trim (left ++ ':' :: right))
      = [left.dropWhile Text.isBlank, Text.trimEnd Text.isBlank right] := by
    rw [Text.trim_append_cons (by decide), Text.splitAt_eq_splitOn, List.splitOn_append_cons_self,
      List.splitOn_eq_singleton hleft, List.splitOn_eq_singleton hright, List.singleton_append]
  have hreadName : readName (left.dropWhile Text.isBlank) = (f.name, f.nullable) := by
    rw [← readName_layout hf hname, readName, readName, Text.trim_dropWhile]
  have hreadTypes : readTypes (Text.trimEnd Text.isBlank right) = (f.types, f.isArray) := by
    rw [← readTypes_layout hf htypes, readTypes, readTypes, Text.trim_trimEnd]
  have hnonempty : (f.name.isEmpty || f.types.any List.isEmpty) = false := by
    rw [Bool.or_eq_false_iff, List.isEmpty_eq_false_iff, List.any_eq_false]
    refine ⟨hf.name.ne_nil, fun t ht hempty => ?_⟩
    exact (hf.types t ht).1.ne_nil (List.isEmpty_iff.mp hempty)
  rw [read?, hsplit]
  dsimp only
  rw [hreadName, hreadTypes]
  dsimp only
  rw [hnonempty, ← hf.dependsOn]
  rfl

/-! ## (3) Reading the fields of a body -/

/-- `texts (s ++ c :: t) = texts s ++ texts t`: a separator cuts the fields of a body in two. -/
theorem texts_append_cons {c : Char} (hc : isSeparator c = true) (s t : Text) :
    texts (s ++ c :: t) = texts s ++ texts t := by
  rw [texts, Text.splitWhere_eq_splitOnP, List.splitOnP_append_cons _ _ hc, List.map_append,
    List.filter_append, texts, texts, Text.splitWhere_eq_splitOnP, Text.splitWhere_eq_splitOnP]

/-- `texts (b ++ s) = texts s` for blanks and separators `b`. -/
theorem texts_separating_append {b : Text} (hb : b.Separating) (s : Text) :
    texts (b ++ s) = texts s := by
  induction b with
  | nil => rfl
  | cons c b ih =>
    have htail : texts (b ++ s) = texts s := ih fun d hd => hb d (List.mem_cons_of_mem _ hd)
    rw [← htail, List.cons_append]
    cases hc : isSeparator c with
    | true => exact texts_append_cons hc [] (b ++ s)
    | false =>
      -- a blank goes to the first piece, and is trimmed off again
      have hblank : Text.isBlank c = true := by
        rcases hb c (by simp) with hblank | rfl
        · exact hblank
        · cases hc
      have htrim : ∀ piece, Text.trim (c :: piece) = Text.trim piece :=
        fun piece => Text.blank_append_trim (b := [c]) (by simpa using hblank) piece
      rw [texts, Text.splitWhere, hc, texts]
      cases hsplit : Text.splitWhere isSeparator (b ++ s) with
      | nil => exact absurd hsplit (Text.splitWhere_ne_nil _ _)
      | cons piece pieces => simp [htrim]

/-- A body of blanks and separators has no fields. -/
theorem texts_eq_nil {b : Text} (hb : b.Separating) : texts b = [] := by
  have htexts := texts_separating_append hb []
  rw [List.append_nil] at htexts
  exact htexts

/-- The layout of a field holds no other divider than its colon. -/
theorem Layout.undivided {f : Field} (hf : f.Printable) {s : Text} (hs : Layout f s) :
    ∀ c ∈ s, c = ':' ∨ c ∉ dividers := by
  obtain ⟨left, right, hname, htypes⟩ := hs
  intro c hc
  rcases List.mem_append.mp hc with hc | hc
  · exact Or.inr (hname.undivided hf c hc)
  · rcases List.mem_cons.mp hc with hc | hc
    · exact Or.inl hc
    · exact Or.inr (htypes.undivided hf c hc)

/-- `texts (s ++ b) = [Text.trim s]`: a field with blanks after it is one field. -/
theorem texts_layout_append {f : Field} (hf : f.Printable) {s : Text} (hs : Layout f s)
    {b : Text} (hb : b.Separating) (hline : ∀ c ∈ b, isSeparator c = false) :
    texts (s ++ b) = [Text.trim s] := by
  have hblank : b.Blanks := by
    intro c hc
    rcases hb c hc with hblank | rfl
    · exact hblank
    · exact absurd (hline _ hc) (by decide)
  have hnone : ∀ c ∈ s ++ b, isSeparator c = false := by
    intro c hc
    rcases List.mem_append.mp hc with hc | hc
    · rcases hs.undivided hf c hc with rfl | hdivider
      · decide
      · simp only [dividers, List.mem_cons, List.not_mem_nil, or_false, not_or] at hdivider
        simp [isSeparator, hdivider]
    · exact hline c hc
  have hne : (Text.trim s).isEmpty = false := by
    obtain ⟨left, right, -, -⟩ := hs
    rw [Text.trim_append_cons (by decide), List.isEmpty_eq_false_iff]
    simp
  rw [texts, Text.splitWhere_eq_splitOnP, List.splitOnP_eq_singleton hnone, List.map_singleton,
    Text.trim_append_blank hblank]
  simp [hne]

/-- **A field ends at the first separator after it** in `texts`: what stands before that separator
is blank and belongs to the field, what follows it does not matter to the fields to come. -/
theorem texts_layout_cons {f : Field} (hf : f.Printable) {s : Text} (hs : Layout f s)
    {between : Text} (hbetween : between.Separating) (rest : Text)
    (hdivides : (∃ c ∈ between, isSeparator c = true) ∨ rest = []) :
    texts (s ++ between ++ rest) = Text.trim s :: texts rest := by
  cases hfind : between.find? isSeparator with
  | none =>
    have hline : ∀ c ∈ between, isSeparator c = false :=
      fun c hc => by simpa using List.find?_eq_none.mp hfind c hc
    obtain rfl : rest = [] := by
      refine hdivides.resolve_left ?_
      rintro ⟨c, hc, hsep⟩
      rw [hline c hc] at hsep
      cases hsep
    rw [List.append_nil, texts_layout_append hf hs hbetween hline]
    rfl
  | some c =>
    obtain ⟨hc, front, back, rfl, hline⟩ := List.find?_eq_some_iff_append.mp hfind
    have hfront : Text.Separating front := fun d hd => hbetween d (by simp [hd])
    have hback : Text.Separating back := fun d hd => hbetween d (by simp [hd])
    have hcut : s ++ (front ++ c :: back) ++ rest = (s ++ front) ++ c :: (back ++ rest) := by simp
    rw [hcut, texts_append_cons hc, texts_separating_append hback,
      texts_layout_append hf hs hfront fun d hd => by simpa using hline d hd,
      List.singleton_append]

/-- **`texts` cuts a body into its fields**, and `read?` reads each of them back. -/
theorem texts_layout {fields : List Field} (hfields : ∀ f ∈ fields, f.Printable) {s : Text}
    (hs : ListLayout fields s) :
    List.Forall₂ (fun t f => read? t = some f) (texts s) fields := by
  induction hs with
  | single f s after hfield hafter =>
    have hf := hfields f (by simp)
    have htexts := texts_layout_cons hf hfield hafter [] (Or.inr rfl)
    rw [List.append_nil] at htexts
    rw [htexts]
    exact .cons (read?_layout hf hfield) .nil
  | cons f fields s between rest hfield hbetween hdivides hrest ih =>
    have hf := hfields f (by simp)
    rw [texts_layout_cons hf hfield hbetween rest (Or.inl hdivides)]
    exact .cons (read?_layout hf hfield) (ih fun f hf => hfields f (List.mem_cons_of_mem _ hf))

/-- All fields of a body are read back, whatever the source. -/
theorem BodyLayout.mapM_ofText {fields : List Field} (hfields : ∀ f ∈ fields, f.Printable)
    {s : Text} (hs : BodyLayout fields s) (path : Text) :
    (texts s).mapM (ofText path) = .ok fields := by
  cases hs with
  | empty s hblanks =>
    rw [texts_eq_nil fun c hc => Or.inl (hblanks c hc)]
    rfl
  | fields fields before s hbefore hlist =>
    rw [texts_separating_append hbefore, Fallible.mapM_eq_ok_iff]
    refine (texts_layout hfields hlist).imp fun t f hread => ?_
    rw [ofText, hread]

/-- Blanks and separators are no braces. -/
theorem braceless_of_separating {s : Text} (hs : s.Separating) : Braceless s := by
  intro c hc
  rcases hs c hc with hblank | rfl
  · constructor <;> rintro rfl <;> exact absurd hblank (by decide)
  · decide

/-- `Layout f s` holds no braces. -/
theorem Layout.braceless {f : Field} (hf : f.Printable) {s : Text} (hs : Layout f s) :
    Braceless s := by
  intro c hc
  rcases hs.undivided hf c hc with rfl | hdivider
  · decide
  · simp only [dividers, List.mem_cons, List.not_mem_nil, or_false, not_or] at hdivider
    exact hdivider.2.2.2

/-- `BodyLayout fields s` holds no braces. -/
theorem BodyLayout.braceless {fields : List Field} (hfields : ∀ f ∈ fields, f.Printable)
    {s : Text} (hs : BodyLayout fields s) : Braceless s := by
  cases hs with
  | empty s hblanks => exact braceless_of_separating fun c hc => Or.inl (hblanks c hc)
  | fields fields before s hbefore hlist =>
    refine (braceless_of_separating hbefore).append ?_
    clear hbefore
    induction hlist with
    | single f s after hfield hafter =>
      exact (hfield.braceless (hfields f (by simp))).append (braceless_of_separating hafter)
    | cons f fields s between rest hfield hbetween hdivides hrest ih =>
      have hfront := (hfield.braceless (hfields f (by simp))).append
        (braceless_of_separating hbetween)
      exact hfront.append (ih fun f hf => hfields f (List.mem_cons_of_mem _ hf))

/-- `2 ≤ s.length`: a field takes more than one character. -/
theorem Layout.two_le_length {f : Field} (hf : f.Printable) {s : Text} (hs : Layout f s) :
    2 ≤ s.length := by
  obtain ⟨left, right, hname, -⟩ := hs
  have hleft : 0 < left.length := by
    have hpos := List.length_pos_iff.mpr hf.name.ne_nil
    cases hname with
    | required before after =>
      simp only [List.length_append]
      omega
    | optional before between after =>
      simp only [List.length_append]
      omega
  simp only [List.length_append, List.length_cons]
  omega

/-- **`Body.fits`: the layout of a body may stand in a declaration.** -/
theorem BodyLayout.fits {fields : List Field} (hfields : ∀ f ∈ fields, f.Printable) {s : Text}
    (hs : BodyLayout fields s) : Body.fits ⟨s, []⟩ = true := by
  change (s.all Text.isBlank || decide (2 ≤ s.length)) = true
  rw [Bool.or_eq_true, decide_eq_true_eq]
  cases hs with
  | empty s hblanks => exact Or.inl (List.all_eq_true.mpr hblanks)
  | fields fields before s hbefore hlist =>
    refine Or.inr ?_
    cases hlist with
    | single f s after hfield hafter =>
      have hlength := hfield.two_le_length (hfields f (by simp))
      simp only [List.length_append]
      omega
    | cons f fields s between rest hfield hbetween hdivides hrest =>
      have hlength := hfield.two_le_length (hfields f (by simp))
      simp only [List.length_append]
      omega

end Field

/-! ## (4) Reading a source -/

namespace Record

/-- **`Layout r s` is a declaration of `r`**, which `ofDeclaration` reads back. -/
theorem Layout.exists_declaration {r : Record} (hr : r.Printable) {s : Text} (hs : Layout r s) :
    ∃ d : Declaration, d.Admits ∧ d.text = s ∧ ofDeclaration r.sourcePath d = .ok r := by
  obtain ⟨gap, space, body, hgap, hgapBlanks, hspace, hbody⟩ := hs
  refine ⟨⟨gap, r.name, space, ⟨body, []⟩⟩, ?_, ?_, ?_⟩
  · exact ⟨hgap, hgapBlanks, hr.name_ne_nil, hr.name_word, hspace,
      ⟨hbody.braceless hr.printable, by simp⟩, hbody.fits hr.printable⟩
  · simp [Declaration.text, Body.text]
  · dsimp only [ofDeclaration]
    rw [if_pos List.isEmpty_nil, hbody.mapM_ofText hr.printable]
    change Except.ok (ofFields r.name r.sourcePath r.fields) = _
    rw [ofFields, ← hr.dependsOn]

/-- Blanks in front of a source do not matter. -/
theorem SourceLayout.dropWhile {records : List Record} {s : Text} (hs : SourceLayout records s) :
    SourceLayout records (s.dropWhile Text.isBlank) := by
  have hsub : ∀ noise : Text, ¬ Declaration.keyword <:+: noise →
      ¬ Declaration.keyword <:+: noise.dropWhile Text.isBlank :=
    fun noise hnoise h => hnoise (h.trans (List.dropWhile_suffix Text.isBlank).isInfix)
  cases hs with
  | nil _ hnoise => exact .nil _ (hsub _ hnoise)
  | cons r records noise s rest hnoise hrecord hrest =>
    obtain ⟨c, tail, hcons, hc⟩ : ∃ c tail, s = c :: tail ∧ Text.isBlank c = false := by
      obtain ⟨gap, space, body, -, -, -, -⟩ := hrecord
      exact ⟨'i', _, rfl, by decide⟩
    have hdrop : (noise ++ s ++ rest).dropWhile Text.isBlank
        = noise.dropWhile Text.isBlank ++ s ++ rest := by
      rw [hcons, List.append_assoc, List.cons_append, Text.dropWhile_append_cons hc,
        List.append_assoc, List.cons_append]
    rw [hdrop]
    exact .cons r records _ s rest (hsub noise hnoise) hrecord hrest

/-- **`Declaration.all s` are the declarations of the records.** The induction is on the records:
after each of them the scan passes over blanks, which leaves a layout of the records to come. -/
theorem all_layout {path : Text} {records : List Record} (hrecords : ∀ r ∈ records, r.Printable)
    (hpath : ∀ r ∈ records, r.sourcePath = path) {s : Text} (hs : SourceLayout records s) :
    List.Forall₂ (fun d r => ofDeclaration path d = .ok r) (Declaration.all s) records := by
  induction records generalizing s with
  | nil =>
    cases hs with
    | nil _ hnoise =>
      have hall := Declaration.all_noise_append hnoise (Or.inl rfl)
      rw [List.append_nil] at hall
      rw [hall, Declaration.all]
      exact .nil
  | cons r records ih =>
    cases hs with
    | cons _ _ noise s rest hnoise hrecord hrest =>
      obtain ⟨d, hd, rfl, hread⟩ := hrecord.exists_declaration (hrecords r (by simp))
      have hkeyword : Declaration.keyword <+: d.text ++ rest := by
        rw [Declaration.text]
        simp only [List.append_assoc]
        exact List.prefix_append _ _
      rw [List.append_assoc, Declaration.all_noise_append hnoise (Or.inr hkeyword),
        Declaration.all_text_append hd]
      refine .cons (hpath r (by simp) ▸ hread) (ih ?_ ?_ hrest.dropWhile)
      · exact fun r hr => hrecords r (List.mem_cons_of_mem _ hr)
      · exact fun r hr => hpath r (List.mem_cons_of_mem _ hr)

end Record

/-- **`ofSource` undoes printing**, whatever the layout and the text around the records. -/
theorem SourceRecords.ofSource_layout {path s : Text} {records : List Record}
    (hrecords : ∀ r ∈ records, r.Printable) (hpath : ∀ r ∈ records, r.sourcePath = path)
    (hs : Record.SourceLayout records s) :
    SourceRecords.ofSource ⟨path, s⟩ = .ok ⟨path, records⟩ := by
  have hall : (Declaration.all s).mapM (Record.ofDeclaration path) = .ok records :=
    Fallible.mapM_eq_ok_iff.mpr (Record.all_layout hrecords hpath hs)
  exact Fallible.bind_eq_ok_iff.mpr ⟨records, hall, rfl⟩

/-- A field with both marks and a field with none. -/
def crowdedFields : List Field :=
  [⟨"x", ["B", "null"], true, true, ["B"]⟩, ⟨"y", ["C"], false, false, ["C"]⟩]

/-- Two records are read back from one crowded text. Before the first stands a part of the keyword,
and there are braces around the second. -/
theorem SourceRecords.ofSource_crowded :
    SourceRecords.ofSource ⟨"a.ts",
        "\x7b interfacinterface  A\n\x7b;\n x ? : B | null [] ; y:C\n\x7d \x7binterface E\x7b\x7d."⟩
      = .ok ⟨"a.ts", [.ofFields "A" "a.ts" crowdedFields, .ofFields "E" "a.ts" []]⟩ := by
  have hx : Field.Layout ⟨"x", ["B", "null"], true, true, ["B"]⟩ _ :=
    .intro _ _ (.optional "" " " " " rfl (by decide) (by decide) (by decide))
      (.list _ "" rfl
        (.cons "B" " " " " ["null"] _ (by decide) (by decide)
          (.single "null" " " " " (by decide) (by decide)))
        (by decide))
  have hy : Field.Layout ⟨"y", ["C"], false, false, ["C"]⟩ _ :=
    .intro _ _ (.required "" "" rfl (by decide) (by decide))
      (.one _ rfl (.single "C" "" "" (by decide) (by decide)))
  have hA : Record.Layout (.ofFields "A" "a.ts" crowdedFields) _ :=
    .intro "  " "\n" _ (by decide) (by decide) (by decide)
      (.fields _ ";\n " _ (by decide)
        (.cons _ _ _ " ; " _ hx (by decide) ⟨';', by decide, rfl⟩
          (.single _ _ "\n" hy (by decide))))
  have hE : Record.Layout (.ofFields "E" "a.ts" []) _ :=
    .intro " " "" _ (by decide) (by decide) (by decide) (.empty "" (by decide))
  have hsource := Record.SourceLayout.cons _ _ "\x7b interfac" _ _ (by decide +kernel) hA
    (.cons _ _ " \x7b" _ _ (by decide +kernel) hE (.nil "." (by decide +kernel)))
  have hread : SourceRecords.ofSource ⟨"a.ts", _⟩ = _ :=
    SourceRecords.ofSource_layout (by decide +kernel) (by decide +kernel) hsource
  refine (congrArg (fun s => SourceRecords.ofSource ⟨"a.ts", s⟩) ?_).trans hread
  decide +kernel

end InterfaceSchemes
