import InterfaceSchemes.Proofs.Scanning

/-! # Declarations that are passed over

A body with too little room around its group, or with one character alone, is none of the grammar. A
declaration with such a body is no error: it is passed over, and what stands inside it is read in its
place.

* **`Body.Cramped`** — the bodies with at most one group that have too little room.
* **`Declaration.all_text_of_not_fits`** — such a declaration is passed over up to its body.
* **`SourceRecords.ofSource_declaration`** — what a source with one declaration is read as. -/

namespace InterfaceSchemes

/-! ## (1) Bodies without room -/

/-- **A body with too little room.** -/
inductive Body.Cramped : Body → Prop
  /-- One character alone that is no blank. -/
  | alone {c : Char} : Text.isBlank c = false → Cramped ⟨[c], []⟩
  /-- A group that is empty, or with nothing before it or after it. -/
  | group {first inside after : Text} : first = [] ∨ inside = [] ∨ after = [] →
      Cramped ⟨first, [(inside, after)]⟩

/-- `b.fits = false` without groups: the body has fewer than two characters and is not blank. -/
theorem Body.fits_eq_false_iff {b : Body} (hgroups : b.groups = []) :
    b.fits = false ↔ b.first.all Text.isBlank = false ∧ b.first.length < 2 := by
  rw [fits, hgroups, List.isEmpty_nil, if_pos rfl, Bool.or_eq_false_iff, decide_eq_false_iff_not,
    Nat.not_le]

/-- **`b.Cramped ↔ b.fits = false`** for bodies with at most one group. -/
theorem Body.cramped_iff {b : Body} (hone : b.groups.length ≤ 1) :
    b.Cramped ↔ b.fits = false := by
  obtain ⟨first, groups⟩ := b
  match groups with
  | [] =>
    rw [fits_eq_false_iff rfl]
    constructor
    · intro hcramped
      cases hcramped with
      | alone hc => simp [hc]
    · rintro ⟨hblank, hshort⟩
      match first with
      | [] => exact absurd hblank (by simp)
      | [c] => exact .alone (by simpa using hblank)
      | _ :: _ :: _ => exact absurd hshort (by simp)
  | [(inside, after)] =>
    have hfits : fits ⟨first, [(inside, after)]⟩ = false ↔ first = [] ∨ inside = [] ∨ after = [] := by
      cases first <;> cases inside <;> cases after <;> simp [fits, groupsFit]
    rw [hfits]
    constructor
    · intro hcramped
      cases hcramped with
      | group hroom => exact hroom
    · exact .group
  | _ :: _ :: _ => exact absurd hone (by simp)

/-- The keyword does not stand in a body without groups that does not fit, which is too short. -/
theorem Body.not_keyword_infix_of_not_fits (b : Body) (hgroups : b.groups = [])
    (hfits : b.fits = false) : ¬ Declaration.keyword <:+: b.text := by
  intro hinfix
  have hshort : b.first.length < 2 := ((fits_eq_false_iff hgroups).mp hfits).2
  have hlong : 9 ≤ b.text.length := hinfix.length_le
  rw [text, hgroups, List.flatMap_nil, List.append_nil] at hlong
  omega

/-! ## (2) Passing over a declaration -/

namespace Declaration

/-- `all (s ++ t) = all t` where the first letter of the keyword does not stand in `s`. -/
theorem all_append_of_forall_ne {s : Text} (hs : ∀ c ∈ s, c ≠ 'i') (t : Text) :
    all (s ++ t) = all t := by
  induction s with
  | nil => rfl
  | cons c s ih =>
    obtain ⟨hc, hrest⟩ := List.forall_mem_cons.mp hs
    have hread : read? (c :: (s ++ t)) = none := by
      refine read?_eq_none ?_
      rintro ⟨rest, hrest⟩
      exact hc (List.cons.inj hrest).1.symm
    rw [List.cons_append, all_cons_of_read?_eq_none hread, ih hrest]

/-- **`read?` finds no declaration in a name**, not even in one that ends with the keyword: a word
and blanks before a brace leave no second word for a name. -/
theorem read?_word_brace {word space : Text} (hword : ∀ c ∈ word, Text.isWord c = true)
    (hspace : space.Blanks) (inside : Text) : read? (word ++ (space ++ '\x7b' :: inside)) = none := by
  rw [Option.eq_none_iff_forall_ne_some]
  rintro ⟨d, rest⟩ hread
  obtain ⟨hd, hsplit⟩ := read?_eq_some_iff.mp hread
  have hkeyword : ∀ c ∈ keyword, Text.isWord c = true := List.all_eq_true.mp (by decide +kernel)
  obtain ⟨g, gap, hgap⟩ := List.exists_cons_of_ne_nil hd.gap_ne_nil
  obtain ⟨n, name, hname⟩ := List.exists_cons_of_ne_nil hd.name_ne_nil
  set after := d.name ++ (d.space ++ '\x7b' :: (d.body.text ++ '\x7d' :: rest)) with hafter
  have htext : d.text ++ rest = keyword ++ (d.gap ++ after) := by simp [text, hafter]
  -- both sides are cut after the first word, and then after the blanks that follow it
  have hgapHead : ∀ c ∈ (d.gap ++ after).head?, Text.isWord c = false := by
    intro c hc
    obtain rfl : g = c := by simpa [hgap] using hc
    exact Text.isWord_eq_false_of_isBlank (hd.gap_blank g (by simp [hgap]))
  have hnameWord : Text.isWord n = true := hd.name_word n (by simp [hname])
  have hnameHead : ∀ c ∈ after.head?, Text.isBlank c = false := by
    intro c hc
    obtain rfl : n = c := by simpa [hafter, hname] using hc
    exact Text.isBlank_eq_false_of_isWord hnameWord
  have hblanks : space ++ '\x7b' :: inside = d.gap ++ after := by
    rw [← (Text.span_append hword (isWord_head?_blanks_brace hspace inside)).2, hsplit, htext,
      (Text.span_append hkeyword hgapHead).2]
  have hbrace : '\x7b' :: inside = after := by
    rw [← (Text.span_append hspace (isBlank_head?_brace inside)).2, hblanks,
      (Text.span_append hd.gap_blank hnameHead).2]
  obtain rfl : '\x7b' = n := by
    rw [hafter, hname] at hbrace
    exact (List.cons.inj hbrace).1
  exact absurd hnameWord (by decide +kernel)

/-- `all` goes on after the brace, from a name. -/
theorem all_word_brace {word space : Text} (hword : ∀ c ∈ word, Text.isWord c = true)
    (hspace : space.Blanks) (inside : Text) :
    all (word ++ (space ++ '\x7b' :: inside)) = all inside := by
  induction word with
  | nil =>
    have hnone : ∀ c ∈ space ++ ['\x7b'], c ≠ 'i' := by
      rintro c hc rfl
      rcases List.mem_append.mp hc with hc | hc
      · exact absurd (hspace 'i' hc) (by decide)
      · exact absurd hc (by decide)
    simpa using all_append_of_forall_ne hnone inside
  | cons c word ih =>
    have hread := read?_word_brace hword hspace inside
    rw [List.cons_append] at hread ⊢
    rw [all_cons_of_read?_eq_none hread]
    exact ih fun c' hc' => hword c' (List.mem_cons_of_mem c hc')

/-- **`all d.text = all (d.body.text ++ ..)`**: a declaration whose body does not fit is passed
over, and the scan goes on in its body. -/
theorem all_text_of_not_fits {d : Declaration} (hd : d.Shaped) (hfits : d.body.fits = false) :
    all d.text = all (d.body.text ++ ['\x7d']) := by
  have hread := read?_text_append_of_shaped hd []
  rw [hfits, if_neg Bool.false_ne_true, List.append_nil] at hread
  have htext : d.text = 'i' :: ((keyword.tail ++ d.gap) ++
      (d.name ++ (d.space ++ '\x7b' :: (d.body.text ++ ['\x7d'])))) := by
    have hkeyword : keyword = 'i' :: keyword.tail := rfl
    rw [text, hkeyword]
    simp
  have hnone : ∀ c ∈ keyword.tail ++ d.gap, c ≠ 'i' := by
    rintro c hc rfl
    rcases List.mem_append.mp hc with hc | hc
    · exact absurd hc (by decide)
    · exact absurd (hd.gap.2 'i' hc) (by decide)
  rw [htext] at hread ⊢
  rw [all_cons_of_read?_eq_none hread, all_append_of_forall_ne hnone,
    all_word_brace hd.name.2 hd.space]

/-! ## (3) What stands inside -/

/-- Nothing is declared in a text without the keyword, nor in one with a closing brace after it. -/
theorem all_append_brace_eq_nil {s : Text} (hs : ¬ keyword <:+: s) : all (s ++ ['\x7d']) = [] := by
  have hnoise : ¬ keyword <:+: s ++ ['\x7d'] := by
    intro hinfix
    rcases List.infix_concat_iff.mp hinfix with ⟨front, hsuffix⟩ | hinfix
    · -- the keyword does not end with a brace
      have hkeyword : keyword.getLast? = some 'e' := rfl
      have hlast := congrArg List.getLast? hsuffix
      rw [List.getLast?_concat, List.getLast?_append, hkeyword, Option.some_or] at hlast
      exact absurd hlast (by decide)
    · exact hs hinfix
  simpa [all] using all_noise_append hnoise (t := []) (Or.inl rfl)

/-- `d.text <:+: s`: a declaration of a text stands in it. -/
theorem text_infix_of_mem_all {s : Text} {d : Declaration} (hd : d ∈ all s) : d.text <:+: s := by
  fun_induction all s with
  | case1 => cases hd
  | case2 c tail first rest hread ih =>
    rw [eq_of_read? hread]
    rcases List.mem_cons.mp hd with rfl | hd
    · exact (List.prefix_append d.text rest).isInfix
    · have hrest := (ih hd).trans (List.dropWhile_suffix Text.isBlank).isInfix
      exact hrest.trans (List.suffix_append first.text rest).isInfix
  | case3 c tail hread ih => exact (ih hd).trans (List.suffix_cons c tail).isInfix

/-- `d.text` has an opening brace for the body and one for each group. -/
theorem length_groups_lt_count (d : Declaration) : d.body.groups.length < d.text.count '\x7b' := by
  have hgroups : ∀ groups : List (Text × Text),
      groups.length ≤ (groups.flatMap Body.groupText).count '\x7b' := by
    intro groups
    induction groups with
    | nil => simp
    | cons group groups ih =>
      rw [List.flatMap_cons, List.count_append, Body.groupText, List.count_cons_self,
        List.length_cons]
      omega
  have hbody := hgroups d.body.groups
  simp only [text, Body.text, List.count_append, List.count_cons_self]
  omega

/-- **`d.body.groups = []`** for what stands inside a body with at most one group. -/
theorem groups_eq_nil_of_mem_all {b : Body} (hb : b.Plain) (hone : b.groups.length ≤ 1)
    {d : Declaration} (hd : d ∈ all (b.text ++ ['\x7d'])) : d.body.groups = [] := by
  have hless := length_groups_lt_count d
  have hcount : d.text.count '\x7b' ≤ (b.text ++ ['\x7d']).count '\x7b' :=
    (text_infix_of_mem_all hd).sublist.count_le '\x7b'
  have hzero : ∀ s : Text, Braceless s → s.count '\x7b' = 0 := fun s hs =>
    List.count_eq_zero.mpr fun hmem => (hs _ hmem).1 rfl
  have hinner : (b.text ++ ['\x7d']).count '\x7b' ≤ 1 := by
    obtain ⟨first, groups⟩ := b
    match groups with
    | [] => simp [Body.text, hzero first hb.first]
    | [(inside, after)] =>
      obtain ⟨hinside, hafter⟩ := hb.groups (inside, after) (by simp)
      simp [Body.text, Body.groupText, hzero first hb.first, hzero inside hinside,
        hzero after hafter]
    | _ :: _ :: _ => exact absurd hone (by simp)
  exact List.length_eq_zero_iff.mp (by omega)

end Declaration

/-! ## (4) Sources with one declaration -/

namespace SourceRecords

/-- `ofSource ⟨path, d.text⟩` is the record of `d`, if `d` is admitted. -/
theorem ofSource_of_admits (path : Text) {d : Declaration} (hd : d.Admits) :
    ofSource ⟨path, d.text⟩
      = (Record.ofDeclaration path d).map fun r => SourceRecords.mk path [r] := by
  have hall : Declaration.all d.text = [d] := by
    simpa [Declaration.all] using Declaration.all_text_append hd []
  rw [ofSource_eq, hall]
  cases hrecord : Record.ofDeclaration path d with
  | error e => simp [hrecord, Except.map, bind, Except.bind]
  | ok r => simp [hrecord, Except.map, bind, Except.bind, pure, Except.pure]

/-- A source none of whose declarations has groups is not malformed as a whole. -/
theorem kind_ne_of_ofSource {path s : Text} {e : Error}
    (hgroups : ∀ d ∈ Declaration.all s, d.body.groups = []) (he : ofSource ⟨path, s⟩ = .error e) :
    e.kind ≠ "malformed-interface" := by
  intro hkind
  rw [ofSource_eq] at he
  cases hrecords : (Declaration.all s).mapM (Record.ofDeclaration path) with
  | ok records =>
    rw [hrecords] at he
    cases he
  | error e' =>
    rw [hrecords] at he
    cases he
    obtain ⟨d, hd, hfails⟩ := Fallible.exists_of_mapM_eq_error hrecords
    exact (Record.ofDeclaration_malformed_iff path d).mp ⟨e, hfails, hkind⟩ (hgroups d hd)

/-- **`ofSource ⟨path, d.text⟩`: what a source with one declaration is read as**, if the body of the
declaration has at most one group. With room in the body the declaration is never passed over:
without a group it gives its record or a malformed field, with a group it is refused. Without room,
where it is `Cramped`, it is passed over. The source is then read as what stands inside the body,
which is nothing unless the keyword stands there, and never is it refused for the group. -/
theorem ofSource_declaration (path : Text) {d : Declaration} (hd : d.Shaped)
    (hone : d.body.groups.length ≤ 1) :
    (¬ d.body.Cramped →
      (d.body.groups = [] →
        (∃ r, ofSource ⟨path, d.text⟩ = .ok ⟨path, [r]⟩ ∧ r.name = d.name) ∨
          ∃ field, ofSource ⟨path, d.text⟩ = .error (.malformedField path field)) ∧
      (d.body.groups ≠ [] → ofSource ⟨path, d.text⟩ = .error (.nestedGroup path d.text))) ∧
    (d.body.Cramped →
      ofSource ⟨path, d.text⟩ = ofSource ⟨path, d.body.text ++ ['\x7d']⟩ ∧
      (d.body.groups = [] ∨ ¬ Declaration.keyword <:+: d.body.text →
        ofSource ⟨path, d.text⟩ = .ok ⟨path, []⟩) ∧
      ∀ e, ofSource ⟨path, d.text⟩ = .error e → e.kind ≠ "malformed-interface") := by
  rw [Body.cramped_iff hone, Bool.not_eq_false]
  constructor
  · intro hfits
    rw [ofSource_of_admits path (Declaration.admits_iff.mpr ⟨hd, hfits⟩)]
    constructor
    · intro hgroups
      rcases Record.ofDeclaration_cases path hgroups with ⟨r, hr, hname⟩ | ⟨field, hfield⟩
      · exact Or.inl ⟨r, by rw [hr]; rfl, hname⟩
      · exact Or.inr ⟨field, by rw [hfield]; rfl⟩
    · intro hgroups
      rw [Record.ofDeclaration_of_groups path hgroups]
      rfl
  · intro hfits
    have hall := Declaration.all_text_of_not_fits hd hfits
    refine ⟨by rw [ofSource_eq, ofSource_eq, hall], ?_, ?_⟩
    · intro hempty
      have hkeyword : ¬ Declaration.keyword <:+: d.body.text := by
        rcases hempty with hgroups | hkeyword
        · exact d.body.not_keyword_infix_of_not_fits hgroups hfits
        · exact hkeyword
      rw [ofSource_eq, hall, Declaration.all_append_brace_eq_nil hkeyword]
      rfl
    · intro e he
      refine kind_ne_of_ofSource (fun inner hinner => ?_) he
      rw [hall] at hinner
      exact Declaration.groups_eq_nil_of_mem_all hd.plain hone hinner

/-- A declaration with a group, and a text after the group. -/
def inline (after : Text) : Declaration := ⟨" ", "A", " ", ⟨"b: ", [("c: number", after)]⟩⟩

/-- `(inline after).Shaped`: the parts of the declaration are of their classes. -/
theorem inline_shaped {after : Text} (hafter : Braceless after) : (inline after).Shaped := by
  have hblank : ([' '] : Text).all Text.isBlank = true := by decide
  have hword : (['A'] : Text).all Text.isWord = true := by decide +kernel
  have hfirst : ("b: " : Text).all Body.isPlain = true := by decide
  have hinside : ("c: number" : Text).all Body.isPlain = true := by decide
  refine ⟨⟨List.cons_ne_nil _ _, List.all_eq_true.mp hblank⟩,
    ⟨List.cons_ne_nil _ _, List.all_eq_true.mp hword⟩, List.all_eq_true.mp hblank,
    braceless_iff.mpr (List.all_eq_true.mp hfirst), ?_⟩
  intro group hgroup
  obtain rfl := List.mem_singleton.mp hgroup
  exact ⟨braceless_iff.mpr (List.all_eq_true.mp hinside), hafter⟩

/-- The text of the declaration with nothing after the group. -/
theorem text_inline_nil : (inline []).text = "interface A \x7bb: \x7bc: number\x7d\x7d".toList := by
  decide +kernel

/-- The group is refused where a semicolon follows it, and not where nothing does. -/
theorem ofSource_inline :
    ofSource ⟨"a.ts", (inline [';']).text⟩ = .error (.nestedGroup "a.ts" (inline [';']).text) ∧
      ∀ e, ofSource ⟨"a.ts", (inline []).text⟩ = .error e → e.kind ≠ "malformed-interface" := by
  have hone (after : Text) : (inline after).body.groups.length ≤ 1 := Nat.le_refl 1
  have hroom : ¬ (inline [';']).body.Cramped := by
    rw [Body.cramped_iff (hone [';']), Bool.not_eq_false]
    decide +kernel
  have hcramped : (inline []).body.Cramped := .group (Or.inr (Or.inr rfl))
  have hsemicolon : Braceless [';'] := braceless_cons.mpr ⟨by decide, braceless_nil⟩
  have hreported := (ofSource_declaration "a.ts" (inline_shaped hsemicolon) (hone [';'])).1 hroom
  have homitted := (ofSource_declaration "a.ts" (inline_shaped braceless_nil) (hone [])).2 hcramped
  exact ⟨hreported.2 (List.cons_ne_nil _ _), homitted.2.2⟩

/-- **A group at the end of a body is not refused**: its declaration is passed over. -/
theorem ofSource_group_at_end :
    ofSource ⟨"a.ts", "interface A \x7bb: \x7bc: number\x7d\x7d"⟩ = .ok ⟨"a.ts", []⟩ := by
  have hkeyword : ¬ Declaration.keyword <:+: (inline []).body.text := by decide +kernel
  have hfits : (inline []).body.fits = false := by decide +kernel
  have hall : Declaration.all (inline []).text = [] := by
    rw [Declaration.all_text_of_not_fits (inline_shaped braceless_nil) hfits,
      Declaration.all_append_brace_eq_nil hkeyword]
  rw [← text_inline_nil, ofSource_eq, hall]
  rfl

end SourceRecords

end InterfaceSchemes
