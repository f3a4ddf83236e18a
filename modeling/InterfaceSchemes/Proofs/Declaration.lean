import InterfaceSchemes.Declaration.Basic
import InterfaceSchemes.Proofs.Text

/-! # The grammar of declarations

The reader of declarations accepts exactly the texts that `Declaration.text` spells, and every
declaration that it gives is admitted by a grammar that does not mention the reader.

* **`Body.Plain`** — a body whose texts hold no braces, so its braces are those of its groups.
* **`Declaration.Admits`** — the classes of characters of each part, and a body that fits.
* **`Declaration.Shaped`** — the classes of characters of each part alone.
* **`Declaration.read?_eq_some_iff`** — the reader gives `d` and `rest` exactly when `d` is admitted
  and the text is `d.text ++ rest`.
* **`Declaration.all_noise_append`**, **`Declaration.all_text_append`** — the scan passes over noise
  and takes the declaration after it. -/

namespace InterfaceSchemes

/-- A text without braces. -/
def Braceless (s : Text) : Prop := ∀ c ∈ s, c ≠ '\x7b' ∧ c ≠ '\x7d'

/-- `Braceless` character by character. -/
theorem braceless_cons {c : Char} {s : Text} :
    Braceless (c :: s) ↔ (c ≠ '\x7b' ∧ c ≠ '\x7d') ∧ Braceless s := by
  simp [Braceless]

/-- The empty text is without braces. -/
theorem braceless_nil : Braceless [] := by
  simp [Braceless]

/-- `Braceless (s ++ t)` if both are. -/
theorem Braceless.append {s t : Text} (hs : Braceless s) (ht : Braceless t) : Braceless (s ++ t) :=
  fun c hc => (List.mem_append.mp hc).elim (hs c) (ht c)

/-! ## (1) Bodies -/

namespace Body

/-- A body whose texts hold no braces. -/
structure Plain (b : Body) : Prop where
  /-- The text before the groups. -/
  first : Braceless b.first
  /-- The inside of each group and the text after it. -/
  groups : ∀ group ∈ b.groups, Braceless group.1 ∧ Braceless group.2

mutual

/-- `b.Plain` for every body that `read?` gives. -/
theorem plain_of_read? : ∀ {s : Text} {b : Body} {rest : Text},
    read? s = some (b, rest) → b.Plain
  | [], _, _, h => by simp [read?] at h
  | c :: s, b, rest, h => by
    rw [read?] at h
    split at h
    · cases h
      exact ⟨braceless_nil, by simp⟩
    · rename_i hclose
      split at h
      · -- a group, and the body that goes on after it
        split at h
        · rename_i inside inner rest' hread
          cases h
          obtain ⟨hinside, hinner⟩ := plain_of_readGroup? hread
          refine ⟨braceless_nil, ?_⟩
          intro group hgroup
          rcases List.mem_cons.mp hgroup with rfl | hgroup
          · exact ⟨hinside, hinner.first⟩
          · exact hinner.groups group hgroup
        · simp at h
      · rename_i hopen
        split at h
        · rename_i inner rest' hread
          cases h
          have hinner := plain_of_read? hread
          exact ⟨braceless_cons.mpr ⟨⟨hopen, hclose⟩, hinner.first⟩, hinner.groups⟩
        · simp at h

/-- `Braceless inside` for a group that is read, and the body after it is plain. -/
theorem plain_of_readGroup? : ∀ {s inside : Text} {b : Body} {rest : Text},
    readGroup? s = some (inside, b, rest) → Braceless inside ∧ b.Plain
  | [], _, _, _, h => by simp [readGroup?] at h
  | c :: s, inside, b, rest, h => by
    rw [readGroup?] at h
    split at h
    · split at h
      · rename_i inner rest' hread
        cases h
        exact ⟨braceless_nil, plain_of_read? hread⟩
      · simp at h
    · rename_i hclose
      split at h
      · simp at h
      · rename_i hopen
        split at h
        · rename_i inside' inner rest' hread
          cases h
          obtain ⟨hinside, hinner⟩ := plain_of_readGroup? hread
          exact ⟨braceless_cons.mpr ⟨⟨hopen, hclose⟩, hinside⟩, hinner⟩
        · simp at h

end

/-- `read? (first ++ t)`: text without braces in front of a body goes to the front of its first
text. -/
theorem read?_append {first t : Text} (hfirst : Braceless first) {b : Body} {rest : Text}
    (hread : read? t = some (b, rest)) :
    read? (first ++ t) = some (⟨first ++ b.first, b.groups⟩, rest) := by
  induction first with
  | nil => simpa using hread
  | cons c first ih =>
    obtain ⟨⟨hopen, hclose⟩, hfirst⟩ := braceless_cons.mp hfirst
    rw [List.cons_append, read?, if_neg hclose, if_neg hopen, ih hfirst]
    rfl

/-- `readGroup?` takes text without braces up to a closing brace for the inside of a group. -/
theorem readGroup?_append {inside t : Text} (hinside : Braceless inside) {b : Body} {rest : Text}
    (hread : read? t = some (b, rest)) :
    readGroup? (inside ++ '\x7d' :: t) = some (inside, b, rest) := by
  induction inside with
  | nil => rw [List.nil_append, readGroup?, if_pos rfl, hread]
  | cons c inside ih =>
    obtain ⟨⟨hopen, hclose⟩, hinside⟩ := braceless_cons.mp hinside
    rw [List.cons_append, readGroup?, if_neg hclose, if_neg hopen, ih hinside]

/-- **`read?` reads a plain body back** from its text and the brace that closes it. -/
theorem read?_text_append {b : Body} (hb : b.Plain) (rest : Text) :
    read? (b.text ++ '\x7d' :: rest) = some (b, rest) := by
  obtain ⟨first, groups⟩ := b
  induction groups generalizing first with
  | nil =>
    have hclose : read? ('\x7d' :: rest) = some (⟨[], []⟩, rest) := by rw [read?, if_pos rfl]
    simpa [text] using read?_append hb.first hclose
  | cons group groups ih =>
    -- the text after the group begins a body with one group less
    obtain ⟨inside, after⟩ := group
    obtain ⟨hinside, hafter⟩ := hb.groups (inside, after) (by simp)
    have hrest := ih after ⟨hafter, fun g hg => hb.groups g (List.mem_cons_of_mem _ hg)⟩
    have hgroup : read? ('\x7b' :: (inside ++ '\x7d' :: (text ⟨after, groups⟩ ++ '\x7d' :: rest)))
        = some (⟨[], (inside, after) :: groups⟩, rest) := by
      rw [read?, if_neg (by decide), if_pos rfl, readGroup?_append hinside hrest]
    have hwhole := read?_append hb.first hgroup
    simpa [text, groupText] using hwhole

end Body

/-! ## (2) Declarations -/

namespace Declaration

/-- **What a declaration may be.** -/
structure Admits (d : Declaration) : Prop where
  /-- There is a gap after the keyword. -/
  gap_ne_nil : d.gap ≠ []
  /-- The gap is blank. -/
  gap_blank : ∀ c ∈ d.gap, Text.isBlank c = true
  /-- There is a name. -/
  name_ne_nil : d.name ≠ []
  /-- The name is a word. -/
  name_word : ∀ c ∈ d.name, Text.isWord c = true
  /-- What stands between the name and the body is blank. -/
  space_blank : ∀ c ∈ d.space, Text.isBlank c = true
  /-- The braces of the body are those of its groups. -/
  body_plain : d.body.Plain
  /-- There is enough text around the groups. -/
  body_fits : d.body.fits = true

/-- `d.Admits` for every declaration that `read?` gives. -/
theorem admits_of_read? {s : Text} {d : Declaration} {rest : Text}
    (h : read? s = some (d, rest)) : d.Admits := by
  unfold read? at h
  split at h
  · simp at h
  · dsimp only at h
    split at h
    · split at h
      · rename_i body after hbody
        split at h
        · rename_i hchecks
          cases h
          simp only [Bool.and_eq_true, Bool.not_eq_true', List.isEmpty_eq_false_iff] at hchecks
          obtain ⟨⟨hgap, hname⟩, hfits⟩ := hchecks
          exact ⟨hgap, fun c hc => List.mem_takeWhile_imp hc, hname,
            fun c hc => List.mem_takeWhile_imp hc, fun c hc => List.mem_takeWhile_imp hc,
            Body.plain_of_read? hbody, hfits⟩
        · simp at h
      · simp at h
    · simp at h

/-- **The shape of a declaration**, whatever room its body has. -/
structure Shaped (d : Declaration) : Prop where
  /-- There are blanks after the keyword. -/
  gap : d.gap ≠ [] ∧ ∀ c ∈ d.gap, Text.isBlank c = true
  /-- The name is a word that is not empty. -/
  name : d.name ≠ [] ∧ ∀ c ∈ d.name, Text.isWord c = true
  /-- There may be blanks after the name. -/
  space : ∀ c ∈ d.space, Text.isBlank c = true
  /-- The braces of the body are those of its groups. -/
  plain : d.body.Plain

/-- `d.Admits ↔ d.Shaped ∧ d.body.fits`. -/
theorem admits_iff {d : Declaration} : d.Admits ↔ d.Shaped ∧ d.body.fits = true := by
  constructor
  · intro hd
    exact ⟨⟨⟨hd.gap_ne_nil, hd.gap_blank⟩, ⟨hd.name_ne_nil, hd.name_word⟩, hd.space_blank,
      hd.body_plain⟩, hd.body_fits⟩
  · rintro ⟨hd, hfits⟩
    exact ⟨hd.gap.1, hd.gap.2, hd.name.1, hd.name.2, hd.space, hd.plain, hfits⟩

/-- Neither blanks nor a brace go on with a word. -/
theorem isWord_head?_blanks_brace {space : Text} (hspace : ∀ c ∈ space, Text.isBlank c = true)
    (inside : Text) :
    ∀ c ∈ (space ++ '\x7b' :: inside).head?, Text.isWord c = false := by
  intro c hc
  cases space with
  | nil =>
    obtain rfl : '\x7b' = c := by simpa using hc
    decide +kernel
  | cons b space =>
    obtain rfl : b = c := by simpa using hc
    exact Text.isWord_eq_false_of_isBlank (hspace b (by simp))

/-- A brace goes on with no blanks. -/
theorem isBlank_head?_brace (inside : Text) :
    ∀ c ∈ ('\x7b' :: inside).head?, Text.isBlank c = false := by
  intro c hc
  obtain rfl : '\x7b' = c := by simpa using hc
  decide

/-- **`read? (d.text ++ rest)` succeeds exactly if the body fits**, for what has the shape of a
declaration. Each run of blanks or word characters is maximal because the next part begins with
another class. -/
theorem read?_text_append_of_shaped {d : Declaration} (hd : d.Shaped) (rest : Text) :
    read? (d.text ++ rest) = if d.body.fits then some (d, rest) else none := by
  obtain ⟨gap, name, space, body⟩ := d
  obtain ⟨⟨hgap, hgapBlank⟩, ⟨hname, hnameWord⟩, hspaceBlank, hplain⟩ := hd
  dsimp only at hgap hgapBlank hname hnameWord hspaceBlank hplain ⊢
  set inside := body.text ++ '\x7d' :: rest with hinside
  have htext : text ⟨gap, name, space, body⟩ ++ rest
      = keyword ++ (gap ++ (name ++ (space ++ '\x7b' :: inside))) := by
    simp [text, hinside]
  have hafterGap : ∀ c ∈ (name ++ (space ++ '\x7b' :: inside)).head?, Text.isBlank c = false := by
    intro c hc
    obtain ⟨n, name', rfl⟩ := List.exists_cons_of_ne_nil hname
    obtain rfl : n = c := by simpa using hc
    exact Text.isBlank_eq_false_of_isWord (hnameWord n (by simp))
  obtain ⟨htakeGap, hdropGap⟩ := Text.span_append hgapBlank hafterGap
  obtain ⟨htakeName, hdropName⟩ :=
    Text.span_append hnameWord (isWord_head?_blanks_brace hspaceBlank inside)
  obtain ⟨htakeSpace, hdropSpace⟩ := Text.span_append hspaceBlank (isBlank_head?_brace inside)
  have hbody : Body.read? inside = some (body, rest) := Body.read?_text_append hplain rest
  rw [htext, read?, afterFront?_eq_some_iff.mpr rfl]
  simp only [htakeGap, hdropGap, htakeName, hdropName, htakeSpace, hdropSpace, hbody]
  simp [hgap, hname]

/-- **An admitted declaration is read back** from `d.text`, whatever follows. -/
theorem read?_text_append {d : Declaration} (hd : d.Admits) (rest : Text) :
    read? (d.text ++ rest) = some (d, rest) := by
  obtain ⟨hshaped, hfits⟩ := admits_iff.mp hd
  rw [read?_text_append_of_shaped hshaped, if_pos hfits]

/-- **`read?` accepts exactly the grammar**: it gives `(d, rest)` iff `d.Admits` and
`s = d.text ++ rest`. -/
theorem read?_eq_some_iff {s : Text} {d : Declaration} {rest : Text} :
    read? s = some (d, rest) ↔ d.Admits ∧ s = d.text ++ rest := by
  constructor
  · intro h
    exact ⟨admits_of_read? h, eq_of_read? h⟩
  · rintro ⟨hd, rfl⟩
    exact read?_text_append hd rest

/-! ## (3) The scan -/

/-- Every declaration of a text is admitted. -/
theorem admits_of_mem_all {s : Text} {d : Declaration} (hd : d ∈ all s) : d.Admits := by
  fun_induction all s with
  | case1 => cases hd
  | case2 c tail first rest hread ih =>
    rcases List.mem_cons.mp hd with rfl | hd
    · exact admits_of_read? hread
    · exact ih hd
  | case3 c tail hread ih => exact ih hd

/-- `read? s = none` where `s` does not begin with the keyword. -/
theorem read?_eq_none {s : Text} (hs : ¬ keyword <+: s) : read? s = none := by
  have hfront : afterFront? keyword s = none := by
    rw [Option.eq_none_iff_forall_ne_some]
    intro rest hrest
    exact hs ⟨rest, (afterFront?_eq_some_iff.mp hrest).symm⟩
  rw [read?, hfront]

/-- `all (c :: tail) = all tail` where no declaration is read. -/
theorem all_cons_of_read?_eq_none {c : Char} {tail : Text} (hread : read? (c :: tail) = none) :
    all (c :: tail) = all tail := by
  rw [all]
  split
  · rename_i hsome
    rw [hread] at hsome
    cases hsome
  · rfl

/-- `all (d.text ++ rest)` begins with the admitted `d`, and goes on after the blanks that follow
it. -/
theorem all_text_append {d : Declaration} (hd : d.Admits) (rest : Text) :
    all (d.text ++ rest) = d :: all (rest.dropWhile Text.isBlank) := by
  have hread := read?_text_append hd rest
  obtain ⟨c, tail, hcons⟩ : ∃ c tail, d.text ++ rest = c :: tail := ⟨'i', _, rfl⟩
  rw [hcons] at hread ⊢
  rw [all]
  split
  · rename_i d' rest' hsome
    rw [hread] at hsome
    cases hsome
    rfl
  · rename_i hnone
    rw [hread] at hnone
    cases hnone

/-- The keyword does not begin again inside itself. -/
theorem not_drop_prefix_keyword :
    ∀ k < keyword.length, 0 < k → ¬ keyword.drop k <+: keyword := by
  decide

/-- `noise ++ t` does not begin with the keyword, if `noise` does not hold it and `t` is empty or
begins with it: an occurrence would lie inside the noise or overlap the keyword that follows. -/
theorem not_keyword_prefix_append {c : Char} {noise t : Text} (hnoise : ¬ keyword <:+: c :: noise)
    (ht : t = [] ∨ keyword <+: t) : ¬ keyword <+: c :: noise ++ t := by
  rintro ⟨rest, hrest⟩
  rcases List.append_eq_append_iff.mp hrest with ⟨inner, hinside, -⟩ | ⟨overlap, hkeyword, hoverlap⟩
  · exact hnoise ⟨[], inner, by rw [List.nil_append, hinside]⟩
  · by_cases hnil : overlap = []
    · rw [hnil, List.append_nil] at hkeyword
      exact hnoise (hkeyword ▸ List.infix_rfl)
    · rcases ht with rfl | ht
      · exact hnil (List.append_eq_nil_iff.mp hoverlap.symm).1
      · -- the keyword is the noise and a front of the keyword that follows
        have hdrop : keyword.drop (c :: noise).length = overlap := by
          rw [hkeyword, List.drop_left]
        have hlength : keyword.length = (c :: noise).length + overlap.length := by
          rw [hkeyword, List.length_append]
        have hpos : 0 < overlap.length := List.length_pos_iff.mpr hnil
        refine not_drop_prefix_keyword (c :: noise).length (by omega) (by simp) ?_
        rw [hdrop]
        exact List.prefix_of_prefix_length_le ⟨rest, hoverlap.symm⟩ ht (by omega)

/-- **The scan passes over noise**: `all (noise ++ t) = all t`. -/
theorem all_noise_append {noise t : Text} (hnoise : ¬ keyword <:+: noise)
    (ht : t = [] ∨ keyword <+: t) : all (noise ++ t) = all t := by
  induction noise with
  | nil => rfl
  | cons c noise ih =>
    have hnext : ¬ keyword <:+: noise :=
      fun h => hnoise (h.trans (List.suffix_cons c noise).isInfix)
    have hread : read? (c :: (noise ++ t)) = none :=
      read?_eq_none (not_keyword_prefix_append hnoise ht)
    rw [List.cons_append, all_cons_of_read?_eq_none hread, ih hnext]

end Declaration

end InterfaceSchemes
