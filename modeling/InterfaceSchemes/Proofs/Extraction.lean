import InterfaceSchemes.Proofs.Expression
import InterfaceSchemes.Proofs.Layout

/-! # The regular expression of declarations

The reader of declarations follows a grammar. The same declarations are matched by the regular
expression

  `interface\s+(\w+)\s*\{\s*([^{}]+(\{\s*[^{}]+\}\s*)?[^{}]+)*\}\s*`

whose repetitions compete for the same characters. This file proves that the competition decides
nothing but how many blanks a match takes at its end.

* **`Body.Proper`** — the bodies of the grammar, said without the reader.
* **`Declaration.expression`** — the regular expression.
* **`Body.exists_blanks_runs_iff`** — its repetitions take exactly the bodies that fit.
* **`Declaration.spells_expression_iff`** — it matches the texts of declarations, followed by blanks.
* **`Declaration.head?_attempts_expression`** — the match that counts is the declaration that is read. -/

namespace InterfaceSchemes

open Expression

/-! ## (1) Bodies -/

namespace Body

/-- **The bodies of the grammar.** -/
structure Proper (b : Body) : Prop where
  /-- The braces are those of the groups. -/
  plain : b.Plain
  /-- No group is empty. -/
  filled : ∀ group ∈ b.groups, group.1 ≠ []
  /-- Without groups the body is blank or has two characters. -/
  alone : b.groups = [] → b.first.Blanks ∨ 2 ≤ b.first.length
  /-- There is text before the first group. -/
  before : b.groups ≠ [] → b.first ≠ []
  /-- There is text after the last group. -/
  after : ∀ group ∈ b.groups.getLast?, group.2 ≠ []
  /-- There are two characters between neighbours. -/
  between : ∀ group ∈ b.groups.dropLast, 2 ≤ group.2.length

/-- `groupsFit (group :: groups)` asks that the first of several groups is filled and that two
characters follow it. -/
theorem groupsFit_cons {group : Text × Text} {groups : List (Text × Text)} (hne : groups ≠ []) :
    groupsFit (group :: groups) = true ↔
      group.1 ≠ [] ∧ 2 ≤ group.2.length ∧ groupsFit groups = true := by
  obtain ⟨inside, after⟩ := group
  obtain ⟨next, groups, rfl⟩ := List.exists_cons_of_ne_nil hne
  rw [groupsFit.eq_3 inside after (next :: groups) (by simp)]
  simp [and_assoc]

/-- `groupsFit [group]` asks that the group is filled and that text follows it. -/
theorem groupsFit_singleton {group : Text × Text} :
    groupsFit [group] = true ↔ group.1 ≠ [] ∧ group.2 ≠ [] := by
  obtain ⟨inside, after⟩ := group
  rw [groupsFit]
  simp

/-- `groupsFit groups` if each is filled, with enough text behind each of them. -/
theorem groupsFit_iff {groups : List (Text × Text)} :
    groupsFit groups = true ↔ (∀ group ∈ groups, group.1 ≠ []) ∧
      (∀ group ∈ groups.getLast?, group.2 ≠ []) ∧ ∀ group ∈ groups.dropLast, 2 ≤ group.2.length := by
  induction groups with
  | nil => simp [groupsFit]
  | cons group groups ih =>
    cases groups with
    | nil =>
      rw [groupsFit_singleton]
      simp
    | cons next groups =>
      rw [groupsFit_cons (List.cons_ne_nil next groups), ih, List.getLast?_cons_cons,
        List.dropLast_cons_of_ne_nil (List.cons_ne_nil next groups)]
      constructor
      · rintro ⟨hinside, hlong, hfilled, hafter, hbetween⟩
        exact ⟨List.forall_mem_cons.mpr ⟨hinside, hfilled⟩, hafter,
          List.forall_mem_cons.mpr ⟨hlong, hbetween⟩⟩
      · rintro ⟨hfilled, hafter, hbetween⟩
        obtain ⟨hinside, hfilled⟩ := List.forall_mem_cons.mp hfilled
        obtain ⟨hlong, hbetween⟩ := List.forall_mem_cons.mp hbetween
        exact ⟨hinside, hlong, hfilled, hafter, hbetween⟩

/-- **`b.Proper ↔ b.Plain ∧ b.fits`**: the bodies of the grammar are those that the reader accepts.
-/
theorem proper_iff {b : Body} : b.Proper ↔ b.Plain ∧ b.fits = true := by
  obtain ⟨first, groups⟩ := b
  cases groups with
  | nil =>
    have hfits : fits ⟨first, []⟩ = true ↔ first.Blanks ∨ 2 ≤ first.length := by
      simp [fits, Text.Blanks]
    rw [hfits]
    constructor
    · exact fun hproper => ⟨hproper.plain, hproper.alone rfl⟩
    · rintro ⟨hplain, halone⟩
      exact ⟨hplain, by simp, fun _ => halone, fun h => absurd rfl h, by simp, by simp⟩
  | cons group groups =>
    have hfits : fits ⟨first, group :: groups⟩ = true ↔
        first ≠ [] ∧ groupsFit (group :: groups) = true := by
      simp [fits]
    rw [hfits, groupsFit_iff]
    constructor
    · intro hproper
      exact ⟨hproper.plain, hproper.before (List.cons_ne_nil _ _), hproper.filled, hproper.after,
        hproper.between⟩
    · rintro ⟨hplain, hfirst, hfilled, hafter, hbetween⟩
      exact ⟨hplain, hfilled, fun h => absurd h (List.cons_ne_nil _ _), fun _ => hfirst, hafter,
        hbetween⟩

end Body

/-! ## (2) The expression -/

/-- Whether a character is no brace. -/
def Body.isPlain (c : Char) : Bool := c != '\x7b' && c != '\x7d'

/-- `Braceless s`, character by character. -/
theorem braceless_iff {s : Text} : Braceless s ↔ ∀ c ∈ s, Body.isPlain c = true := by
  simp [Braceless, Body.isPlain]

/-- `s.Blanks` holds no braces. -/
theorem Text.Blanks.braceless {s : Text} (hs : s.Blanks) : Braceless s :=
  Field.braceless_of_separating fun c hc => Or.inl (hs c hc)

namespace Body

/-- A group in braces and the blanks after it: `\{\s*[^{}]+\}\s*`. -/
def groupExpression : Expression :=
  sequence [.one (· == '\x7b'), .many (.one Text.isBlank), atLeastOnce (.one isPlain),
    .one (· == '\x7d'), .many (.one Text.isBlank)]

/-- A stretch of a body, text around at most one group: `[^{}]+(\{\s*[^{}]+\}\s*)?[^{}]+`. -/
def stretchExpression : Expression :=
  sequence [atLeastOnce (.one isPlain), .optional groupExpression, atLeastOnce (.one isPlain)]

end Body

namespace Declaration

/-- The parts of a declaration. Only the group of the name is kept. -/
def parts : List Expression :=
  [literal keyword, atLeastOnce (.one Text.isBlank), .keep (atLeastOnce (.one Text.isWord)),
    .many (.one Text.isBlank), .one (· == '\x7b'), .many (.one Text.isBlank),
    .many Body.stretchExpression, .one (· == '\x7d')]

/-- **The expression of a declaration**, which takes the blanks after it as well. -/
def expression : Expression := sequence (parts ++ [.many (.one Text.isBlank)])

end Declaration

/-! ## (3) What the expression spells -/

namespace Body

/-- A text without braces that is not empty. -/
def Filled (s : Text) : Prop := s ≠ [] ∧ Braceless s

/-- Text around at most one group. -/
def IsStretch (t : Text) : Prop :=
  ∃ x y, Filled x ∧ Filled y ∧ (t = x ++ y ∨ ∃ n, Filled n ∧ t = x ++ groupText (n, y))

/-- `Filled (s ++ t)` for text without braces in front of `t` that is filled. -/
theorem Filled.append {s t : Text} (hs : Braceless s) (ht : Filled t) : Filled (s ++ t) :=
  ⟨fun hnil => ht.1 (List.append_eq_nil_iff.mp hnil).2, hs.append ht.2⟩

/-- `atLeastOnce (.one isPlain)` spells what is `Filled`. -/
theorem spells_filled {t : Text} {ks : List (Text × Text)} :
    Spells (atLeastOnce (.one isPlain)) t ks ↔ Filled t ∧ ks = [] := by
  rw [spells_atLeastOnce_one, Filled, braceless_iff, and_assoc]

/-- `groupExpression` spells the texts of a group. The blanks in front of its inside belong to the
inside. -/
theorem spells_groupExpression {t : Text} {ks : List (Text × Text)} :
    Spells groupExpression t ks ↔
      (∃ n blanks, Filled n ∧ blanks.Blanks ∧ t = groupText (n, blanks)) ∧ ks = [] := by
  constructor
  · intro hspells
    obtain ⟨_, _, _, _, hopen, hafterOpen, rfl, rfl⟩ := spells_sequence_cons.mp hspells
    obtain ⟨front, _, _, _, hfront, hafterFront, rfl, rfl⟩ := spells_sequence_cons.mp hafterOpen
    obtain ⟨inside, _, _, _, hinside, hafterInside, rfl, rfl⟩ := spells_sequence_cons.mp hafterFront
    obtain ⟨_, _, blanks, _, hclose, hafterClose, rfl, rfl⟩ := spells_sequence_cons.mp hafterInside
    obtain ⟨rfl, rfl⟩ := spells_one_beq.mp hopen
    obtain ⟨hfrontBlanks, rfl⟩ := spells_many_one.mp hfront
    obtain ⟨hfilled, rfl⟩ := spells_filled.mp hinside
    obtain ⟨rfl, rfl⟩ := spells_one_beq.mp hclose
    obtain ⟨hblanks, rfl⟩ := spells_many_one.mp hafterClose
    exact ⟨⟨front ++ inside, blanks, hfilled.append (Text.Blanks.braceless hfrontBlanks), hblanks,
      by simp [groupText]⟩, rfl⟩
  · rintro ⟨⟨inside, blanks, hinside, hblanks, rfl⟩, rfl⟩
    have hback : Spells (sequence [.one (· == '\x7d'), .many (.one Text.isBlank)])
        (['\x7d'] ++ blanks) [] :=
      .cons (spells_one_beq.mpr ⟨rfl, rfl⟩) (spells_many_one.mpr ⟨hblanks, rfl⟩)
    have hinner := Spells.cons (spells_filled.mpr ⟨hinside, rfl⟩) hback
    have hfront := Spells.cons (spells_many_one.mpr ⟨by simp, rfl⟩ :
      Spells (.many (.one Text.isBlank)) [] []) hinner
    exact Spells.cons (spells_one_beq.mpr ⟨rfl, rfl⟩) hfront

/-- `stretchExpression` spells what `IsStretch`. The blanks after its group belong to the text after
the group. -/
theorem spells_stretchExpression {t : Text} {ks : List (Text × Text)} :
    Spells stretchExpression t ks ↔ IsStretch t ∧ ks = [] := by
  constructor
  · intro hspells
    obtain ⟨x, _, _, _, hx, hafterX, rfl, rfl⟩ := spells_sequence_cons.mp hspells
    obtain ⟨group, _, y, _, hgroup, hy, rfl, rfl⟩ := spells_sequence_cons.mp hafterX
    obtain ⟨hfilledX, rfl⟩ := spells_filled.mp hx
    obtain ⟨hfilledY, rfl⟩ := spells_filled.mp hy
    rcases hgroup with hgroup | ⟨rfl, rfl⟩
    · obtain ⟨⟨n, blanks, hn, hblanks, rfl⟩, rfl⟩ := spells_groupExpression.mp hgroup
      exact ⟨⟨x, blanks ++ y, hfilledX, hfilledY.append (Text.Blanks.braceless hblanks), Or.inr ⟨n, hn,
        by simp [groupText]⟩⟩, rfl⟩
    · exact ⟨⟨x, y, hfilledX, hfilledY, Or.inl rfl⟩, rfl⟩
  · rintro ⟨⟨x, y, hx, hy, htext⟩, rfl⟩
    have hfront := spells_filled.mpr ⟨hx, rfl⟩
    have hback : Spells (sequence [atLeastOnce (.one isPlain)]) y [] := spells_filled.mpr ⟨hy, rfl⟩
    rcases htext with rfl | ⟨n, hn, rfl⟩
    · have hnone : Spells (.optional groupExpression) [] [] := Or.inr ⟨rfl, rfl⟩
      exact .cons hfront (.cons hnone hback)
    · have hgroup : Spells (.optional groupExpression) (groupText (n, [])) [] :=
        Or.inl (spells_groupExpression.mpr ⟨⟨n, [], hn, by simp [Text.Blanks], rfl⟩, rfl⟩)
      have hwhole : Spells stretchExpression (x ++ (groupText (n, []) ++ y)) [] :=
        .cons hfront (.cons hgroup hback)
      simpa [groupText] using hwhole

/-- **A body of stretches**: there is text before the groups, two characters of it if there are none, and
the groups fit. -/
structure Ample (b : Body) : Prop where
  /-- The braces are those of the groups. -/
  plain : b.Plain
  /-- There is text before the groups. -/
  first_ne_nil : b.first ≠ []
  /-- Without groups there are two characters. -/
  alone : b.groups = [] → 2 ≤ b.first.length
  /-- There is enough text around the groups. -/
  fit : groupsFit b.groups = true

/-- **One more stretch in front of an `Ample` body**, or of nothing, makes an ample body. -/
theorem ample_stretch_append {t : Text} (ht : IsStretch t) {b : Body}
    (hb : b = ⟨[], []⟩ ∨ b.Ample) : ∃ b' : Body, b'.Ample ∧ t ++ b.text = b'.text := by
  obtain ⟨x, y, hx, hy, htext⟩ := ht
  have hplain : b.Plain := hb.elim (fun h => h ▸ ⟨braceless_nil, by simp⟩) Ample.plain
  have hfit : groupsFit b.groups = true := hb.elim (fun h => h ▸ rfl) Ample.fit
  have hlengthX : 0 < x.length := List.length_pos_iff.mpr hx.1
  have hlengthY : 0 < y.length := List.length_pos_iff.mpr hy.1
  rcases htext with rfl | ⟨n, hn, rfl⟩
  · -- the text comes to the front of the first text
    refine ⟨⟨x ++ (y ++ b.first), b.groups⟩, ⟨⟨?_, hplain.groups⟩, ?_, ?_, hfit⟩, by simp [text]⟩
    · exact hx.2.append (hy.2.append hplain.first)
    · exact List.append_ne_nil_of_left_ne_nil hx.1 _
    · intro _
      simp only [List.length_append]
      omega
  · -- the group is a new one, with the first text behind it
    refine ⟨⟨x, (n, y ++ b.first) :: b.groups⟩, ⟨⟨hx.2, ?_⟩, hx.1, by simp, ?_⟩,
      by simp [text, groupText]⟩
    · exact List.forall_mem_cons.mpr ⟨⟨hn.2, hy.2.append hplain.first⟩, hplain.groups⟩
    · by_cases hgroups : b.groups = []
      · rw [hgroups, groupsFit_singleton]
        exact ⟨hn.1, List.append_ne_nil_of_left_ne_nil hy.1 _⟩
      · rw [groupsFit_cons hgroups]
        refine ⟨hn.1, ?_, hfit⟩
        have hample : b.Ample := hb.resolve_left fun h => hgroups (by rw [h])
        have hlength : 0 < b.first.length := List.length_pos_iff.mpr hample.first_ne_nil
        simp only [List.length_append]
        omega

/-- **Stretches make up a body of stretches**, or nothing. -/
theorem ample_of_runs {t : Text} {ks : List (Text × Text)}
    (hruns : Runs (Spells stretchExpression) t ks) :
    ks = [] ∧ ∃ b : Body, (b = ⟨[], []⟩ ∨ b.Ample) ∧ t = b.text := by
  induction hruns with
  | nil => exact ⟨rfl, ⟨[], []⟩, Or.inl rfl, rfl⟩
  | cons hstretch _ _ ih =>
    obtain ⟨hfront, rfl⟩ := spells_stretchExpression.mp hstretch
    obtain ⟨rfl, b, hb, rfl⟩ := ih
    obtain ⟨b', hb', htext⟩ := ample_stretch_append hfront hb
    exact ⟨rfl, b', Or.inr hb', htext⟩

/-- One stretch, and then others. -/
theorem runs_stretch_append {t u : Text} (ht : IsStretch t) (hne : t ≠ [])
    (hu : Runs (Spells stretchExpression) u []) : Runs (Spells stretchExpression) (t ++ u) [] :=
  .cons (spells_stretchExpression.mpr ⟨ht, rfl⟩) hne hu

/-- **A body of stretches is cut into stretches.** Each group goes into a stretch of its own: the first of
the characters between two groups ends one stretch and the others begin the next. The induction is on
the groups. -/
theorem runs_of_ample {b : Body} (hb : b.Ample) : Runs (Spells stretchExpression) b.text [] := by
  obtain ⟨first, groups⟩ := b
  induction groups generalizing first with
  | nil =>
    obtain ⟨c, rest, rfl⟩ := List.exists_cons_of_ne_nil hb.first_ne_nil
    obtain ⟨hc, hrest⟩ := braceless_cons.mp hb.plain.first
    have hne : rest ≠ [] := by
      rintro rfl
      exact absurd (hb.alone rfl) (by simp)
    have hsingle : Filled [c] := ⟨List.cons_ne_nil c [], braceless_cons.mpr ⟨hc, braceless_nil⟩⟩
    have hstretch : IsStretch (c :: rest) := ⟨[c], rest, hsingle, ⟨hne, hrest⟩, Or.inl rfl⟩
    have hruns := runs_stretch_append hstretch (List.cons_ne_nil c rest) .nil
    simpa [text] using hruns
  | cons group groups ih =>
    obtain ⟨inside, after⟩ := group
    obtain ⟨⟨hinside, hafter⟩, hgroups⟩ := List.forall_mem_cons.mp hb.plain.groups
    have hfirst : Filled first := ⟨hb.first_ne_nil, hb.plain.first⟩
    by_cases hlast : groups = []
    · subst hlast
      obtain ⟨hne, hneAfter⟩ := groupsFit_singleton.mp hb.fit
      have hstretch : IsStretch (first ++ groupText (inside, after)) :=
        ⟨first, after, hfirst, ⟨hneAfter, hafter⟩, Or.inr ⟨inside, ⟨hne, hinside⟩, rfl⟩⟩
      have hruns := runs_stretch_append hstretch (by simp [hfirst.1]) .nil
      simpa [text] using hruns
    · obtain ⟨hne, hlong, hfit⟩ := (groupsFit_cons hlast).mp hb.fit
      obtain ⟨c, rest, rfl⟩ : ∃ c rest, after = c :: rest :=
        List.exists_cons_of_ne_nil fun hnil => by simp [hnil] at hlong
      obtain ⟨hc, hrest⟩ := braceless_cons.mp hafter
      have hneRest : rest ≠ [] := by
        rintro rfl
        exact absurd hlong (by simp)
      have hsingle : Filled [c] := ⟨List.cons_ne_nil c [], braceless_cons.mpr ⟨hc, braceless_nil⟩⟩
      have hstretch : IsStretch (first ++ groupText (inside, [c])) :=
        ⟨first, [c], hfirst, hsingle, Or.inr ⟨inside, ⟨hne, hinside⟩, rfl⟩⟩
      have hothers := ih rest ⟨⟨hrest, hgroups⟩, hneRest, fun h => absurd h hlast, hfit⟩
      have hruns := runs_stretch_append hstretch (by simp [hfirst.1]) hothers
      simpa [text, groupText] using hruns

/-- **Blanks and then stretches are the bodies that fit**: `b.Plain ∧ b.fits`. -/
theorem exists_blanks_runs_iff {t : Text} :
    (∃ blanks u, blanks.Blanks ∧ Runs (Spells stretchExpression) u [] ∧ t = blanks ++ u) ↔
      ∃ b : Body, b.Plain ∧ b.fits = true ∧ t = b.text := by
  constructor
  · rintro ⟨blanks, u, hblanks, hruns, rfl⟩
    obtain ⟨-, b, hb, rfl⟩ := ample_of_runs hruns
    refine ⟨⟨blanks ++ b.first, b.groups⟩, ?_⟩
    rcases hb with rfl | hb
    · refine ⟨⟨?_, by simp⟩, ?_, by simp [text]⟩
      · exact (Text.Blanks.braceless hblanks).append braceless_nil
      · have hall : blanks.all Text.isBlank = true := List.all_eq_true.mpr hblanks
        simp [fits, hall]
    · refine ⟨⟨?_, hb.plain.groups⟩, ?_, by simp [text]⟩
      · exact (Text.Blanks.braceless hblanks).append hb.plain.first
      · by_cases hgroups : b.groups = []
        · have hlong := hb.alone hgroups
          simp only [fits, hgroups, List.isEmpty_nil, if_true, List.length_append, Bool.or_eq_true,
            decide_eq_true_eq]
          omega
        · simp [fits, hgroups, hb.first_ne_nil, hb.fit]
  · rintro ⟨b, hplain, hfits, rfl⟩
    by_cases hgroups : b.groups = []
    · simp only [fits, hgroups, List.isEmpty_nil, if_true, Bool.or_eq_true, List.all_eq_true,
        decide_eq_true_eq] at hfits
      rcases hfits with hblanks | hlong
      · exact ⟨b.first, [], hblanks, .nil, by simp [text, hgroups]⟩
      · have hne : b.first ≠ [] := fun hnil => by simp [hnil] at hlong
        exact ⟨[], b.text, by simp [Text.Blanks],
          runs_of_ample ⟨hplain, hne, fun _ => hlong, by rw [hgroups]; rfl⟩, rfl⟩
    · simp only [fits, List.isEmpty_iff, hgroups, if_false, Bool.and_eq_true, Bool.not_eq_true',
        List.isEmpty_eq_false_iff] at hfits
      exact ⟨[], b.text, by simp [Text.Blanks],
        runs_of_ample ⟨hplain, hfits.1, fun h => absurd h hgroups, hfits.2⟩, rfl⟩

end Body

namespace Declaration

/-- **`expression` spells declarations and the blanks after them**, and keeps the name. -/
theorem spells_expression_iff {t : Text} {ks : List (Text × Text)} :
    Spells expression t ks ↔ ∃ d : Declaration, ∃ blanks, d.Admits ∧ blanks.Blanks ∧
      t = d.text ++ blanks ∧ ks = [(keyword ++ d.gap, d.name)] := by
  constructor
  · intro hspells
    obtain ⟨_, _, _, _, hkeyword, hafterKeyword, rfl, rfl⟩ := spells_sequence_cons.mp hspells
    obtain ⟨gap, _, _, _, hgap, hafterGap, rfl, rfl⟩ := spells_sequence_cons.mp hafterKeyword
    obtain ⟨name, _, _, _, hname, hafterName, rfl, rfl⟩ := spells_sequence_cons.mp hafterGap
    obtain ⟨space, _, _, _, hspace, hafterSpace, rfl, rfl⟩ := spells_sequence_cons.mp hafterName
    obtain ⟨_, _, _, _, hopen, hafterOpen, rfl, rfl⟩ := spells_sequence_cons.mp hafterSpace
    obtain ⟨front, _, _, _, hfront, hafterFront, rfl, rfl⟩ := spells_sequence_cons.mp hafterOpen
    obtain ⟨u, _, _, _, hruns, hafterBody, rfl, rfl⟩ := spells_sequence_cons.mp hafterFront
    obtain ⟨_, _, blanks, _, hclose, hafterClose, rfl, rfl⟩ := spells_sequence_cons.mp hafterBody
    obtain ⟨rfl, rfl⟩ := spells_literal.mp hkeyword
    obtain ⟨hgapNe, hgapBlank, rfl⟩ := spells_atLeastOnce_one.mp hgap
    obtain ⟨_, hkept, rfl⟩ := hname
    obtain ⟨hnameNe, hnameWord, rfl⟩ := spells_atLeastOnce_one.mp hkept
    obtain ⟨hspaceBlank, rfl⟩ := spells_many_one.mp hspace
    obtain ⟨rfl, rfl⟩ := spells_one_beq.mp hopen
    obtain ⟨hfrontBlank, rfl⟩ := spells_many_one.mp hfront
    obtain ⟨rfl, -⟩ := Body.ample_of_runs hruns
    obtain ⟨rfl, rfl⟩ := spells_one_beq.mp hclose
    obtain ⟨hblanks, rfl⟩ := spells_many_one.mp hafterClose
    obtain ⟨body, hplain, hfits, hbody⟩ :=
      Body.exists_blanks_runs_iff.mp ⟨front, u, hfrontBlank, hruns, rfl⟩
    refine ⟨⟨gap, name, space, body⟩, blanks, ⟨hgapNe, hgapBlank, hnameNe, hnameWord, hspaceBlank,
      hplain, hfits⟩, hblanks, ?_, ?_⟩
    · simp [text, ← hbody]
    · simp [Match.keptAfter]
  · rintro ⟨d, blanks, hd, hblanks, rfl, rfl⟩
    obtain ⟨front, u, hfront, hruns, hbody⟩ :=
      Body.exists_blanks_runs_iff.mpr ⟨d.body, hd.body_plain, hd.body_fits, rfl⟩
    -- from the last part of the sequence to the first
    have hafterBody : Spells (sequence [.one (· == '\x7d'), .many (.one Text.isBlank)])
        (['\x7d'] ++ blanks) [] :=
      .cons (spells_one_beq.mpr ⟨rfl, rfl⟩) (spells_many_one.mpr ⟨hblanks, rfl⟩)
    have hafterFront := Spells.cons (show Spells (.many Body.stretchExpression) u [] from hruns)
      hafterBody
    have hafterOpen := Spells.cons (spells_many_one.mpr ⟨hfront, rfl⟩) hafterFront
    have hafterSpace := Spells.cons (spells_one_beq.mpr ⟨rfl, rfl⟩ :
      Spells (.one (· == '\x7b')) ['\x7b'] []) hafterOpen
    have hafterName := Spells.cons (spells_many_one.mpr ⟨hd.space_blank, rfl⟩) hafterSpace
    have hname : Spells (.keep (atLeastOnce (.one Text.isWord))) d.name [([], d.name)] :=
      ⟨[], spells_atLeastOnce_one.mpr ⟨hd.name_ne_nil, hd.name_word, rfl⟩, rfl⟩
    have hgap := spells_atLeastOnce_one.mpr ⟨hd.gap_ne_nil, hd.gap_blank, rfl⟩
    have hafterGap := spells_sequence_cons.mpr ⟨_, _, _, _, hname, hafterName, rfl, rfl⟩
    have hafterKeyword := spells_sequence_cons.mpr ⟨_, _, _, _, hgap, hafterGap, rfl, rfl⟩
    refine spells_sequence_cons.mpr
      ⟨_, _, _, _, spells_literal.mpr ⟨rfl, rfl⟩, hafterKeyword, ?_, ?_⟩
    · simp [text, hbody]
    · simp [Match.keptAfter]

/-! ## (4) The match that counts -/

/-- The match of a declaration before `rest`: it takes the blanks at the front of `rest` as well. -/
def matchBefore (d : Declaration) (rest : Text) : Match :=
  ⟨d.text ++ rest.takeWhile Text.isBlank, [(keyword ++ d.gap, d.name)], rest.dropWhile Text.isBlank⟩

/-- **All matches at one place are of one declaration**, the one that `read?` gives there. They
differ in the blanks that they take after it. -/
theorem of_mem_attempts {s : Text} {m : Match} (hm : m ∈ attempts expression s) :
    ∃ d blanks, read? s = some (d, blanks ++ m.rest) ∧ blanks.Blanks ∧ m.text = d.text ++ blanks ∧
      m.kept = [(keyword ++ d.gap, d.name)] := by
  obtain ⟨hspells, hsplit⟩ := mem_attempts_iff.mp hm
  obtain ⟨d, blanks, hd, hblanks, htext, hkept⟩ := spells_expression_iff.mp hspells
  refine ⟨d, blanks, read?_eq_some_iff.mpr ⟨hd, ?_⟩, hblanks, htext, hkept⟩
  rw [hsplit, htext, List.append_assoc]

/-- What follows the match that counts does not begin with a blank. -/
theorem rest_of_head?_expression (s : Text) :
    ∀ m ∈ (attempts expression s).head?, ∀ c ∈ m.rest.head?, Text.isBlank c = false := by
  have hlast : ∀ s, ∀ m ∈ (attempts (.many (.one Text.isBlank)) s).head?,
      ∀ c ∈ m.rest.head?, Text.isBlank c = false := by
    intro s m hm
    rw [head?_attempts_many_one, Option.mem_some_iff] at hm
    subst hm
    exact Text.dropWhile_eq_self_iff.mp (List.dropWhile_idempotent Text.isBlank s)
  exact rest_of_head?_sequence (P := fun rest => ∀ c ∈ rest.head?, Text.isBlank c = false) hlast parts s

/-- **The match that counts is the declaration that `read?` gives**, with all the blanks after it.
-/
theorem head?_attempts_expression (s : Text) :
    (attempts expression s).head? = (read? s).map fun found => found.1.matchBefore found.2 := by
  cases hread : read? s with
  | none =>
    have hnil : attempts expression s = [] := by
      rw [List.eq_nil_iff_forall_not_mem]
      intro m hm
      obtain ⟨d, blanks, hsome, -⟩ := of_mem_attempts hm
      rw [hread] at hsome
      cases hsome
    rw [hnil]
    rfl
  | some found =>
    obtain ⟨d, rest⟩ := found
    obtain ⟨hd, hsplit⟩ := read?_eq_some_iff.mp hread
    have hmem : ⟨d.text, [(keyword ++ d.gap, d.name)], rest⟩ ∈ attempts expression s := by
      refine mem_attempts_iff.mpr ⟨spells_expression_iff.mpr ⟨d, [], hd, ?_, ?_, rfl⟩, hsplit⟩
      · simp [Text.Blanks]
      · exact (List.append_nil d.text).symm
    obtain ⟨m, hm⟩ : ∃ m, (attempts expression s).head? = some m := by
      cases hhead : (attempts expression s).head? with
      | none => rw [List.head?_eq_none_iff.mp hhead] at hmem; exact absurd hmem List.not_mem_nil
      | some m => exact ⟨m, rfl⟩
    obtain ⟨d', blanks, hread', hblanks, htext, hkept⟩ := of_mem_attempts (List.mem_of_head? hm)
    rw [hread, Option.some.injEq, Prod.mk.injEq] at hread'
    obtain ⟨rfl, rfl⟩ := hread'
    -- the blanks it takes are all that there are
    obtain ⟨htake, hdrop⟩ := Text.span_append hblanks (rest_of_head?_expression s m hm)
    rw [hm, Option.map_some, matchBefore, htake, hdrop, ← htext, ← hkept]

end Declaration

end InterfaceSchemes
