import InterfaceSchemes.Declaration.Field
import InterfaceSchemes.Proofs.Extraction
import InterfaceSchemes.Proofs.Fallible

/-! # The declarations of a text

Declarations are taken from a text from left to right. This file says which ones these are in three
ways, by a grammar, by the successive matches of a regular expression and by the reader, and proves
that they are the same, with the same records.

* **`Declaration.Formed`** — the grammar of declarations.
* **`Declaration.Scan`** — at each place a declaration is taken if one stands there.
* **`Match.cut`**, **`Record.ofMatch`** — the name and the body cut out of a match, and its record.
* **`Match.Declares`** — what a match of the expression stands for.
* **`Declaration.occurrences_expression`** — matches, grammar and reader agree. -/

namespace InterfaceSchemes

open Expression

/-! ## (1) The grammar -/

namespace Declaration

/-- **The grammar of declarations.** -/
structure Formed (d : Declaration) : Prop extends Shaped d where
  /-- The word does not go on after the name. -/
  name_maximal : ∀ c ∈ (d.space ++ ['\x7b']).head?, Text.isWord c = false
  /-- The body is one of the grammar. -/
  body : d.body.Proper

/-- **`d.Formed ↔ d.Admits`: the reader accepts the grammar.** A word cannot go on into blanks or a
brace, so that the name is maximal is no condition. -/
theorem formed_iff_admits {d : Declaration} : d.Formed ↔ d.Admits := by
  rw [admits_iff]
  constructor
  · intro hd
    exact ⟨hd.toShaped, (Body.proper_iff.mp hd.body).2⟩
  · rintro ⟨hshaped, hfits⟩
    exact ⟨hshaped, isWord_head?_blanks_brace hshaped.space [],
      Body.proper_iff.mpr ⟨hshaped.plain, hfits⟩⟩

/-- A declaration of the grammar stands at the front of a text. -/
def Stands (s : Text) : Prop := ∃ d rest, Formed d ∧ s = d.text ++ rest

/-- `Stands s ↔ read? s ≠ none`. -/
theorem stands_iff {s : Text} : Stands s ↔ read? s ≠ none := by
  rw [Option.ne_none_iff_exists']
  constructor
  · rintro ⟨d, rest, hd, hsplit⟩
    exact ⟨(d, rest), read?_eq_some_iff.mpr ⟨formed_iff_admits.mp hd, hsplit⟩⟩
  · rintro ⟨⟨d, rest⟩, hread⟩
    obtain ⟨hd, hsplit⟩ := read?_eq_some_iff.mp hread
    exact ⟨d, rest, formed_iff_admits.mpr hd, hsplit⟩

/-- **The declarations of a text from left to right**, each with the blanks that follow it. They do not
overlap, and each stands as far left as one can after the one before it. -/
inductive Scan : Text → List (Declaration × Text) → Prop
  /-- The text is at its end. -/
  | stop : Scan [] []
  /-- No declaration stands here: a character is passed over. -/
  | skip {c : Char} {s : Text} {found : List (Declaration × Text)} : ¬ Stands (c :: s) →
      Scan s found → Scan (c :: s) found
  /-- A declaration stands here: it is taken with all the blanks after it. -/
  | take {s blanks rest : Text} {d : Declaration} {found : List (Declaration × Text)} : d.Formed →
      s = d.text ++ (blanks ++ rest) → blanks.Blanks → (∀ c ∈ rest.head?, Text.isBlank c = false) →
      Scan rest found → Scan s ((d, blanks) :: found)

/-- `d.text` begins with the first letter of the keyword. -/
theorem exists_text_append_eq (d : Declaration) (rest : Text) :
    ∃ tail, d.text ++ rest = 'i' :: tail :=
  ⟨_, rfl⟩

/-- No declaration stands at the end of a text. -/
theorem nil_ne_text_append (d : Declaration) (rest : Text) : [] ≠ d.text ++ rest := by
  obtain ⟨tail, htail⟩ := exists_text_append_eq d rest
  rw [htail]
  exact (List.cons_ne_nil 'i' tail).symm

/-- `read? s = some (d, blanks ++ rest)` where the scan takes `d`. -/
theorem read?_of_take {s blanks rest : Text} {d : Declaration} (hd : d.Formed)
    (hsplit : s = d.text ++ (blanks ++ rest)) : read? s = some (d, blanks ++ rest) :=
  read?_eq_some_iff.mpr ⟨formed_iff_admits.mp hd, hsplit⟩

/-- **`Scan s` holds of one list only.** -/
theorem Scan.unique {s : Text} {found other : List (Declaration × Text)} (hfound : Scan s found)
    (hother : Scan s other) : found = other := by
  induction hfound generalizing other with
  | stop =>
    cases hother with
    | stop => rfl
    | take hd hsplit _ _ _ => exact absurd hsplit (nil_ne_text_append _ _)
  | skip hnone _ ih =>
    cases hother with
    | skip _ hrest => exact ih hrest
    | take hd hsplit _ _ _ => exact absurd ⟨_, _, hd, hsplit⟩ hnone
  | take hd hsplit hblanks hrest _ ih =>
    cases hother with
    | stop => exact absurd hsplit (nil_ne_text_append _ _)
    | skip hnone _ => exact absurd ⟨_, _, hd, hsplit⟩ hnone
    | take hd' hsplit' hblanks' hrest' hscan' =>
      have hsame := (read?_of_take hd hsplit).symm.trans (read?_of_take hd' hsplit')
      obtain ⟨rfl, htail⟩ := Prod.mk.inj (Option.some.inj hsame)
      -- the same text is divided into the same blanks and what follows them
      obtain ⟨htake, hdrop⟩ := Text.span_append hblanks hrest
      obtain ⟨htake', hdrop'⟩ := Text.span_append hblanks' hrest'
      rw [htail] at htake hdrop
      obtain rfl := htake.symm.trans htake'
      obtain rfl := hdrop.symm.trans hdrop'
      rw [ih hscan']

end Declaration

/-! ## (2) Cutting a match -/

/-- Why nothing can be cut out of a match. -/
inductive Match.Fault where
  /-- No name was kept. -/
  | noName
  /-- There is no opening brace after the name. -/
  | noOpening
  /-- There is no closing brace after the opening one. -/
  | noClosing
deriving DecidableEq

/-- **The name and the body of a match.** The body is what stands between the first opening brace after
the name and the last closing brace. -/
def Match.cut (m : Match) : Except Fault (Text × Text) :=
  match m.kept with
  | [] => .error .noName
  | (before, name) :: _ =>
    match (m.text.drop (before.length + name.length)).dropWhile (· != '\x7b') with
    | [] => .error .noOpening
    | _ :: inside =>
      match inside.reverse.dropWhile (· != '\x7d') with
      | [] => .error .noClosing
      | _ :: front => .ok (name, front.reverse)

/-- **The record of a match.** A body that holds braces is refused with the text of the match. -/
def Record.ofMatch (path : Text) (m : Match) : Except Match.Fault (Except Error Record) :=
  m.cut.map fun (name, body) =>
    if body.all Body.isPlain then do
      let fields ← (Field.texts body).mapM (Field.ofText path)
      return Record.ofFields name path fields
    else .error (.nestedGroup path (Text.trim m.text))

/-- **`Match.cut` takes the body of the declaration out of its match.** Blanks hold no braces, so
neither those before the opening brace nor those after the closing one are in the way. -/
theorem Declaration.cut_match {d : Declaration} (hspace : d.space.Blanks) {blanks : Text}
    (hblanks : blanks.Blanks) (rest : Text) :
    Match.cut ⟨d.text ++ blanks, [(keyword ++ d.gap, d.name)], rest⟩ = .ok (d.name, d.body.text) := by
  have hafterName : (d.text ++ blanks).drop ((keyword ++ d.gap).length + d.name.length)
      = d.space ++ '\x7b' :: (d.body.text ++ '\x7d' :: blanks) := by
    have htext : d.text ++ blanks = ((keyword ++ d.gap) ++ d.name) ++
        (d.space ++ '\x7b' :: (d.body.text ++ '\x7d' :: blanks)) := by simp [text]
    rw [htext, ← List.length_append, List.drop_left]
  have hopening : (d.space ++ '\x7b' :: (d.body.text ++ '\x7d' :: blanks)).dropWhile (· != '\x7b')
      = '\x7b' :: (d.body.text ++ '\x7d' :: blanks) := by
    refine (Text.span_append (fun c hc => ?_) (by simp)).2
    simpa using (Text.Blanks.braceless hspace c hc).1
  have hclosing : (d.body.text ++ '\x7d' :: blanks).reverse.dropWhile (· != '\x7d')
      = '\x7d' :: d.body.text.reverse := by
    rw [List.reverse_append, List.reverse_cons, List.append_assoc, List.singleton_append]
    refine (Text.span_append (fun c hc => ?_) (by simp)).2
    simpa using (Text.Blanks.braceless hblanks c (List.mem_reverse.mp hc)).2
  rw [Match.cut]
  dsimp only
  rw [hafterName, hopening]
  dsimp only
  rw [hclosing]
  dsimp only
  rw [List.reverse_reverse]

/-- `b.text` holds braces exactly if `b` has groups. -/
theorem Body.Plain.all_isPlain_iff {b : Body} (hb : b.Plain) :
    b.text.all isPlain = true ↔ b.groups = [] := by
  obtain ⟨first, groups⟩ := b
  cases groups with
  | nil =>
    have hfirst : first.all isPlain = true := List.all_eq_true.mpr (braceless_iff.mp hb.first)
    simp [text, hfirst]
  | cons group groups =>
    have hbrace : '\x7b' ∈ text ⟨first, group :: groups⟩ := by simp [text, groupText]
    simp only [List.cons_ne_nil, iff_false, Bool.not_eq_true]
    exact List.all_eq_false.mpr ⟨'\x7b', hbrace, by decide⟩

/-- `Text.trim (d.text ++ blanks) = d.text`. -/
theorem Declaration.trim_text_append (d : Declaration) {blanks : Text} (hblanks : blanks.Blanks) :
    Text.trim (d.text ++ blanks) = d.text := by
  rw [Text.trim_append_blank hblanks, Text.trim_eq_self_iff]
  constructor
  · intro c hc
    obtain ⟨tail, htail⟩ := exists_text_append_eq d []
    rw [List.append_nil] at htail
    obtain rfl : 'i' = c := by simpa [htail] using hc
    decide
  · intro c hc
    have hlast : d.text.getLast? = some '\x7d' := by
      simp [text, List.getLast?_append, List.getLast?_cons]
    obtain rfl : '\x7d' = c := by simpa [hlast] using hc
    decide

/-- **`ofDeclaration path d` without groups** has the name of the declaration, unless a field is
malformed. -/
theorem Record.ofDeclaration_cases (path : Text) {d : Declaration} (hgroups : d.body.groups = []) :
    (∃ r, ofDeclaration path d = .ok r ∧ r.name = d.name) ∨
      ∃ field, ofDeclaration path d = .error (.malformedField path field) := by
  rw [ofDeclaration, hgroups, List.isEmpty_nil, if_pos rfl]
  cases hfields : (Field.texts d.body.first).mapM (Field.ofText path) with
  | ok fields => exact Or.inl ⟨Record.ofFields d.name path fields, rfl, rfl⟩
  | error e =>
    obtain ⟨s, -, hs⟩ := Fallible.exists_of_mapM_eq_error hfields
    refine Or.inr ⟨s, ?_⟩
    unfold Field.ofText at hs
    split at hs
    · cases hs
    · cases hs
      rfl

/-- `ofDeclaration` refuses a declaration with groups. -/
theorem Record.ofDeclaration_of_groups (path : Text) {d : Declaration} (hgroups : d.body.groups ≠ []) :
    ofDeclaration path d = .error (.nestedGroup path d.text) := by
  rw [ofDeclaration, if_neg (by simpa using hgroups)]

/-- **`ofDeclaration` calls a declaration malformed as a whole exactly if its body has groups.** -/
theorem Record.ofDeclaration_malformed_iff (path : Text) (d : Declaration) :
    (∃ e, ofDeclaration path d = .error e ∧ e.kind = "malformed-interface") ↔
      d.body.groups ≠ [] := by
  constructor
  · rintro ⟨e, he, hkind⟩ hgroups
    rcases ofDeclaration_cases path hgroups with ⟨r, hr, -⟩ | ⟨field, hfield⟩
    · rw [hr] at he
      cases he
    · rw [hfield] at he
      cases he
      have hkinds : ("malformed-field" : Text) ≠ "malformed-interface" := by decide
      exact hkinds hkind
  · exact fun hgroups => ⟨_, ofDeclaration_of_groups path hgroups, rfl⟩

/-! ## (3) Matches and records -/

/-- **What a match stands for**: a declaration, with the blanks after it. -/
structure Match.Declares (path : Text) (m : Match) (d : Declaration) (blanks : Text) : Prop where
  /-- The match takes the declaration and the blanks. -/
  text : m.text = d.text ++ blanks
  /-- The name and the body are cut out, without a fault. -/
  cut : m.cut = .ok (d.name, d.body.text)
  /-- The record of the match is that of the declaration. -/
  record : Record.ofMatch path m = .ok (Record.ofDeclaration path d)
  /-- The declaration is malformed as a whole exactly if its body has groups. -/
  nested : (∃ e, Record.ofDeclaration path d = .error e ∧ e.kind = "malformed-interface") ↔
    d.body.groups ≠ []
  /-- The error then names the group in braces as its reason. -/
  reason : d.body.groups ≠ [] → ∃ e, Record.ofDeclaration path d = .error e ∧
    e.message = "malformed interface in " ++ path ++ ": nested object literal in `" ++
      Text.trim m.text ++ "`"

/-- `Match.Declares`: a declaration that is read is what its match stands for. -/
theorem Declaration.Admits.declares {d : Declaration} (hd : d.Admits) (path : Text) {blanks : Text}
    (hblanks : blanks.Blanks) (rest : Text) :
    Match.Declares path ⟨d.text ++ blanks, [(keyword ++ d.gap, d.name)], rest⟩ d blanks where
  text := rfl
  cut := cut_match hd.space_blank hblanks rest
  record := by
    rw [Record.ofMatch, cut_match hd.space_blank hblanks rest]
    dsimp only [Except.map]
    by_cases hgroups : d.body.groups = []
    · have hfirst : d.body.text = d.body.first := by simp [Body.text, hgroups]
      rw [if_pos (hd.body_plain.all_isPlain_iff.mpr hgroups), Record.ofDeclaration, hgroups, hfirst]
      rfl
    · rw [if_neg (fun h => hgroups (hd.body_plain.all_isPlain_iff.mp h)),
        Record.ofDeclaration_of_groups path hgroups, trim_text_append d hblanks]
  nested := Record.ofDeclaration_malformed_iff path d
  reason := by
    intro hgroups
    refine ⟨_, Record.ofDeclaration_of_groups path hgroups, ?_⟩
    rw [trim_text_append d hblanks]
    rfl

/-- `ofSource ⟨path, s⟩` has the records of `Declaration.all s`. -/
theorem SourceRecords.ofSource_eq (path s : Text) :
    ofSource ⟨path, s⟩
      = ((Declaration.all s).mapM (Record.ofDeclaration path)).map (SourceRecords.mk path) := by
  rw [ofSource]
  cases (Declaration.all s).mapM (Record.ofDeclaration path) with
  | error e => rfl
  | ok records => rfl

namespace Declaration

/-- The successive matches where a declaration is read. -/
theorem occurrences_of_read?_eq_some {s rest : Text} {d : Declaration}
    (hread : read? s = some (d, rest)) :
    occurrences expression s
      = d.matchBefore rest :: occurrences expression (rest.dropWhile Text.isBlank) := by
  have hhead := head?_attempts_expression s
  rw [hread, Option.map_some] at hhead
  have hshorter : (d.matchBefore rest).rest.length < s.length := by
    have hblanks := (List.dropWhile_suffix Text.isBlank (l := rest)).length_le
    have hlength := length_read? hread
    change (rest.dropWhile Text.isBlank).length < s.length
    omega
  cases s with
  | nil => exact absurd hshorter (Nat.not_lt_zero _)
  | cons c tail =>
    rw [occurrences, hhead]
    exact dif_pos hshorter

/-- The successive matches where no declaration is read. -/
theorem occurrences_of_read?_eq_none {c : Char} {tail : Text} (hread : read? (c :: tail) = none) :
    occurrences expression (c :: tail) = occurrences expression tail := by
  have hhead := head?_attempts_expression (c :: tail)
  rw [hread, Option.map_none] at hhead
  rw [occurrences, hhead]

/-- **`Scan s` finds what is matched and what is read.** The induction follows the reader. -/
theorem exists_scan (path s : Text) :
    ∃ found, Scan s found ∧ found.map Prod.fst = all s ∧
      List.Forall₂ (fun m taken => Match.Declares path m taken.1 taken.2) (occurrences expression s)
        found := by
  fun_induction all s with
  | case1 =>
    refine ⟨[], .stop, rfl, ?_⟩
    rw [occurrences]
    exact .nil
  | case2 c tail d rest hread ih =>
    obtain ⟨found, hscan, hall, hmatches⟩ := ih
    obtain ⟨hd, hsplit⟩ := read?_eq_some_iff.mp hread
    have hblanks : Text.Blanks (rest.takeWhile Text.isBlank) := fun b hb => List.mem_takeWhile_imp hb
    refine ⟨(d, rest.takeWhile Text.isBlank) :: found, ?_, congrArg (d :: ·) hall, ?_⟩
    · refine .take (formed_iff_admits.mpr hd) ?_ hblanks ?_ hscan
      · rw [hsplit, List.takeWhile_append_dropWhile]
      · exact Text.dropWhile_eq_self_iff.mp (List.dropWhile_idempotent Text.isBlank rest)
    · rw [occurrences_of_read?_eq_some hread]
      exact .cons (hd.declares path hblanks _) hmatches
  | case3 c tail hread ih =>
    obtain ⟨found, hscan, hall, hmatches⟩ := ih
    refine ⟨found, .skip (fun hstands => stands_iff.mp hstands hread) hscan, hall, ?_⟩
    rwa [occurrences_of_read?_eq_none hread]

/-- **The declarations of a text.** The successive matches `occurrences expression s` are those of
the scan for the grammar, of which there is one, and a source with this text declares the records of
the same declarations. From each match the name and the body of its declaration are cut out without
a fault, and the records are the same. A declaration is malformed as a whole exactly if its body has
groups. -/
theorem occurrences_expression (path s : Text) :
    ∃ found, Scan s found ∧ (∀ other, Scan s other → other = found) ∧
      List.Forall₂ (fun m taken => Match.Declares path m taken.1 taken.2) (occurrences expression s)
        found ∧
      SourceRecords.ofSource ⟨path, s⟩
        = ((found.map Prod.fst).mapM (Record.ofDeclaration path)).map (SourceRecords.mk path) := by
  obtain ⟨found, hscan, hall, hmatches⟩ := exists_scan path s
  refine ⟨found, hscan, fun other hother => hother.unique hscan, hmatches, ?_⟩
  rw [hall, SourceRecords.ofSource_eq]

end Declaration

end InterfaceSchemes
