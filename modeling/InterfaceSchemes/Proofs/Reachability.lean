import InterfaceSchemes.Proofs.Resolution

/-! # Which places an import can reach

A relative path goes back over names and then down again, but it cannot go back over a step upward: the
name of a directory that was left that way is not known. This file shows that nothing else stands in the
way, neither for the texts of relative paths in general nor for the imports that are spelled.

* **`Path.Reaches`** — what is left of a list of segments after going back over names of it begins
  another list.
* **`Path.reaches_clean_append`** — the run lemma of cleaning: more names lead to what can be reached.
* **`Path.exists_relative?_iff`** — there is a way between paths exactly if the one reaches the other.
* **`Path.exists_normalize_eq_iff`** — the same for any text behind a directory.
* **`Settings.importPath_fails_iff`** — an import fails exactly if no text leads to its target.
* **`Settings.importPath_toggle_iff`** — the two spellings of an import succeed together, except from a
  file at the root. -/

namespace InterfaceSchemes

/-! ## (1) Segments that reach others -/

namespace Path

/-- **`base` reaches `target`**: going back over names at the end of `base`, none of them a step upward,
leaves a front of `target`. -/
def Reaches (base target : List Text) : Prop :=
  ∃ front back down, base = front ++ back ∧ up ∉ back ∧ target = front ++ down

/-- A list of segments reaches itself. -/
theorem Reaches.refl (base : List Text) : Reaches base base :=
  ⟨base, [], [], by simp, List.not_mem_nil, by simp⟩

/-- **`pushSegment` leads to what can be reached.** A step upward takes away the newest segment,
which may be the last one that was left of the base. -/
theorem Reaches.pushSegment {base stack : List Text} (hreaches : Reaches base stack.reverse)
    (rooted : Bool) (name : Text) : Reaches base (Path.pushSegment rooted stack name).reverse := by
  obtain ⟨front, back, down, hbase, hback, hstack⟩ := hreaches
  rcases pushSegment_cases rooted stack name with ⟨heq, -⟩ | ⟨-, top, htop, hcons⟩ | ⟨-, -, heq⟩
  · refine ⟨front, back, down ++ [name], hbase, hback, ?_⟩
    rw [heq, List.reverse_cons, hstack, List.append_assoc]
  · have htaken : (Path.pushSegment rooted stack name).reverse ++ [top] = front ++ down := by
      rw [← List.reverse_cons, ← hcons, hstack]
    rcases List.eq_nil_or_concat down with rfl | ⟨down, last, rfl⟩
    · -- the newest segment belongs to the base
      rw [List.append_nil] at htaken
      refine ⟨_, top :: back, [], ?_, ?_, (List.append_nil _).symm⟩
      · rw [hbase, ← htaken, List.append_assoc, List.singleton_append]
      · rw [List.mem_cons, not_or]
        exact ⟨Ne.symm htop, hback⟩
    · rw [List.concat_eq_append, ← List.append_assoc] at htaken
      exact ⟨front, back, down, hbase, hback, (List.append_inj' htaken rfl).1⟩
  · rw [heq]
    exact ⟨front, back, down, hbase, hback, hstack⟩

/-- **`Reaches (clean rooted ns) (clean rooted (ns ++ ms))`**: more names lead to what can be
reached, whatever they are. -/
theorem reaches_clean_append (rooted : Bool) (ns ms : List Text) :
    Reaches (clean rooted ns) (clean rooted (ns ++ ms)) := by
  have hrun : ∀ stack : List Text, Reaches (clean rooted ns) stack.reverse →
      Reaches (clean rooted ns) (ms.foldl (pushSegment rooted) stack).reverse := by
    induction ms with
    | nil => exact fun stack hstack => hstack
    | cons name ms ih => exact fun stack hstack => ih _ (hstack.pushSegment rooted name)
  rw [clean_append]
  apply hrun
  rw [List.reverse_reverse]
  exact Reaches.refl _

/-- `Reaches (base ++ [name]) target ↔ Reaches base target`: a name at the end of the base is gone
back over, or the target has it. -/
theorem reaches_concat_iff {base target : List Text} {name : Text} (hname : name ≠ up) :
    Reaches (base ++ [name]) target ↔ Reaches base target := by
  constructor
  · rintro ⟨front, back, down, hbase, hback, htarget⟩
    rcases List.eq_nil_or_concat back with rfl | ⟨back, last, rfl⟩
    · rw [List.append_nil] at hbase
      exact ⟨base, [], name :: down, by simp, List.not_mem_nil, by simp [htarget, ← hbase]⟩
    · rw [List.concat_eq_append] at hbase hback
      rw [← List.append_assoc] at hbase
      refine ⟨front, back, down, (List.append_inj' hbase rfl).1, fun hmem => hback ?_, htarget⟩
      exact List.mem_append_left _ hmem
  · rintro ⟨front, back, down, hbase, hback, htarget⟩
    refine ⟨front, back ++ [name], down, by rw [hbase, List.append_assoc], ?_, htarget⟩
    rw [List.mem_append, List.mem_singleton, not_or]
    exact ⟨hback, Ne.symm hname⟩

/-! ## (2) Paths and texts that lead to a target -/

/-- A separator that is written as a text of its own. -/
theorem append_slash_append (p text : Text) : p ++ "/" ++ text = p ++ '/' :: text := by
  simp

/-- **`relative? base target` exists** exactly if the paths are rooted alike and the segments of the
one `Reaches` those of the other. -/
theorem exists_relative?_iff {base target : Text} :
    (∃ path, relative? base target = some path) ↔
      isRooted base = isRooted target ∧ Reaches (segments base) (segments target) := by
  constructor
  · rintro ⟨path, hrelative⟩
    obtain ⟨hrooted, front, back, down, hbase, htarget, hback, -⟩ := relative?_eq_some hrelative
    exact ⟨hrooted, front, back, down, hbase, hback, htarget⟩
  · rintro ⟨hrooted, front, back, down, hbase, hback, htarget⟩
    apply exists_relative?_of_dropCommon hrooted
    -- more than the front may be common, so less than `back` may be left
    obtain ⟨common, hcommon, -⟩ := exists_dropCommon back down
    rw [hbase, htarget, dropCommon_append]
    exact fun hmem => hback (hcommon ▸ List.mem_append_right common hmem)

/-- **Some text behind `directory p` leads to `target`** exactly if the two paths are rooted alike
and the directory reaches the target. -/
theorem exists_normalize_eq_iff {p target : Text} (hp : names p ≠ []) :
    (∃ text, normalize (directory p ++ "/" ++ text) = normalize target) ↔
      isRooted p = isRooted target ∧ Reaches (segments (directory p)) (segments target) := by
  rw [segments_directory hp]
  constructor
  · rintro ⟨text, hresolved⟩
    rw [append_slash_append, normalize_eq_iff, isRooted_directory_append hp] at hresolved
    obtain ⟨hrooted, hsegments⟩ := hresolved
    rw [segments_eq_clean, isRooted_directory_append hp, names_append, names_directory] at hsegments
    rw [← hsegments]
    exact ⟨hrooted, reaches_clean_append _ _ _⟩
  · rintro ⟨hrooted, front, back, down, hdir, hback, htarget⟩
    refine ⟨Text.joinWith "/" (List.replicate back.length up ++ down), ?_⟩
    rw [append_slash_append]
    refine normalize_of_leads hp ⟨front, back, down, hdir, hback, htarget, ?_⟩ hrooted
    exact names_joinWith_of_forall (forall_way htarget _)

end Path

/-! ## (3) Imports that can be spelled -/

namespace Settings

/-- The path at which an import starts: the file itself or its directory. -/
def importBase (s : Settings) (importer : Text) : Text :=
  if s.stripLeadingDot then importer else Path.directory importer

/-- **`s.importPath` gives a spelling where there is a way** from the path at which it starts, and
only there. -/
theorem importPath_cases (s : Settings) (importer target : Text) :
    (Path.relative? (s.importBase importer) target = none ∧ s.importPath importer target
        = .error (.unrelatedPaths (s.importBase importer) target)) ∨
      ∃ path spelled, Path.relative? (s.importBase importer) target = some path ∧
        s.importPath importer target = .ok spelled := by
  unfold importPath importBase relativePath
  by_cases hstrip : s.stripLeadingDot = true
  · rw [if_pos hstrip, if_pos hstrip]
    cases Path.relative? importer target with
    | none => exact Or.inl ⟨rfl, rfl⟩
    | some path => exact Or.inr ⟨path, _, rfl, rfl⟩
  · rw [if_neg hstrip, if_neg hstrip]
    cases Path.relative? (Path.directory importer) target with
    | none => exact Or.inl ⟨rfl, rfl⟩
    | some path => exact Or.inr ⟨path, _, rfl, rfl⟩

/-- **`s.importPath importer target` exists** exactly if the path at which it starts and the target
are rooted alike, and the directory of the file reaches the target. -/
theorem exists_importPath_iff (s : Settings) {importer name : Text}
    (hname : Path.fileName? importer = some name) (target : Text) :
    (∃ path, s.importPath importer target = .ok path) ↔
      Path.isRooted (s.importBase importer) = Path.isRooted target ∧
        Path.Reaches (Path.segments (Path.directory importer)) (Path.segments target) := by
  have hnames : Path.names importer ≠ [] := List.ne_nil_of_mem (Path.mem_names_of_fileName? hname)
  -- the file name does not matter, so the path may start at the directory
  have hbase : Path.Reaches (Path.segments (s.importBase importer)) (Path.segments target) ↔
      Path.Reaches (Path.segments (Path.directory importer)) (Path.segments target) := by
    unfold importBase
    by_cases hstrip : s.stripLeadingDot = true
    · rw [if_pos hstrip, segments_of_fileName? hname, ← Path.segments_directory hnames,
        Path.reaches_concat_iff (Path.fileName?_eq_some_iff.mp hname).2]
    · rw [if_neg hstrip]
  rw [← hbase, ← Path.exists_relative?_iff]
  rcases importPath_cases s importer target with ⟨hnone, herror⟩ | ⟨path, spelled, hsome, hok⟩
  · rw [hnone, herror]
    simp
  · rw [hsome, hok]
    simp

/-- **An import fails exactly if no text leads to its target.** With the leading dot stripped, the import
of `target` into the file `importer` is refused if and only if no text whatever, put behind the directory
of the file, is the target up to spelling. The error names the two paths. -/
theorem importPath_fails_iff (s : Settings) (hstrip : s.stripLeadingDot = true)
    {importer target name : Text} (hname : Path.fileName? importer = some name) :
    ((∃ e, s.importPath importer target = .error e) ↔
        ¬ ∃ text, Path.normalize (Path.directory importer ++ "/" ++ text) = Path.normalize target) ∧
      ∀ e, s.importPath importer target = .error e → e = .unrelatedPaths importer target := by
  have hnames : Path.names importer ≠ [] := List.ne_nil_of_mem (Path.mem_names_of_fileName? hname)
  have hbase : s.importBase importer = importer := if_pos hstrip
  have hspelled := exists_importPath_iff s hname target
  rw [hbase, ← Path.exists_normalize_eq_iff hnames] at hspelled
  rw [← hspelled]
  rcases importPath_cases s importer target with ⟨-, herror⟩ | ⟨path, spelled, -, hok⟩
  · rw [herror, hbase]
    simp
  · rw [hok]
    simp

/-- From a file above the starting point nothing below that point can be reached: the directory would have
to be entered by a name that nobody knows. -/
theorem importPath_from_above :
    Path.fileName? "../a.ts" = some "a.ts".toList ∧
      ({} : Settings).importPath "../a.ts" "b/c" = .error (.unrelatedPaths "../a.ts" "b/c") ∧
      ¬ ∃ text, Path.normalize (Path.directory "../a.ts" ++ "/" ++ text) = Path.normalize "b/c" := by
  have hname : Path.fileName? "../a.ts" = some "a.ts".toList := by decide
  have herror : ({} : Settings).importPath "../a.ts" "b/c"
      = .error (.unrelatedPaths "../a.ts" "b/c") := by decide
  exact ⟨hname, herror, (importPath_fails_iff {} rfl hname).1.mp ⟨_, herror⟩⟩

/-! ## (4) The two spellings -/

/-- **Where the two spellings of `importPath` agree.** An import can be spelled from the file
exactly if it can be spelled from the directory of the file, unless that directory is the empty
text; then exactly one of the two succeeds. Two spellings of one import lead to one place. -/
theorem importPath_toggle_iff {s t : Settings} (hs : s.stripLeadingDot = true)
    (ht : t.stripLeadingDot = false) {importer target name : Text}
    (hname : Path.fileName? importer = some name)
    (hinside : ¬ Path.segments importer <+: Path.segments target)
    (hdirectory : Path.segments target ≠ Path.segments (Path.directory importer)) :
    (((∃ path, s.importPath importer target = .ok path) ↔
        ∃ path, t.importPath importer target = .ok path) ↔ Path.directory importer ≠ []) ∧
      ∀ path other, s.importPath importer target = .ok path →
        t.importPath importer target = .ok other →
          Path.normalize (Path.directory importer ++ "/" ++ path)
            = Path.normalize (Path.directory importer ++ "/" ++ other) := by
  have hnames : Path.names importer ≠ [] := List.ne_nil_of_mem (Path.mem_names_of_fileName? hname)
  have hfile : s.importBase importer = importer := if_pos hs
  have hdir : t.importBase importer = Path.directory importer := if_neg (by simp [ht])
  constructor
  · rw [exists_importPath_iff s hname, exists_importPath_iff t hname, hfile, hdir]
    constructor
    · intro hagree hempty
      -- everything is reached from the root, so only the roots decide
      have hreaches : Path.Reaches (Path.segments []) (Path.segments target) :=
        ⟨[], [], _, rfl, List.not_mem_nil, rfl⟩
      rw [hempty, Path.isRooted_of_directory_eq_nil hnames hempty] at hagree
      cases htarget : Path.isRooted target with
      | true => exact absurd (hagree.mp ⟨htarget.symm, hreaches⟩).1 (by rw [htarget]; decide)
      | false => exact absurd (hagree.mpr ⟨htarget.symm, hreaches⟩).1 (by rw [htarget]; decide)
    · intro hne
      rw [Path.isRooted_directory hnames hne]
  · intro path other hpath hother
    obtain ⟨-, hrooted, hleads⟩ := leads_of_importPath s hname hinside hdirectory hpath
    obtain ⟨-, -, hleads'⟩ := leads_of_importPath t hname hinside hdirectory hother
    rw [if_pos hs] at hrooted
    rw [Path.append_slash_append, Path.append_slash_append,
      Path.normalize_of_leads hnames hleads hrooted, Path.normalize_of_leads hnames hleads' hrooted]

/-- Both spellings of an import between directories, which lead to one place. -/
theorem importPath_both_spellings :
    Path.fileName? "x/./b/b.ts" = some "b.ts".toList ∧
      ¬ Path.segments "x/./b/b.ts" <+: Path.segments "x/a/c" ∧
      Path.segments "x/a/c" ≠ Path.segments (Path.directory "x/./b/b.ts") ∧
      ({} : Settings).importPath "x/./b/b.ts" "x/a/c" = .ok "./../a/c" ∧
      ({ stripLeadingDot := false } : Settings).importPath "x/./b/b.ts" "x/a/c" = .ok "../a/c" ∧
      Path.normalize (Path.directory "x/./b/b.ts" ++ "/" ++ "./../a/c")
        = Path.normalize (Path.directory "x/./b/b.ts" ++ "/" ++ "../a/c") := by
  have hname : Path.fileName? "x/./b/b.ts" = some "b.ts".toList := by decide
  have hinside : ¬ Path.segments "x/./b/b.ts" <+: Path.segments "x/a/c" := by decide
  have hdirectory : Path.segments "x/a/c" ≠ Path.segments (Path.directory "x/./b/b.ts") := by decide
  have hstrip : ({} : Settings).importPath "x/./b/b.ts" "x/a/c" = .ok "./../a/c" := by decide
  have hkeep : ({ stripLeadingDot := false } : Settings).importPath "x/./b/b.ts" "x/a/c"
      = .ok "../a/c" := by decide
  have htoggle := importPath_toggle_iff (s := {}) (t := { stripLeadingDot := false }) rfl rfl hname
    hinside hdirectory
  exact ⟨hname, hinside, hdirectory, hstrip, hkeep, htoggle.2 _ _ hstrip hkeep⟩

/-- From a file at the root a rooted target is found with the leading dot stripped only, and a relative one
is accepted with the leading dot only. -/
theorem importPath_toggle_at_root :
    Path.fileName? "/a.ts" = some "a.ts".toList ∧
      (¬ Path.segments "/a.ts" <+: Path.segments "/x" ∧
        Path.segments "/x" ≠ Path.segments (Path.directory "/a.ts") ∧
        ({} : Settings).importPath "/a.ts" "/x" = .ok "./x" ∧
        ({ stripLeadingDot := false } : Settings).importPath "/a.ts" "/x"
          = .error (.unrelatedPaths [] "/x")) ∧
      (¬ Path.segments "/a.ts" <+: Path.segments "x" ∧
        Path.segments "x" ≠ Path.segments (Path.directory "/a.ts") ∧
        ({} : Settings).importPath "/a.ts" "x" = .error (.unrelatedPaths "/a.ts" "x") ∧
        ({ stripLeadingDot := false } : Settings).importPath "/a.ts" "x" = .ok "./x") := by
  decide

end Settings

end InterfaceSchemes
