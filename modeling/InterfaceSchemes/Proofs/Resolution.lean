import InterfaceSchemes.Placement
import InterfaceSchemes.Proofs.Cleaning
import InterfaceSchemes.Proofs.Fallible

/-! # What an import resolves to

An import is a text that is read relative to the directory of the importing module. This file shows
where it leads: in both spellings the text goes back from the directory to what the two places have in
common and then down to the target.

* **`Path.Leads`** — the names of a relative path that leads from a directory to a target.
* **`Path.normalize_of_leads`** — such a path, put behind the directory, is the target.
* **`Settings.leads_of_strip`**, **`Settings.leads_of_keep`** — the two spellings of an import lead to
  the target.
* **`Settings.importPath_resolves_iff`** — an import resolves to its target, except from a module at the
  root that spells its imports from its directory. -/

namespace InterfaceSchemes

/-! ## (1) Relative paths that lead to a target -/

namespace Path

/-- **The names `way` lead from a directory to a target**: they go back from the clean names of the
directory and then down to the segments of the target. The directory is given by its names and whether
it is rooted. -/
def Leads (rooted : Bool) (dir : List Text) (way : List Text) (target : Text) : Prop :=
  ∃ front back down, clean rooted dir = front ++ back ∧ up ∉ back ∧
    segments target = front ++ down ∧ way = List.replicate back.length up ++ down

/-- **`normalize (directory p ++ '/' :: way) = normalize target`** for a path `way` that `Leads` to
the target. -/
theorem normalize_of_leads {p way target : Text} (hp : names p ≠ [])
    (hleads : Leads (isRooted p) (names p).dropLast (names way) target)
    (hrooted : isRooted p = isRooted target) :
    normalize (directory p ++ '/' :: way) = normalize target := by
  obtain ⟨front, back, down, hdir, hback, htarget, hway⟩ := hleads
  have hclean : IsClean (isRooted p) (front ++ down) := by
    rw [← htarget, hrooted]
    exact isClean_clean _ _
  have hjoined : isRooted (directory p ++ '/' :: way) = isRooted p :=
    isRooted_directory_append hp way
  apply normalize_eq_of
  · rw [hjoined, hrooted]
  · rw [segments_eq_clean, hjoined, names_append, names_directory, hway,
      clean_back_down hdir hback hclean, htarget]

/-- The parts of a relative path are names. -/
theorem forall_way {target : Text} {front down : List Text} (htarget : segments target = front ++ down)
    (k : Nat) : ∀ part ∈ List.replicate k up ++ down, '/' ∉ part ∧ isVoid part = false := by
  intro part hpart
  rcases List.mem_append.mp hpart with hmem | hmem
  · rw [List.eq_of_mem_replicate hmem]
    decide
  · have hsegment : part ∈ segments target := by
      rw [htarget]
      exact List.mem_append_right front hmem
    exact of_mem_names (mem_names_of_mem_segments hsegment)

/-- `names ('.' :: '/' :: way) = names way`: a dot in front of a path adds no name. -/
theorem names_dot_slash (way : Text) : names ('.' :: '/' :: way) = names way := by
  rw [← List.singleton_append, names_append]
  rfl

end Path

/-! ## (2) The two spellings -/

namespace Settings

/-- `relativePath base target`, where it is found, is `relative? base target`. -/
theorem relative?_of_relativePath {base target path : Text}
    (hrelative : relativePath base target = .ok path) : Path.relative? base target = some path := by
  unfold relativePath at hrelative
  split at hrelative
  · rename_i found hfound
    cases hrelative
    exact hfound
  · cases hrelative

section

variable {importer target path name : Text} (hname : Path.fileName? importer = some name)

include hname

/-- `segments importer` are those of its directory, and the file name. -/
theorem segments_of_fileName? :
    Path.segments importer
      = Path.clean (Path.isRooted importer) (Path.names importer).dropLast ++ [name] := by
  obtain ⟨hlast, hup⟩ := Path.fileName?_eq_some_iff.mp hname
  have hsplit : Path.names importer = (Path.names importer).dropLast ++ [name] :=
    (List.dropLast_append_getLast? name hlast).symm
  have hfresh : Path.up ∉ [name] := fun hmem => hup (List.mem_singleton.mp hmem).symm
  rw [Path.segments_eq_clean]
  conv_lhs => rw [hsplit]
  rw [Path.clean_append, Path.foldl_pushSegment hfresh]
  simp

/-- **The path from the file itself**, whose first step upward has become the step into its
directory, `Leads` to the target. That first step is there because the file is not above the target.
-/
theorem leads_of_strip (hinside : ¬ Path.segments importer <+: Path.segments target)
    (hdirectory : Path.segments target ≠ Path.segments (Path.directory importer))
    (hrelative : Path.relative? importer target = some path) :
    Path.isRooted importer = Path.isRooted target ∧ startsUpward path = true ∧
      ∃ way, path = '.' :: '.' :: '/' :: way ∧
        Path.Leads (Path.isRooted importer) (Path.names importer).dropLast (Path.names way) target := by
  have hnames : Path.names importer ≠ [] := List.ne_nil_of_mem (Path.mem_names_of_fileName? hname)
  obtain ⟨hrooted, front, back, down, hbase, htarget, hback, hpath⟩ :=
    Path.relative?_eq_some hrelative
  rcases List.eq_nil_or_concat back with rfl | ⟨back, last, hconcat⟩
  · -- nothing to go back over: the target would be below the file
    refine absurd ?_ hinside
    rw [hbase, htarget, List.append_nil]
    exact List.prefix_append front down
  · rw [List.concat_eq_append] at hconcat
    subst hconcat
    rw [segments_of_fileName? hname, ← List.append_assoc] at hbase
    obtain ⟨hdir, -⟩ := List.append_inj' hbase rfl
    have hrest : List.replicate back.length Path.up ++ down ≠ [] := by
      -- else the target would be the directory of the file
      intro hnil
      obtain ⟨hback', rfl⟩ := List.append_eq_nil_iff.mp hnil
      obtain rfl : back = [] := by simpa using hback'
      refine hdirectory ?_
      rw [Path.segments_directory hnames, hdir, htarget]
    have hjoin := hpath (by simp)
    rw [List.length_append, List.length_singleton, List.replicate_succ, List.cons_append] at hjoin
    have hspelled : path = '.' :: '.' :: '/' ::
        Text.joinWith "/" (List.replicate back.length Path.up ++ down) := by
      rw [hjoin, Text.joinWith, Text.joinWith, List.intercalate_cons_of_ne_nil hrest]
      rfl
    refine ⟨hrooted, by rw [hspelled]; rfl, _, hspelled, front, back, down, hdir, ?_, htarget, ?_⟩
    · exact fun hmem => hback (List.mem_append_left _ hmem)
    · exact Path.names_joinWith_of_forall (Path.forall_way htarget _)

/-- **The path from the directory of the file** `Leads` to the target. -/
theorem leads_of_keep (hdirectory : Path.segments target ≠ Path.segments (Path.directory importer))
    (hrelative : Path.relative? (Path.directory importer) target = some path) :
    Path.isRooted (Path.directory importer) = Path.isRooted target ∧
      Path.Leads (Path.isRooted importer) (Path.names importer).dropLast (Path.names path) target := by
  have hnames : Path.names importer ≠ [] := List.ne_nil_of_mem (Path.mem_names_of_fileName? hname)
  obtain ⟨hrooted, front, back, down, hbase, htarget, hback, hpath⟩ :=
    Path.relative?_eq_some hrelative
  have hne : List.replicate back.length Path.up ++ down ≠ [] := by
    intro hnil
    obtain ⟨hback', rfl⟩ := List.append_eq_nil_iff.mp hnil
    obtain rfl : back = [] := by simpa using hback'
    exact hdirectory (htarget.trans hbase.symm)
  refine ⟨hrooted, front, back, down, ?_, hback, htarget, ?_⟩
  · rw [← Path.segments_directory hnames, hbase]
  · rw [hpath hne]
    exact Path.names_joinWith_of_forall (Path.forall_way htarget _)

end

/-! ## (3) Imports -/

/-- **The names of `s.importPath importer target` lead to the target**, and its text says that it is
relative. The root is that of the file if the path starts at the file, and that of its directory
otherwise. -/
theorem leads_of_importPath (s : Settings) {importer target path name : Text}
    (hname : Path.fileName? importer = some name)
    (hinside : ¬ Path.segments importer <+: Path.segments target)
    (hdirectory : Path.segments target ≠ Path.segments (Path.directory importer))
    (himport : s.importPath importer target = .ok path) :
    (("./" : Text) <+: path ∨ ("../" : Text) <+: path) ∧
      (if s.stripLeadingDot then Path.isRooted importer else Path.isRooted (Path.directory importer))
        = Path.isRooted target ∧
      Path.Leads (Path.isRooted importer) (Path.names importer).dropLast (Path.names path) target := by
  unfold importPath at himport
  by_cases hstrip : s.stripLeadingDot = true
  · rw [if_pos hstrip] at himport
    obtain ⟨found, hfound, hpure⟩ := Fallible.bind_eq_ok_iff.mp himport
    obtain ⟨hrooted, hstarts, way, rfl, hleads⟩ :=
      leads_of_strip hname hinside hdirectory (relative?_of_relativePath hfound)
    rw [if_pos hstarts] at hpure
    cases hpure
    rw [if_pos hstrip]
    refine ⟨Or.inl ⟨way, rfl⟩, hrooted, ?_⟩
    change Path.Leads _ _ (Path.names ('.' :: '/' :: way)) target
    rwa [Path.names_dot_slash]
  · rw [if_neg hstrip] at himport
    obtain ⟨found, hfound, hpure⟩ := Fallible.bind_eq_ok_iff.mp himport
    obtain ⟨hrooted, hleads⟩ :=
      leads_of_keep hname hdirectory (relative?_of_relativePath hfound)
    rw [if_neg hstrip]
    by_cases hstarts : startsUpward found = true
    · rw [if_pos hstarts] at hpure
      cases hpure
      exact ⟨Or.inr (List.isPrefixOf_iff_prefix.mp hstarts), hrooted, hleads⟩
    · rw [if_neg hstarts] at hpure
      cases hpure
      refine ⟨Or.inl ⟨found, rfl⟩, hrooted, ?_⟩
      change Path.Leads _ _ (Path.names ('.' :: '/' :: found)) target
      rwa [Path.names_dot_slash]

/-- **`s.importPath importer target` resolves to `target`**, if the file that imports is not above
the target and the target is not its directory: the text begins with a step into the directory or
upward, and behind the directory it is the target up to spelling. The one exception is a file at the
root whose imports are spelled from its directory. Its directory is the empty text, which does not
count as rooted, so a target that is relative is accepted and is then looked for at the root. -/
theorem importPath_resolves_iff (s : Settings) {importer target path name : Text}
    (hname : Path.fileName? importer = some name)
    (hinside : ¬ Path.segments importer <+: Path.segments target)
    (hdirectory : Path.segments target ≠ Path.segments (Path.directory importer))
    (himport : s.importPath importer target = .ok path) :
    (("./" : Text) <+: path ∨ ("../" : Text) <+: path) ∧
      (Path.normalize (Path.directory importer ++ "/" ++ path) = Path.normalize target ↔
        ¬ (s.stripLeadingDot = false ∧ Path.directory importer = [] ∧
          Path.isRooted target = false)) := by
  have hnames : Path.names importer ≠ [] := List.ne_nil_of_mem (Path.mem_names_of_fileName? hname)
  obtain ⟨hstart, hrooted, hleads⟩ := leads_of_importPath s hname hinside hdirectory himport
  have hjoined : Path.isRooted (Path.directory importer ++ '/' :: path) = Path.isRooted importer :=
    Path.isRooted_directory_append hnames path
  have htext : Path.directory importer ++ "/" ++ path = Path.directory importer ++ '/' :: path := by
    simp
  rw [htext]
  refine ⟨hstart, ?_, ?_⟩
  · -- an empty directory makes the joined path rooted, which the target is not
    rintro hresolved ⟨-, hempty, hrelative⟩
    have hsame := congrArg Path.isRooted hresolved
    rw [Path.isRooted_normalize, Path.isRooted_normalize, hrelative, hempty] at hsame
    exact absurd hsame (by simp [Path.isRooted_iff])
  · intro hregular
    apply Path.normalize_of_leads hnames hleads
    by_cases hstrip : s.stripLeadingDot = true
    · rwa [if_pos hstrip] at hrooted
    · rw [if_neg hstrip] at hrooted
      by_cases hempty : Path.directory importer = []
      · -- then the target is relative as well
        rw [hempty] at hrooted
        exact absurd ⟨by simpa using hstrip, hempty, hrooted.symm⟩ hregular
      · rw [Path.isRooted_append hempty] at hjoined
        rw [← hjoined, hrooted]

/-- A module and a target that are spelled in a roundabout way, and the import between them. -/
theorem importPath_roundabout_resolves :
    Path.fileName? "../b/./x/../schemes/b.ts" = some "b.ts".toList ∧
      ¬ Path.segments "../b/./x/../schemes/b.ts" <+: Path.segments "../../a//c" ∧
      Path.segments "../../a//c" ≠ Path.segments (Path.directory "../b/./x/../schemes/b.ts") ∧
      ({} : Settings).importPath "../b/./x/../schemes/b.ts" "../../a//c" = .ok "./../../../a/c" ∧
      Path.normalize (Path.directory "../b/./x/../schemes/b.ts" ++ "/" ++ "./../../../a/c")
        = Path.normalize "../../a//c" := by
  have hname : Path.fileName? "../b/./x/../schemes/b.ts" = some "b.ts".toList := by decide
  have hinside : ¬ Path.segments "../b/./x/../schemes/b.ts" <+: Path.segments "../../a//c" := by
    decide
  have hdirectory :
      Path.segments "../../a//c" ≠ Path.segments (Path.directory "../b/./x/../schemes/b.ts") := by
    decide
  have himport : ({} : Settings).importPath "../b/./x/../schemes/b.ts" "../../a//c"
      = .ok "./../../../a/c" := by decide
  refine ⟨hname, hinside, hdirectory, himport, ?_⟩
  apply (importPath_resolves_iff {} hname hinside hdirectory himport).2.mpr
  exact fun hroot => absurd hroot.1 (by decide)

/-- From a file at the root, with imports spelled from the directory, a relative target is looked for at
the root. -/
theorem importPath_from_root :
    Path.fileName? "/a.ts" = some "a.ts".toList ∧
      ¬ Path.segments "/a.ts" <+: Path.segments "x" ∧
      Path.segments "x" ≠ Path.segments (Path.directory "/a.ts") ∧
      ({ stripLeadingDot := false } : Settings).importPath "/a.ts" "x" = .ok "./x" ∧
      Path.normalize (Path.directory "/a.ts" ++ "/" ++ "./x") = "/x".toList ∧
      Path.normalize "x" = "x".toList := by
  decide

end Settings

end InterfaceSchemes
