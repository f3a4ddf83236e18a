import InterfaceSchemes.Proofs.Discovery
import InterfaceSchemes.Proofs.Fallible

/-! # Which output modules are told from sources

A search leaves out the files whose stem ends with the marker, a dot and the infix of the settings.
The marker was put there by the writer, in front of the extension of the source. This file proves for
which sources the two agree.

* **`Text.eq_of_append_rotate`** — the only texts with one dot that commute with a marker.
* **`SourceFilter.isMarked_outputPath_iff`** — an output module bears the marker if its source has an
  extension, or if the marker is the name of the source over and over.
* **`SourceFilter.accepts_outputPath_iff`** — these are the output modules that no search finds.
* **`SourceFilter.accepts_bare_output`** — an output module that is found. -/

namespace InterfaceSchemes

/-! ## (1) A text with one dot, over and over -/

namespace Text

/-- A text over and over. -/
def repeated (n : Nat) (s : Text) : Text := (List.replicate n s).flatten

/-- `repeated (n + 1) s = repeated n s ++ s`: once more at the end. -/
theorem repeated_succ (n : Nat) (s : Text) : repeated (n + 1) s = repeated n s ++ s := by
  rw [repeated, repeated, List.replicate_succ', List.flatten_concat]

/-- `repeated (n + 1) s = s ++ repeated n s`: once more at the beginning. -/
theorem repeated_succ_cons (n : Nat) (s : Text) : repeated (n + 1) s = s ++ repeated n s := by
  rw [repeated, repeated, List.replicate_succ, List.flatten_cons]

/-- **A dot and `word` before `front` are a dot and a word after it**, only if `front` is the dot
and the word over and over. The induction takes one dot and one word off `front`. -/
theorem eq_of_append_rotate {word back front : Text} (hword : '.' ∉ word)
    (h : '.' :: word ++ front = front ++ '.' :: back) :
    back = word ∧ ∃ n, front = repeated n ('.' :: word) := by
  induction hlength : front.length using Nat.strongRecOn generalizing front with
  | ind length ih =>
    subst hlength
    cases front with
    | nil =>
      rw [List.append_nil, List.nil_append, List.cons.injEq] at h
      exact ⟨h.2.symm, 0, rfl⟩
    | cons c rest =>
      rw [List.cons_append, List.cons_append, List.cons.injEq] at h
      obtain ⟨rfl, h⟩ := h
      rcases List.append_eq_append_iff.mp h with ⟨more, rfl, hmore⟩ | ⟨more, hmore, hback⟩
      · cases more with
        | nil =>
          rw [List.append_nil, List.nil_append, List.cons.injEq] at hmore
          exact ⟨hmore.2.symm, 1, by simp [repeated]⟩
        | cons d more =>
          rw [List.cons_append, List.cons.injEq] at hmore
          obtain ⟨rfl, hmore⟩ := hmore
          have hshorter : ('.' :: more).length < ('.' :: (word ++ '.' :: more)).length := by
            simp only [List.length_cons, List.length_append]
            omega
          obtain ⟨rfl, n, hn⟩ := ih ('.' :: more).length hshorter
            (congrArg ('.' :: ·) hmore) rfl
          refine ⟨rfl, n + 1, ?_⟩
          rw [repeated_succ_cons, ← hn]
          rfl
      · cases more with
        | nil =>
          rw [List.nil_append, List.cons.injEq] at hback
          rw [List.append_nil] at hmore
          exact ⟨hback.2.trans hmore.symm, 1, by simp [repeated, hmore]⟩
        | cons d more =>
          -- then the word would hold the dot with which the text begins
          rw [List.cons_append, List.cons.injEq] at hback
          obtain ⟨rfl, -⟩ := hback
          exact absurd (by simp [hmore]) hword

end Text

/-! ## (2) The stem of an output module -/

namespace Path

/-- A name without an extension has no dot but its first character. -/
theorem dot_notMem_tail {name : Text} (hname : splitName name = (name, none)) : '.' ∉ name.tail := by
  intro hdot
  cases name with
  | nil => exact absurd hdot List.not_mem_nil
  | cons c rest =>
    obtain ⟨front, back, hrest⟩ := List.append_of_mem (show '.' ∈ rest from hdot)
    obtain ⟨before, ext, hsplit⟩ := exists_extension_of_dot (show c :: front ≠ [] by simp) back
    rw [List.cons_append, ← hrest, hname] at hsplit
    cases hsplit

end Path

namespace SourceFilter

/-- **The stem of a name without an extension, with the marker behind it**, ends with the marker if
the marker is `Text.repeated n name`. The marker has one dot more than is left of it in the stem, so
the name has to begin with a dot and the whole stem has to be the marker. -/
theorem suffix_stem_iff {name front back : Text} (hname : Path.splitName name = (name, none))
    (hne : name ≠ []) {rest : Text} (hmarker : '.' :: rest = front ++ '.' :: back)
    (hback : '.' ∉ back) :
    '.' :: rest <:+ name ++ front ↔ ∃ n, '.' :: rest = Text.repeated n name := by
  have htail := Path.dot_notMem_tail hname
  obtain ⟨c, word, rfl⟩ := List.exists_cons_of_ne_nil hne
  have hword : '.' ∉ word := htail
  constructor
  · rintro ⟨more, hmore⟩
    rw [hmarker] at hmore
    have hdots : List.count '.' more + 1 = List.count '.' [c] := by
      have hcounts := congrArg (List.count '.') hmore
      simp only [List.count_append, List.count_cons, List.count_nil, beq_self_eq_true, if_true,
        List.count_eq_zero_of_not_mem hword, List.count_eq_zero_of_not_mem hback] at hcounts ⊢
      omega
    obtain rfl : '.' = c := List.mem_singleton.mp (List.count_pos_iff.mp (by omega))
    -- what precedes the marker begins like the name, with a dot, or is empty
    cases more with
    | cons d more =>
      rw [List.cons_append, List.cons_append, List.cons.injEq] at hmore
      rw [hmore.1, List.count_cons_self] at hdots
      exact absurd hdots (by simp)
    | nil =>
      obtain ⟨rfl, n, hn⟩ := Text.eq_of_append_rotate hword hmore.symm
      refine ⟨n + 1, ?_⟩
      rw [hmarker, Text.repeated_succ, ← hn]
  · rintro ⟨n, hn⟩
    cases n with
    | zero => cases hn
    | succ n =>
      have hc : c = '.' := by
        rw [Text.repeated_succ_cons, List.cons_append, List.cons.injEq] at hn
        exact hn.1.symm
      subst hc
      -- the last dot of the marker is that of the last repetition
      have hlast := hmarker.symm.trans (hn.trans (Text.repeated_succ n _))
      obtain ⟨rfl, -⟩ := Text.append_cons_inj hback hword hlast
      exact ⟨[], hn.trans (Text.repeated_succ_cons n _)⟩

/-- **`isMarked` for `settings.outputPath source`**: the source has an extension, or its name over
and over is the marker. -/
theorem isMarked_outputPath_iff (settings : Settings) (hfree : '/' ∉ settings.schemeInfix)
    {source name : Text} (hname : Path.fileName? source = some name) :
    isMarked (markerOf settings) (settings.outputPath source) = true ↔
      Path.extension source ≠ [] ∨ ∃ n, markerOf settings = Text.repeated n name := by
  have hstem : Path.stem? (settings.outputPath source)
      = some (Path.splitName (settings.moduleName source)).1 := by
    rw [Path.stem?, Settings.fileName?_outputPath settings hfree hname, Option.map_some]
  rw [isMarked, hstem]
  dsimp only
  rw [List.isSuffixOf_iff_suffix]
  rcases Settings.moduleName_cases settings hname with
    ⟨hsplit, hmodule⟩ | ⟨stem, ext, rfl, hne, hdot, hmodule⟩
  · have hext : Path.extension source = [] := by
      rw [Path.extension, hname, Option.bind_some, hsplit]
    have hne : name ≠ [] := by
      rintro rfl
      exact absurd (Path.isFileName_of_fileName? hname).2.1 (by decide)
    obtain ⟨front, back, hmarker, hback⟩ := Text.exists_last
      (show '.' ∈ markerOf settings from List.mem_cons_self)
    have hcut : Path.splitName (settings.moduleName source) = (name ++ front, some back) := by
      have hwhole : settings.moduleName source = (name ++ front) ++ '.' :: back := by
        rw [hmodule, List.append_assoc, ← hmarker]
        rfl
      rw [hwhole, Path.splitName_append (by simp [hne]) hback]
    rw [hcut, hext]
    simp only [ne_eq, not_true, false_or]
    exact suffix_stem_iff hsplit hne hmarker hback
  · have hext : Path.extension source = '.' :: ext := by
      rw [Path.extension, hname, Option.bind_some, Path.splitName_append hne hdot]
    rw [hmodule, Path.splitName_append (by simp) hdot, hext]
    simp [markerOf]

/-! ## (3) Searches -/

/-- `filter.marker = markerOf settings`. -/
theorem marker_of_ofPatterns {settings : Settings} {patterns : List Text} {filter : SourceFilter}
    (hfilter : ofPatterns settings patterns = .ok filter) : filter.marker = markerOf settings := by
  obtain ⟨compiled, -, hpure⟩ := Fallible.bind_eq_ok_iff.mp hfilter
  cases hpure
  rfl

/-- **`filter.accepts` nothing that bears the marker.** -/
theorem accepts_of_isMarked {filter : SourceFilter} {root path : Text}
    (hmarked : isMarked filter.marker path = true) : filter.accepts root path = false := by
  rw [accepts]
  split
  · rfl
  · rw [hmarked]
    rfl

/-- The filter with a star for its pattern. -/
theorem ofPatterns_star (settings : Settings) :
    ofPatterns settings ["*"] = .ok ⟨[⟨[.anyRun]⟩], markerOf settings⟩ := by
  have hcompile : Glob.compile "*" = .ok ⟨[.anyRun]⟩ := by cbv
  rw [ofPatterns]
  simp only [List.isEmpty_cons, Bool.false_eq_true, if_false, List.mapM_cons, List.mapM_nil, pattern,
    hcompile]
  rfl

/-- A star accepts everything that has a name and is not `isMarked`. -/
theorem accepts_star {marker path name : Text} (root : Text) (hname : Path.fileName? path = some name)
    (hmarked : isMarked marker path = false) :
    accepts ⟨[⟨[.anyRun]⟩], marker⟩ root path = true := by
  have hall : Glob.Pattern.accepts ⟨[.anyRun]⟩ name = true :=
    Glob.accepts_star_iff.mpr List.nil_suffix
  rw [accepts, hname]
  simp [hmarked, hall]

/-- **Which output modules no search finds**: those of the sources with an extension, and those of a
source whose name over and over is the marker. -/
theorem accepts_outputPath_iff (settings : Settings) (hfree : '/' ∉ settings.schemeInfix)
    {source name : Text} (hname : Path.fileName? source = some name) (root : Text) :
    (∀ patterns filter, ofPatterns settings patterns = .ok filter →
        filter.accepts root (settings.outputPath source) = false) ↔
      Path.extension source ≠ [] ∨ ∃ n, markerOf settings = Text.repeated n name := by
  rw [← isMarked_outputPath_iff settings hfree hname]
  constructor
  · intro hnever
    by_contra hmarked
    have hfound := accepts_star root (Settings.fileName?_outputPath settings hfree hname)
      (Bool.eq_false_iff.mpr hmarked)
    rw [hnever ["*"] _ (ofPatterns_star settings)] at hfound
    cases hfound
  · intro hmarked patterns filter hfilter
    rw [← marker_of_ofPatterns hfilter] at hmarked
    exact accepts_of_isMarked hmarked

/-- No search finds the output modules of a file with two dots and of a file that begins with its only
dot, where the infix is the rest of that name. -/
theorem accepts_dotted_outputs :
    (∀ patterns filter, ofPatterns {} patterns = .ok filter →
      filter.accepts "src" "src/schemes/user.d.scheme.ts" = false) ∧
    ∀ patterns filter, ofPatterns { schemeInfix := "b.b" } patterns = .ok filter →
      filter.accepts "/" "/home/schemes/.b.b.b" = false := by
  refine ⟨?_, ?_⟩
  · exact (accepts_outputPath_iff {} (by decide)
      (show Path.fileName? "src/user.d.ts" = some "user.d.ts" by decide) "src").mpr
        (Or.inl (by decide))
  · exact (accepts_outputPath_iff { schemeInfix := "b.b" } (by decide)
      (show Path.fileName? "/home/.b" = some ".b" by decide) "/").mpr (Or.inr ⟨2, by decide⟩)

/-- **An output module that is found.** Its source has no extension, so its stem ends before the
marker. -/
theorem accepts_bare_output :
    '/' ∉ ({} : Settings).schemeInfix ∧ Path.fileName? "models" = some "models" ∧
      ({} : Settings).outputPath "models" = "./schemes/models.scheme" ∧
      ∃ filter, ofPatterns {} ["*"] = .ok filter ∧
        filter.accepts "." (({} : Settings).outputPath "models") = true :=
  ⟨by decide, by decide, by decide, _, ofPatterns_star {}, by decide +kernel⟩

end SourceFilter

end InterfaceSchemes
