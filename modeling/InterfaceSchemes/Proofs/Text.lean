import InterfaceSchemes.Text.Blank
import InterfaceSchemes.Text.Word
import Mathlib.Data.List.DropRight

/-! # Cutting and trimming texts

What the readers of this library rely on when they cut a text at separators and trim its pieces.

* **`splitWhere_eq_splitOnP`** — cutting is the cutting of the standard library, so its laws apply.
* **`trim_append_blank`**, **`blank_append_trim`** — blanks at the ends do not matter.
* **`trim_trim`**, **`trim_eq_self_iff`** — a trimmed text begins and ends with what is no blank.
* **`map_trim_splitAt_dropWhile`**, **`map_trim_splitAt_trimEnd`** — the trimmed pieces of a text do
  not depend on blanks at its ends. -/

namespace InterfaceSchemes.Text

/-! ## (1) Cutting at separators -/

/-- `splitWhere` is the cutting of the standard library. -/
theorem splitWhere_eq_splitOnP (isSep : Char → Bool) (s : Text) :
    splitWhere isSep s = s.splitOnP isSep := by
  induction s with
  | nil => rfl
  | cons c s ih =>
    rw [splitWhere, List.splitOnP_cons_eq_if_modifyHead, ih]
    split
    · rfl
    · cases hpieces : s.splitOnP isSep with
      | nil => exact absurd hpieces (List.splitOnP_ne_nil isSep s)
      | cons piece pieces => rfl

/-- `splitAt` is the cutting of the standard library at one character. -/
theorem splitAt_eq_splitOn (sep : Char) (s : Text) : splitAt sep s = s.splitOn sep := by
  rw [splitAt, splitWhere_eq_splitOnP, List.splitOn_eq_splitOnP]

/-- The characters of a piece of `splitWhere isSep s` are characters of `s`, and none is a
separator. -/
theorem of_mem_splitWhere {isSep : Char → Bool} {s piece : Text}
    (hpiece : piece ∈ splitWhere isSep s) {c : Char} (hc : c ∈ piece) :
    c ∈ s ∧ isSep c = false := by
  induction s generalizing piece with
  | nil =>
    obtain rfl : piece = [] := by simpa [splitWhere] using hpiece
    cases hc
  | cons d s ih =>
    rw [splitWhere_eq_splitOnP, List.splitOnP_cons_eq_if_modifyHead, ← splitWhere_eq_splitOnP]
      at hpiece
    split at hpiece
    · -- a separator begins with an empty piece
      rcases List.mem_cons.mp hpiece with rfl | hpiece
      · cases hc
      · exact ⟨List.mem_cons_of_mem _ (ih hpiece hc).1, (ih hpiece hc).2⟩
    · -- any other character goes to the first piece
      rename_i hd
      cases hpieces : splitWhere isSep s with
      | nil => exact absurd hpieces (splitWhere_ne_nil isSep s)
      | cons first pieces =>
        rw [hpieces, List.modifyHead_cons] at hpiece
        rw [hpieces] at ih
        rcases List.mem_cons.mp hpiece with rfl | hpiece
        · rcases List.mem_cons.mp hc with rfl | hc
          · exact ⟨by simp, by simpa using hd⟩
          · have hin := ih (List.mem_cons_self ..) hc
            exact ⟨List.mem_cons_of_mem _ hin.1, hin.2⟩
        · have hin := ih (List.mem_cons_of_mem _ hpiece) hc
          exact ⟨List.mem_cons_of_mem _ hin.1, hin.2⟩

/-- The characters of a piece between occurrences of `sep` are other characters of the text. -/
theorem of_mem_splitAt {sep : Char} {s piece : Text} (hpiece : piece ∈ splitAt sep s) {c : Char}
    (hc : c ∈ piece) : c ∈ s ∧ c ≠ sep := by
  obtain ⟨hmem, hsep⟩ := of_mem_splitWhere hpiece hc
  exact ⟨hmem, by simpa using hsep⟩

/-- `a ++ c :: x = b ++ c :: y` only if `a = b` and `x = y`: the last occurrence of a character cuts
a text in one way only. -/
theorem append_cons_inj {c : Char} {a b x y : Text} (hx : c ∉ x) (hy : c ∉ y)
    (heq : a ++ c :: x = b ++ c :: y) : a = b ∧ x = y := by
  rcases List.append_eq_append_iff.mp heq with ⟨mid, rfl, hmid⟩ | ⟨mid, rfl, hmid⟩
  · cases mid with
    | nil => exact ⟨by simp, (List.cons.inj hmid).2⟩
    | cons d mid =>
      obtain ⟨-, rfl⟩ := List.cons.inj hmid
      exact absurd (by simp) hx
  · cases mid with
    | nil => exact ⟨by simp, (List.cons.inj hmid).2.symm⟩
    | cons d mid =>
      obtain ⟨-, rfl⟩ := List.cons.inj hmid
      exact absurd (by simp) hy

/-- A text with a character, by the last occurrence of it, which is the first from the end. -/
theorem exists_last {c : Char} {s : Text} (hc : c ∈ s) :
    ∃ front back, s = front ++ c :: back ∧ c ∉ back := by
  obtain ⟨back, front, hreverse, hback⟩ := List.eq_append_cons_of_mem (List.mem_reverse.mpr hc)
  refine ⟨front.reverse, back.reverse, ?_, by simpa using hback⟩
  simpa using congrArg List.reverse hreverse

/-! ## (2) Trimming -/

/-- `trimEnd` drops from the right. -/
theorem trimEnd_eq_rdropWhile (drop : Char → Bool) (s : Text) :
    trimEnd drop s = s.rdropWhile drop := rfl

/-- `trimEnd drop s <+: s`. -/
theorem trimEnd_prefix_self (drop : Char → Bool) (s : Text) : trimEnd drop s <+: s :=
  List.rdropWhile_prefix drop s

/-- `trimEnd` keeps a first character that stays. -/
theorem head?_trimEnd {drop : Char → Bool} {c : Char} (hc : drop c = false) (s : Text) :
    (trimEnd drop (c :: s)).head? = some c := by
  have hne : trimEnd drop (c :: s) ≠ [] := by
    rw [trimEnd_eq_rdropWhile, Ne, List.rdropWhile_eq_nil_iff]
    intro hall
    rw [hall c (by simp)] at hc
    cases hc
  obtain ⟨rest, hrest⟩ := trimEnd_prefix_self drop (c :: s)
  obtain ⟨d, t, hcons⟩ := List.exists_cons_of_ne_nil hne
  rw [hcons, List.cons_append] at hrest
  rw [hcons, (List.cons.inj hrest).1, List.head?_cons]

/-- The characters of a trimmed text are characters of the text. -/
theorem mem_of_mem_trim {s : Text} {c : Char} (hc : c ∈ trim s) : c ∈ s := by
  rw [trim, trimEnds] at hc
  exact (List.dropWhile_suffix isBlank).subset ((trimEnd_prefix_self isBlank _).subset hc)

/-- Blanks in front do not matter: `trim (b ++ s) = trim s`. -/
theorem blank_append_trim {b : Text} (hb : ∀ c ∈ b, isBlank c = true) (s : Text) :
    trim (b ++ s) = trim s := by
  rw [trim, trim, trimEnds, trimEnds, List.dropWhile_append_of_pos hb]

/-- Blanks at the end do not matter: `trim (s ++ b) = trim s`. -/
theorem trim_append_blank {b : Text} (hb : ∀ c ∈ b, isBlank c = true) (s : Text) :
    trim (s ++ b) = trim s := by
  rw [trim, trim, trimEnds, trimEnds, List.dropWhile_append]
  split
  · -- nothing but blanks: both sides are empty
    rename_i hempty
    rw [List.isEmpty_iff.mp hempty, List.dropWhile_eq_nil_iff.mpr hb]
  · rw [trimEnd, trimEnd, List.reverse_append,
      List.dropWhile_append_of_pos (fun c hc => hb c (List.mem_reverse.mp hc))]

/-- What `dropWhile` leaves alone begins with a character that stays. -/
theorem dropWhile_eq_self_iff {drop : Char → Bool} {s : Text} :
    s.dropWhile drop = s ↔ ∀ c ∈ s.head?, drop c = false := by
  rw [List.dropWhile_eq_self_iff]
  cases s with
  | nil => simp
  | cons c s => simp

/-- What `trimEnd` leaves alone ends with a character that stays. -/
theorem trimEnd_eq_self_iff {drop : Char → Bool} {s : Text} :
    trimEnd drop s = s ↔ ∀ c ∈ s.getLast?, drop c = false := by
  rw [trimEnd, ← List.head?_reverse, ← dropWhile_eq_self_iff]
  constructor
  · intro h
    simpa using congrArg List.reverse h
  · intro h
    rw [h, List.reverse_reverse]

/-- **`trim s = s` exactly if `s` begins and ends with what is no blank.** -/
theorem trim_eq_self_iff {s : Text} :
    trim s = s ↔ (∀ c ∈ s.head?, isBlank c = false) ∧ ∀ c ∈ s.getLast?, isBlank c = false := by
  rw [← dropWhile_eq_self_iff, ← trimEnd_eq_self_iff, trim, trimEnds]
  constructor
  · intro h
    -- both steps shorten, so neither of them does anything
    have hlength := (trimEnd_prefix_self isBlank (s.dropWhile isBlank)).length_le
    rw [h] at hlength
    have hfront : s.dropWhile isBlank = s :=
      (List.dropWhile_suffix isBlank).eq_of_length_le hlength
    rw [hfront] at h
    exact ⟨hfront, h⟩
  · rintro ⟨hfront, hback⟩
    rw [hfront, hback]

/-- `trim (trim s) = trim s`. -/
theorem trim_trim (s : Text) : trim (trim s) = trim s := by
  rw [trim_eq_self_iff, ← trimEnd_eq_self_iff]
  refine ⟨?_, List.rdropWhile_idempotent isBlank _⟩
  intro c hc
  obtain ⟨rest, hrest⟩ : trim s <+: s.dropWhile isBlank := trimEnd_prefix_self isBlank _
  -- the front of the trimmed text is the front of what `dropWhile` leaves
  have hfront := dropWhile_eq_self_iff.mp (List.dropWhile_idempotent isBlank s)
  rw [← hrest] at hfront
  refine hfront c ?_
  rw [Option.mem_def] at hc ⊢
  rw [List.head?_append, hc, Option.some_or]

/-- `dropWhile` stops at `c` at the latest, if `c` stays. -/
theorem dropWhile_append_cons {drop : Char → Bool} {c : Char} (hc : drop c = false) (s t : Text) :
    (s ++ c :: t).dropWhile drop = s.dropWhile drop ++ c :: t := by
  rw [List.dropWhile_append]
  split
  · rename_i hempty
    rw [List.isEmpty_iff.mp hempty, List.dropWhile_cons_of_neg (by simp [hc]), List.nil_append]
  · rfl

/-- `trimEnd` stops at `c` at the latest, if `c` stays. -/
theorem trimEnd_append_cons {drop : Char → Bool} {c : Char} (hc : drop c = false) (s t : Text) :
    trimEnd drop (s ++ c :: t) = s ++ c :: trimEnd drop t := by
  have hreverse : (s ++ c :: t).reverse = t.reverse ++ c :: s.reverse := by simp
  rw [trimEnd, hreverse, dropWhile_append_cons hc, trimEnd]
  simp

/-- `trim (s ++ c :: t)` trims on both sides of a character that is no blank. -/
theorem trim_append_cons {c : Char} (hc : isBlank c = false) (s t : Text) :
    trim (s ++ c :: t) = s.dropWhile isBlank ++ c :: trimEnd isBlank t := by
  rw [trim, trimEnds, dropWhile_append_cons hc, trimEnd_append_cons hc]

/-- `trim (s.dropWhile isBlank) = trim s`. -/
theorem trim_dropWhile (s : Text) : trim (s.dropWhile isBlank) = trim s := by
  rw [trim, trimEnds, List.dropWhile_idempotent, trim, trimEnds]

/-- `trim (trimEnd isBlank s) = trim s`. -/
theorem trim_trimEnd (s : Text) : trim (trimEnd isBlank s) = trim s := by
  have hsplit : s.rdropWhile isBlank ++ s.rtakeWhile isBlank = s :=
    List.rdropWhile_append_rtakeWhile
  have htail : ∀ c ∈ s.rtakeWhile isBlank, isBlank c = true :=
    fun c hc => List.mem_rtakeWhile_imp hc
  rw [trimEnd_eq_rdropWhile, ← trim_append_blank htail, hsplit]

/-- `trim s <:+ trimEnd isBlank s`. -/
theorem trim_suffix_trimEnd (s : Text) : trim s <:+ trimEnd isBlank s := by
  have hsplit := @List.takeWhile_append_dropWhile _ isBlank s
  cases hdrop : s.dropWhile isBlank with
  | nil =>
    rw [trim, trimEnds, hdrop]
    exact List.nil_suffix
  | cons c rest =>
    have hc : isBlank c = false :=
      dropWhile_eq_self_iff.mp (List.dropWhile_idempotent isBlank s) c (by rw [hdrop]; rfl)
    rw [hdrop] at hsplit
    rw [← hsplit, trim_append_cons hc, trimEnd_append_cons hc]
    obtain ⟨front, hfront⟩ := List.dropWhile_suffix isBlank (l := s.takeWhile isBlank)
    exact ⟨front, by rw [← List.append_assoc, hfront]⟩

/-- Blanks before the first piece do not matter to the trimmed pieces. -/
theorem map_trim_splitAt_dropWhile {sep : Char} (hsep : isBlank sep = false) (s : Text) :
    (splitAt sep (s.dropWhile isBlank)).map trim = (splitAt sep s).map trim := by
  rw [splitAt_eq_splitOn, splitAt_eq_splitOn]
  have hsub : ∀ x : Text, sep ∉ x → sep ∉ x.dropWhile isBlank :=
    fun x hx hmem => hx ((List.dropWhile_suffix isBlank).subset hmem)
  by_cases hmem : sep ∈ s
  · obtain ⟨x, y, rfl, hx⟩ := List.eq_append_cons_of_mem hmem
    rw [dropWhile_append_cons hsep, List.splitOn_append_cons_self, List.splitOn_append_cons_self,
      List.splitOn_eq_singleton hx, List.splitOn_eq_singleton (hsub x hx), List.singleton_append,
      List.singleton_append, List.map_cons, List.map_cons, trim_dropWhile]
  · rw [List.splitOn_eq_singleton hmem, List.splitOn_eq_singleton (hsub s hmem),
      List.map_singleton, List.map_singleton, trim_dropWhile]

/-- Blanks after the last piece do not matter to the trimmed pieces. -/
theorem map_trim_splitAt_trimEnd {sep : Char} (hsep : isBlank sep = false) (s : Text) :
    (splitAt sep (trimEnd isBlank s)).map trim = (splitAt sep s).map trim := by
  rw [splitAt_eq_splitOn, splitAt_eq_splitOn]
  have hsub : ∀ x : Text, sep ∉ x → sep ∉ trimEnd isBlank x :=
    fun x hx hmem => hx ((trimEnd_prefix_self isBlank x).subset hmem)
  by_cases hmem : sep ∈ s
  · obtain ⟨x, y, rfl, hy⟩ := exists_last hmem
    rw [trimEnd_append_cons hsep, List.splitOn_append_cons_self, List.splitOn_append_cons_self,
      List.splitOn_eq_singleton hy, List.splitOn_eq_singleton (hsub _ hy), List.map_append,
      List.map_append, List.map_singleton, List.map_singleton, trim_trimEnd]
  · rw [List.splitOn_eq_singleton hmem, List.splitOn_eq_singleton (hsub s hmem),
      List.map_singleton, List.map_singleton, trim_trimEnd]

/-! ## (3) Blanks and word characters -/

/-- `b.contains c = false` for a character of `a`, if the ranges of `a` and `b` lie apart. -/
theorem contains_eq_false_of_apart {a b : CodeRanges}
    (hapart : ∀ x ∈ a, ∀ y ∈ b, x.2 < y.1 ∨ y.2 < x.1) {c : Char} (hc : a.contains c = true) :
    b.contains c = false := by
  obtain ⟨x, hx, hcx⟩ := List.any_eq_true.mp hc
  rw [CodeRanges.contains, List.any_eq_false]
  intro y hy hcy
  simp only [Bool.and_eq_true, decide_eq_true_eq] at hcx hcy
  rcases hapart x hx y hy with hlt | hlt <;> omega

/-- No range of blanks meets a range of word characters. -/
theorem blankRanges_apart_wordRanges :
    ∀ x ∈ blankRanges, ∀ y ∈ wordRanges, x.2 < y.1 ∨ y.2 < x.1 := by
  decide +kernel

/-- `isBlank c` excludes `isWord c`. -/
theorem isWord_eq_false_of_isBlank {c : Char} (hc : isBlank c = true) : isWord c = false :=
  contains_eq_false_of_apart blankRanges_apart_wordRanges hc

/-- A word character is no blank. -/
theorem isBlank_eq_false_of_isWord {c : Char} (hc : isWord c = true) : isBlank c = false := by
  cases hblank : isBlank c with
  | false => rfl
  | true => rw [isWord_eq_false_of_isBlank hblank] at hc; cases hc

/-- What `takeWhile` and `dropWhile` make of a run of kept characters before a text that does not
begin with one. -/
theorem span_append {keep : Char → Bool} {run rest : Text} (hrun : ∀ c ∈ run, keep c = true)
    (hrest : ∀ c ∈ rest.head?, keep c = false) :
    (run ++ rest).takeWhile keep = run ∧ (run ++ rest).dropWhile keep = rest := by
  rw [List.takeWhile_append_of_pos hrun, List.dropWhile_append_of_pos hrun,
    dropWhile_eq_self_iff.mpr hrest]
  cases rest with
  | nil => simp
  | cons d rest => simp [List.takeWhile_cons_of_neg, hrest d (by simp)]

end InterfaceSchemes.Text
