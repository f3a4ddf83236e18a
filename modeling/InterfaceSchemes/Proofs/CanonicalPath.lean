import InterfaceSchemes.Proofs.Cleaning

/-! # The clean spelling as a canonical form

The clean spelling of a path says where the path leads and nothing else. What such a spelling looks
like is stated here without the cleaning, and exactly these texts are left alone by it.

* **`Path.IsCanonical`** — no void piece, and steps upward in front of a relative path only.
* **`Path.pieces_normalize`** — the pieces of the clean spelling are the segments.
* **`Path.normalize_eq_self_iff`** — the canonical texts are those that are spelled cleanly already.
* **`Path.normalize_append`** — the front of a path may be spelled cleanly before the rest is put
  behind it.
* **`Path.normalize_canonical`** — the laws of the clean spelling together. -/

namespace InterfaceSchemes.Path

/-! ## (1) Pieces of a spelling -/

/-- **A canonical spelling**: a dot or the root alone, or else pieces of which none is void; steps
upward come before all names, and a rooted spelling has none. -/
structure IsCanonical (q : Text) : Prop where
  /-- No piece is empty or a dot, unless the text is nothing but a dot or the root. -/
  solid : q = "." ∨ q = "/" ∨ ∀ piece ∈ pieces q, piece ≠ [] ∧ piece ≠ "."
  /-- Steps upward are a leading run of a relative spelling. -/
  upward : ∃ k down, pieces q = List.replicate k up ++ down ∧ up ∉ down ∧
    (isRooted q = true → k = 0)

/-- `isVoid piece` exactly if `piece` is empty or a dot. -/
theorem isVoid_eq_false_iff {piece : Text} : isVoid piece = false ↔ piece ≠ [] ∧ piece ≠ "." := by
  rw [isVoid, Bool.or_eq_false_iff, beq_eq_false_iff_ne, beq_eq_false_iff_ne]
  rfl

/-- `(lead p).text ++ Text.joinWith "/" (pieces p) = p`: a path is its lead and its pieces. -/
theorem lead_append_joinWith_pieces (p : Text) :
    (lead p).text ++ Text.joinWith "/" (pieces p) = p := by
  obtain ⟨rest, hrest⟩ := lead_text_prefix p
  rw [pieces_of_lead rfl hrest.symm]
  conv_rhs => rw [← hrest]
  congr 1
  exact List.intercalate_splitOn '/'

section

variable {parts : List Text} (hne : parts ≠ [])
  (hparts : ∀ part ∈ parts, '/' ∉ part ∧ isVoid part = false)

include hne hparts

/-- `Text.joinWith "/"` is undone by `splitOn '/'`: the parts are found again between the
separators. -/
theorem splitOn_joinWith : (Text.joinWith "/" parts).splitOn '/' = parts :=
  List.splitOn_intercalate '/' (fun part hpart => (hparts part hpart).1) hne

/-- `lead = .bare`: parts put together begin with a name. -/
theorem lead_joinWith : lead (Text.joinWith "/" parts) = .bare := by
  have hsplit := splitOn_joinWith hne hparts
  cases hlead : lead (Text.joinWith "/" parts) with
  | bare => rfl
  | root =>
    have hrelative := isRooted_joinWith hparts
    rw [isRooted, hlead] at hrelative
    cases hrelative
  | here =>
    -- the dot of the lead would be the first part
    have hdot : ['.'] ∈ parts := by
      rw [← hsplit]
      rw [lead.eq_def] at hlead
      split at hlead
      · cases hlead
      · rename_i htext
        rw [htext]
        decide
      · rename_i rest htext
        rw [htext, ← List.singleton_append, List.splitOn_append_cons_self]
        exact List.mem_append_left _ (by decide)
      · cases hlead
    exact absurd (hparts _ hdot).2 (by decide)

/-- `pieces (Text.joinWith "/" parts) = parts`. -/
theorem pieces_joinWith : pieces (Text.joinWith "/" parts) = parts := by
  have hbare : Text.joinWith "/" parts = Lead.bare.text ++ Text.joinWith "/" parts := rfl
  rw [pieces_of_lead (lead_joinWith hne hparts) hbare, splitOn_joinWith hne hparts]

end

/-! ## (2) The clean spelling is canonical -/

/-- `normalize p` is a dot or the root where `p` has no `segments`. -/
theorem normalize_of_segments_eq_nil {p : Text} (hnil : segments p = []) :
    normalize p = "." ∨ normalize p = "/" := by
  rw [normalize, hnil]
  cases isRooted p with
  | true => exact Or.inr rfl
  | false => exact Or.inl rfl

/-- **`pieces (normalize p) = segments p`**, if there are any: the clean spelling has no other
pieces. -/
theorem pieces_normalize {p : Text} (hne : segments p ≠ []) :
    pieces (normalize p) = segments p := by
  have hparts : ∀ part ∈ segments p, '/' ∉ part ∧ isVoid part = false :=
    fun part hpart => of_mem_names (mem_names_of_mem_segments hpart)
  unfold normalize
  split
  · have hroot : '/' :: Text.joinWith "/" (segments p)
        = Lead.root.text ++ Text.joinWith "/" (segments p) := rfl
    rw [pieces_of_lead rfl hroot, splitOn_joinWith hne hparts]
  · rename_i hnil
    exact absurd hnil hne
  · exact pieces_joinWith hne hparts

/-- **`normalize p` is canonical.** -/
theorem isCanonical_normalize (p : Text) : IsCanonical (normalize p) := by
  by_cases hne : segments p = []
  · have hempty : pieces (normalize p) = List.replicate 0 up ++ [[]] := by
      rcases normalize_of_segments_eq_nil hne with heq | heq <;> rw [heq] <;> rfl
    refine ⟨?_, 0, [[]], hempty, by decide, fun _ => rfl⟩
    exact (normalize_of_segments_eq_nil hne).imp_right Or.inl
  · obtain ⟨k, down, hparts, hdown, hrooted⟩ := isClean_clean (isRooted p) (names p)
    have hpieces := pieces_normalize hne
    refine ⟨Or.inr (Or.inr fun piece hpiece => ?_), k, down, ?_, hdown, ?_⟩
    · rw [hpieces] at hpiece
      exact isVoid_eq_false_iff.mp (of_mem_names (mem_names_of_mem_segments hpiece)).2
    · rw [hpieces, segments_eq_clean, hparts]
    · rwa [isRooted_normalize]

/-- **A canonical spelling is left as it is.** Its pieces are names that are clean already, so they
are put together again as they were. -/
theorem normalize_of_isCanonical {q : Text} (hq : IsCanonical q) : normalize q = q := by
  rcases hq.solid with rfl | rfl | hsolid
  · decide
  · decide
  · obtain ⟨k, down, hpieces, hdown, hrooted⟩ := hq.upward
    have hnames : names q = pieces q := by
      refine List.filter_eq_self.mpr fun piece hpiece => ?_
      rw [isVoid_eq_false_iff.mpr (hsolid piece hpiece)]
      rfl
    have hsegments : segments q = pieces q := by
      rw [segments_eq_clean, hnames]
      exact clean_of_isClean ⟨k, down, hpieces, hdown, hrooted⟩
    have hwhole := lead_append_joinWith_pieces q
    cases hlead : lead q with
    | root =>
      rw [hlead] at hwhole
      rw [normalize, isRooted, hlead, hsegments]
      exact hwhole
    | here =>
      -- after a dot the first piece is empty
      obtain ⟨rest, hrest⟩ := pieces_of_here hlead
      exact absurd rfl (hsolid [] (by simp [hrest])).1
    | bare =>
      rw [hlead] at hwhole
      rw [normalize, isRooted, hlead, hsegments]
      cases hcons : pieces q with
      | nil => exact absurd hcons (Text.splitWhere_ne_nil _ _)
      | cons first rest =>
        rw [hcons] at hwhole
        exact hwhole

/-- **`normalize q = q` exactly for the canonical texts.** -/
theorem normalize_eq_self_iff {q : Text} : normalize q = q ↔ IsCanonical q :=
  ⟨fun heq => heq ▸ isCanonical_normalize q, normalize_of_isCanonical⟩

/-- A clean spelling is not empty. -/
theorem normalize_ne_nil (p : Text) : normalize p ≠ [] := by
  intro hnil
  have hcanonical := isCanonical_normalize p
  rw [hnil] at hcanonical
  rcases hcanonical.solid with hdot | hroot | hsolid
  · cases hdot
  · cases hroot
  · exact (hsolid [] (by decide)).1 rfl

/-! ## (3) Joined paths -/

/-- **`normalize` may be applied to the front of a path first.** Both paths are rooted like the
front, and the names of the rest meet the same stack of segments. -/
theorem normalize_append {a : Text} (ha : a ≠ []) (b : Text) :
    normalize (a ++ '/' :: b) = normalize (normalize a ++ '/' :: b) := by
  have hrooted : isRooted (a ++ '/' :: b) = isRooted a := isRooted_append ha _
  have hrooted' : isRooted (normalize a ++ '/' :: b) = isRooted a := by
    rw [isRooted_append (normalize_ne_nil a), isRooted_normalize]
  have hclean : clean (isRooted a) (segments a) = segments a := clean_of_isClean (isClean_clean _ _)
  apply normalize_eq_of
  · rw [hrooted, hrooted']
  · rw [segments_eq_clean, segments_eq_clean, hrooted, hrooted', names_append, names_append,
      names_normalize, clean_append, clean_append, hclean, segments_eq_clean]

/-- **`normalize` gives a canonical form.** Cleaning a clean spelling changes nothing. A clean
spelling has no void piece, unless it is a dot or the root alone, and steps upward are a leading run
of a relative one (`IsCanonical`). Two paths are spelled alike exactly if they agree on the root and
on the `segments`. The front of a joined path may be cleaned first. -/
theorem normalize_canonical :
    (∀ p : Text, normalize (normalize p) = normalize p) ∧
      (∀ p : Text, IsCanonical (normalize p)) ∧
      (∀ p q : Text, normalize p = normalize q ↔
        isRooted p = isRooted q ∧ segments p = segments q) ∧
      ∀ a b : Text, a ≠ [] →
        normalize (a ++ "/" ++ b) = normalize (normalize a ++ "/" ++ b) := by
  refine ⟨fun p => ?_, isCanonical_normalize, fun p q => normalize_eq_iff, fun a b ha => ?_⟩
  · exact normalize_eq_self_iff.mpr (isCanonical_normalize p)
  · have hjoin : ∀ front : Text, front ++ "/" ++ b = front ++ '/' :: b :=
      fun front => List.append_assoc front ['/'] b
    rw [hjoin, hjoin]
    exact normalize_append ha b

/-- A front that leads out of its own directory, and a rest that goes on from there. -/
theorem normalize_roundabout_canonical :
    ("x/.././../y//" : Text) ≠ [] ∧ normalize "x/.././../y//" = "../y".toList ∧
      normalize ("x/.././../y//" ++ "/" ++ "../../z") = "../../z".toList ∧
      normalize (normalize "x/.././../y//" ++ "/" ++ "../../z")
        = normalize ("x/.././../y//" ++ "/" ++ "../../z") := by
  have hne : ("x/.././../y//" : Text) ≠ [] := by decide
  refine ⟨hne, by decide, by decide, ?_⟩
  exact (normalize_canonical.2.2.2 "x/.././../y//" "../../z" hne).symm

end InterfaceSchemes.Path
