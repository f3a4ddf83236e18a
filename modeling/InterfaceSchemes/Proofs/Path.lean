import InterfaceSchemes.Path.Relative
import InterfaceSchemes.Proofs.Text
import Mathlib.Data.List.TakeWhile

/-! # Paths and their names

A path is a text, but what it leads to depends on two things only: whether it is rooted, and the
list of its names. This file reads both off the operations that take paths apart.

* **`Path.names_eq`** — the names are the pieces between separators that are not void, whatever the
  lead, so `names (a ++ '/' :: b) = names a ++ names b`.
* **`Path.fileName?_eq_some_iff`** — the file name is the last name.
* **`Path.IsFileName`**, **`Path.Relative`** — what the names in a directory are, and the lists of
  names that lead below one.
* **`Path.names_directory`**, **`Path.isRooted_directory_append`** — the directory has the other
  names and is rooted like the path.
* **`Path.head?_ancestors_parent`** — the directory that the parent of a path needs first.
* **`Path.splitName_append`**, **`Path.splitName_cases`** — a file name is cut at its last dot.
* **`Path.pushSegment_cases`** — what one more name does to a stack of segments.
* **`Path.up_notMem_segments`** — where no step upward can be left over.
* **`Path.exists_relative?`** — from such a path there is a way to any other. -/

namespace InterfaceSchemes.Path

/-! ## (1) Names -/

/-- `isRooted p` exactly if `p` begins with a separator. -/
theorem isRooted_iff {p : Text} : isRooted p = true ↔ p.head? = some '/' := by
  cases p with
  | nil => simp [isRooted, lead]
  | cons c p =>
    by_cases hc : c = '/'
    · simp [hc, isRooted, lead]
    · rw [isRooted, lead.eq_def]
      split <;> simp_all

/-- `isRooted (p ++ q) = isRooted p` if `p` is not empty. -/
theorem isRooted_append {p : Text} (hp : p ≠ []) (q : Text) : isRooted (p ++ q) = isRooted p := by
  obtain ⟨c, p, rfl⟩ := List.exists_cons_of_ne_nil hp
  rw [Bool.eq_iff_iff, isRooted_iff, isRooted_iff]
  simp

/-- **`names p`** are the pieces between separators that are not void: the lead stands for void
pieces only. -/
theorem names_eq (p : Text) :
    names p = (p.splitOn '/').filter fun piece => !isVoid piece := by
  rw [names, pieces, Text.splitAt_eq_splitOn, lead.eq_def]
  split
  · simp [Lead.text, List.splitOn_cons_eq_if_modifyHead, isVoid]
  · rfl
  · rename_i rest
    simp [Lead.text, List.splitOn_cons_eq_if_modifyHead, isVoid]
  · rfl

/-- `(lead p).text <+: p`. -/
theorem lead_text_prefix (p : Text) : (lead p).text <+: p := by
  rw [lead.eq_def]
  split
  · exact ⟨_, rfl⟩
  · exact List.prefix_rfl
  · exact ⟨_, rfl⟩
  · exact List.nil_prefix

/-- `pieces p = rest.splitOn '/'` where `rest` is what stands behind the lead. -/
theorem pieces_of_lead {p rest : Text} {l : Lead} (hlead : lead p = l) (hp : p = l.text ++ rest) :
    pieces p = rest.splitOn '/' := by
  rw [pieces, hlead, Text.splitAt_eq_splitOn, hp, List.drop_left]

/-- `names (a ++ '/' :: b) = names a ++ names b`. -/
theorem names_append (a b : Text) : names (a ++ '/' :: b) = names a ++ names b := by
  rw [names_eq, names_eq, names_eq, List.splitOn_append_cons_self, List.filter_append]

/-- The empty path has no names. -/
@[simp] theorem names_nil : names [] = [] := rfl

/-- `names name = [name]` for a text without separators that is not void. -/
theorem names_singleton {name : Text} (hslash : '/' ∉ name) (hvoid : isVoid name = false) :
    names name = [name] := by
  rw [names_eq, List.splitOn_eq_singleton hslash]
  simp [hvoid]

/-- A name holds no separator and is not void. -/
theorem of_mem_names {p name : Text} (hname : name ∈ names p) :
    '/' ∉ name ∧ isVoid name = false := by
  rw [names_eq, ← Text.splitAt_eq_splitOn, List.mem_filter] at hname
  refine ⟨fun hslash => (Text.of_mem_splitAt hname.1 hslash).2 rfl, by simpa using hname.2⟩

/-- `names (Text.joinWith "/" ps)` are the pieces `ps` that are not void. -/
theorem names_joinWith {ps : List Text} (hps : ∀ piece ∈ ps, '/' ∉ piece) :
    names (Text.joinWith "/" ps) = ps.filter fun piece => !isVoid piece := by
  rw [names_eq]
  cases ps with
  | nil => rfl
  | cons piece ps =>
    have hsplit := List.splitOn_intercalate '/' hps (by simp)
    rw [Text.joinWith]
    exact congrArg _ hsplit

/-- `names` does not see separators at the end. -/
theorem names_trimEnd (p : Text) : names (Text.trimEnd (· == '/') p) = names p := by
  have hends : ∀ slashes : Text, (∀ c ∈ slashes, c = '/') →
      ∀ q, names (q ++ slashes) = names q := by
    intro slashes hslashes
    induction slashes with
    | nil => simp
    | cons c slashes ih =>
      intro q
      obtain rfl := hslashes c (by simp)
      have hinner := ih (fun c hc => hslashes c (List.mem_cons_of_mem _ hc)) []
      rw [List.nil_append] at hinner
      rw [names_append, hinner, names_nil, List.append_nil]
  have hsplit : p.rdropWhile (· == '/') ++ p.rtakeWhile (· == '/') = p :=
    List.rdropWhile_append_rtakeWhile
  have htail : ∀ c ∈ p.rtakeWhile (· == '/'), c = '/' := by
    intro c hc
    simpa using List.mem_rtakeWhile_imp hc
  rw [Text.trimEnd_eq_rdropWhile]
  conv_rhs => rw [← hsplit]
  rw [hends _ htail]

/-! ## (2) File names and directories -/

/-- `trimVoid ps` ends with the last name. -/
theorem getLast?_trimVoid (ps : List Text) :
    (trimVoid ps).getLast? = (ps.filter fun piece => !isVoid piece).getLast? := by
  rw [trimVoid, List.getLast?_reverse, List.getLast?_eq_head?_reverse, ← List.filter_reverse,
    List.head?_filter, List.find?_eq_head?_dropWhile_not]
  simp

/-- Void pieces at the end are no names. -/
theorem filter_trimVoid (ps : List Text) :
    (trimVoid ps).filter (fun piece => !isVoid piece) = ps.filter fun piece => !isVoid piece := by
  induction ps using List.reverseRecOn with
  | nil => rfl
  | append_singleton ps piece ih =>
    have hconcat : trimVoid (ps ++ [piece]) = if isVoid piece then trimVoid ps else ps ++ [piece] :=
      List.rdropWhile_concat isVoid ps piece
    rw [hconcat]
    split
    · rename_i hvoid
      rw [ih, List.filter_append]
      simp [hvoid]
    · rfl

/-- **`fileName? p`** is the last name, unless it leads upward. -/
theorem fileName?_eq_some_iff {p name : Text} :
    fileName? p = some name ↔ (names p).getLast? = some name ∧ name ≠ up := by
  rw [fileName?, getLast?_trimVoid, ← names]
  split
  · rename_i last hlast
    split
    · rename_i hup
      simp only [reduceCtorEq, false_iff, not_and, not_not]
      intro heq
      rw [hlast, Option.some.injEq] at heq
      rw [← heq, hup]
    · rename_i hup
      rw [hlast, Option.some.injEq]
      constructor
      · rintro rfl
        exact ⟨rfl, hup⟩
      · exact fun h => h.1
  · rename_i hnone
    simp [hnone]

/-- The file name is one of the names. -/
theorem mem_names_of_fileName? {p name : Text} (hname : fileName? p = some name) :
    name ∈ names p :=
  List.mem_of_getLast? (fileName?_eq_some_iff.mp hname).1

/-- **A name as a directory holds it**: one piece of a path that leads to an entry. -/
def IsFileName (name : Text) : Prop := '/' ∉ name ∧ isVoid name = false ∧ name ≠ up

instance (name : Text) : Decidable (IsFileName name) := inferInstanceAs (Decidable (_ ∧ _ ∧ _))

/-- `IsFileName name` where `fileName? p = some name`. -/
theorem isFileName_of_fileName? {p name : Text} (hname : fileName? p = some name) :
    IsFileName name := by
  obtain ⟨hslash, hvoid⟩ := of_mem_names (mem_names_of_fileName? hname)
  exact ⟨hslash, hvoid, (fileName?_eq_some_iff.mp hname).2⟩

/-- **`Relative rel`**: the names `rel` lead from a directory to something below it. -/
def Relative (rel : List Text) : Prop := rel ≠ [] ∧ ∀ name ∈ rel, IsFileName name

/-- `Relative rel` for names `rel` of which there is a last one. -/
theorem relative_of_getLast? {rel : List Text} (hrel : ∀ name ∈ rel, IsFileName name) {name : Text}
    (hlast : rel.getLast? = some name) : Relative rel :=
  ⟨List.ne_nil_of_mem (List.mem_of_getLast? hlast), hrel⟩

/-- `rel = dirs ++ [name]`: what is below a directory is a name in one of the directories there. -/
theorem Relative.exists_concat {rel : List Text} (hrel : Relative rel) :
    ∃ dirs name, rel = dirs ++ [name] ∧ IsFileName name := by
  refine ⟨_, _, (List.dropLast_concat_getLast hrel.1).symm, ?_⟩
  exact hrel.2 _ (List.getLast_mem hrel.1)

/-- The pieces of a path hold no separators. -/
theorem slash_notMem_of_mem_pieces {p piece : Text} (hpiece : piece ∈ pieces p) : '/' ∉ piece :=
  fun hslash => (Text.of_mem_splitAt hpiece hslash).2 rfl

/-- The pieces that `trimVoid` leaves are a front of the list. -/
theorem trimVoid_prefix_self (ps : List Text) : trimVoid ps <+: ps := List.rdropWhile_prefix _ _

/-- A front of the pieces after the lead of a path that starts here, begins with nothing. -/
theorem pieces_of_here {p : Text} (hlead : lead p = .here) : ∃ ps, pieces p = [] :: ps := by
  rw [pieces, Text.splitAt_eq_splitOn, hlead]
  rw [lead.eq_def] at hlead
  split at hlead
  · cases hlead
  · exact ⟨[], rfl⟩
  · exact ⟨_, List.splitOn_cons_eq_if_modifyHead _ _⟩
  · cases hlead

/-- The names of a lead and a front of the pieces after it. -/
theorem names_lead_append {p : Text} {ps : List Text} (hps : ps <+: pieces p) :
    names ((lead p).text ++ Text.joinWith "/" ps) = ps.filter fun piece => !isVoid piece := by
  have hslash : ∀ piece ∈ ps, '/' ∉ piece :=
    fun piece hpiece => slash_notMem_of_mem_pieces (hps.subset hpiece)
  cases hlead : lead p with
  | root =>
    have hnames := names_append [] (Text.joinWith "/" ps)
    rw [names_joinWith hslash] at hnames
    exact hnames
  | bare => exact names_joinWith hslash
  | here =>
    -- the first piece is empty, so the dot is followed by a separator or by nothing
    obtain ⟨rest, hrest⟩ := pieces_of_here hlead
    cases ps with
    | nil => rfl
    | cons first ps =>
      obtain rfl : first = [] := by
        obtain ⟨tail, htail⟩ := hps
        rw [hrest, List.cons_append] at htail
        exact (List.cons.inj htail).1
      cases ps with
      | nil => rfl
      | cons second ps =>
        have hnames := names_append ['.'] (Text.joinWith "/" (second :: ps))
        rw [names_joinWith fun piece hpiece => hslash piece (List.mem_cons_of_mem _ hpiece)]
          at hnames
        exact hnames

/-- What is left of the pieces ends with a name. -/
theorem trimVoid_eq_nil_or_concat (ps : List Text) :
    trimVoid ps = [] ∨ ∃ init last, trimVoid ps = init ++ [last] ∧ isVoid last = false := by
  rcases List.eq_nil_or_concat (trimVoid ps) with hnil | ⟨init, last, hconcat⟩
  · exact Or.inl hnil
  · rw [List.concat_eq_append] at hconcat
    have hlast := getLast?_trimVoid ps
    rw [hconcat, List.getLast?_concat, eq_comm] at hlast
    obtain ⟨-, hvoid⟩ := List.mem_filter.mp (List.mem_of_getLast? hlast)
    exact Or.inr ⟨init, last, hconcat, by simpa using hvoid⟩

/-- **`parent? p` for a path with a name** is the lead with a front of the pieces, which holds the
other names. -/
theorem parent?_eq_some {p : Text} (hp : names p ≠ []) :
    ∃ ps, ps <+: pieces p ∧ parent? p = some ((lead p).text ++ Text.joinWith "/" ps) ∧
      ps.filter (fun piece => !isVoid piece) = (names p).dropLast := by
  have hnames : names p = (trimVoid (pieces p)).filter fun piece => !isVoid piece := by
    rw [names, filter_trimVoid]
  rcases trimVoid_eq_nil_or_concat (pieces p) with hnil | ⟨init, last, hconcat, hvoid⟩
  · rw [hnames, hnil] at hp
    exact absurd rfl hp
  · refine ⟨trimVoid init, ?_, ?_, ?_⟩
    · exact (trimVoid_prefix_self init).trans
        ((List.prefix_append init [last]).trans (hconcat ▸ trimVoid_prefix_self (pieces p)))
    · unfold parent?
      split
      · rename_i hempty
        rw [hconcat] at hempty
        simp at hempty
      · rw [hconcat, List.dropLast_concat]
    · rw [filter_trimVoid, hnames, hconcat, List.filter_append]
      simp [hvoid]

/-- A path without names has no parent but the empty one. -/
theorem parent?_of_names_eq_nil {p : Text} (hp : names p = []) :
    parent? p = none ∨ parent? p = some [] := by
  have hnil : trimVoid (pieces p) = [] := by
    rcases trimVoid_eq_nil_or_concat (pieces p) with hnil | ⟨init, last, hconcat, hvoid⟩
    · exact hnil
    · rw [names, ← filter_trimVoid, hconcat, List.filter_append] at hp
      simp [hvoid] at hp
  unfold parent?
  rw [hnil]
  dsimp only
  split
  · exact Or.inr rfl
  · exact Or.inl rfl

/-- **`names (directory p) = (names p).dropLast`.** -/
theorem names_directory (p : Text) : names (directory p) = (names p).dropLast := by
  by_cases hp : names p = []
  · have hdot : directory p = ".".toList := by
      unfold directory
      rcases parent?_of_names_eq_nil hp with hparent | hparent <;> rw [hparent]
    rw [hdot, hp]
    rfl
  · obtain ⟨ps, hps, hparent, hdropLast⟩ := parent?_eq_some hp
    have hnames := names_lead_append hps
    rw [hdropLast] at hnames
    unfold directory
    rw [hparent]
    split
    · rename_i c q hcons
      rw [Option.some.inj hcons] at hnames
      rw [names_trimEnd, hnames]
    · rename_i hother
      cases htext : (lead p).text ++ Text.joinWith "/" ps with
      | nil =>
        rw [← hnames, htext]
        rfl
      | cons c q => exact absurd (congrArg some htext) (hother c q)

/-- The first piece of a text that does not begin with a separator begins like the text. -/
theorem splitOn_cons_of_ne {c : Char} (hc : c ≠ '/') (p : Text) :
    ∃ first ps, p.splitOn '/' = first :: ps ∧ (c :: p).splitOn '/' = (c :: first) :: ps := by
  cases hsplit : p.splitOn '/' with
  | nil => exact absurd hsplit (List.splitOn_ne_nil _ _)
  | cons first ps =>
    refine ⟨first, ps, rfl, ?_⟩
    rw [List.splitOn_cons_eq_if_modifyHead, if_neg (by simpa using hc), hsplit]
    rfl

/-- The first piece of a path with a bare lead begins the path. -/
theorem exists_cons_of_bare {p first : Text} {ps : List Text} (hp : p ≠ [])
    (hlead : lead p = .bare) (hps : first :: ps <+: pieces p) :
    ∃ c rest, first = c :: rest ∧ c ≠ '/' := by
  obtain ⟨c, p, rfl⟩ := List.exists_cons_of_ne_nil hp
  have hc : c ≠ '/' := by
    rintro rfl
    cases hlead
  obtain ⟨rest, others, -, hsplit⟩ := splitOn_cons_of_ne hc p
  rw [pieces, hlead, Text.splitAt_eq_splitOn] at hps
  change first :: ps <+: (c :: p).splitOn '/' at hps
  rw [hsplit, List.cons_prefix_cons] at hps
  exact ⟨c, rest, hps.1, hc⟩

/-- Pieces put together begin like the first of them. -/
theorem joinWith_cons_cons (c : Char) (first : Text) (ps : List Text) :
    ∃ rest, Text.joinWith "/" ((c :: first) :: ps) = c :: rest := by
  cases ps with
  | nil => exact ⟨first, by rw [Text.joinWith, List.intercalate_singleton]⟩
  | cons second ps => exact ⟨_, by rw [Text.joinWith, List.intercalate_cons_cons]; rfl⟩

/-- **`directory p` is rooted like `p`**, once something stands below it. -/
theorem isRooted_directory_append {p : Text} (hp : names p ≠ []) (rest : Text) :
    isRooted (directory p ++ '/' :: rest) = isRooted p := by
  obtain ⟨ps, hps, hparent, -⟩ := parent?_eq_some hp
  -- a directory that begins with another character than a separator is not rooted
  have hother : ∀ c q, parent? p = some (c :: q) → c ≠ '/' → isRooted p = false →
      isRooted (directory p ++ '/' :: rest) = isRooted p := by
    intro c q hcons hc hrooted
    have hhead : (directory p).head? = some c := by
      rw [directory, hcons]
      exact Text.head?_trimEnd (by simpa using hc) q
    rw [hrooted, Bool.eq_false_iff, Ne, isRooted_iff, List.head?_append, hhead]
    simpa using hc
  cases hlead : lead p with
  | root =>
    have hrooted : isRooted p = true := by rw [isRooted, hlead]; rfl
    have hdir : directory p = Text.trimEnd (· == '/') ('/' :: Text.joinWith "/" ps) := by
      rw [directory, hparent, hlead]
      rfl
    obtain ⟨tail, htail⟩ := Text.trimEnd_prefix_self (· == '/') ('/' :: Text.joinWith "/" ps)
    rw [← hdir] at htail
    rw [hrooted, isRooted_iff]
    -- nothing is left of the root, or its separator is
    cases hcons : directory p with
    | nil => rfl
    | cons c q =>
      rw [hcons, List.cons_append] at htail
      rw [(List.cons.inj htail).1]
      rfl
  | here =>
    have hcons : parent? p = some ('.' :: Text.joinWith "/" ps) := by rw [hparent, hlead]; rfl
    exact hother _ _ hcons (by decide) (by rw [isRooted, hlead]; rfl)
  | bare =>
    have hrooted : isRooted p = false := by rw [isRooted, hlead]; rfl
    have hjoin : parent? p = some (Text.joinWith "/" ps) := by rw [hparent, hlead]; rfl
    cases ps with
    | nil =>
      have hdot : directory p = ['.'] := by rw [directory, hjoin]; rfl
      rw [hdot, hrooted]
      rfl
    | cons first ps =>
      have hne : p ≠ [] := by
        rintro rfl
        exact hp rfl
      obtain ⟨c, q, rfl, hc⟩ := exists_cons_of_bare hne hlead hps
      obtain ⟨tail, htail⟩ := joinWith_cons_cons c q ps
      exact hother c tail (htail ▸ hjoin) hc hrooted

/-- `directory p = []` only for a path at the root. -/
theorem isRooted_of_directory_eq_nil {p : Text} (hp : names p ≠ []) (hdir : directory p = []) :
    isRooted p = true := by
  rw [← isRooted_directory_append hp [], hdir]
  rfl

/-- `isRooted (directory p) = isRooted p`, unless `directory p` is empty. -/
theorem isRooted_directory {p : Text} (hp : names p ≠ []) (hdir : directory p ≠ []) :
    isRooted (directory p) = isRooted p := by
  rw [← isRooted_directory_append hp [], isRooted_append hdir]

/-- A front of a path is rooted like the path, if it is not empty. -/
theorem isRooted_lead_append {p : Text} {ps : List Text} (hps : ps <+: pieces p)
    (hne : (lead p).text ++ Text.joinWith "/" ps ≠ []) :
    isRooted ((lead p).text ++ Text.joinWith "/" ps) = isRooted p := by
  cases hlead : lead p with
  | root =>
    rw [isRooted.eq_1 p, hlead]
    rfl
  | here =>
    rw [isRooted.eq_1 p, hlead, Bool.eq_iff_iff, isRooted_iff]
    simp [Lead.text]
  | bare =>
    rw [hlead] at hne
    rw [isRooted.eq_1 p, hlead, Bool.eq_iff_iff, isRooted_iff]
    cases ps with
    | nil => exact absurd rfl hne
    | cons first ps =>
      have hp : p ≠ [] := by
        -- the empty path has one piece, which is empty
        rintro rfl
        obtain ⟨rfl, rfl⟩ : first = [] ∧ ps = [] := by
          have hempty : first :: ps <+: [[]] := hps
          simpa [List.cons_prefix_cons] using hempty
        exact hne rfl
      obtain ⟨c, rest, rfl, hc⟩ := exists_cons_of_bare hp hlead hps
      obtain ⟨tail, htail⟩ := joinWith_cons_cons c rest ps
      rw [htail]
      simpa [Lead.text] using hc

/-- The first of the `ancestors` is the path without void pieces at its end. -/
theorem eq_of_mem_head?_ancestors {p first : Text} (hfirst : first ∈ (ancestors p).head?) :
    first = (lead p).text ++ Text.joinWith "/" (trimVoid (pieces p)) ∧ first ≠ [] := by
  have hrun : ∀ (text : Text) (above : List Text), first ∈ (ancestorsFrom text above).head? →
      first = text ++ Text.joinWith "/" (above.dropWhile isVoid).reverse ∧ first ≠ [] := by
    intro text above
    fun_induction ancestorsFrom text above with
    | case1 htext => exact fun hmem => absurd hmem (by simp)
    | case2 htext =>
      intro hmem
      obtain rfl : text = first := by simpa using hmem
      exact ⟨by simp [Text.joinWith], htext⟩
    | case3 piece above hvoid ih => rwa [List.dropWhile_cons_of_pos hvoid]
    | case4 piece above hvoid ih =>
      intro hmem
      obtain rfl := Option.some.inj hmem
      rw [List.dropWhile_cons_of_neg hvoid]
      have hpiece : piece ≠ [] := by
        rintro rfl
        exact hvoid rfl
      refine ⟨rfl, fun hnil => ?_⟩
      rw [List.append_eq_nil_iff, List.reverse_cons] at hnil
      cases hfront : above.reverse with
      | nil =>
        rw [hfront] at hnil
        exact hpiece (by simpa [Text.joinWith] using hnil.2)
      | cons top rest =>
        rw [hfront] at hnil
        cases rest <;> simp [Text.joinWith] at hnil
  exact hrun _ _ hfirst

/-- **The first of the `ancestors` of `parent? p`** has the names of `p` but the last, and the root
of `p`. -/
theorem head?_ancestors_parent {p parent first : Text} (hp : names p ≠ [])
    (hparent : parent? p = some parent) (hfirst : first ∈ (ancestors parent).head?) :
    first ≠ [] ∧ names first = (names p).dropLast ∧ isRooted first = isRooted p := by
  obtain ⟨ps, hps, hspelled, hdropLast⟩ := parent?_eq_some hp
  obtain rfl : parent = (lead p).text ++ Text.joinWith "/" ps :=
    Option.some.inj (hparent.symm.trans hspelled)
  obtain ⟨rfl, hne⟩ := eq_of_mem_head?_ancestors hfirst
  have hfront := trimVoid_prefix_self (pieces ((lead p).text ++ Text.joinWith "/" ps))
  have hnonempty : (lead p).text ++ Text.joinWith "/" ps ≠ [] := by
    intro hnil
    rw [hnil] at hne
    exact hne rfl
  refine ⟨hne, ?_, ?_⟩
  · rw [names_lead_append hfront, filter_trimVoid, ← names, names_lead_append hps, hdropLast]
  · rw [isRooted_lead_append hfront hne, isRooted_lead_append hps hnonempty]

/-! ## (3) Stems and extensions -/

/-- `splitName (stem ++ '.' :: ext) = (stem, some ext)` for a dot that is not the first character,
with no dot after it. -/
theorem splitName_append {stem ext : Text} (hstem : stem ≠ []) (hext : '.' ∉ ext) :
    splitName (stem ++ '.' :: ext) = (stem, some ext) := by
  have hreverse : (stem ++ '.' :: ext).reverse = ext.reverse ++ '.' :: stem.reverse := by simp
  have hkeep : ∀ c ∈ ext.reverse, (c != '.') = true := by
    intro c hc
    have hne : c ≠ '.' := fun hdot => hext (hdot ▸ List.mem_reverse.mp hc)
    simpa using hne
  have hrest : ∀ c ∈ ('.' :: stem.reverse).head?, (c != '.') = false := by simp
  have hspan := Text.span_append hkeep hrest
  rw [splitName, hreverse, hspan.1, hspan.2]
  cases hcons : stem.reverse with
  | nil => exact absurd (List.reverse_eq_nil_iff.mp hcons) hstem
  | cons c before => simp [← hcons]

/-- **`splitName name`:** a file name is its stem, or its stem, a dot and its extension. -/
theorem splitName_cases (name : Text) :
    splitName name = (name, none) ∨
      ∃ stem ext, splitName name = (stem, some ext) ∧ name = stem ++ '.' :: ext ∧ stem ≠ [] ∧
        '.' ∉ ext := by
  have hspan := @List.takeWhile_append_dropWhile _ (· != '.') name.reverse
  unfold splitName
  split
  · rename_i dot c before hdrop
    rw [hdrop] at hspan
    refine Or.inr ⟨_, _, rfl, ?_, by simp, ?_⟩
    · have hdot : dot = '.' := by
        have hhead := List.head?_dropWhile_not (· != '.') name.reverse
        rw [hdrop] at hhead
        simpa using hhead
      have hname := congrArg List.reverse hspan
      rw [List.reverse_reverse, List.reverse_append, hdot] at hname
      conv_lhs => rw [← hname]
      simp
    · intro hdot
      have hkeep := List.mem_takeWhile_imp (List.mem_reverse.mp hdot)
      simp at hkeep
  · exact Or.inl rfl

/-- A dot that is not the first character gives a name an extension. -/
theorem exists_extension_of_dot {stem : Text} (hstem : stem ≠ []) (rest : Text) :
    ∃ before ext, splitName (stem ++ '.' :: rest) = (before, some ext) := by
  by_cases hdot : '.' ∈ rest
  · obtain ⟨front, back, rfl, hback⟩ := Text.exists_last hdot
    have hsplit : splitName ((stem ++ '.' :: front) ++ '.' :: back)
        = (stem ++ '.' :: front, some back) := splitName_append (by simp) hback
    rw [List.append_assoc, List.cons_append] at hsplit
    exact ⟨_, _, hsplit⟩
  · exact ⟨_, _, splitName_append hstem hdot⟩

/-! ## (4) Clean segments and relative paths -/

/-- **What `pushSegment` does to a stack of segments:** the name is put on the stack, or it is a
step upward that takes the newest name off, or it is a step upward at the root, which does nothing.
-/
theorem pushSegment_cases (rooted : Bool) (stack : List Text) (name : Text) :
    (pushSegment rooted stack name = name :: stack ∧
        (name = up → rooted = false ∧ ∀ top ∈ stack.head?, top = up)) ∨
      (name = up ∧ ∃ top, top ≠ up ∧ stack = top :: pushSegment rooted stack name) ∨
      (name = up ∧ rooted = true ∧ pushSegment rooted stack name = stack) := by
  unfold pushSegment
  by_cases hname : name = up
  · rw [if_pos hname]
    cases stack with
    | nil =>
      cases rooted with
      | true => exact Or.inr (Or.inr ⟨hname, rfl, rfl⟩)
      | false => exact Or.inl ⟨by rw [hname]; rfl, fun _ => ⟨rfl, by simp⟩⟩
    | cons top below =>
      dsimp only
      by_cases htop : top = up
      · rw [if_neg (not_not_intro htop)]
        cases rooted with
        | true => exact Or.inr (Or.inr ⟨hname, rfl, rfl⟩)
        | false => exact Or.inl ⟨by rw [hname]; rfl, fun _ => ⟨rfl, by simpa using htop⟩⟩
      · rw [if_pos htop]
        exact Or.inr (Or.inl ⟨hname, top, htop, rfl⟩)
  · rw [if_neg hname]
    exact Or.inl ⟨rfl, fun hup => absurd hup hname⟩

/-- One more name leaves no step upward among the segments, if the path is rooted or the name is
none. -/
theorem up_notMem_pushSegment {rooted : Bool} {stack : List Text} {name : Text}
    (hname : rooted = true ∨ name ≠ up) (hstack : up ∉ stack) :
    up ∉ pushSegment rooted stack name := by
  rcases pushSegment_cases rooted stack name with
    ⟨heq, hfree⟩ | ⟨-, top, -, htop⟩ | ⟨-, -, heq⟩
  · rw [heq, List.mem_cons, not_or]
    refine ⟨fun hup => ?_, hstack⟩
    rcases hname with hrooted | hother
    · rw [(hfree hup.symm).1] at hrooted
      cases hrooted
    · exact hother hup.symm
  · exact fun hmem => hstack (htop ▸ List.mem_cons_of_mem top hmem)
  · rwa [heq]

/-- **`up ∉ segments p`** for a rooted path, or one without a step upward. -/
theorem up_notMem_segments {p : Text} (hp : isRooted p = true ∨ up ∉ names p) :
    up ∉ segments p := by
  have hrun : ∀ (ns : List Text) (stack : List Text), (isRooted p = true ∨ up ∉ ns) →
      up ∉ stack → up ∉ ns.foldl (pushSegment (isRooted p)) stack := by
    intro ns
    induction ns with
    | nil => exact fun stack _ hstack => hstack
    | cons name ns ih =>
      intro stack hns hstack
      refine ih _ ?_ (up_notMem_pushSegment ?_ hstack)
      · exact hns.imp_right fun hup hmem => hup (List.mem_cons_of_mem _ hmem)
      · exact hns.imp_right fun hup hname => hup (by simp [hname])
  rw [segments, List.mem_reverse]
  exact hrun _ [] hp List.not_mem_nil

/-- `dropCommon as bs` is what is left of two lists, with the common beginning put before it. -/
theorem exists_dropCommon (as bs : List Text) :
    ∃ front, as = front ++ (dropCommon as bs).1 ∧ bs = front ++ (dropCommon as bs).2 := by
  fun_induction dropCommon as bs with
  | case1 as b bs ih =>
    obtain ⟨front, has, hbs⟩ := ih
    exact ⟨b :: front, congrArg (b :: ·) has, congrArg (b :: ·) hbs⟩
  | case2 => exact ⟨[], rfl, rfl⟩
  | case3 => exact ⟨[], rfl, rfl⟩

/-- There is a way between two rooted or two relative paths, if no step upward is among the segments
that have to be gone back over. -/
theorem exists_relative?_of_dropCommon {base target : Text} (hrooted : isRooted base = isRooted target)
    (hback : up ∉ (dropCommon (segments base) (segments target)).1) :
    ∃ path, relative? base target = some path := by
  unfold relative?
  rw [if_neg (not_not_intro hrooted)]
  dsimp only
  rw [if_neg hback]
  split
  · exact ⟨_, rfl⟩
  · exact ⟨_, rfl⟩

/-- **`relative? base target` exists** between two rooted or two relative paths, if the first has no
step upward left over. -/
theorem exists_relative? {base target : Text} (hrooted : isRooted base = isRooted target)
    (hup : up ∉ segments base) : ∃ path, relative? base target = some path := by
  apply exists_relative?_of_dropCommon hrooted
  obtain ⟨front, hbase, -⟩ := exists_dropCommon (segments base) (segments target)
  exact fun hmem => hup (hbase ▸ List.mem_append_right front hmem)

end InterfaceSchemes.Path
