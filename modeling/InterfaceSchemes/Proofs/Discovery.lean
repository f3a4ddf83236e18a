import InterfaceSchemes.Discovery
import InterfaceSchemes.Proofs.FileTree
import InterfaceSchemes.Proofs.Placement

/-! # Which files are found, and where their modules go

The search spells the path of a file by joining names to the path of a directory. This file shows
that the spelling can be read back: the location is that of the directory followed by the names, and
taking the directory off again leaves the names.

* **`Path.below?_foldl_join`** — the path from the directory is the names that were joined.
* **`FileTree.locationOf_foldl_join`** — the location of a file that was found.
* **`FileTree.locationOf_outputPath`**, **`FileTree.locationOf_eq_of_outputPath_eq`** — modules of
  different files have different locations.
* **`FileTree.findSources_eq`**, **`FileTree.sourceAt_eq_some_iff`** — the search as a selection of
  entries. -/

namespace InterfaceSchemes

/-! ## (1) Names joined to a path -/

namespace Path

/-- `join p name`, by cases: `p` is empty, ends with a separator, or gets one. -/
theorem join_cases (p name : Text) :
    p = [] ∧ join p name = name ∨ (∃ q, p = q ++ ['/'] ∧ join p name = q ++ '/' :: name) ∨
      p ≠ [] ∧ join p name = p ++ '/' :: name := by
  cases p using List.reverseRecOn with
  | nil => exact Or.inl ⟨rfl, rfl⟩
  | append_singleton q c =>
    right
    rw [join, List.getLast?_concat]
    by_cases hc : c = '/'
    · subst hc
      exact Or.inl ⟨q, rfl, by simp⟩
    · refine Or.inr ⟨by simp, ?_⟩
      split
      · rename_i heq
        cases heq
      · rename_i heq
        exact absurd (Option.some.inj heq) hc
      · rfl

/-- `lead (p ++ s) = lead p`, if the lead is not the whole path or a separator follows. -/
theorem lead_append {p s : Text} (hp : p ≠ []) (hs : p = ['.'] → s.head? = some '/') :
    lead (p ++ s) = lead p := by
  obtain ⟨c, p, rfl⟩ := List.exists_cons_of_ne_nil hp
  by_cases hroot : c = '/'
  · subst hroot
    rfl
  by_cases hdot : c = '.'
  · subst hdot
    cases p with
    | nil =>
      cases s with
      | nil => exact absurd (hs rfl) (by simp)
      | cons d s =>
        obtain rfl : d = '/' := by simpa using hs rfl
        rfl
    | cons d p =>
      by_cases hslash : d = '/'
      · subst hslash
        rfl
      · rw [lead.eq_def, lead.eq_def]
        simp [hslash]
  · rw [lead.eq_def, lead.eq_def]
    simp [hroot, hdot]

/-- `lead (join p name) = lead p`. -/
theorem lead_join {p : Text} (hp : p ≠ []) (name : Text) : lead (join p name) = lead p := by
  rcases join_cases p name with ⟨hnil, -⟩ | ⟨q, rfl, hjoin⟩ | ⟨-, hjoin⟩
  · exact absurd hnil hp
  · have hwhole : q ++ '/' :: name = (q ++ ['/']) ++ name := by simp
    rw [hjoin, hwhole]
    refine lead_append hp fun hdot => ?_
    have hlast := congrArg List.getLast? hdot
    simp at hlast
  · rw [hjoin]
    exact lead_append hp fun _ => rfl

/-- **`pieces (join p name)`** ends with the name. The path itself has those before it, or these and
an empty one. -/
theorem pieces_join {p name : Text} (hp : p ≠ []) (hname : '/' ∉ name) :
    ∃ ps, pieces (join p name) = ps ++ [name] ∧ (pieces p = ps ∨ pieces p = ps ++ [[]]) := by
  obtain ⟨rest, hrest⟩ := lead_text_prefix p
  have hlead := lead_join hp name
  have hpieces := pieces_of_lead rfl hrest.symm
  have hsingle : name.splitOn '/' = [name] := List.splitOn_eq_singleton hname
  rcases join_cases p name with ⟨hnil, -⟩ | ⟨q, hq, hjoin⟩ | ⟨-, hjoin⟩
  · exact absurd hnil hp
  · -- the path ends with a separator, which may be its lead
    have hspelled : join p name = (lead p).text ++ (rest ++ name) := by
      rw [hjoin, ← List.append_assoc, hrest, hq]
      simp
    rw [pieces_of_lead hlead hspelled, hpieces]
    cases rest using List.reverseRecOn with
    | nil => exact ⟨[], hsingle, Or.inr rfl⟩
    | append_singleton rest c =>
      obtain rfl : c = '/' := by
        have hlast := congrArg List.getLast? (hrest.trans hq)
        rw [← List.append_assoc, List.getLast?_concat, List.getLast?_concat] at hlast
        exact Option.some.inj hlast
      refine ⟨rest.splitOn '/', ?_, Or.inr ?_⟩
      · rw [List.append_assoc, List.singleton_append, List.splitOn_append_cons_self, hsingle]
      · exact List.splitOn_append_cons_self rest []
  · have hspelled : join p name = (lead p).text ++ (rest ++ '/' :: name) := by
      rw [hjoin, ← List.append_assoc, hrest]
    refine ⟨pieces p, ?_, Or.inl rfl⟩
    rw [pieces_of_lead hlead hspelled, hpieces, List.splitOn_append_cons_self, hsingle]

/-- A path to which names have been joined is not empty. -/
theorem foldl_join_ne_nil {root : Text} (hroot : root ≠ []) (rel : List Text) :
    rel.foldl join root ≠ [] := by
  induction rel generalizing root with
  | nil => exact hroot
  | cons name rel ih =>
    refine ih ?_
    rcases join_cases root name with ⟨hnil, -⟩ | ⟨q, -, hjoin⟩ | ⟨-, hjoin⟩
    · exact absurd hnil hroot
    · simp [hjoin]
    · simp [hjoin]

/-- `lead (rel.foldl join root) = lead root`. -/
theorem lead_foldl_join {root : Text} (hroot : root ≠ []) (rel : List Text) :
    lead (rel.foldl join root) = lead root := by
  induction rel using List.reverseRecOn with
  | nil => rfl
  | append_singleton rel name ih =>
    rw [List.foldl_append, List.foldl_cons, List.foldl_nil,
      lead_join (foldl_join_ne_nil hroot rel), ih]

section

variable {root : Text} (hroot : root ≠ []) {rel : List Text} (hrel : ∀ name ∈ rel, IsFileName name)

include hroot hrel

/-- **`pieces (rel.foldl join root)`**: pieces with the names of `root`, then `rel`. -/
theorem pieces_foldl_join (hne : rel ≠ []) : ∃ ps, pieces (rel.foldl join root) = ps ++ rel ∧
    ps.filter (fun piece => !isVoid piece) = names root := by
  induction rel using List.reverseRecOn with
  | nil => exact absurd rfl hne
  | append_singleton rel name ih =>
    obtain ⟨ps, hps, hbefore⟩ := pieces_join (foldl_join_ne_nil hroot rel) (hrel name (by simp)).1
    rw [List.foldl_append, List.foldl_cons, List.foldl_nil]
    by_cases hnil : rel = []
    · subst hnil
      refine ⟨ps, hps, ?_⟩
      rcases hbefore with hbefore | hbefore
      · rw [names, show pieces root = ps from hbefore]
      · rw [names, show pieces root = ps ++ [[]] from hbefore, List.filter_append]
        simp [isVoid]
    · obtain ⟨front, hfront, hnames⟩ :=
        ih (fun name hname => hrel name (List.mem_append_left _ hname)) hnil
      have hsame : pieces (rel.foldl join root) = ps := by
        -- the name joined last is not empty, so the path does not end with a separator
        refine hbefore.resolve_right fun hempty => ?_
        have hlast := congrArg List.getLast? (hfront.symm.trans hempty)
        rw [List.getLast?_concat, List.getLast?_append_of_ne_nil _ hnil] at hlast
        have hmem : [] ∈ rel ++ [name] := List.mem_append_left _ (List.mem_of_getLast? hlast)
        exact absurd (hrel [] hmem).2.1 (by decide)
      exact ⟨front, by rw [hps, ← hsame, hfront, List.append_assoc], hnames⟩

/-- **`names (rel.foldl join root) = names root ++ rel`.** -/
theorem names_foldl_join : names (rel.foldl join root) = names root ++ rel := by
  by_cases hne : rel = []
  · subst hne
    exact (List.append_nil _).symm
  · obtain ⟨ps, hps, hnames⟩ := pieces_foldl_join hroot hrel hne
    have hkept : rel.filter (fun piece => !isVoid piece) = rel := by
      rw [List.filter_eq_self]
      exact fun name hname => by simp [(hrel name hname).2.1]
    rw [names, hps, List.filter_append, hnames, hkept]

/-- `fileName?` gives the name that was joined last. -/
theorem fileName?_foldl_join {name : Text} (hlast : rel.getLast? = some name) :
    fileName? (rel.foldl join root) = some name := by
  have hmem := List.mem_of_getLast? hlast
  rw [fileName?_eq_some_iff, names_foldl_join hroot hrel,
    List.getLast?_append_of_ne_nil _ (List.ne_nil_of_mem hmem)]
  exact ⟨hlast, (hrel name hmem).2.2⟩

end

/-- `dropNames` takes the pieces `ps` with the first names away, up to void pieces. -/
theorem dropWhile_dropNames (ps : List Text) {rel : List Text}
    (hrel : ∀ name ∈ rel.head?, isVoid name = false) :
    (dropNames (ps.filter fun piece => !isVoid piece).length (ps ++ rel)).dropWhile isVoid = rel := by
  have hstart : rel.dropWhile isVoid = rel := by
    cases rel with
    | nil => rfl
    | cons name rel => exact List.dropWhile_cons_of_neg (by simp [hrel name (by simp)])
  induction ps with
  | nil => simpa [dropNames] using hstart
  | cons piece ps ih =>
    cases hvoid : isVoid piece with
    | true =>
      rw [List.filter_cons_of_neg (by simp [hvoid])]
      cases hcount : (ps.filter fun piece => !isVoid piece).length with
      | zero =>
        rw [hcount, dropNames] at ih
        rw [dropNames, List.cons_append, List.dropWhile_cons_of_pos hvoid, ih]
      | succ n =>
        rw [hcount] at ih
        rw [List.cons_append, dropNames, if_pos hvoid, ih]
    | false =>
      rw [List.filter_cons_of_pos (by simp [hvoid]), List.length_cons, List.cons_append, dropNames,
        if_neg (by simp [hvoid]), ih]

/-- A path that is not empty has a component. -/
theorem components_ne_nil {p : Text} (hp : p ≠ []) : components p ≠ [] := by
  obtain ⟨c, p, rfl⟩ := List.exists_cons_of_ne_nil hp
  by_cases hc : c = '/'
  · subst hc
    simp [components, lead, Lead.text]
  -- the first piece is a name, or it is the dot of the lead
  obtain ⟨first, ps, hsplit, hpieces⟩ := splitOn_cons_of_ne hc p
  cases hvoid : isVoid (c :: first) with
  | false =>
    have hname : c :: first ∈ names (c :: p) := by
      rw [names_eq, hpieces, List.filter_cons_of_pos (by simp [hvoid])]
      exact List.mem_cons_self
    unfold components
    split
    · exact List.ne_nil_of_mem hname
    · simp
  | true =>
    obtain ⟨rfl, rfl⟩ : c = '.' ∧ first = [] := by simpa [isVoid] using hvoid
    have hlead : lead ('.' :: p) = .here := by
      cases p with
      | nil => rfl
      | cons d p =>
        by_cases hd : d = '/'
        · subst hd
          rfl
        · obtain ⟨inner, ps', -, hinner⟩ := splitOn_cons_of_ne hd p
          rw [hsplit] at hinner
          cases hinner
    rw [components, hlead]
    simp [Lead.text]

/-- `components (rel.foldl join root) = components root ++ rel`. -/
theorem components_foldl_join {root : Text} (hroot : root ≠ []) {rel : List Text}
    (hrel : ∀ name ∈ rel, IsFileName name) :
    components (rel.foldl join root) = components root ++ rel := by
  rw [components, components, lead_foldl_join hroot, names_foldl_join hroot hrel]
  split <;> rfl

/-- **`below? root` takes the directory off again**, and leaves the names that were joined to it. -/
theorem below?_foldl_join {root : Text} (hroot : root ≠ []) {rel : List Text}
    (hrelative : Relative rel) :
    below? root (rel.foldl join root) = some (Text.joinWith "/" rel) := by
  obtain ⟨hne, hrel⟩ := hrelative
  obtain ⟨ps, hps, hnames⟩ := pieces_foldl_join hroot hrel hne
  have hhead : ∀ name ∈ rel.head?, isVoid name = false :=
    fun name hname => (hrel name (List.mem_of_head? hname)).2.1
  have hend : trimVoid rel = rel :=
    List.rdropWhile_eq_self_iff.mpr fun hl => by simp [(hrel _ (List.getLast_mem hl)).2.1]
  unfold below?
  rw [components_foldl_join hroot hrel, if_pos (by simp), if_neg (components_ne_nil hroot), hps,
    ← hnames]
  dsimp only
  rw [dropWhile_dropNames ps hhead, hend]

end Path

namespace FileTree

/-! ## (2) Locations -/

section

variable (t : FileTree)

/-- **`t.locationOf root ++ rel`**: a file that was found is at the location of the directory, and
the names from there. -/
theorem locationOf_foldl_join {root : Text} (hroot : root ≠ []) {rel : List Text}
    (hrel : ∀ name ∈ rel, Path.IsFileName name) :
    t.locationOf (rel.foldl Path.join root) = t.locationOf root ++ rel := by
  have hstart : t.startOf (rel.foldl Path.join root) = t.startOf root := by
    rw [startOf, startOf, Path.isRooted, Path.isRooted, Path.lead_foldl_join hroot]
  have hup : Path.up ∉ rel := fun hmem => (hrel Path.up hmem).2.2 rfl
  rw [locationOf, locationOf, hstart, Path.names_foldl_join hroot hrel, List.foldl_append,
    foldl_enter_of_notMem hup]

/-- `t.locationOf p` ends with the file name of `p`. -/
theorem locationOf_eq_concat {p name : Text} (hname : Path.fileName? p = some name) :
    t.locationOf p = (Path.names p).dropLast.foldl enter (t.startOf p) ++ [name] := by
  obtain ⟨hlast, hup⟩ := Path.fileName?_eq_some_iff.mp hname
  have hnames : Path.names p = (Path.names p).dropLast ++ [name] :=
    (List.dropLast_append_getLast? name hlast).symm
  rw [locationOf]
  conv_lhs => rw [hnames]
  rw [List.foldl_append, List.foldl_cons, List.foldl_nil, enter, if_neg hup]

section Output

variable (s : Settings) (hfree : '/' ∉ s.schemeInfix) {dir : Text}
  (hdir : Path.names s.schemesDir = [dir]) (hdirUp : dir ≠ Path.up)

include hfree hdir hdirUp

/-- **The location of `s.outputPath p`** is beside that of `p`, in the scheme directory. -/
theorem locationOf_outputPath {p name : Text} (hname : Path.fileName? p = some name) :
    t.locationOf (s.outputPath p) = (t.locationOf p).dropLast ++ [dir, s.moduleName p] := by
  have hstart : t.startOf (s.outputPath p) = t.startOf p := by
    rw [startOf, startOf, Settings.isRooted_outputPath s
      (List.ne_nil_of_mem (Path.mem_names_of_fileName? hname))]
  have hup : Path.up ∉ [dir, s.moduleName p] := by
    have hmodule := (Settings.moduleName_spec s hfree hname).2
    simp [Ne.symm hdirUp, Ne.symm hmodule]
  rw [locationOf_eq_concat t hname, List.dropLast_concat, locationOf, hstart,
    Settings.names_outputPath s hfree hname, hdir, List.foldl_append, List.singleton_append,
    foldl_enter_of_notMem hup]

/-- **Modules of different files have different locations**: `outputPath` keeps them apart. -/
theorem locationOf_eq_of_outputPath_eq {p q a b : Text} (hp : Path.fileName? p = some a)
    (hq : Path.fileName? q = some b)
    (heq : t.locationOf (s.outputPath p) = t.locationOf (s.outputPath q)) :
    t.locationOf p = t.locationOf q := by
  rw [locationOf_outputPath t s hfree hdir hdirUp hp, locationOf_outputPath t s hfree hdir hdirUp hq]
    at heq
  obtain ⟨hfront, hends⟩ := List.append_inj' heq rfl
  have hmodule : s.moduleName p = s.moduleName q := by simpa using hends
  obtain rfl := Settings.fileName_eq_of_moduleName_eq s hp hq hmodule
  rw [locationOf_eq_concat t hp, locationOf_eq_concat t hq] at hfront ⊢
  rw [List.dropLast_concat, List.dropLast_concat] at hfront
  rw [hfront]

end Output

end

/-! ## (3) The search -/

/-- **The path under which an entry is found** by a search from the directory at `loc`, if it is a
source. -/
def sourceAt (filter : SourceFilter) (root : Text) (recursive : Bool) (loc : Location)
    (entry : Location × Node) : Option Text :=
  match afterFront? loc entry.1, entry.2 with
  | some (name :: names), .file _ =>
    if recursive || names.isEmpty then
      some ((name :: names).foldl Path.join root) |>.filter (filter.accepts root)
    else none
  | _, _ => none

section

variable {filter : SourceFilter} {root : Text} {recursive : Bool} {loc : Location}

/-- `sourceAt` finds the files below the directory, at the depth that is asked for, that the filter
accepts. -/
theorem sourceAt_eq_some_iff {entry : Location × Node} {path : Text} :
    sourceAt filter root recursive loc entry = some path ↔
      ∃ rel bytes, entry = (loc ++ rel, .file bytes) ∧ rel ≠ [] ∧
        (recursive = true ∨ rel.length = 1) ∧ path = rel.foldl Path.join root ∧
        filter.accepts root path = true := by
  obtain ⟨place, node⟩ := entry
  unfold sourceAt
  constructor
  · intro hsource
    split at hsource
    · rename_i name names bytes hfront hnode
      split at hsource
      · rename_i hdepth
        obtain ⟨hpath, haccepts⟩ := Option.filter_eq_some_iff.mp hsource
        cases hpath
        cases hnode
        refine ⟨name :: names, bytes, ?_, by simp, ?_, rfl, haccepts⟩
        · rw [← afterFront?_eq_some_iff.mp hfront]
        · simpa using hdepth
      · cases hsource
    · cases hsource
  · rintro ⟨rel, bytes, heq, hne, hdepth, rfl, haccepts⟩
    obtain ⟨name, names, rfl⟩ := List.exists_cons_of_ne_nil hne
    obtain ⟨rfl, rfl⟩ := Prod.mk.inj heq
    have hfront : afterFront? loc (loc ++ name :: names) = some (name :: names) :=
      afterFront?_eq_some_iff.mpr rfl
    rw [hfront]
    dsimp only
    rw [if_pos (by simpa using hdepth), Option.filter_some, if_pos haccepts]

/-- **`findSources` selects entries** by `sourceAt`. -/
theorem findSources_eq {t : FileTree} (hlocate : t.locate root = .ok (loc, .directory)) :
    t.findSources filter root recursive
      = .ok (t.entries.filterMap (sourceAt filter root recursive loc)) := by
  rw [findSources, filesBelow, hlocate]
  dsimp only
  rw [below, List.filterMap_filterMap, List.filter_filterMap]
  congr 2
  funext entry
  rw [sourceAt]
  cases afterFront? loc entry.1 with
  | none => rfl
  | some rel =>
    cases rel with
    | nil => rfl
    | cons name names =>
      cases entry.2 with
      | directory => simp
      | file bytes => cases recursive <;> cases names <;> simp

/-- A search that succeeds starts at a directory, or it starts at a file and finds nothing. -/
theorem locate_of_findSources {t : FileTree} {paths : List Text}
    (hfind : t.findSources filter root recursive = .ok paths) :
    (∃ loc, t.locate root = .ok (loc, .directory)) ∨
      (∃ loc bytes, t.locate root = .ok (loc, .file bytes)) ∧ paths = [] := by
  rw [findSources, filesBelow] at hfind
  cases hlocate : t.locate root with
  | error failure =>
    rw [hlocate] at hfind
    cases hfind
  | ok found =>
    obtain ⟨loc, node⟩ := found
    cases node with
    | directory => exact Or.inl ⟨loc, rfl⟩
    | file bytes =>
      rw [hlocate] at hfind
      cases hfind
      exact Or.inr ⟨⟨loc, bytes, rfl⟩, rfl⟩

/-- `findSources` finds nothing where it starts at a file. -/
theorem findSources_of_file {t : FileTree} {bytes : ByteArray}
    (hlocate : t.locate root = .ok (loc, .file bytes)) :
    t.findSources filter root recursive = .ok [] := by
  rw [findSources, filesBelow, hlocate]
  rfl

/-- **What is found is `rel.foldl Path.join root`** for the names `rel` that lead to it from the
directory. -/
theorem exists_of_mem_findSources {t : FileTree} (hnamed : t.Named) {paths : List Text}
    (hfind : t.findSources filter root recursive = .ok paths) {path : Text} (hpath : path ∈ paths) :
    root ≠ [] ∧ filter.accepts root path = true ∧
      ∃ rel, Path.Relative rel ∧ path = rel.foldl Path.join root := by
  rcases locate_of_findSources hfind with ⟨loc, hlocate⟩ | ⟨-, rfl⟩
  · rw [findSources_eq hlocate] at hfind
    cases hfind
    obtain ⟨entry, hentry, hsource⟩ := List.mem_filterMap.mp hpath
    obtain ⟨rel, bytes, rfl, hne, -, hspelled, haccepts⟩ := sourceAt_eq_some_iff.mp hsource
    refine ⟨ne_nil_of_locate hlocate, haccepts, rel, ⟨hne, fun name hname => ?_⟩, hspelled⟩
    exact hnamed _ hentry name (List.mem_append_right _ hname)
  · exact absurd hpath List.not_mem_nil

end

end FileTree

/-! ## (4) The filter of a run without patterns -/

namespace Glob

/-- `r ∈ suffixes s ↔ r <:+ s`. -/
theorem mem_suffixes_iff {r s : Text} : r ∈ suffixes s ↔ r <:+ s := by
  induction s with
  | nil => simp [suffixes]
  | cons c s ih => rw [suffixes, List.mem_cons, ih, List.suffix_cons_iff]

/-- `takesAll (cs.map Token.char) s ↔ s = cs`. -/
theorem takesAll_map_char {cs s : Text} : takesAll (cs.map Token.char) s = true ↔ s = cs := by
  induction cs generalizing s with
  | nil => simp [takesAll]
  | cons c cs ih =>
    rw [List.map_cons, takesAll, Token.rests]
    cases s with
    | nil => simp [afterChar]
    | cons d s =>
      by_cases hd : d = c
      · simp [afterChar, hd, ih]
      · simp [afterChar, hd]

/-- **A star and the characters `cs`** fit the texts that end with `cs`. -/
theorem accepts_star_iff {cs s : Text} :
    Pattern.accepts ⟨.anyRun :: cs.map Token.char⟩ s = true ↔ cs <:+ s := by
  rw [Pattern.accepts_eq_takesAll, takesAll, Token.rests, List.any_eq_true]
  constructor
  · rintro ⟨r, hr, htakes⟩
    rw [← takesAll_map_char.mp htakes]
    exact mem_suffixes_iff.mp hr
  · exact fun hsuffix => ⟨cs, mem_suffixes_iff.mpr hsuffix, takesAll_map_char.mpr rfl⟩

end Glob

namespace Path

/-- `Text.joinWith "/" rel` ends with the last name, after a separator if it is not alone. -/
theorem exists_joinWith_eq {rel : List Text} {name : Text} (hlast : rel.getLast? = some name) :
    ∃ front, Text.joinWith "/" rel = front ++ name ∧ (front = [] ∨ front.getLast? = some '/') := by
  induction rel with
  | nil => cases hlast
  | cons first rel ih =>
    cases rel with
    | nil =>
      obtain rfl : first = name := Option.some.inj hlast
      exact ⟨[], by simp [Text.joinWith], Or.inl rfl⟩
    | cons second rel =>
      have hjoin : Text.joinWith "/" (first :: second :: rel)
          = (first ++ ['/']) ++ Text.joinWith "/" (second :: rel) := by
        simp [Text.joinWith]
      obtain ⟨front, hfront, hslash⟩ := ih hlast
      refine ⟨(first ++ ['/']) ++ front, by rw [hjoin, hfront, List.append_assoc _ front], Or.inr ?_⟩
      rcases hslash with rfl | hslash
      · simp
      · rw [List.getLast?_append, hslash]
        rfl

/-- **An ending without separators belongs to the last name**: `back <:+ name`. -/
theorem suffix_of_suffix_joinWith {back name : Text} (hback : '/' ∉ back) {rel : List Text}
    (hlast : rel.getLast? = some name) (hsuffix : back <:+ Text.joinWith "/" rel) :
    back <:+ name := by
  obtain ⟨front, hjoin, hslash⟩ := exists_joinWith_eq hlast
  rw [hjoin] at hsuffix
  rcases List.suffix_or_suffix_of_suffix hsuffix (List.suffix_append front name) with hshort | hlong
  · exact hshort
  · -- an ending that is longer than the name would hold the separator before it
    obtain ⟨more, rfl⟩ := hlong
    obtain ⟨before, hbefore⟩ := hsuffix
    rw [← List.append_assoc] at hbefore
    have hfront : before ++ more = front := List.append_cancel_right hbefore
    cases more using List.reverseRecOn with
    | nil => exact List.suffix_rfl
    | append_singleton more c =>
      exfalso
      rcases hslash with rfl | hslash
      · simp at hfront
      · rw [← hfront, ← List.append_assoc, List.getLast?_concat] at hslash
        exact hback (by simp [Option.some.inj hslash])

end Path

namespace SourceFilter

/-- `ofPatterns settings []`: a star and the extension, and the marker of the settings. -/
theorem ofPatterns_nil (settings : Settings) :
    ofPatterns settings [] = .ok ⟨[⟨.anyRun :: (".ts" : Text).map Glob.Token.char⟩],
      markerOf settings⟩ := by
  have hcompile : Glob.compile defaultPattern
      = .ok ⟨.anyRun :: (".ts" : Text).map Glob.Token.char⟩ := by cbv
  rw [ofPatterns]
  simp only [List.isEmpty_nil, if_true, List.mapM_cons, List.mapM_nil, pattern, hcompile]
  rfl

/-- A run without patterns finds files whose names end with the extension, and no marked ones. -/
theorem of_accepts_default {settings : Settings} {filter : SourceFilter}
    (hfilter : ofPatterns settings [] = .ok filter) {root : Text} (hroot : root ≠ [])
    {rel : List Text} (hrel : ∀ name ∈ rel, Path.IsFileName name) {name : Text}
    (hlast : rel.getLast? = some name)
    (haccepts : filter.accepts root (rel.foldl Path.join root) = true) :
    (".ts" : Text) <:+ name ∧
      isMarked (markerOf settings) (rel.foldl Path.join root) = false := by
  rw [ofPatterns_nil] at hfilter
  cases hfilter
  rw [accepts, Path.fileName?_foldl_join hroot hrel hlast,
    Path.below?_foldl_join hroot (Path.relative_of_getLast? hrel hlast)] at haccepts
  simp only [List.any_cons, List.any_nil, Bool.or_false, Bool.and_eq_true, Bool.not_eq_true',
    Bool.or_eq_true, Option.getD_some, Glob.accepts_star_iff] at haccepts
  refine ⟨?_, haccepts.1⟩
  rcases haccepts.2 with hname | hpath
  · exact hname
  · exact Path.suffix_of_suffix_joinWith (by decide) hlast hpath

/-- **A run without patterns never finds an output module.** The module of a file with an extension
is marked, and that of a file without one does not end with the extension. -/
theorem accepts_module_eq_false {settings : Settings} (hscheme : settings.schemeInfix = "scheme")
    {filter : SourceFilter} (hfilter : ofPatterns settings [] = .ok filter) {root : Text}
    (hroot : root ≠ []) {rel : List Text} (hrel : ∀ name ∈ rel, Path.IsFileName name)
    {source name : Text} (hsource : Path.fileName? source = some name)
    (hlast : rel.getLast? = some (settings.moduleName source)) :
    filter.accepts root (rel.foldl Path.join root) = false := by
  rw [Bool.eq_false_iff]
  intro haccepts
  obtain ⟨hsuffix, hmarked⟩ := of_accepts_default hfilter hroot hrel hlast haccepts
  rcases Settings.moduleName_cases settings hsource with
    ⟨-, hmodule⟩ | ⟨stem, ext, -, hstem, hdot, hmodule⟩
  · rw [hmodule, hscheme] at hsuffix
    obtain ⟨front, hfront⟩ := hsuffix
    have hends := congrArg List.getLast? hfront
    rw [List.getLast?_append_of_ne_nil _ (by decide), List.getLast?_append_of_ne_nil _ (by decide)]
      at hends
    exact absurd hends (by decide)
  · rw [isMarked, Path.stem?, Path.fileName?_foldl_join hroot hrel hlast, Option.map_some, hmodule,
      Path.splitName_append (by simp) hdot] at hmarked
    have hend : (markerOf settings).isSuffixOf (stem ++ '.' :: settings.schemeInfix) = true :=
      List.isSuffixOf_iff_suffix.mpr (List.suffix_append stem _)
    exact absurd hend (Bool.eq_false_iff.mp hmarked)

end SourceFilter

end InterfaceSchemes
