import InterfaceSchemes.Proofs.Marking

/-! # What a search finds

A search lists paths that are spelled with the directory from which it starts. What it has found is
the list of the names that lead to each file from there. This file describes that list by itself: it
depends on what the directory holds, and on nothing else.

* **`Text.byteList_lt`** — the order of texts is the order of their bytes.
* **`Path.foldl_join_eq`** — names that are joined one after the other are joined as one path.
* **`SourceFilter.selects`**, **`SourceFilter.accepts_foldl_join`** — which files are sources, without
  the path of the directory.
* **`FileTree.found`**, **`FileTree.findSources_eq_foldl_join`** — a search is a selection of entries,
  spelled with the path of the directory in front.
* **`FileTree.findSources_exact`** — what is found, in which order, under every spelling. -/

namespace InterfaceSchemes

/-! ## (1) The order of bytes -/

namespace Text

/-- The bytes of a text, in order. -/
def byteList (s : Text) : List UInt8 := (toBytes s).data.toList

/-- `byteList s` are the bytes of the characters of `s`. -/
theorem byteList_eq (s : Text) : byteList s = s.flatMap String.utf8EncodeChar := by
  simp [byteList, toBytes, List.utf8Encode]

/-- Bytes are ordered like the numbers that they stand for. -/
theorem ofNat_lt_ofNat {a b : Nat} (hab : a < b) (hb : b < 256) : UInt8.ofNat a < UInt8.ofNat b :=
  (UInt8.ofNat_lt_iff_lt (Nat.lt_trans hab hb) hb).mpr hab

/-- What is left of a number above `k` times six bits. -/
def above : Nat → Nat → Nat
  | 0, n => n
  | k + 1, n => above k (n / 64)

/-- A number as a leading byte and `k` bytes with six bits each. -/
def digitBytes (base : Nat) : Nat → Nat → List UInt8
  | 0, n => [UInt8.ofNat (n + base)]
  | k + 1, n => digitBytes base k (n / 64) ++ [UInt8.ofNat (n % 64 + 128)]

/-- **`digitBytes` gives a smaller number smaller bytes**, whatever follows them. The induction
takes the last byte off: the numbers differ in what stands above it, or only in that byte. -/
theorem digitBytes_append_lt (base k : Nat) {m n : Nat} (hmn : m < n)
    (hbound : above k n + base < 256) (s t : List UInt8) :
    digitBytes base k m ++ s < digitBytes base k n ++ t := by
  induction k generalizing m n s t with
  | zero => exact List.cons_lt_cons_iff.mpr (Or.inl (ofNat_lt_ofNat (by omega) hbound))
  | succ k ih =>
    rw [digitBytes, digitBytes, List.append_assoc, List.append_assoc]
    rcases Nat.lt_or_ge (m / 64) (n / 64) with hlt | hge
    · exact ih hlt hbound _ _
    · have heq : m / 64 = n / 64 := by omega
      rw [heq]
      exact List.append_left_lt
        (List.cons_lt_cons_iff.mpr (Or.inl (ofNat_lt_ofNat (by omega) (by omega))))

/-- **`utf8EncodeChar` gives a smaller character smaller bytes**, whatever follows them. -/
theorem utf8EncodeChar_append_lt {c d : Char} (hlt : c < d) (s t : List UInt8) :
    String.utf8EncodeChar c ++ s < String.utf8EncodeChar d ++ t := by
  have hcode : c.val.toNat < d.val.toNat := hlt
  have hvalid : d.val.toNat < 0xd800 ∨ 0xdfff < d.val.toNat ∧ d.val.toNat < 0x110000 := d.valid
  unfold String.utf8EncodeChar
  generalize c.val.toNat = m at hcode
  generalize d.val.toNat = n at hcode hvalid
  dsimp only
  split_ifs
  -- with fewer bytes, or with only one, the first byte is smaller
  all_goals try exact List.cons_lt_cons_iff.mpr (Or.inl (ofNat_lt_ofNat (by omega) (by omega)))
  · have hbytes := digitBytes_append_lt 192 1 hcode (by simp only [above]; omega) s t
    simp only [digitBytes] at hbytes
    rwa [Nat.mod_eq_of_lt (by omega : m / 64 < 32), Nat.mod_eq_of_lt (by omega : n / 64 < 32)]
  · have hbytes := digitBytes_append_lt 224 2 hcode (by simp only [above]; omega) s t
    simp only [digitBytes, Nat.div_div_eq_div_mul] at hbytes
    rwa [Nat.mod_eq_of_lt (by omega : m / 4096 < 16),
      Nat.mod_eq_of_lt (by omega : n / 4096 < 16)]
  · have hbytes := digitBytes_append_lt 240 3 hcode (by simp only [above]; omega) s t
    simp only [digitBytes, Nat.div_div_eq_div_mul] at hbytes
    rwa [Nat.mod_eq_of_lt (by omega : m / 262144 < 8),
      Nat.mod_eq_of_lt (by omega : n / 262144 < 8)]

/-- **`s < t` is the order of their bytes.** -/
theorem byteList_lt {s t : Text} (hlt : s < t) : byteList s < byteList t := by
  rw [byteList_eq, byteList_eq]
  induction s generalizing t with
  | nil =>
    cases t with
    | nil => exact absurd hlt (List.lt_irrefl _)
    | cons d t =>
      obtain ⟨b, bs, hb⟩ := List.exists_cons_of_ne_nil (String.utf8EncodeChar_ne_nil (c := d))
      rw [List.flatMap_nil, List.flatMap_cons, hb]
      exact List.nil_lt_cons _ _
  | cons c s ih =>
    cases t with
    | nil => exact absurd hlt (List.not_lt_nil _)
    | cons d t =>
      rw [List.flatMap_cons, List.flatMap_cons]
      rcases List.cons_lt_cons_iff.mp hlt with hcd | ⟨rfl, hst⟩
      · exact utf8EncodeChar_append_lt hcd _ _
      · exact List.append_left_lt (ih hst)

end Text

/-- Locations are ordered by the bytes of their names, the first names first. -/
theorem map_byteList_lt {a b : Location} (hlt : a < b) :
    a.map Text.byteList < b.map Text.byteList := by
  induction a generalizing b with
  | nil =>
    cases b with
    | nil => exact absurd hlt (List.lt_irrefl _)
    | cons name b => exact List.nil_lt_cons _ _
  | cons first a ih =>
    cases b with
    | nil => exact absurd hlt (List.not_lt_nil _)
    | cons second b =>
      rcases List.cons_lt_cons_iff.mp hlt with hname | ⟨rfl, hrest⟩
      · exact List.cons_lt_cons_iff.mpr (Or.inl (Text.byteList_lt hname))
      · exact List.cons_lt_cons_iff.mpr (Or.inr ⟨rfl, ih hrest⟩)

/-- `loc ++ a < loc ++ b` only if `a < b`. -/
theorem lt_of_append_lt {loc a b : Location} (hlt : loc ++ a < loc ++ b) : a < b := by
  induction loc with
  | nil => exact hlt
  | cons name loc ih =>
    rcases List.cons_lt_cons_iff.mp hlt with hname | ⟨-, hrest⟩
    · exact absurd hname (List.lt_irrefl name)
    · exact ih hrest

/-! ## (2) Names joined as one path -/

namespace Path

/-- `join p (name ++ rest) = join p name ++ rest`. -/
theorem join_append (p name rest : Text) : join p (name ++ rest) = join p name ++ rest := by
  unfold join
  split
  · rfl
  · rw [List.append_assoc]
  · rw [List.append_assoc, List.cons_append]

/-- `join p name = p ++ '/' :: name` for a path that does not end with a separator. -/
theorem join_of_getLast? {p : Text} {c : Char} (hlast : p.getLast? = some c) (hc : c ≠ '/')
    (name : Text) : join p name = p ++ '/' :: name := by
  rcases join_cases p name with ⟨rfl, -⟩ | ⟨q, rfl, -⟩ | ⟨-, hjoin⟩
  · cases hlast
  · rw [List.getLast?_concat] at hlast
    exact absurd (Option.some.inj hlast).symm hc
  · exact hjoin

/-- One more part behind others. -/
theorem joinWith_concat {parts : List Text} (hne : parts ≠ []) (part : Text) :
    Text.joinWith "/" (parts ++ [part]) = Text.joinWith "/" parts ++ '/' :: part := by
  induction parts with
  | nil => exact absurd rfl hne
  | cons first parts ih =>
    by_cases hnil : parts = []
    · subst hnil
      simp [Text.joinWith]
    · rw [Text.joinWith, Text.joinWith, List.cons_append,
        List.intercalate_cons_of_ne_nil (by simp), List.intercalate_cons_of_ne_nil hnil,
        ← Text.joinWith, ih hnil, Text.joinWith]
      simp only [List.append_assoc]

/-- **`rel.foldl join root = join root (Text.joinWith "/" rel)`**: names joined one after the other
are joined as one path. -/
theorem foldl_join_eq {root : Text} {rel : List Text} (hrel : Relative rel) :
    rel.foldl join root = join root (Text.joinWith "/" rel) := by
  induction rel using List.reverseRecOn with
  | nil => exact absurd rfl hrel.1
  | append_singleton rel name ih =>
    rw [List.foldl_append, List.foldl_cons, List.foldl_nil]
    by_cases hnil : rel = []
    · subst hnil
      simp [Text.joinWith]
    · have hfront : Relative rel :=
        ⟨hnil, fun name hname => hrel.2 name (List.mem_append_left _ hname)⟩
      rw [ih hfront, joinWith_concat hnil, join_append]
      -- the path so far ends with a name, and so not with a separator
      obtain ⟨front, last, rfl, hslash, hvoid, -⟩ := hfront.exists_concat
      obtain ⟨before, hjoined, -⟩ :=
        exists_joinWith_eq (List.getLast?_concat (l := front) (a := last))
      cases last using List.reverseRecOn with
      | nil => exact absurd hvoid (by decide)
      | append_singleton word c =>
        have hc : c ≠ '/' := fun heq => hslash (by simp [heq])
        rw [hjoined, ← List.append_assoc, join_append]
        exact join_of_getLast? List.getLast?_concat hc name

/-- Different names give different paths below one directory. -/
theorem foldl_join_inj {root : Text} (hroot : root ≠ []) {a b : List Text}
    (ha : ∀ name ∈ a, IsFileName name) (hb : ∀ name ∈ b, IsFileName name)
    (heq : a.foldl join root = b.foldl join root) : a = b := by
  have hnames := congrArg names heq
  rw [names_foldl_join hroot ha, names_foldl_join hroot hb] at hnames
  exact List.append_cancel_left hnames

end Path

/-! ## (3) Sources by their names -/

namespace SourceFilter

/-- **Whether the names from the directory lead to a source**: the stem of the file does not end with
the marker, and one of the patterns fits the names, put together, or the last of them. -/
def selects (filter : SourceFilter) (rel : List Text) : Bool :=
  match rel.getLast? with
  | none => false
  | some name =>
    !filter.marker.isSuffixOf (Path.splitName name).1 &&
      filter.patterns.any fun p => p.accepts name || p.accepts (Text.joinWith "/" rel)

theorem selects_eq_true_iff {filter : SourceFilter} {rel : List Text} :
    filter.selects rel = true ↔
      ∃ name, rel.getLast? = some name ∧ ¬ filter.marker <:+ (Path.splitName name).1 ∧
        ∃ p ∈ filter.patterns, p.accepts (Text.joinWith "/" rel) = true ∨ p.accepts name = true := by
  unfold selects
  cases rel.getLast? with
  | none => simp
  | some name =>
    simp only [Bool.and_eq_true, Bool.not_eq_true', Bool.eq_false_iff, Ne,
      List.isSuffixOf_iff_suffix, List.any_eq_true, Bool.or_eq_true, Option.some.injEq,
      exists_eq_left']
    exact and_congr_right fun _ => exists_congr fun p => and_congr_right fun _ => or_comm

/-- **`filter.accepts root (rel.foldl Path.join root) = filter.selects rel`**: the path of the
directory does not matter for whether a file below it is a source. -/
theorem accepts_foldl_join (filter : SourceFilter) {root : Text} (hroot : root ≠ [])
    {rel : List Text} (hrel : Path.Relative rel) :
    filter.accepts root (rel.foldl Path.join root) = filter.selects rel := by
  have hlast := List.getLast?_eq_getLast_of_ne_nil hrel.1
  rw [accepts, isMarked, Path.stem?, Path.fileName?_foldl_join hroot hrel.2 hlast,
    Path.below?_foldl_join hroot hrel, selects, hlast]
  rfl

end SourceFilter

/-! ## (4) The search without its spelling -/

namespace FileTree

/-- The names that lead to a source from the directory at `loc`, if the entry is one. -/
def foundAt (filter : SourceFilter) (recursive : Bool) (loc : Location) (entry : Location × Node) :
    Option (List Text) :=
  match afterFront? loc entry.1, entry.2 with
  | some rel, .file _ => some rel |>.filter fun rel =>
      (recursive || rel.length == 1) && filter.selects rel
  | _, _ => none

section

variable {filter : SourceFilter} {recursive : Bool} {loc : Location}

theorem foundAt_eq_some_iff {entry : Location × Node} {rel : List Text} :
    foundAt filter recursive loc entry = some rel ↔
      ∃ bytes, entry = (loc ++ rel, .file bytes) ∧ (recursive = true ∨ rel.length = 1) ∧
        filter.selects rel = true := by
  obtain ⟨place, node⟩ := entry
  unfold foundAt
  constructor
  · intro hfound
    split at hfound
    · rename_i names bytes hfront hnode
      obtain ⟨hrel, hselects⟩ := Option.filter_eq_some_iff.mp hfound
      cases hrel
      cases hnode
      refine ⟨bytes, ?_, by simpa using hselects⟩
      rw [← afterFront?_eq_some_iff.mp hfront]
    · cases hfound
  · rintro ⟨bytes, heq, hdepth, hselects⟩
    obtain ⟨rfl, rfl⟩ := Prod.mk.inj heq
    have hfront : afterFront? loc (loc ++ rel) = some rel := afterFront?_eq_some_iff.mpr rfl
    rw [hfront]
    dsimp only
    rw [Option.filter_some, if_pos (by simpa using ⟨hdepth, hselects⟩)]

/-- **`sourceAt` at an entry** is `foundAt`, spelled from the directory. -/
theorem sourceAt_eq_map {root : Text} (hroot : root ≠ []) {entry : Location × Node}
    (hentry : ∀ name ∈ entry.1, Path.IsFileName name) :
    sourceAt filter root recursive loc entry
      = (foundAt filter recursive loc entry).map (·.foldl Path.join root) := by
  refine Option.ext fun path => ?_
  rw [sourceAt_eq_some_iff, Option.map_eq_some_iff]
  have hnames : ∀ {rel : List Text} {bytes : ByteArray}, entry = (loc ++ rel, .file bytes) →
      ∀ name ∈ rel, Path.IsFileName name := by
    rintro rel bytes rfl name hname
    exact hentry name (List.mem_append_right _ hname)
  constructor
  · rintro ⟨rel, bytes, heq, hne, hdepth, rfl, haccepts⟩
    rw [filter.accepts_foldl_join hroot ⟨hne, hnames heq⟩] at haccepts
    exact ⟨rel, foundAt_eq_some_iff.mpr ⟨bytes, heq, hdepth, haccepts⟩, rfl⟩
  · rintro ⟨rel, hfound, rfl⟩
    obtain ⟨bytes, heq, hdepth, hselects⟩ := foundAt_eq_some_iff.mp hfound
    have hne : rel ≠ [] := by
      rintro rfl
      cases hselects
    refine ⟨rel, bytes, heq, hne, hdepth, rfl, ?_⟩
    rw [filter.accepts_foldl_join hroot ⟨hne, hnames heq⟩, hselects]

/-- `foundAt filter false` is `foundAt filter true`, at depth one. -/
theorem foundAt_false (entry : Location × Node) :
    foundAt filter false loc entry
      = (foundAt filter true loc entry).filter fun rel => rel.length == 1 := by
  refine Option.ext fun rel => ?_
  rw [Option.filter_eq_some_iff, foundAt_eq_some_iff, foundAt_eq_some_iff]
  simp only [Bool.false_eq_true, false_or, true_or, true_and, beq_iff_eq]
  tauto

end

/-- The names that lead to the sources from the directory at `loc`. -/
def found (t : FileTree) (filter : SourceFilter) (loc : Location) (recursive : Bool) :
    List (List Text) :=
  t.entries.filterMap (foundAt filter recursive loc)

section

variable {t : FileTree} {filter : SourceFilter} {loc : Location} {recursive : Bool}

/-- **`rel ∈ t.found filter loc recursive`**: there is a file at `loc ++ rel`, at a depth that is
searched, and `filter.selects rel`. -/
theorem mem_found_iff {rel : List Text} :
    rel ∈ t.found filter loc recursive ↔
      (∃ bytes, t.node? (loc ++ rel) = some (.file bytes)) ∧
        (recursive = true ∨ rel.length = 1) ∧ filter.selects rel = true := by
  have hentries : ∀ bytes, t.node? (loc ++ rel) = some (.file bytes) ↔
      (loc ++ rel, .file bytes) ∈ t.entries ∧ loc ++ rel ≠ [] := by
    intro bytes
    constructor
    · intro hnode
      have hne : loc ++ rel ≠ [] := by
        intro hnil
        rw [hnil] at hnode
        cases hnode
      rw [node?_of_ne hne] at hnode
      obtain ⟨front, back, hsplit, -⟩ := List.lookup_eq_some_iff.mp hnode
      exact ⟨by simp [hsplit], hne⟩
    · rintro ⟨hmem, hne⟩
      exact node?_of_mem hmem hne
  rw [found, List.mem_filterMap]
  constructor
  · rintro ⟨entry, hmem, hfound⟩
    obtain ⟨bytes, rfl, hdepth, hselects⟩ := foundAt_eq_some_iff.mp hfound
    refine ⟨⟨bytes, (hentries bytes).mpr ⟨hmem, ?_⟩⟩, hdepth, hselects⟩
    intro hnil
    rw [List.append_eq_nil_iff.mp hnil |>.2] at hselects
    cases hselects
  · rintro ⟨⟨bytes, hnode⟩, hdepth, hselects⟩
    exact ⟨_, ((hentries bytes).mp hnode).1, foundAt_eq_some_iff.mpr ⟨bytes, rfl, hdepth, hselects⟩⟩

/-- **`t.found` stands in order.** -/
theorem pairwise_found : (t.found filter loc recursive).Pairwise fun a b => a < b := by
  refine List.Pairwise.filterMap _ (fun entry entry' hlt rel hrel rel' hrel' => ?_) t.sorted
  obtain ⟨bytes, rfl, -⟩ := foundAt_eq_some_iff.mp hrel
  obtain ⟨bytes', rfl, -⟩ := foundAt_eq_some_iff.mp hrel'
  exact lt_of_append_lt hlt

/-- `t.found filter loc false` is a part of the search of all depths. -/
theorem found_false :
    t.found filter loc false = (t.found filter loc true).filter fun rel => rel.length == 1 := by
  rw [found, found, List.filter_filterMap]
  congr 1
  funext entry
  exact foundAt_false entry

/-- `Path.Relative rel` for what is found, in a tree that is `Named`. -/
theorem relative_of_mem_found (hnamed : t.Named) {rel : List Text}
    (hrel : rel ∈ t.found filter loc recursive) : Path.Relative rel := by
  obtain ⟨entry, hmem, hfound⟩ := List.mem_filterMap.mp hrel
  obtain ⟨bytes, rfl, -, hselects⟩ := foundAt_eq_some_iff.mp hfound
  refine ⟨?_, fun name hname => hnamed _ hmem name (List.mem_append_right _ hname)⟩
  rintro rfl
  cases hselects

/-- **`t.findSources` spells what `t.found` has**, name after name from the directory. -/
theorem findSources_eq_foldl_join (hnamed : t.Named) {root : Text}
    (hlocate : t.locate root = .ok (loc, .directory)) :
    t.findSources filter root recursive
      = .ok ((t.found filter loc recursive).map (·.foldl Path.join root)) := by
  have hroot := ne_nil_of_locate hlocate
  rw [findSources_eq hlocate, found, List.map_filterMap]
  refine congrArg _ (List.filterMap_congr fun entry hentry => ?_)
  exact sourceAt_eq_map hroot (hnamed entry hentry)

/-- `t.findSources` joins what `t.found` has to the directory. -/
theorem findSources_eq_map (hnamed : t.Named) {root : Text}
    (hlocate : t.locate root = .ok (loc, .directory)) :
    t.findSources filter root recursive
      = .ok ((t.found filter loc recursive).map fun rel =>
          Path.join root (Text.joinWith "/" rel)) := by
  rw [findSources_eq_foldl_join hnamed hlocate]
  refine congrArg _ (List.map_congr_left fun rel hrel => ?_)
  exact Path.foldl_join_eq (relative_of_mem_found hnamed hrel)

/-- Each is spelled differently. -/
theorem nodup_map_found (hnamed : t.Named) {root : Text} (hroot : root ≠ []) :
    ((t.found filter loc recursive).map fun rel => Path.join root (Text.joinWith "/" rel)).Nodup := by
  refine List.pairwise_map.mpr (pairwise_found.imp_of_mem ?_)
  intro rel rel' hrel hrel' hlt heq
  have hnames := relative_of_mem_found hnamed hrel
  have hnames' := relative_of_mem_found hnamed hrel'
  rw [← Path.foldl_join_eq hnames, ← Path.foldl_join_eq hnames'] at heq
  have hsame := Path.foldl_join_inj hroot hnames.2 hnames'.2 heq
  subst hsame
  exact List.lt_irrefl rel hlt

end

/-- **`t.findSources` finds exactly the sources below its directory.** What it finds is a list of
names that depends on the directory and not on the path by which it is given: every such path is
spelled in front of the same names, and gives each file one path. The names lead to files whose stem
is not marked and of which a pattern fits all the names or the last. They stand in the order of the
bytes of the names, one directory after the other, and those at depth one are what the search of
this depth alone finds. -/
theorem findSources_exact {t : FileTree} (hnamed : t.Named) {settings : Settings}
    {texts : List Text} {filter : SourceFilter}
    (hfilter : SourceFilter.ofPatterns settings texts = .ok filter) (loc : Location) :
    ∃ found : Bool → List (List Text),
      (∀ root, t.locate root = .ok (loc, .directory) → ∀ recursive,
        t.findSources filter root recursive
          = .ok ((found recursive).map fun rel => Path.join root (Text.joinWith "/" rel)) ∧
        ((found recursive).map fun rel => Path.join root (Text.joinWith "/" rel)).Nodup) ∧
      (∀ recursive rel, rel ∈ found recursive ↔
        (∃ bytes, t.node? (loc ++ rel) = some (.file bytes)) ∧
          (recursive = true ∨ rel.length = 1) ∧
          ∃ name, rel.getLast? = some name ∧
            ¬ ('.' :: settings.schemeInfix) <:+ (Path.splitName name).1 ∧
            ∃ p ∈ filter.patterns,
              p.accepts (Text.joinWith "/" rel) = true ∨ p.accepts name = true) ∧
      (∀ recursive,
        (found recursive).Pairwise fun a b => a.map Text.byteList < b.map Text.byteList) ∧
      found false = (found true).filter fun rel => rel.length == 1 := by
  refine ⟨t.found filter loc, fun root hlocate recursive => ⟨?_, ?_⟩, fun recursive rel => ?_,
    fun recursive => ?_, found_false⟩
  · exact findSources_eq_map hnamed hlocate
  · exact nodup_map_found hnamed (ne_nil_of_locate hlocate)
  · rw [mem_found_iff, SourceFilter.selects_eq_true_iff,
      SourceFilter.marker_of_ofPatterns hfilter]
    rfl
  · exact pairwise_found.imp map_byteList_lt

/-- Files in a directory and below it, with a marked one among them. -/
def shelf : FileTree :=
  [(["home", "src"], .directory), (["home", "src", "a.scheme.ts"], .file (Text.toBytes "")),
    (["home", "src", "b"], .directory), (["home", "src", "b", "é.ts"], .file (Text.toBytes "")),
    (["home", "src", "b.ts"], .file (Text.toBytes ""))].foldl
    (fun t entry => t.put entry.1 entry.2) (empty ["home"])

/-- Four spellings of one directory find the same files: the one below and the one beside it, and not
the marked one. -/
theorem findSources_shelf :
    shelf.Named ∧ ∃ filter, SourceFilter.ofPatterns {} [] = .ok filter ∧
      ∃ found : List Location, (["b", "é.ts"] : Location) ∈ found ∧ (["b.ts"] : Location) ∈ found ∧
        (["a.scheme.ts"] : Location) ∉ found ∧
        ∀ root ∈ (["src", "src/", "./src/../src/.", "/home/src"] : List Text),
          shelf.findSources filter root true
            = .ok (found.map fun rel => Path.join root (Text.joinWith "/" rel)) := by
  have hnamed : shelf.Named := by decide +kernel
  have hfilter := SourceFilter.ofPatterns_nil {}
  obtain ⟨found, hfind, hmem, -⟩ := findSources_exact hnamed hfilter ["home", "src"]
  refine ⟨hnamed, _, hfilter, found true, ?_, ?_, ?_, fun root hroot => ?_⟩
  · refine (hmem true _).mpr ⟨⟨_, rfl⟩, Or.inl rfl, "é.ts", rfl, by decide, _,
      List.mem_singleton_self _, Or.inr ?_⟩
    exact Glob.accepts_star_iff.mpr ⟨"é", rfl⟩
  · refine (hmem true _).mpr ⟨⟨_, rfl⟩, Or.inl rfl, "b.ts", rfl, by decide, _,
      List.mem_singleton_self _, Or.inr ?_⟩
    exact Glob.accepts_star_iff.mpr ⟨"b", rfl⟩
  · intro hmarked
    obtain ⟨-, -, name, hname, hstem, -⟩ := (hmem true _).mp hmarked
    cases hname
    exact hstem (by decide)
  · have hlocate : ∀ root ∈ (["src", "src/", "./src/../src/.", "/home/src"] : List Text),
        shelf.locate root = .ok (["home", "src"], .directory) := by decide +kernel
    exact (hfind root (hlocate root hroot) true).1

end FileTree

end InterfaceSchemes
