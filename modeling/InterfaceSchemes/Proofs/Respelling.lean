import InterfaceSchemes.Proofs.Generation
import InterfaceSchemes.Proofs.Rerooting

/-! # One directory under two spellings

A directory can be reached by many paths, and from the home directories of several trees that hold
the same files. What is found, read and written below it does not depend on the path. This file
follows paths below a directory from the directory itself.

* **`Path.lead_directory_join`**, **`Settings.Plain.components_outputPath`** — the components of the
  path of a module.
* **`FileTree.seenFrom`** — the same files with another home directory.
* **`FileTree.locate_below`**, **`FileTree.locationOf_below`** — a path below a directory goes on from
  there.
* **`FileTree.exists_files_of_readSources`** — files below one directory have the same contents under
  both spellings.
* **`FileTree.readText_outputsBelow`**, **`FileTree.map_locationOf_outputsBelow`** — the modules of
  these files are at the same places. -/

namespace InterfaceSchemes

/-! ## (1) Spellings of a module -/

namespace Path

/-- `Text.splitAt '/' (front ++ '/' :: name)` ends with the name. -/
theorem splitAt_append_name (front : Text) {name : Text} (hname : '/' ∉ name) :
    Text.splitAt '/' (front ++ '/' :: name) = Text.splitAt '/' front ++ [name] := by
  rw [Text.splitAt_eq_splitOn, Text.splitAt_eq_splitOn, List.splitOn_append_cons_self,
    List.splitOn_eq_singleton hname]

/-- `join p name = front ++ '/' :: name`: a joined path ends with the name, after a separator. -/
theorem exists_join_eq {p : Text} (hp : p ≠ []) (name : Text) :
    ∃ front, join p name = front ++ '/' :: name := by
  rcases join_cases p name with ⟨hnil, -⟩ | ⟨q, -, hjoin⟩ | ⟨-, hjoin⟩
  · exact absurd hnil hp
  · exact ⟨q, hjoin⟩
  · exact ⟨p, hjoin⟩

/-- `Text.joinWith "/" (ps ++ more)` begins with `Text.joinWith "/" ps`, after which a separator
stands. -/
theorem exists_joinWith_append {ps : List Text} (hps : ps ≠ []) (more : List Text) :
    ∃ extra, Text.joinWith "/" (ps ++ more) = Text.joinWith "/" ps ++ extra ∧
      (extra = [] ∨ extra.head? = some '/') := by
  induction ps with
  | nil => exact absurd rfl hps
  | cons piece ps ih =>
    cases ps with
    | nil =>
      cases more with
      | nil => exact ⟨[], by simp, Or.inl rfl⟩
      | cons second more =>
        refine ⟨'/' :: Text.joinWith "/" (second :: more), ?_, Or.inr rfl⟩
        simp [Text.joinWith]
    | cons second ps =>
      obtain ⟨extra, hextra, hhead⟩ := ih (by simp)
      refine ⟨extra, ?_, hhead⟩
      simp only [Text.joinWith, List.cons_append, List.intercalate_cons_cons] at hextra ⊢
      rw [hextra]
      simp

/-- A path begins with its lead and any front of its pieces, after which a separator stands. -/
theorem exists_append_of_trimVoid {p : Text} (hp : p ≠ []) (hlead : lead p ≠ .root) :
    ∃ extra, p = ((lead p).text ++ Text.joinWith "/" (trimVoid (pieces p))) ++ extra ∧
      (extra = [] ∨ extra.head? = some '/') := by
  obtain ⟨rest, hrest⟩ := lead_text_prefix p
  have hwhole : Text.joinWith "/" (pieces p) = rest := by
    rw [pieces_of_lead rfl hrest.symm]
    exact List.intercalate_splitOn '/'
  by_cases hvoid : trimVoid (pieces p) = []
  · -- nothing but void pieces: the path is the dot of its lead, and separators
    have hnames : names p = [] := by rw [names, ← filter_trimVoid, hvoid, List.filter_nil]
    have hhere : lead p = .here := by
      cases hcases : lead p with
      | root => exact absurd hcases hlead
      | here => rfl
      | bare =>
        have hcomponents := components_ne_nil hp
        rw [components, hcases] at hcomponents
        exact absurd hnames hcomponents
    obtain ⟨ps, hps⟩ := pieces_of_here hhere
    obtain ⟨extra, hextra, hhead⟩ := exists_joinWith_append (List.cons_ne_nil ([] : Text) []) ps
    refine ⟨extra, ?_, hhead⟩
    rw [List.singleton_append, ← hps, hwhole] at hextra
    rw [hvoid, List.append_assoc]
    exact hrest.symm.trans (congrArg ((lead p).text ++ ·) hextra)
  · obtain ⟨more, hmore⟩ := trimVoid_prefix_self (pieces p)
    obtain ⟨extra, hextra, hhead⟩ := exists_joinWith_append hvoid more
    refine ⟨extra, ?_, hhead⟩
    rw [List.append_assoc, ← hextra, hmore, hwhole, hrest]

/-- **A path that is not rooted begins with `directory (join p name)`.** What the directory lacks
are separators and void pieces. -/
theorem exists_append_of_directory {p name : Text} (hp : p ≠ []) (hname : IsFileName name)
    (hlead : lead p ≠ .root) :
    directory (join p name) ≠ [] ∧ ∃ extra, p = directory (join p name) ++ extra ∧
      (extra = [] ∨ extra.head? = some '/') := by
  obtain ⟨extra, hextra, hhead⟩ := exists_append_of_trimVoid hp hlead
  generalize hparent : (lead p).text ++ Text.joinWith "/" (trimVoid (pieces p)) = parent at hextra
  -- the path does not begin with a separator, so neither does its parent, which is not empty
  have hstart : p.head? ≠ some '/' := fun hslash => hlead (by
    have hrooted := isRooted_iff.mpr hslash
    simpa [isRooted] using hrooted)
  obtain ⟨c, q, rfl⟩ : ∃ c q, parent = c :: q := by
    refine List.exists_cons_of_ne_nil ?_
    rintro rfl
    rcases hhead with rfl | hhead
    · exact hp hextra
    · exact hstart (by rw [hextra]; exact hhead)
  have hc : c ≠ '/' := by
    rintro rfl
    exact hstart (by rw [hextra]; rfl)
  have hdirectory : directory (join p name) = Text.trimEnd (· == '/') (c :: q) := by
    rw [directory, parent?_join hp hname, hparent]
  have hslashes : directory (join p name) ++ (c :: q).rtakeWhile (· == '/') = c :: q := by
    rw [hdirectory, Text.trimEnd_eq_rdropWhile, List.rdropWhile_append_rtakeWhile]
  refine ⟨fun hnil => ?_, (c :: q).rtakeWhile (· == '/') ++ extra, ?_, ?_⟩
  · have hfirst : (directory (join p name)).head? = some c := by
      rw [hdirectory]
      exact Text.head?_trimEnd (by simpa using hc) q
    rw [hnil] at hfirst
    cases hfirst
  · rw [← List.append_assoc, hslashes, ← hextra]
  · cases hends : (c :: q).rtakeWhile (· == '/') with
    | nil => exact hhead
    | cons d slashes =>
      have hd : d ∈ (c :: q).rtakeWhile (· == '/') := by
        rw [hends]
        exact List.mem_cons_self
      obtain rfl : d = '/' := by simpa using List.mem_rtakeWhile_imp hd
      exact Or.inr rfl

/-- **What is put beside `join p name` has the lead of `p`.** -/
theorem lead_directory_join {p name : Text} (hp : p ≠ []) (hname : IsFileName name) (rest : Text) :
    lead (directory (join p name) ++ '/' :: rest) = lead p := by
  by_cases hlead : lead p = .root
  · have hnames : names (join p name) ≠ [] := by
      obtain ⟨front, hfront⟩ := exists_join_eq hp name
      rw [hfront, names_append, names_singleton hname.1 hname.2.1]
      simp
    have hrooted := isRooted_directory_append hnames rest
    rw [isRooted, isRooted, lead_join hp, hlead] at hrooted
    rw [hlead]
    simpa using hrooted
  · -- the path and what is put beside the name both begin with the directory
    obtain ⟨hne, extra, hextra, hhead⟩ := exists_append_of_directory hp hname hlead
    rw [lead_append hne fun _ => rfl]
    conv_rhs => rw [hextra]
    rcases hhead with rfl | hhead
    · rw [List.append_nil]
    · rw [lead_append hne fun _ => hhead]

end Path

/-- **The components of `s.outputPath`** for a file below `root` are those of `root`, and then the
names from there. -/
theorem Settings.Plain.components_outputPath {s : Settings} (hplain : s.Plain) {root : Text}
    (hroot : root ≠ []) {rel : List Text} (hrel : ∀ name ∈ rel, Path.IsFileName name)
    {dir name : Text} (hdir : Path.names s.schemesDir = [dir]) (hdirUp : dir ≠ Path.up)
    (hlast : rel.getLast? = some name) :
    Path.components (s.outputPath (rel.foldl Path.join root))
      = Path.components root ++ (rel.dropLast ++ [dir, s.moduleName name]) := by
  have hbelow := (hplain.below_outputPath hroot hrel hlast hdir hdirUp).1
  have hlead : Path.lead (s.outputPath (rel.foldl Path.join root)) = Path.lead root := by
    obtain ⟨dirs, rfl⟩ : ∃ dirs, rel = dirs ++ [name] :=
      ⟨_, (List.dropLast_append_getLast? name hlast).symm⟩
    rw [Settings.outputPath_eq, List.foldl_append, List.foldl_cons, List.foldl_nil,
      Path.lead_directory_join (Path.foldl_join_ne_nil hroot dirs) (hrel name (by simp)),
      Path.lead_foldl_join hroot]
  rw [Path.components, Path.components, hlead, hbelow.names]
  split <;> rfl

/-- `toBytes s = bytes` where `ofBytes? bytes = some s`: a text that has been read was stored. -/
theorem Text.toBytes_of_ofBytes? {bytes : ByteArray} {s : Text} (hread : ofBytes? bytes = some s) :
    toBytes s = bytes := by
  rw [ofBytes?, String.fromUTF8?] at hread
  split at hread
  · cases hread
    rw [toBytes, String.ofList_toList]
    rfl
  · cases hread

namespace FileTree

/-! ## (2) Paths below a directory -/

/-- **The same files seen from another directory**, at which relative paths start. -/
def seenFrom (t : FileTree) (home : Location) : FileTree := { t with home := home }

section

variable {t : FileTree} {loc : Location}

/-- `(t.seenFrom home).node? loc = t.node? loc`: what stands where does not depend on where paths
start. -/
@[simp] theorem node?_seenFrom (home : Location) : (t.seenFrom home).node? loc = t.node? loc := rfl

/-- Names stay names. -/
theorem Named.seenFrom (hnamed : t.Named) (home : Location) : (t.seenFrom home).Named := hnamed

/-- `(t.seenFrom home).follow` leads where `t.follow` does. -/
@[simp] theorem follow_seenFrom (home : Location) (pieces : List Text) :
    (t.seenFrom home).follow loc pieces = t.follow loc pieces := by
  fun_induction follow t loc pieces with
  | case1 loc => rfl
  | case2 loc piece pieces hvoid ih => rw [follow, if_pos hvoid, ih]
  | case3 loc pieces hvoid ih => rw [follow, if_neg hvoid, if_pos rfl, ih]
  | case4 loc piece pieces hvoid hup hnode =>
    rw [follow, if_neg hvoid, if_neg hup, node?_seenFrom, hnode]
  | case5 loc piece pieces hvoid hup hnode ih =>
    rw [follow, if_neg hvoid, if_neg hup, node?_seenFrom, hnode]
    exact ih
  | case6 loc piece pieces hvoid hup bytes hnode hlast =>
    rw [follow, if_neg hvoid, if_neg hup, node?_seenFrom, hnode]
    exact if_pos hlast
  | case7 loc piece pieces hvoid hup bytes hnode hlast =>
    rw [follow, if_neg hvoid, if_neg hup, node?_seenFrom, hnode]
    exact if_neg hlast

/-- Before a name void pieces can be left out. -/
theorem follow_names (above : List Text) {name : Text} (hvoid : Path.isVoid name = false) :
    t.follow loc ((above ++ [name]).filter fun piece => !Path.isVoid piece)
      = t.follow loc (above ++ [name]) := by
  induction above generalizing loc with
  | nil => rw [List.nil_append, List.filter_cons_of_pos (by simp [hvoid]), List.filter_nil]
  | cons piece above ih =>
    have hlonger : ((above ++ [name]).filter fun piece => !Path.isVoid piece).isEmpty
        = (above ++ [name]).isEmpty := by
      rw [List.filter_append, List.filter_cons_of_pos (by simp [hvoid]), Bool.eq_iff_iff]
      simp
    rw [List.cons_append]
    by_cases hpiece : Path.isVoid piece = true
    · rw [List.filter_cons_of_neg (by simp [hpiece]), ih, follow, if_pos hpiece]
    · rw [List.filter_cons_of_pos (by simpa using hpiece), follow, follow, if_neg hpiece,
        if_neg hpiece, ih, hlonger]
      simp only [ih]

/-- **`t.locate` goes on from the directory** `root` for a path below it. -/
theorem locate_below {root front name : Text} {tail : List Text}
    (hlocate : t.locate root = .ok (loc, .directory)) (hname : '/' ∉ name)
    (hvoid : Path.isVoid name = false) (hbelow : Path.Below root (front ++ '/' :: name) tail) :
    t.locate (front ++ '/' :: name) = t.follow loc tail := by
  have hstart : t.startOf (front ++ '/' :: name) = t.startOf root := by
    rw [startOf, startOf, hbelow.rooted]
  rw [locate] at hlocate
  split at hlocate
  · cases hlocate
  · have hroot : t.follow (t.startOf root) (Path.names root) = .ok (loc, .directory) := by
      rw [Path.names_eq, ← Text.splitAt_eq_splitOn]
      exact follow_filter.mpr hlocate
    rw [locate, if_neg (by simp), hstart, Path.splitAt_append_name front hname,
      ← follow_names _ hvoid, ← Path.splitAt_append_name front hname, Text.splitAt_eq_splitOn,
      ← Path.names_eq, hbelow.names, follow_append hroot]

/-- `t.locationOf p = t.locationOf root ++ tail` for a path `p` below `root`. -/
theorem locationOf_below {root p : Text} {tail : List Text} (hbelow : Path.Below root p tail) :
    t.locationOf p = t.locationOf root ++ tail := by
  have hstart : t.startOf p = t.startOf root := by rw [startOf, startOf, hbelow.rooted]
  rw [locationOf, locationOf, hstart, hbelow.names, List.foldl_append,
    foldl_enter_of_notMem hbelow.up]

variable {root : Text} (hlocate : t.locate root = .ok (loc, .directory)) {rel : List Text}

include hlocate

/-- `t.locate (rel.foldl Path.join root) = t.follow loc rel`: names joined to the path of a
directory are followed from there. -/
theorem locate_foldl_join (hrelative : Path.Relative rel) :
    t.locate (rel.foldl Path.join root) = t.follow loc rel := by
  have hrel := hrelative.2
  have hroot := ne_nil_of_locate hlocate
  have hbelow : Path.Below root (rel.foldl Path.join root) rel :=
    ⟨Path.names_foldl_join hroot hrel,
      by rw [Path.isRooted, Path.isRooted, Path.lead_foldl_join hroot],
      fun hmem => (hrel _ hmem).2.2 rfl⟩
  obtain ⟨dirs, name, rfl, hslash, hvoid, -⟩ := hrelative.exists_concat
  rw [List.foldl_append, List.foldl_cons, List.foldl_nil] at hbelow ⊢
  obtain ⟨front, hfront⟩ := Path.exists_join_eq (Path.foldl_join_ne_nil hroot dirs) name
  rw [hfront] at hbelow ⊢
  exact locate_below hlocate hslash hvoid hbelow

/-- **`s.outputPath` of a file below a directory** is looked for from there. -/
theorem locate_outputPath (hrel : ∀ name ∈ rel, Path.IsFileName name) {s : Settings}
    (hplain : s.Plain) {dir name : Text}
    (hdir : Path.names s.schemesDir = [dir]) (hdirUp : dir ≠ Path.up)
    (hlast : rel.getLast? = some name) :
    t.locate (s.outputPath (rel.foldl Path.join root))
      = t.follow loc (rel.dropLast ++ [dir, s.moduleName name]) := by
  have hroot := ne_nil_of_locate hlocate
  have hbelow := (hplain.below_outputPath hroot hrel hlast hdir hdirUp).1
  have hfile := Path.fileName?_foldl_join hroot hrel hlast
  have hmodule := (Settings.moduleName_spec s hplain.slash hfile).1
  obtain ⟨hslash, hvoid⟩ := Path.of_mem_names
    (show s.moduleName (rel.foldl Path.join root)
        ∈ Path.names (s.moduleName (rel.foldl Path.join root))
      by rw [hmodule]; exact List.mem_singleton_self _)
  have hspelled : s.outputPath (rel.foldl Path.join root)
      = (Path.directory (rel.foldl Path.join root) ++ '/' :: s.schemesDir) ++
        '/' :: s.moduleName (rel.foldl Path.join root) := by
    rw [Settings.outputPath_eq, List.append_assoc, List.cons_append]
  rw [hspelled] at hbelow ⊢
  exact locate_below hlocate hslash hvoid hbelow

end

end FileTree

/-! ## (3) Files below two directories -/

namespace FileTree

section

variable {t : FileTree} {loc : Location} {root root' : Text} {home : Location}
  (hlocate : t.locate root = .ok (loc, .directory))
  (hlocate' : (t.seenFrom home).locate root' = .ok (loc, .directory))

include hlocate hlocate'

/-- `readText` gives a file below a directory under both spellings. -/
theorem readText_foldl_join {rel : List Text} (hrel : Path.Relative rel) :
    (t.seenFrom home).readText (rel.foldl Path.join root')
      = t.readText (rel.foldl Path.join root) := by
  rw [readText, readText, locate_foldl_join hlocate hrel, locate_foldl_join hlocate' hrel,
    follow_seenFrom]

/-- **`readSources` below a directory** gives the same contents under both spellings. -/
theorem exists_files_of_readSources {rels : List (List Text)}
    (hrels : ∀ rel ∈ rels, Path.Relative rel) {sources : List Source}
    (hread : t.readSources (rels.map (·.foldl Path.join root)) = .ok sources) :
    ∃ files : List (List Text × Text), files.map Prod.fst = rels ∧
      sources = Batch.sourcesBelow root files ∧
      (t.seenFrom home).readSources (rels.map (·.foldl Path.join root'))
        = .ok (Batch.sourcesBelow root' files) := by
  induction rels generalizing sources with
  | nil =>
    cases hread
    exact ⟨[], rfl, rfl, rfl⟩
  | cons rel rels ih =>
    obtain ⟨hrel, hrels⟩ := List.forall_mem_cons.mp hrels
    rw [List.map_cons] at hread
    cases Fallible.mapM_eq_ok_iff.mp hread with
    | @cons _ source _ sources hsource hrest =>
    obtain ⟨files, hfiles, rfl, hread'⟩ := ih hrels (Fallible.mapM_eq_ok_iff.mpr hrest)
    obtain ⟨hpath, htext⟩ := readSource_eq_ok_iff.mp hsource
    have hsame : source = ⟨rel.foldl Path.join root, source.contents⟩ := by rw [← hpath]
    refine ⟨(rel, source.contents) :: files, by rw [List.map_cons, hfiles], ?_, ?_⟩
    · exact congrArg (· :: Batch.sourcesBelow root files) hsame
    · refine Fallible.mapM_eq_ok_iff.mpr (.cons ?_ (Fallible.mapM_eq_ok_iff.mp hread'))
      rw [← readText_foldl_join hlocate hlocate' hrel] at htext
      exact readSource_eq_ok_iff.mpr ⟨rfl, htext⟩

end

/-! ## (4) Modules -/

section

variable {t : FileTree} {loc : Location} {root root' : Text} {home : Location}
  (hlocate : t.locate root = .ok (loc, .directory))
  (hlocate' : (t.seenFrom home).locate root' = .ok (loc, .directory)) {s : Settings}
  (hplain : s.Plain) {outputs : List (List Text × Text)}
  (houtputs : ∀ output ∈ outputs, Path.Relative output.1)

include hlocate hplain houtputs

/-- **The location of a module**: two names or more below the directory. -/
theorem exists_locationOf_outputsBelow {output : Text × Text}
    (houtput : output ∈ Batch.outputsBelow s root outputs) :
    ∃ rel last, rel ≠ [] ∧ t.locationOf output.1 = loc ++ (rel ++ [last]) ∧
      Path.components output.1 = Path.components root ++ (rel ++ [last]) := by
  obtain ⟨dir, hdir, hdirUp⟩ := hplain.schemesDir
  obtain ⟨o, ho, rfl⟩ := List.mem_map.mp houtput
  obtain ⟨hne, hnames⟩ := houtputs o ho
  have hroot := ne_nil_of_locate hlocate
  have hlast := List.getLast?_eq_getLast_of_ne_nil hne
  have hbelow := (hplain.below_outputPath hroot hnames hlast hdir hdirUp).1
  refine ⟨o.1.dropLast ++ [dir], s.moduleName (o.1.getLast hne), by simp, ?_, ?_⟩
  · rw [locationOf_below hbelow, ← locate_location hlocate, List.append_assoc,
      List.singleton_append]
  · rw [hplain.components_outputPath hroot hnames hdir hdirUp hlast, List.append_assoc,
      List.singleton_append]

include hlocate'

/-- The module of a file is read under both spellings of the directory. -/
theorem readText_outputsBelow
    (hread : ∀ output ∈ Batch.outputsBelow s root outputs, t.readText output.1 = .ok output.2) :
    ∀ output ∈ Batch.outputsBelow s root' outputs,
      (t.seenFrom home).readText output.1 = .ok output.2 := by
  obtain ⟨dir, hdir, hdirUp⟩ := hplain.schemesDir
  intro output houtput
  obtain ⟨o, ho, rfl⟩ := List.mem_map.mp houtput
  obtain ⟨hne, hnames⟩ := houtputs o ho
  have hlast := List.getLast?_eq_getLast_of_ne_nil hne
  have htext := hread _ (List.mem_map_of_mem ho)
  rw [readText, locate_outputPath hlocate hnames hplain hdir hdirUp hlast] at htext
  rw [readText, locate_outputPath hlocate' hnames hplain hdir hdirUp hlast, follow_seenFrom]
  exact htext

/-- The locations of modules do not depend on the spelling of the directory. -/
theorem map_locationOf_outputsBelow :
    (Batch.outputsBelow s root' outputs).map (fun output => (t.seenFrom home).locationOf output.1)
      = (Batch.outputsBelow s root outputs).map fun output => t.locationOf output.1 := by
  obtain ⟨dir, hdir, hdirUp⟩ := hplain.schemesDir
  have hroot := ne_nil_of_locate hlocate
  have hroot' := ne_nil_of_locate hlocate'
  rw [Batch.outputsBelow, Batch.outputsBelow, List.map_map, List.map_map]
  refine List.map_congr_left fun output houtput => ?_
  obtain ⟨hne, hnames⟩ := houtputs output houtput
  have hlast := List.getLast?_eq_getLast_of_ne_nil hne
  rw [Function.comp_apply, Function.comp_apply,
    locationOf_below (hplain.below_outputPath hroot hnames hlast hdir hdirUp).1,
    locationOf_below (hplain.below_outputPath hroot' hnames hlast hdir hdirUp).1,
    ← locate_location hlocate, ← locate_location hlocate']

end

/-- **`t.writeOutputs` changes nothing where the texts are there.** -/
theorem writeOutputs_of_readText {t : FileTree} {outputs : List (Text × Text)}
    (hread : ∀ output ∈ outputs, t.readText output.1 = .ok output.2) :
    t.writeOutputs outputs = (.ok (outputs.map Prod.fst), t) := by
  refine writeOutputs_of_located fun output houtput => ?_
  obtain ⟨loc, bytes, hlocate, hbytes⟩ := readText_eq_ok_iff.mp (hread output houtput)
  rw [← Text.toBytes_of_ofBytes? hbytes] at hlocate
  exact ⟨loc, hlocate⟩

end FileTree

end InterfaceSchemes
