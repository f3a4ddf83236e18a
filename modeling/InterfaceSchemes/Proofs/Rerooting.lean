import InterfaceSchemes.Proofs.Cleaning
import InterfaceSchemes.Proofs.Relocation

/-! # The same files below another path

Files that are found below a directory are spelled with the path of the directory in front. This file
shows that the spelling of the directory does not matter for what is written: below another path the
same files give the same texts, each at the place for its file.

* **`Path.Below`** — a path by its names below another; the way between two such paths does not depend
  on the other (`Path.Below.relative?_eq`).
* **`Settings.Plain`** — settings whose names are one part of a file name and one directory.
* **`Batch.exists_relocation`** — under plain settings files can be moved from one path to another.
* **`Batch.generate_below`** — what they give there. -/

namespace InterfaceSchemes

/-! ## (1) Paths below a path -/

namespace Path

section

variable {p name : Text} (hp : p ≠ [])

include hp

/-- `parent? (join p name)` is `p` without void pieces at its end. -/
theorem parent?_join (hname : IsFileName name) :
    parent? (join p name) = some ((lead p).text ++ Text.joinWith "/" (trimVoid (pieces p))) := by
  obtain ⟨ps, hps, hbefore⟩ := pieces_join hp hname.1
  have hend : trimVoid (ps ++ [name]) = ps ++ [name] := by
    rw [trimVoid, List.reverse_append, List.reverse_singleton, List.singleton_append,
      List.dropWhile_cons_of_neg (by simp [hname.2.1])]
    simp
  have htrim : trimVoid (pieces p) = trimVoid ps := by
    rcases hbefore with hbefore | hbefore
    · rw [hbefore]
    · rw [hbefore, trimVoid, trimVoid, List.reverse_append, List.reverse_singleton,
        List.singleton_append, List.dropWhile_cons_of_pos rfl]
  unfold parent?
  rw [hps, hend, lead_join hp, htrim]
  split
  · rename_i hnil
    simp at hnil
  · rw [List.dropLast_concat]

/-- `directory (join p name) = directory (join p other)`: names joined to one path have one
directory. -/
theorem directory_join {other : Text} (hname : IsFileName name) (hother : IsFileName other) :
    directory (join p name) = directory (join p other) := by
  rw [directory, directory, parent?_join hp hname, parent?_join hp hother]

end

/-- **`directory` is the same for two files below one path** exactly if the names before the last
are the same. -/
theorem directory_foldl_join_iff {root : Text} (hroot : root ≠ []) {rel rel' : List Text}
    (hrel : Relative rel) (hrel' : Relative rel') :
    directory (rel.foldl join root) = directory (rel'.foldl join root) ↔
      rel.dropLast = rel'.dropLast := by
  constructor
  · intro heq
    have hnames := congrArg names heq
    rw [names_directory, names_directory, names_foldl_join hroot hrel.2,
      names_foldl_join hroot hrel'.2, List.dropLast_append_of_ne_nil hrel.1,
      List.dropLast_append_of_ne_nil hrel'.1] at hnames
    exact List.append_cancel_left hnames
  · intro heq
    obtain ⟨dirs, name, rfl, hname⟩ := hrel.exists_concat
    obtain ⟨dirs', name', rfl, hname'⟩ := hrel'.exists_concat
    rw [List.dropLast_concat, List.dropLast_concat] at heq
    rw [heq, List.foldl_append, List.foldl_append]
    exact directory_join (foldl_join_ne_nil hroot dirs') hname hname'

/-- `fileName? name = some name`. -/
theorem fileName?_self {name : Text} (hname : IsFileName name) : fileName? name = some name := by
  rw [fileName?_eq_some_iff, names_singleton hname.1 hname.2.1]
  exact ⟨rfl, hname.2.2⟩

/-- **`p` is below `root` by the names `tail`.** -/
structure Below (root p : Text) (tail : List Text) : Prop where
  /-- The names of `p` are those of `root`, and then `tail`. -/
  names : names p = names root ++ tail
  /-- Both start at one place. -/
  rooted : isRooted p = isRooted root
  /-- The names do not lead upward. -/
  up : up ∉ tail

/-- `segments p = segments root ++ tail` where `p` is below `root`. -/
theorem Below.segments_eq {root p : Text} {tail : List Text} (h : Below root p tail) :
    segments p = segments root ++ tail := by
  rw [segments, segments, h.names, h.rooted, List.foldl_append, foldl_pushSegment h.up]
  simp

/-- **`relative?` between two paths below a third** does not depend on the third. -/
theorem Below.relative?_eq {root root' base base' target target' : Text} {back down : List Text}
    (hbase : Below root base back) (htarget : Below root target down)
    (hbase' : Below root' base' back) (htarget' : Below root' target' down) :
    relative? base target = relative? base' target' := by
  unfold relative?
  rw [hbase.rooted, htarget.rooted, hbase'.rooted, htarget'.rooted, if_neg (by simp),
    if_neg (by simp), hbase.segments_eq, htarget.segments_eq, hbase'.segments_eq,
    htarget'.segments_eq, dropCommon_append, dropCommon_append]

end Path

/-! ## (2) Modules of files below a path -/

namespace Settings

/-- **Settings with plain names**: the infix is a word between dots, and the scheme directory is one
directory. -/
structure Plain (s : Settings) : Prop where
  /-- The infix does not lead into another directory. -/
  slash : '/' ∉ s.schemeInfix
  /-- The infix is one part of a file name. -/
  dot : '.' ∉ s.schemeInfix
  /-- There is an infix. -/
  nonempty : s.schemeInfix ≠ []
  /-- The scheme directory is one directory beside the source. -/
  schemesDir : ∃ dir, Path.names s.schemesDir = [dir] ∧ dir ≠ Path.up

/-- `Plain` holds of the settings of a run that gives none. -/
theorem plain_default : ({} : Settings).Plain :=
  ⟨by decide, by decide, by decide, "schemes", by decide, by decide⟩

variable {s : Settings} (hplain : s.Plain)

include hplain

/-- The name of the place of schemes is a name. -/
theorem Plain.baseName_spec {source name : Text} (hname : Path.fileName? source = some name) :
    Path.names ((Path.stem? source).getD [] ++ '.' :: s.schemeInfix)
        = [(Path.stem? source).getD [] ++ '.' :: s.schemeInfix] ∧
      (Path.stem? source).getD [] ++ '.' :: s.schemeInfix ≠ Path.up := by
  obtain ⟨c, stem, hstem⟩ := List.exists_cons_of_ne_nil (stem_append_extension hname).2
  constructor
  · refine Path.names_singleton ?_ ?_
    · simp [slash_notMem_stem source, hplain.slash]
    · rw [hstem, Path.isVoid]
      simp
  · intro hup
    have hlength := congrArg List.length hup
    have hlong := List.length_pos_iff.mpr hplain.nonempty
    rw [hstem] at hlength
    simp only [Path.up, List.cons_append, List.length_cons, List.length_append, List.length_nil]
      at hlength
    omega

section

variable {root : Text} (hroot : root ≠ []) {rel : List Text}
  (hrel : ∀ name ∈ rel, Path.IsFileName name) {name : Text} (hlast : rel.getLast? = some name)

include hroot hrel hlast

omit hplain in
/-- What is put beside a file below `root` is below `root` as well. -/
theorem below_of_names {p : Text} {tail : List Text}
    (hnames : Path.names p = (Path.names (rel.foldl Path.join root)).dropLast ++ tail)
    (hrooted : Path.isRooted p = Path.isRooted (rel.foldl Path.join root)) (hup : Path.up ∉ tail) :
    Path.Below root p (rel.dropLast ++ tail) := by
  have hne := List.ne_nil_of_mem (List.mem_of_getLast? hlast)
  refine ⟨?_, ?_, ?_⟩
  · rw [hnames, Path.names_foldl_join hroot hrel, List.dropLast_append_of_ne_nil hne,
      List.append_assoc]
  · rw [hrooted, Path.isRooted, Path.isRooted, Path.lead_foldl_join hroot]
  · rw [List.mem_append, not_or]
    exact ⟨fun hmem => (hrel _ (List.dropLast_subset _ hmem)).2.2 rfl, hup⟩

/-- Where the module of a file below `root` is, where its schemes are, and where its directory is. -/
theorem Plain.below_outputPath {dir : Text} (hdir : Path.names s.schemesDir = [dir])
    (hdirUp : dir ≠ Path.up) :
    Path.Below root (s.outputPath (rel.foldl Path.join root))
        (rel.dropLast ++ [dir, s.moduleName name]) ∧
      Path.Below root (s.schemeBase (rel.foldl Path.join root))
        (rel.dropLast ++ [dir, (Path.stem? name).getD [] ++ '.' :: s.schemeInfix]) ∧
      Path.Below root (Path.directory (s.outputPath (rel.foldl Path.join root)))
        (rel.dropLast ++ [dir]) := by
  have hname := Path.fileName?_foldl_join hroot hrel hlast
  have hself := Path.fileName?_self (hrel name (List.mem_of_getLast? hlast))
  have hstem : Path.stem? (rel.foldl Path.join root) = Path.stem? name := by
    rw [Path.stem?, Path.stem?, hname, hself]
  have hmodule : s.moduleName (rel.foldl Path.join root) = s.moduleName name := by
    rw [moduleName, moduleName, hstem, Path.extension, Path.extension, hname, hself]
  have hnonempty := List.ne_nil_of_mem (Path.mem_names_of_fileName? hname)
  have hmoduleUp := (moduleName_spec s hplain.slash hself).2
  obtain ⟨hbase, hbaseUp⟩ := hplain.baseName_spec hself
  refine ⟨below_of_names hroot hrel hlast ?_ (isRooted_outputPath s hnonempty) ?_,
    below_of_names hroot hrel hlast ?_ (isRooted_schemeBase s hnonempty) ?_,
    below_of_names hroot hrel hlast ?_
      (isRooted_directory_outputPath s hplain.slash hname (by simp [hdir])) ?_⟩
  · rw [names_outputPath s hplain.slash hname, hdir, hmodule, List.singleton_append]
  · simp [Ne.symm hdirUp, Ne.symm hmoduleUp]
  · rw [schemeBase_eq, Path.names_append, Path.names_append, Path.names_directory, hdir, hstem, hbase,
      List.singleton_append]
  · simp only [List.mem_cons, List.not_mem_nil, or_false, not_or]
    exact ⟨Ne.symm hdirUp, Ne.symm hbaseUp⟩
  · rw [names_directory_outputPath s hplain.slash hname, hdir]
  · simp [Ne.symm hdirUp]

end

section

variable {root : Text} (hroot : root ≠ []) {rel rel' : List Text} {name name' : Text}
  (hrel : ∀ name ∈ rel, Path.IsFileName name) (hlast : rel.getLast? = some name)
  (hrel' : ∀ name ∈ rel', Path.IsFileName name) (hlast' : rel'.getLast? = some name')

include hroot hrel hlast hrel' hlast'

omit hplain in
/-- Two files below `root` have their schemes in one place exactly if they have the same names but for
the extension of the last. -/
theorem schemeBase_below_iff :
    s.schemeBase (rel.foldl Path.join root) = s.schemeBase (rel'.foldl Path.join root) ↔
      rel.dropLast = rel'.dropLast ∧ Path.stem? name = Path.stem? name' := by
  rw [schemeBase_eq_iff, Path.directory_foldl_join_iff hroot
    (Path.relative_of_getLast? hrel hlast) (Path.relative_of_getLast? hrel' hlast'), Path.stem?,
    Path.stem?, Path.stem?, Path.stem?, Path.fileName?_foldl_join hroot hrel hlast,
    Path.fileName?_foldl_join hroot hrel' hlast',
    Path.fileName?_self (hrel name (List.mem_of_getLast? hlast)),
    Path.fileName?_self (hrel' name' (List.mem_of_getLast? hlast'))]

/-- **The test for self imports** between two files below `root` asks about the names only. -/
theorem Plain.selfImport_below_iff :
    s.schemeBase (rel'.foldl Path.join root) ++
          Path.extension (s.outputPath (rel.foldl Path.join root))
        = s.outputPath (rel.foldl Path.join root) ↔
      ¬ Path.IsBare name ∧ rel'.dropLast = rel.dropLast ∧ Path.stem? name' = Path.stem? name := by
  have hname := Path.fileName?_foldl_join hroot hrel hlast
  have hname' := Path.fileName?_foldl_join hroot hrel' hlast'
  have hself := Path.fileName?_self (hrel name (List.mem_of_getLast? hlast))
  have hself' := Path.fileName?_self (hrel' name' (List.mem_of_getLast? hlast'))
  have htest := s.isSelfImport_iff hplain.slash hplain.dot hplain.nonempty (rel.foldl Path.join root)
    (.ofFields [] (rel'.foldl Path.join root) [])
  rw [OutputModule.isSelfImport, beq_iff_eq] at htest
  refine htest.trans ?_
  show s.TakesForItself (rel.foldl Path.join root) (rel'.foldl Path.join root) ↔ _
  rw [TakesForItself, Path.IsBare, Path.IsBare, Path.Twins, Path.extension, Path.extension,
    Path.stem?, Path.stem?, Path.stem?, Path.stem?, hname, hname', hself, hself',
    Path.directory_foldl_join_iff hroot (Path.relative_of_getLast? hrel' hlast')
      (Path.relative_of_getLast? hrel hlast)]
  simp

/-- **The import of one file below `root` by another** is spelled the same below every path. -/
theorem Plain.importPath_below {root' : Text} (hroot' : root' ≠ []) {text : Text}
    (hspelled : s.importPath (s.outputPath (rel.foldl Path.join root))
      (s.schemeBase (rel'.foldl Path.join root)) = .ok text) :
    s.importPath (s.outputPath (rel.foldl Path.join root'))
      (s.schemeBase (rel'.foldl Path.join root')) = .ok text := by
  obtain ⟨dir, hdir, hdirUp⟩ := hplain.schemesDir
  obtain ⟨hbase, -, hbaseDir⟩ := hplain.below_outputPath hroot hrel hlast hdir hdirUp
  obtain ⟨hbase', -, hbaseDir'⟩ := hplain.below_outputPath hroot' hrel hlast hdir hdirUp
  obtain ⟨-, htarget, -⟩ := hplain.below_outputPath hroot hrel' hlast' hdir hdirUp
  obtain ⟨-, htarget', -⟩ := hplain.below_outputPath hroot' hrel' hlast' hdir hdirUp
  have hway : ∀ base base' back, Path.Below root base back → Path.Below root' base' back →
      ∀ path, relativePath base (s.schemeBase (rel'.foldl Path.join root)) = .ok path →
        relativePath base' (s.schemeBase (rel'.foldl Path.join root')) = .ok path := by
    intro base base' back hbelow hbelow' path hpath
    unfold relativePath at hpath ⊢
    rw [← hbelow.relative?_eq htarget hbelow' htarget']
    split at hpath
    · exact hpath
    · cases hpath
  unfold importPath at hspelled ⊢
  split
  · rename_i hstrip
    rw [if_pos hstrip] at hspelled
    obtain ⟨path, hpath, hpure⟩ := Fallible.bind_eq_ok_iff.mp hspelled
    exact Fallible.bind_eq_ok_iff.mpr ⟨path, hway _ _ _ hbase hbase' path hpath, hpure⟩
  · rename_i hstrip
    rw [if_neg hstrip] at hspelled
    obtain ⟨path, hpath, hpure⟩ := Fallible.bind_eq_ok_iff.mp hspelled
    exact Fallible.bind_eq_ok_iff.mpr ⟨path, hway _ _ _ hbaseDir hbaseDir' path hpath, hpure⟩

end

end Settings

/-! ## (3) Batches -/

/-- A function `k` with `k (f a) = g a` on a list, if `f` tells apart what `g` does. -/
theorem exists_function_on {α : Type} {l : List α} {f g : α → Text}
    (hagree : ∀ a ∈ l, ∀ b ∈ l, f a = f b → g a = g b) :
    ∃ k : Text → Text, ∀ a ∈ l, k (f a) = g a := by
  have hfactors : Function.FactorsThrough (fun a : { a // a ∈ l } => g a)
      (fun a : { a // a ∈ l } => f a) := fun a b heq => hagree a a.2 b b.2 heq
  exact ⟨Function.extend (fun a : { a // a ∈ l } => f a) (fun a => g a) id,
    fun a ha => hfactors.extend_apply id ⟨a, ha⟩⟩

namespace Batch

variable {s : Settings}

/-- **A `Relocation` moves files below one path below another.** -/
theorem exists_relocation (hplain : s.Plain) {root root' : Text} (hroot : root ≠ [])
    (hroot' : root' ≠ []) {rels : List (List Text)} (hrels : ∀ rel ∈ rels, Path.Relative rel) :
    ∃ move place, Relocation s (rels.map (·.foldl Path.join root)) move place ∧
      ∀ rel ∈ rels, move (rel.foldl Path.join root) = rel.foldl Path.join root' := by
  have hinj : ∀ {root : Text}, root ≠ [] → ∀ rel ∈ rels, ∀ rel' ∈ rels,
      rel.foldl Path.join root = rel'.foldl Path.join root → rel = rel' := by
    intro root hroot rel hrel rel' hrel' heq
    have hnames := congrArg Path.names heq
    rw [Path.names_foldl_join hroot (hrels rel hrel).2,
      Path.names_foldl_join hroot (hrels rel' hrel').2] at hnames
    exact List.append_cancel_left hnames
  have hlast : ∀ rel (hrel : rel ∈ rels), rel.getLast? = some (rel.getLast (hrels rel hrel).1) :=
    fun rel hrel => List.getLast?_eq_getLast_of_ne_nil (hrels rel hrel).1
  obtain ⟨move, hmove⟩ := exists_function_on (l := rels) (f := (·.foldl Path.join root))
    (g := (·.foldl Path.join root')) fun rel hrel rel' hrel' heq => by
      rw [hinj hroot rel hrel rel' hrel' heq]
  obtain ⟨place, hplace⟩ := exists_function_on (l := rels)
    (f := fun rel => s.schemeBase (rel.foldl Path.join root))
    (g := fun rel => s.schemeBase (rel.foldl Path.join root')) fun rel hrel rel' hrel' heq => by
      have hsame := (Settings.schemeBase_below_iff hroot (hrels rel hrel).2 (hlast rel hrel)
        (hrels rel' hrel').2 (hlast rel' hrel')).mp heq
      exact (Settings.schemeBase_below_iff hroot' (hrels rel hrel).2 (hlast rel hrel)
        (hrels rel' hrel').2 (hlast rel' hrel')).mpr hsame
  refine ⟨move, place, ⟨?_, ?_, ?_, ?_⟩, hmove⟩
  · intro p hp q hq heq
    obtain ⟨rel, hrel, rfl⟩ := List.mem_map.mp hp
    obtain ⟨rel', hrel', rfl⟩ := List.mem_map.mp hq
    rw [hmove rel hrel, hmove rel' hrel'] at heq
    rw [hinj hroot' rel hrel rel' hrel' heq]
  · intro p hp
    obtain ⟨rel, hrel, rfl⟩ := List.mem_map.mp hp
    rw [hmove rel hrel]
    exact hplace rel hrel
  · intro p hp q hq
    obtain ⟨rel, hrel, rfl⟩ := List.mem_map.mp hp
    obtain ⟨rel', hrel', rfl⟩ := List.mem_map.mp hq
    rw [hmove rel hrel, hmove rel' hrel',
      hplain.selfImport_below_iff hroot (hrels rel hrel).2 (hlast rel hrel) (hrels rel' hrel').2
        (hlast rel' hrel'),
      hplain.selfImport_below_iff hroot' (hrels rel hrel).2 (hlast rel hrel) (hrels rel' hrel').2
        (hlast rel' hrel')]
  · intro p hp q hq text hspelled
    obtain ⟨rel, hrel, rfl⟩ := List.mem_map.mp hp
    obtain ⟨rel', hrel', rfl⟩ := List.mem_map.mp hq
    rw [hmove rel hrel, hmove rel' hrel']
    exact hplain.importPath_below hroot (hrels rel hrel).2 (hlast rel hrel) (hrels rel' hrel').2
      (hlast rel' hrel') hroot' hspelled

/-- Sources by their names below a path, with their contents. -/
def sourcesBelow (root : Text) (files : List (List Text × Text)) : List Source :=
  files.map fun file => ⟨file.1.foldl Path.join root, file.2⟩

/-- Outputs by the names of their sources below a path, with their texts. -/
def outputsBelow (s : Settings) (root : Text) (outputs : List (List Text × Text)) :
    List (Text × Text) :=
  outputs.map fun output => (s.outputPath (output.1.foldl Path.join root), output.2)

/-- **`generate` gives the same files below another path the same texts**, each at the place for its
file. -/
theorem generate_below (hplain : s.Plain) {root root' : Text} (hroot : root ≠ [])
    (hroot' : root' ≠ []) {files : List (List Text × Text)}
    (hfiles : ∀ rel ∈ files.map Prod.fst, Path.Relative rel)
    {out : List (Text × Text)} (hgenerate : generate s (sourcesBelow root files) = .ok out) :
    ∃ outputs : List (List Text × Text), (∀ output ∈ outputs, output.1 ∈ files.map Prod.fst) ∧
      out = outputsBelow s root outputs ∧
      generate s (sourcesBelow root' files) = .ok (outputsBelow s root' outputs) := by
  obtain ⟨move, place, hreloc, hmove⟩ := exists_relocation hplain hroot hroot' hfiles
  have hpaths : (sourcesBelow root files).map Source.path
      = (files.map Prod.fst).map (·.foldl Path.join root) := by
    rw [sourcesBelow, List.map_map, List.map_map]
    rfl
  rw [← hpaths] at hreloc
  obtain ⟨placed, hplaced, rfl, hmoved⟩ := generate_moved hreloc hgenerate
  rw [hpaths] at hplaced
  have hmovedSources : (sourcesBelow root files).map (Source.moved move)
      = sourcesBelow root' files := by
    rw [sourcesBelow, sourcesBelow, List.map_map]
    refine List.map_congr_left fun file hfile => ?_
    rw [Function.comp_apply, Source.moved, hmove file.1 (List.mem_map_of_mem hfile)]
  -- the names of a source are what its path has beyond those of the root
  have hback : ∀ rel ∈ files.map Prod.fst,
      (Path.names (rel.foldl Path.join root)).drop (Path.names root).length = rel := by
    intro rel hrel
    rw [Path.names_foldl_join hroot (hfiles rel hrel).2, List.drop_left]
  refine ⟨placed.map fun output =>
    ((Path.names output.1).drop (Path.names root).length, output.2), ?_, ?_, ?_⟩
  · intro output houtput
    obtain ⟨o, ho, rfl⟩ := List.mem_map.mp houtput
    obtain ⟨rel, hrel, hpath⟩ := List.mem_map.mp (hplaced o ho)
    rw [← hpath, hback rel hrel]
    exact hrel
  · rw [outputsBelow, List.map_map]
    refine List.map_congr_left fun o ho => ?_
    obtain ⟨rel, hrel, hpath⟩ := List.mem_map.mp (hplaced o ho)
    rw [Function.comp_apply, ← hpath, hback rel hrel]
  · rw [← hmovedSources, hmoved, outputsBelow, List.map_map]
    refine congrArg Except.ok (List.map_congr_left fun o ho => ?_)
    obtain ⟨rel, hrel, hpath⟩ := List.mem_map.mp (hplaced o ho)
    rw [Function.comp_apply, ← hpath, hback rel hrel, hmove rel hrel]

end Batch

end InterfaceSchemes
