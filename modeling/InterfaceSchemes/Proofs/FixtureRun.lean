import InterfaceSchemes.Fixture.Case
import InterfaceSchemes.Proofs.Respelling
import InterfaceSchemes.Proofs.Search

/-! # Checking a case and running in it

A case is checked by comparing what its sources give with what its directory holds. A run in the same
directory writes what the sources give. This file shows that the two agree.

* **`Fixture.problems_eq_nil_iff`** — when a case without terms passes.
* **`Fixture.exists_generated_below`** — a case gives the same texts under another spelling of its
  directory, also from another home directory.
* **`Fixture.generated_again`** — what a run has written does not change what the sources give.
* **`Fixture.problems_agree_with_run`** — a run in a case that passes changes nothing, and a case
  passes after a run that wrote all its marked files. -/

namespace InterfaceSchemes.Fixture

/-! ## (1) What a case gives -/

/-- `generated t dir s` is what `Batch.generate` makes of the sources of the case. -/
theorem generated_eq_ok_iff {t : FileTree} {dir : Text} {s : Settings} {out : List (Text × Text)} :
    generated t dir s = .ok out ↔ ∃ filter paths sources, SourceFilter.ofPatterns s [] = .ok filter ∧
      t.findSources filter dir true = .ok paths ∧ t.readSources paths = .ok sources ∧
      Batch.generate s sources = .ok out := by
  simp only [generated, Fallible.bind_eq_ok_iff, exists_and_left]

/-- A case that gives outputs is a directory. -/
theorem locate_of_generated {t : FileTree} {dir : Text} {s : Settings} {out : List (Text × Text)}
    (hgenerated : generated t dir s = .ok out) (hout : out ≠ []) :
    ∃ loc, t.locate dir = .ok (loc, .directory) := by
  obtain ⟨filter, paths, sources, -, hfind, hread, hgenerate⟩ := generated_eq_ok_iff.mp hgenerated
  rcases FileTree.locate_of_findSources hfind with hlocate | ⟨-, rfl⟩
  · exact hlocate
  · -- nothing is found in a file, so nothing is generated
    obtain ⟨places, -, hplaces, hlocations⟩ := FileTree.exists_places_of_generate hread hgenerate
    obtain rfl : places = [] :=
      List.eq_nil_iff_forall_not_mem.mpr fun p hp => List.not_mem_nil (hplaces p hp)
    exact absurd (List.map_eq_nil_iff.mp hlocations) hout

/-- **`generated` under another spelling of the directory** gives the same texts, each at the place
for its file. -/
theorem exists_generated_below {t : FileTree} (hnamed : t.Named) {s : Settings} (hplain : s.Plain)
    {loc home : Location} {dir dir' : Text} (hlocate : t.locate dir = .ok (loc, .directory))
    (hlocate' : (t.seenFrom home).locate dir' = .ok (loc, .directory)) {out : List (Text × Text)}
    (hgenerated : generated t dir s = .ok out) :
    ∃ outputs : List (List Text × Text), (∀ output ∈ outputs, Path.Relative output.1) ∧
      out = Batch.outputsBelow s dir outputs ∧
      generated (t.seenFrom home) dir' s = .ok (Batch.outputsBelow s dir' outputs) := by
  obtain ⟨filter, paths, sources, hfilter, hfind, hread, hgenerate⟩ :=
    generated_eq_ok_iff.mp hgenerated
  have hdir := FileTree.ne_nil_of_locate hlocate
  have hdir' := FileTree.ne_nil_of_locate hlocate'
  have hrels : ∀ rel ∈ t.found filter loc true, Path.Relative rel :=
    fun _ => FileTree.relative_of_mem_found hnamed
  rw [FileTree.findSources_eq_foldl_join hnamed hlocate] at hfind
  cases hfind
  -- the other tree has the same entries, and so the same files are found there
  have hfind' : (t.seenFrom home).findSources filter dir' true
      = .ok ((t.found filter loc true).map (·.foldl Path.join dir')) :=
    FileTree.findSources_eq_foldl_join (hnamed.seenFrom home) hlocate'
  obtain ⟨files, hfiles, rfl, hread'⟩ :=
    FileTree.exists_files_of_readSources hlocate hlocate' hrels hread
  rw [← hfiles] at hrels
  obtain ⟨outputs, houtputs, rfl, hgenerate'⟩ :=
    Batch.generate_below hplain hdir hdir' hrels hgenerate
  refine ⟨outputs, fun output houtput => hrels _ (houtputs output houtput), rfl, ?_⟩
  exact generated_eq_ok_iff.mpr ⟨filter, _, _, hfilter, hfind', hread', hgenerate'⟩

/-! ## (2) When a case passes -/

/-- `terms t dir = .ok {}` without a document of terms. -/
theorem terms_of_isFile_eq_false {t : FileTree} {dir : Text}
    (hcase : t.isFile (Path.join dir "case.json") = false) : terms t dir = .ok {} := by
  rw [terms, hcase]
  rfl

/-- `outputProblem? t path text = none ↔ t.readText path = .ok text`. -/
theorem outputProblem?_eq_none_iff {t : FileTree} {path text : Text} :
    outputProblem? t path text = none ↔ t.readText path = .ok text := by
  unfold outputProblem?
  cases hread : t.readText path with
  | error failure => simp
  | ok expected =>
    by_cases heq : expected = text
    · simp [heq]
    · simp [heq]

/-- **`problems t dir = []`** for a case without terms: its sources give something, everything that
they give is there, and every marked file is one of those. -/
theorem problems_eq_nil_iff {t : FileTree} {dir : Text}
    (hcase : t.isFile (Path.join dir "case.json") = false) :
    problems t dir = [] ↔ ∃ out, generated t dir {} = .ok out ∧ out ≠ [] ∧
      (∀ path ∈ expectedOutputs t dir {}, Path.components path ∈
        out.map fun output => Path.components output.1) ∧
      ∀ output ∈ out, t.readText output.1 = .ok output.2 := by
  rw [problems, terms_of_isFile_eq_false hcase]
  dsimp only
  cases hgenerated : generated t dir {} with
  | error error => simp [errorProblems]
  | ok out =>
    simp only [Except.ok.injEq, exists_eq_left', outputProblems, List.append_eq_nil_iff,
      List.map_eq_nil_iff, List.filter_eq_nil_iff, List.filterMap_eq_nil_iff,
      outputProblem?_eq_none_iff, and_assoc]
    refine and_congr ?_ (and_congr ?_ Iff.rfl)
    · cases out <;> simp
    · simp

/-- **`expectedOutputs t dir s`** are the marked files of the directory, by their names from there.
-/
theorem exists_of_mem_expectedOutputs {t : FileTree} (hnamed : t.Named) {dir : Text} {loc : Location}
    (hlocate : t.locate dir = .ok (loc, .directory)) {s : Settings} {path : Text}
    (hpath : path ∈ expectedOutputs t dir s) :
    ∃ rel name bytes, (∀ part ∈ rel ++ [name], Path.IsFileName part) ∧
      path = (rel ++ [name]).foldl Path.join dir ∧
      t.node? (loc ++ (rel ++ [name])) = some (.file bytes) ∧
      SourceFilter.isMarked (SourceFilter.markerOf s) name = true := by
  have hdir := FileTree.ne_nil_of_locate hlocate
  rw [expectedOutputs, FileTree.filesBelow, hlocate] at hpath
  dsimp only at hpath
  obtain ⟨hfound, hmarked⟩ := List.mem_filter.mp hpath
  obtain ⟨⟨names, node⟩, hbelow, hselect⟩ := List.mem_filterMap.mp hfound
  obtain ⟨⟨place, node'⟩, hentry, hfront⟩ := List.mem_filterMap.mp hbelow
  dsimp only at hselect hfront
  split at hfront
  · rename_i first others hafter
    cases hfront
    obtain rfl := afterFront?_eq_some_iff.mp hafter
    cases node with
    | directory => cases hselect
    | file bytes =>
      obtain rfl : (first :: others).foldl Path.join dir = path := by simpa using hselect
      have hrelative : Path.Relative (first :: others) :=
        ⟨List.cons_ne_nil _ _,
          fun part hpart => hnamed _ hentry part (List.mem_append_right _ hpart)⟩
      obtain ⟨rel, name, hrel, hname⟩ := hrelative.exists_concat
      rw [hrel] at hentry hmarked hrelative ⊢
      have hparts := hrelative.2
      have hlast : (rel ++ [name]).getLast? = some name := List.getLast?_concat
      refine ⟨rel, name, bytes, hparts, rfl, FileTree.node?_of_mem hentry (by simp), ?_⟩
      rw [SourceFilter.isMarked, Path.stem?, Path.fileName?_foldl_join hdir hparts hlast] at hmarked
      rw [SourceFilter.isMarked, Path.stem?, Path.fileName?_self hname]
      exact hmarked
  · cases hfront

/-- **Every marked file below a location** is at one of the locations `written`. -/
def MarkedWithin (marker : Text) (t : FileTree) (loc : Location) (written : List Location) : Prop :=
  ∀ rel name bytes, t.node? (loc ++ (rel ++ [name])) = some (.file bytes) →
    SourceFilter.isMarked marker name = true → loc ++ (rel ++ [name]) ∈ written

/-- **The marked files of a directory are produced**, if `MarkedWithin` has them at the places for
the modules. -/
theorem components_mem_of_markedWithin {t : FileTree} (hnamed : t.Named) {dir : Text} {loc : Location}
    (hlocate : t.locate dir = .ok (loc, .directory)) {s : Settings} (hplain : s.Plain)
    {outputs : List (List Text × Text)} (houtputs : ∀ output ∈ outputs, Path.Relative output.1)
    (hmarked : MarkedWithin (SourceFilter.markerOf s) t loc
      ((Batch.outputsBelow s dir outputs).map fun output => t.locationOf output.1))
    {path : Text} (hpath : path ∈ expectedOutputs t dir s) :
    Path.components path ∈
      (Batch.outputsBelow s dir outputs).map fun output => Path.components output.1 := by
  obtain ⟨rel, name, bytes, hparts, rfl, hnode, hname⟩ :=
    exists_of_mem_expectedOutputs hnamed hlocate hpath
  obtain ⟨output, houtput, hplace⟩ := List.mem_map.mp (hmarked rel name bytes hnode hname)
  obtain ⟨dirs, last, -, hlocation, hcomponents⟩ :=
    FileTree.exists_locationOf_outputsBelow hlocate hplain houtputs houtput
  -- one location below the directory is one list of names
  have hsame : dirs ++ [last] = rel ++ [name] :=
    List.append_cancel_left (hlocation.symm.trans hplace)
  refine List.mem_map.mpr ⟨output, houtput, ?_⟩
  rw [hcomponents, hsame, Path.components_foldl_join (FileTree.ne_nil_of_locate hlocate) hparts]

/-- `t.isFile (Path.join dir name)` exactly if there is a file at `loc ++ [name]`. -/
theorem isFile_join_iff {t : FileTree} {dir name : Text} {loc : Location}
    (hlocate : t.locate dir = .ok (loc, .directory)) (hname : Path.IsFileName name) :
    t.isFile (Path.join dir name) = true ↔ ∃ bytes, t.node? (loc ++ [name]) = some (.file bytes) := by
  have hjoin : t.locate (Path.join dir name) = t.follow loc [name] :=
    FileTree.locate_foldl_join hlocate ⟨List.cons_ne_nil name [], by simpa using hname⟩
  rw [FileTree.isFile, hjoin, FileTree.follow, if_neg (by simp [hname.2.1]), if_neg hname.2.2]
  cases t.node? (loc ++ [name]) with
  | none => simp
  | some node =>
    cases node with
    | directory => simp [FileTree.follow]
    | file bytes => simp

/-! ## (3) Runs -/

/-- A search of everything below a directory, with default settings. -/
def searchAll (dir : Text) : InputOptions := ⟨dir, true, [], none⟩

/-- **`Request.rendered` gives what `generated` does.** -/
theorem rendered_searchAll_iff {t : FileTree} {dir : Text} {out : List (Text × Text)} :
    Request.rendered t (searchAll dir) false false = .ok out ↔ generated t dir {} = .ok out := by
  rw [Request.rendered_eq_ok_iff, generated_eq_ok_iff]
  constructor
  · rintro ⟨chosen, sources, hchosen, hload, hgenerate⟩
    cases hchosen
    obtain ⟨filter, paths, hfilter, hfind, hread⟩ := Request.loadSources_eq_ok_iff.mp hload
    exact ⟨filter, paths, sources, hfilter, hfind, hread, hgenerate⟩
  · rintro ⟨filter, paths, sources, hfilter, hfind, hread, hgenerate⟩
    exact ⟨{}, sources, rfl,
      Request.loadSources_eq_ok_iff.mpr ⟨filter, paths, hfilter, hfind, hread⟩, hgenerate⟩

section

variable {t t' : FileTree} (hnamed : t.Named) {dir : Text} {outputs : List (Text × Text)}
  (hgenerated : generated t dir {} = .ok outputs)
  (hwrite : t.writeOutputs outputs = (.ok (outputs.map Prod.fst), t'))

include hnamed hgenerated hwrite

/-- **What has been written is there, and the sources give it again.** -/
theorem generated_again : generated t' dir {} = .ok outputs ∧
    ∀ output ∈ outputs, t'.readText output.1 = .ok output.2 := by
  obtain ⟨filter, paths, sources, hfilter, hfind, hread, hgenerate⟩ :=
    generated_eq_ok_iff.mp hgenerated
  obtain ⟨places, hnodup, hplaces, hlocations⟩ := FileTree.exists_places_of_generate hread hgenerate
  obtain ⟨-, hlocated⟩ := FileTree.writeOutputs_eq_ok hwrite
  have hrewrites := FileTree.writeOutputs_rewrites t outputs
  rw [hwrite] at hrewrites
  rw [hlocations] at hrewrites hlocated
  constructor
  · refine generated_eq_ok_iff.mpr ⟨filter, paths, sources, hfilter, ?_, ?_, hgenerate⟩
    · exact FileTree.findSources_again hfilter rfl rfl hnamed hfind hplaces hrewrites
    · exact FileTree.readSources_again hfilter rfl rfl hnamed hfind hplaces hrewrites hread
  · intro output houtput
    have hapart := FileTree.nodup_locationOf hnamed hfind Settings.plain_default.slash
      ⟨"schemes", by decide⟩ hnodup hplaces
    exact FileTree.readText_eq_ok_iff.mpr
      ⟨_, _, hlocated hapart output houtput, Text.ofBytes?_toBytes output.2⟩

end

/-- `loc ++ [name]` is the location of no module: none is put directly into the directory of the
case. -/
theorem notMem_map_locationOf_outputsBelow {t : FileTree} {loc : Location} {root : Text}
    (hlocate : t.locate root = .ok (loc, .directory)) {s : Settings} (hplain : s.Plain)
    {outputs : List (List Text × Text)} (houtputs : ∀ output ∈ outputs, Path.Relative output.1)
    (name : Text) :
    loc ++ [name] ∉ (Batch.outputsBelow s root outputs).map fun output => t.locationOf output.1 := by
  intro hmem
  obtain ⟨output, houtput, hplace⟩ := List.mem_map.mp hmem
  obtain ⟨dirs, last, hdirs, hlocation, -⟩ :=
    FileTree.exists_locationOf_outputsBelow hlocate hplain houtputs houtput
  have hlength := congrArg List.length (List.append_cancel_left (hlocation.symm.trans hplace))
  have hlong := List.length_pos_iff.mpr hdirs
  simp only [List.length_append, List.length_cons, List.length_nil] at hlength
  omega

section

variable {t : FileTree} (hnamed : t.Named) {home : Location} {w dir : Text}
  (hcase : t.isFile (Path.join dir "case.json") = false)
  (hsame : (t.seenFrom home).locate w = t.locate dir)

include hnamed hcase hsame

/-- **A case that passes is up to date**: `Request.run` writes what is there. -/
theorem run_of_problems_eq_nil (hpass : problems t dir = []) :
    ∃ outputs, outputs ≠ [] ∧
      Request.rendered (t.seenFrom home) (searchAll w) false false = .ok outputs ∧
      Request.run (t.seenFrom home) (.generate (searchAll w) false false false)
        = (Request.wrote (outputs.map Prod.fst), t.seenFrom home) := by
  obtain ⟨out, hgenerated, hne, -, hread⟩ := (problems_eq_nil_iff hcase).mp hpass
  obtain ⟨loc, hlocate⟩ := locate_of_generated hgenerated hne
  rw [hlocate] at hsame
  obtain ⟨outputs, houtputs, rfl, hgenerated'⟩ :=
    exists_generated_below hnamed Settings.plain_default hlocate hsame hgenerated
  have hrendered := rendered_searchAll_iff.mpr hgenerated'
  have hwrite := FileTree.writeOutputs_of_readText
    (FileTree.readText_outputsBelow hlocate hsame Settings.plain_default houtputs hread)
  refine ⟨_, ?_, hrendered, (Request.run_generate_eq_iff.mpr ⟨_, hrendered, hwrite, rfl⟩).1⟩
  simpa [Batch.outputsBelow] using hne

/-- **`problems = []` after a run**, if it writes something and no other file is marked. -/
theorem problems_eq_nil_of_run (hhome : ∀ name ∈ home, Path.IsFileName name) {t' : FileTree}
    {outputs : List (Text × Text)} (hgenerated : generated (t.seenFrom home) w {} = .ok outputs)
    (hne : outputs ≠ [])
    (hwrite : (t.seenFrom home).writeOutputs outputs = (.ok (outputs.map Prod.fst), t'))
    (hmarked : MarkedWithin (SourceFilter.markerOf {}) t' (t.locationOf dir)
      (outputs.map fun output => t'.locationOf output.1)) :
    problems (t'.seenFrom t.home) dir = [] := by
  obtain ⟨loc, hlocateW⟩ := locate_of_generated hgenerated hne
  have hlocate : t.locate dir = .ok (loc, .directory) := hsame.symm.trans hlocateW
  have hrewrites := FileTree.writeOutputs_rewrites (t.seenFrom home) outputs
  rw [hwrite] at hrewrites
  have hnamed' : t'.Named := hrewrites.named (hnamed.seenFrom home) hhome
  -- the directory is where it was, under both spellings
  have hlocateW' := FileTree.locate_eq_of_keeps hrewrites.keeps hlocateW (Or.inl rfl)
  have hkeeps : t.KeepsDirectories (t'.seenFrom t.home) := ⟨rfl, hrewrites.keeps.directory⟩
  have hlocate' := FileTree.locate_eq_of_keeps hkeeps hlocate (Or.inl rfl)
  obtain ⟨hagain, hread⟩ := generated_again (hnamed.seenFrom home) hgenerated hwrite
  obtain ⟨below, hbelow, rfl, hgenerated'⟩ :=
    exists_generated_below hnamed' Settings.plain_default hlocateW' hlocate' hagain
  -- the terms of the case would stand directly in the directory, where no module is put
  have hcase' : (t'.seenFrom t.home).isFile (Path.join dir "case.json") = false := by
    rw [Bool.eq_false_iff] at hcase ⊢
    intro hisFile
    obtain ⟨bytes, hfile⟩ := (isFile_join_iff hlocate' (by decide)).mp hisFile
    rcases hrewrites.node?_of_notMem (notMem_map_locationOf_outputsBelow hlocateW
      Settings.plain_default hbelow "case.json") with hbefore | ⟨-, hdirectory⟩
    · exact hcase ((isFile_join_iff hlocate (by decide)).mpr ⟨bytes, hbefore.symm.trans hfile⟩)
    · cases hdirectory.symm.trans hfile
  refine (problems_eq_nil_iff hcase').mpr ⟨_, hgenerated', ?_, ?_, ?_⟩
  · simpa [Batch.outputsBelow] using hne
  · intro path hpath
    refine components_mem_of_markedWithin (hnamed'.seenFrom t.home) hlocate' Settings.plain_default
      hbelow ?_ hpath
    rw [FileTree.map_locationOf_outputsBelow hlocateW' hlocate' Settings.plain_default hbelow,
      FileTree.locate_location hlocate]
    exact hmarked
  · exact FileTree.readText_outputsBelow hlocateW' hlocate' Settings.plain_default hbelow hread

end

/-- **The check of a case and the run agree.** -/
theorem problems_agree_with_run {t : FileTree} (hnamed : t.Named) {home : Location}
    (hhome : ∀ name ∈ home, Path.IsFileName name) {w dir : Text}
    (hcase : t.isFile (Path.join dir "case.json") = false)
    (hsame : (t.seenFrom home).locate w = t.locate dir) :
    (problems t dir = [] → ∃ outputs, outputs ≠ [] ∧
      Request.rendered (t.seenFrom home) (searchAll w) false false = .ok outputs ∧
      Request.run (t.seenFrom home) (.generate (searchAll w) false false false)
        = (Request.wrote (outputs.map Prod.fst), t.seenFrom home)) ∧
    ∀ outcome t' outputs,
      Request.run (t.seenFrom home) (.generate (searchAll w) false false false) = (outcome, t') →
      outcome.exitCode = 0 →
      Request.rendered (t.seenFrom home) (searchAll w) false false = .ok outputs → outputs ≠ [] →
      MarkedWithin (SourceFilter.markerOf {}) t' (t.locationOf dir)
        (outputs.map fun output => t'.locationOf output.1) →
      problems (t'.seenFrom t.home) dir = [] := by
  refine ⟨run_of_problems_eq_nil hnamed hcase hsame, ?_⟩
  intro outcome t' outputs hrun hexit hrendered hne hmarked
  obtain ⟨outputs', hrendered', hwrite, -⟩ := Request.run_generate_eq_iff.mp ⟨hrun, hexit⟩
  obtain rfl : outputs = outputs' := Except.ok.inj (hrendered.symm.trans hrendered')
  exact problems_eq_nil_of_run hnamed hcase hsame hhome (rendered_searchAll_iff.mp hrendered) hne
    hwrite hmarked

/-- The sources of `Request.dotTree` by their names below `src`. -/
def dotContents : List (List Text × Text) :=
  [([".ts"], "interface Pet \x7b tag: number[] \x7d"),
    (["models", "user.ts"], "interface User \x7b pet: Pet; name: string|null \x7d")]

/-- What the sources give, by their names below `src`. -/
def dotTexts : List (List Text × Text) :=
  [([".ts"], "export const PetScheme = z.object(\x7b\n\ttag: z.array(z.number()),\n\x7d);\n"),
    (["models", "user.ts"],
      "import \x7b PetScheme \x7d from './../../schemes/.ts.scheme';\n\n" ++
        "export const UserScheme = z.object(\x7b\n\tpet: PetScheme,\n" ++
        "\tname: z.string().or(z.null()),\n\x7d);\n")]

/-- The records of the sources. -/
def dotRecords : List SourceRecords :=
  [⟨"./.ts", [.ofFields "Pet" "./.ts" [⟨"tag", ["number"], false, true, []⟩]]⟩,
    ⟨"./models/user.ts",
      [.ofFields "User" "./models/user.ts"
        [⟨"pet", ["Pet"], false, false, ["Pet"]⟩, ⟨"name", ["string", "null"], false, false, []⟩]]⟩]

/-- What a run in `src` renders. -/
theorem rendered_dotTree :
    Request.rendered (Request.dotTree.seenFrom ["home", "src"]) (searchAll ".") false false
      = .ok (Batch.outputsBelow {} "." dotTexts) := by
  have hread : (Request.dotTree.seenFrom ["home", "src"]).readSources
      ((dotContents.map Prod.fst).map (·.foldl Path.join "."))
        = .ok (Batch.sourcesBelow "." dotContents) := by
    refine Fallible.mapM_eq_ok_iff.mpr (.cons ?_ (.cons ?_ .nil))
    · exact FileTree.readSource_eq_ok_iff.mpr ⟨rfl, FileTree.readText_eq_ok_iff.mpr
        ⟨["home", "src", ".ts"], _, rfl, Text.ofBytes?_toBytes _⟩⟩
    · exact FileTree.readSource_eq_ok_iff.mpr ⟨rfl, FileTree.readText_eq_ok_iff.mpr
        ⟨["home", "src", "models", "user.ts"], _, rfl, Text.ofBytes?_toBytes _⟩⟩
  have hparse : Batch.parse (Batch.sourcesBelow "." dotContents) = .ok dotRecords := by decide +kernel
  have hsort : DependencyOrder.sort (Batch.records dotRecords) = .ok (Batch.records dotRecords) := by
    cbv
  have hgenerate : Batch.generate {} (Batch.sourcesBelow "." dotContents)
      = .ok (Batch.outputsBelow {} "." dotTexts) := by
    rw [Batch.generate_eq_of_sort hparse hsort]
    decide +kernel
  exact rendered_searchAll_iff.mpr (generated_eq_ok_iff.mpr
    ⟨_, _, _, SourceFilter.ofPatterns_nil _, rfl, hread, hgenerate⟩)

/-- The tree after a run in `src`. -/
def dotAfter : FileTree :=
  ((Request.dotTree.seenFrom ["home", "src"]).writeOutputs (Batch.outputsBelow {} "." dotTexts)).2

/-- The run in `src` writes both outputs. -/
theorem run_dotTree_here :
    Request.run (Request.dotTree.seenFrom ["home", "src"])
        (.generate (searchAll ".") false false false)
        = (Request.wrote ["./schemes/.ts.scheme", "./models/schemes/user.scheme.ts"], dotAfter) ∧
      (Request.wrote ["./schemes/.ts.scheme", "./models/schemes/user.scheme.ts"]).exitCode = 0 :=
  Request.run_generate_eq_iff.mpr ⟨_, rendered_dotTree, Prod.ext (by decide +kernel) rfl, rfl⟩

/-- `MarkedWithin marker t loc written` if all marked entries are at one of the locations `written`.
-/
theorem markedWithin_of_entries {marker : Text} {t : FileTree} {loc : Location}
    {written : List Location}
    (hentries : ∀ entry ∈ t.entries, ∀ name ∈ entry.1.getLast?,
      SourceFilter.isMarked marker name = true → entry.1 ∈ written) :
    MarkedWithin marker t loc written := by
  intro rel name bytes hnode hmarked
  rw [FileTree.node?_of_ne (by simp)] at hnode
  obtain ⟨front, back, hsplit, -⟩ := List.lookup_eq_some_iff.mp hnode
  refine hentries (loc ++ (rel ++ [name]), .file bytes) ?_ name (by simp) hmarked
  rw [hsplit]
  simp

/-- The case in `src` does not pass, as one module is old and another is missing. After a run in the
directory it passes, and a second run changes nothing. -/
theorem problems_dotTree :
    problems Request.dotTree "src" ≠ [] ∧
      Request.run (Request.dotTree.seenFrom ["home", "src"])
        (.generate (searchAll ".") false false false)
        = (Request.wrote ["./schemes/.ts.scheme", "./models/schemes/user.scheme.ts"], dotAfter) ∧
      problems (dotAfter.seenFrom ["home"]) "src" = [] ∧
      (Request.run (dotAfter.seenFrom ["home", "src"])
        (.generate (searchAll ".") false false false)).2 = dotAfter.seenFrom ["home", "src"] := by
  have hnamed : Request.dotTree.Named := by decide +kernel
  have hhome : ∀ name ∈ (["home", "src"] : Location), Path.IsFileName name := by decide
  have hsame : (Request.dotTree.seenFrom ["home", "src"]).locate "."
      = Request.dotTree.locate "src" := by
    decide +kernel
  obtain ⟨hrun, hexit⟩ := run_dotTree_here
  have hagree := problems_agree_with_run hnamed hhome (by decide +kernel) hsame
  have hpass : problems (dotAfter.seenFrom ["home"]) "src" = [] :=
    hagree.2 _ _ _ hrun hexit rendered_dotTree (by simp [Batch.outputsBelow, dotTexts])
      (markedWithin_of_entries (by decide +kernel))
  have hnamed' : dotAfter.Named := by
    have hafter := Request.run_named (hnamed.seenFrom ["home", "src"]) hhome
      (.generate (searchAll ".") false false false)
    rwa [hrun] at hafter
  have hsame' : (dotAfter.seenFrom ["home", "src"]).locate "."
      = (dotAfter.seenFrom ["home"]).locate "src" := by
    decide +kernel
  refine ⟨fun hbefore => ?_, hrun, hpass, ?_⟩
  · -- a run on a case that passes would not add a module
    obtain ⟨outputs, -, -, hsecond⟩ := hagree.1 hbefore
    have hunchanged : dotAfter = Request.dotTree.seenFrom ["home", "src"] :=
      congrArg Prod.snd (hrun.symm.trans hsecond)
    have hnode : (dotAfter.node? ["home", "src", "schemes", ".ts.scheme"]).isSome
        = (Request.dotTree.node? ["home", "src", "schemes", ".ts.scheme"]).isSome := by
      rw [hunchanged, FileTree.node?_seenFrom]
    exact absurd hnode (by decide +kernel)
  · obtain ⟨outputs, -, -, hsecond⟩ := (problems_agree_with_run (hnamed'.seenFrom ["home"]) hhome
      (by decide +kernel) hsame').1 hpass
    exact congrArg Prod.snd hsecond

end InterfaceSchemes.Fixture
