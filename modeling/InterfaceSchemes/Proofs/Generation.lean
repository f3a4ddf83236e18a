import InterfaceSchemes.Command.Run
import InterfaceSchemes.Proofs.Discovery
import InterfaceSchemes.Proofs.Enlargement
import InterfaceSchemes.Proofs.Validity
import InterfaceSchemes.Proofs.Writing

/-! # What a run leaves in the file tree

A run searches a tree, reads what it finds and writes output modules into the same tree. This file
puts the search and the writing together.

* **`FileTree.Delivered`** — outputs are all there, apart from each other, and nothing else is new but
  directories.
* **`Request.run_delivers`** — a run that succeeds delivers the outputs of the sources that it found.
* **`Request.run_again`** — the same run on the tree that it left finds the same sources and changes
  nothing. -/

namespace InterfaceSchemes

/-! ## (1) The stages of a run -/

namespace FileTree

/-- `t.readSource path` keeps the path under which it reads. -/
theorem readSource_eq_ok_iff {t : FileTree} {path : Text} {source : Source} :
    t.readSource path = .ok source ↔ source.path = path ∧ t.readText path = .ok source.contents := by
  rw [readSource, Fallible.bind_eq_ok_iff]
  simp only [readInput, Fallible.mapError_eq_ok_iff]
  constructor
  · rintro ⟨contents, hread, hpure⟩
    cases hpure
    exact ⟨rfl, hread⟩
  · rintro ⟨rfl, hread⟩
    exact ⟨source.contents, hread, rfl⟩

/-- `sources.map Source.path = paths`: the sources of a run have the paths that were found. -/
theorem map_path_of_readSources {t : FileTree} {paths : List Text} {sources : List Source}
    (hread : t.readSources paths = .ok sources) : sources.map Source.path = paths := by
  have hall := Fallible.mapM_eq_ok_iff.mp hread
  clear hread
  induction hall with
  | nil => rfl
  | cons hsource _ ih => rw [List.map_cons, ih, (readSource_eq_ok_iff.mp hsource).1]

end FileTree

namespace Request

variable {t : FileTree} {input : InputOptions} {zodImport keepLeadingDot : Bool}

/-- `loadSources` finds the sources with the patterns of the request, and then reads them. -/
theorem loadSources_eq_ok_iff {settings : Settings} {sources : List Source} :
    loadSources t input settings = .ok sources ↔ ∃ filter paths,
      SourceFilter.ofPatterns settings input.patterns = .ok filter ∧
        t.findSources filter input.workingDir input.recursive = .ok paths ∧
        t.readSources paths = .ok sources := by
  simp only [loadSources, Fallible.bind_eq_ok_iff, Fallible.mapError_eq_ok_iff, exists_and_left]

/-- `rendered` is `Batch.generate` on the sources, under the settings of the request. -/
theorem rendered_eq_ok_iff {outputs : List (Text × Text)} :
    rendered t input zodImport keepLeadingDot = .ok outputs ↔ ∃ chosen sources,
      settings t input = .ok chosen ∧
        loadSources t input (generateSettings chosen zodImport keepLeadingDot) = .ok sources ∧
        Batch.generate (generateSettings chosen zodImport keepLeadingDot) sources = .ok outputs := by
  simp only [rendered, Fallible.bind_eq_ok_iff, Fallible.mapError_eq_ok_iff, exists_and_left]

/-- The outcome of a run that has written its output modules. -/
def wrote (paths : List Text) : Outcome where
  stderr := lines (paths.map fun path => "wrote ".toList ++ path)

/-- **`run` succeeds on `.generate`** if the output modules can be rendered and written. -/
theorem run_generate_eq_iff {t' : FileTree} {outcome : Outcome} :
    run t (.generate input zodImport keepLeadingDot false) = (outcome, t') ∧ outcome.exitCode = 0 ↔
      ∃ outputs, rendered t input zodImport keepLeadingDot = .ok outputs ∧
        t.writeOutputs outputs = (.ok (outputs.map Prod.fst), t') ∧
        outcome = wrote (outputs.map Prod.fst) := by
  rw [run]
  constructor
  · rintro ⟨hrun, hexit⟩
    split at hrun
    · cases hrun
      cases hexit
    · rename_i outputs hrendered
      rw [if_neg (by simp), writeOutcome] at hrun
      split at hrun
      · cases hrun
        cases hexit
      · rename_i paths after hwrite
        obtain ⟨rfl, rfl⟩ := Prod.mk.inj hrun
        obtain ⟨rfl, -⟩ := FileTree.writeOutputs_eq_ok hwrite
        exact ⟨outputs, hrendered, hwrite, rfl⟩
  · rintro ⟨outputs, hrendered, hwrite, rfl⟩
    rw [hrendered]
    dsimp only
    rw [if_neg (by simp), writeOutcome, hwrite]
    exact ⟨rfl, rfl⟩

/-- `writeOut t path text` touches no file but the one at `path`. -/
theorem writeOut_rewrites (t : FileTree) (path text : Text) :
    FileTree.Rewrites [t.locationOf path] t (writeOut t path text).2 := by
  have hparents := FileTree.makeAlong_rewrites t (Path.ancestors ((Path.parent? path).getD []))
  rw [← FileTree.makeDirectories] at hparents
  unfold writeOut
  dsimp only
  split
  · rename_i hmade
    rw [hmade] at hparents
    exact hparents.mono (List.nil_subset _)
  · rename_i made hmade
    rw [hmade] at hparents
    split
    · exact hparents.mono (List.nil_subset _)
    · rename_i hwrite
      exact hparents.writeBytes hwrite

/-- **`run` changes the tree by making directories and putting files only**, whatever is asked for
and however it ends. -/
theorem run_rewrites (t : FileTree) (request : Request) :
    ∃ written, FileTree.Rewrites written t (run t request).2 := by
  cases request with
  | generate input zodImport keepLeadingDot dryRun =>
    rw [run]
    split
    · exact ⟨[], .refl⟩
    · rename_i outputs hrendered
      split
      · exact ⟨[], .refl⟩
      · have hrewrites := FileTree.writeOutputs_rewrites t outputs
        rw [writeOutcome]
        split <;> rename_i hwrite <;> rw [hwrite] at hrewrites <;> exact ⟨_, hrewrites⟩
  | inspect input out? =>
    unfold run
    dsimp only
    split
    · exact ⟨[], .refl⟩
    · exact ⟨[], .refl⟩
    · rename_i text path _
      exact ⟨_, writeOut_rewrites t path text⟩
  | version => exact ⟨[], .refl⟩
  | help => exact ⟨[], .refl⟩
  | usage => exact ⟨[], .refl⟩

/-- `(run t request).2.Named`: names stay names, whatever is asked for. -/
theorem run_named {t : FileTree} (hnamed : t.Named) (hhome : ∀ name ∈ t.home, Path.IsFileName name)
    (request : Request) : (run t request).2.Named := by
  obtain ⟨written, hrewrites⟩ := run_rewrites t request
  exact hrewrites.named hnamed hhome

end Request

/-! ## (2) Outputs delivered -/

/-- **`outputs` have been delivered to `t`, which is now `t'`.** -/
structure FileTree.Delivered (t t' : FileTree) (outputs : List (Text × Text)) : Prop where
  /-- Each path leads to its location, where a file holds the text and nothing else. -/
  located : ∀ output ∈ outputs,
    t'.locate output.1 = .ok (t.locationOf output.1, .file (Text.toBytes output.2))
  /-- No two outputs have one location. -/
  apart : (outputs.map fun output => t.locationOf output.1).Nodup
  /-- Elsewhere all is as it was, or a directory has been made where nothing was. -/
  elsewhere : ∀ loc, loc ∉ outputs.map (fun output => t.locationOf output.1) →
    t'.node? loc = t.node? loc ∨ t.node? loc = none ∧ t'.node? loc = some .directory

/-- `t'.readText output.1 = .ok output.2` for every output that has been `Delivered`. -/
theorem FileTree.Delivered.readText {t t' : FileTree} {outputs : List (Text × Text)}
    (hdelivered : t.Delivered t' outputs) {output : Text × Text} (houtput : output ∈ outputs) :
    t'.readText output.1 = .ok output.2 :=
  FileTree.readText_eq_ok_iff.mpr ⟨_, _, hdelivered.located output houtput,
    Text.ofBytes?_toBytes output.2⟩

section

variable {t : FileTree} {filter : SourceFilter} {root : Text} {recursive : Bool} {paths : List Text}
  {s : Settings} {sources : List Source} {outputs : List (Text × Text)}

/-- **The outputs of sources that were read** go to `s.outputPath p` for some of the paths `p`. -/
theorem FileTree.exists_places_of_generate (hread : t.readSources paths = .ok sources)
    (hgenerate : Batch.generate s sources = .ok outputs) :
    ∃ places : List Text, places.Nodup ∧ (∀ p ∈ places, p ∈ paths) ∧
      outputs.map (fun output => t.locationOf output.1)
        = places.map fun p => t.locationOf (s.outputPath p) := by
  obtain ⟨places, hnodup, hall, hmem⟩ := Batch.outputsOf_of_generate hgenerate
  refine ⟨places, hnodup, fun p hp => ?_, ?_⟩
  · obtain ⟨source, hsource, rfl, -⟩ := (hmem p).mp hp
    rw [← map_path_of_readSources hread]
    exact List.mem_map_of_mem hsource
  · have hlocations := congrArg (List.map t.locationOf) (Batch.map_fst_of_forall₂ hall)
    simpa only [List.map_map, Function.comp_def] using hlocations

/-- **`outputPath` gives files that were found different locations.** -/
theorem FileTree.nodup_locationOf (hnamed : t.Named)
    (hfind : t.findSources filter root recursive = .ok paths) (hfree : '/' ∉ s.schemeInfix)
    (hdir : Path.IsName s.schemesDir) {places : List Text} (hnodup : places.Nodup)
    (hplaces : ∀ p ∈ places, p ∈ paths) :
    (places.map fun p => t.locationOf (s.outputPath p)).Nodup := by
  obtain ⟨dir, hnames, hup⟩ := hdir.names_eq
  -- both paths are spelled from one root, so one location is one path
  refine List.Nodup.map_on (fun p hp q hq heq => ?_) hnodup
  obtain ⟨hroot, -, rel, ⟨hne, hrel⟩, rfl⟩ :=
    exists_of_mem_findSources hnamed hfind (hplaces p hp)
  obtain ⟨-, -, rel', ⟨hne', hrel'⟩, rfl⟩ := exists_of_mem_findSources hnamed hfind (hplaces q hq)
  have hlast := Path.fileName?_foldl_join hroot hrel (List.getLast?_eq_getLast_of_ne_nil hne)
  have hlast' := Path.fileName?_foldl_join hroot hrel' (List.getLast?_eq_getLast_of_ne_nil hne')
  have hloc := locationOf_eq_of_outputPath_eq t s hfree hnames hup hlast hlast' heq
  rw [locationOf_foldl_join t hroot hrel, locationOf_foldl_join t hroot hrel'] at hloc
  rw [List.append_cancel_left hloc]

end

namespace Request

/-- **A run that succeeds has `Delivered` the outputs of the sources that it found.** -/
theorem run_delivers {t t' : FileTree} {input : InputOptions} {zodImport keepLeadingDot : Bool}
    {outcome : Outcome} {chosen : Settings} (hnamed : t.Named)
    (hsettings : settings t input = .ok chosen) (hdir : Path.IsName chosen.schemesDir)
    (hfree : '/' ∉ chosen.schemeInfix)
    (hrun : run t (.generate input zodImport keepLeadingDot false) = (outcome, t'))
    (hexit : outcome.exitCode = 0) :
    ∃ sources outputs,
      loadSources t input (generateSettings chosen zodImport keepLeadingDot) = .ok sources ∧
        Batch.generate (generateSettings chosen zodImport keepLeadingDot) sources = .ok outputs ∧
        t.Delivered t' outputs ∧ ∀ output ∈ outputs, t'.readText output.1 = .ok output.2 := by
  obtain ⟨outputs, hrendered, hwrite, -⟩ := run_generate_eq_iff.mp ⟨hrun, hexit⟩
  obtain ⟨chosen', sources, hchosen, hload, hgenerate⟩ := rendered_eq_ok_iff.mp hrendered
  obtain rfl : chosen = chosen' := Except.ok.inj (hsettings.symm.trans hchosen)
  obtain ⟨filter, paths, -, hfind, hread⟩ := loadSources_eq_ok_iff.mp hload
  obtain ⟨places, hnodup, hplaces, hlocations⟩ := FileTree.exists_places_of_generate hread hgenerate
  have hapart : (outputs.map fun output => t.locationOf output.1).Nodup := by
    rw [hlocations]
    exact FileTree.nodup_locationOf hnamed hfind hfree hdir hnodup hplaces
  obtain ⟨-, hlocated⟩ := FileTree.writeOutputs_eq_ok hwrite
  have hrewrites := FileTree.writeOutputs_rewrites t outputs
  rw [hwrite] at hrewrites
  have hdelivered : t.Delivered t' outputs :=
    ⟨hlocated hapart, hapart, fun loc hloc => hrewrites.node?_of_notMem hloc⟩
  exact ⟨sources, outputs, hload, hgenerate, hdelivered, fun output => hdelivered.readText⟩

/-- Two sources, one of them in a file whose name is an extension. -/
def dotSources : List Source :=
  [⟨"src/.ts", "interface Pet \x7b tag: number[] \x7d"⟩,
    ⟨"src/models/user.ts", "interface User \x7b pet: Pet; name: string|null \x7d"⟩]

/-- The records of `dotSources`. -/
def dotFiles : List SourceRecords :=
  [⟨"src/.ts", [.ofFields "Pet" "src/.ts" [⟨"tag", ["number"], false, true, []⟩]]⟩,
    ⟨"src/models/user.ts",
      [.ofFields "User" "src/models/user.ts"
        [⟨"pet", ["Pet"], false, false, ["Pet"]⟩, ⟨"name", ["string", "null"], false, false, []⟩]]⟩]

/-- What is written for `dotSources`. -/
def dotOutputs : List (Text × Text) :=
  [("src/schemes/.ts.scheme",
      "import \x7b z \x7d from 'zod';\n\n" ++
        "export const PetScheme = z.object(\x7b\n\ttag: z.array(z.number()),\n\x7d);\n"),
    ("src/models/schemes/user.scheme.ts",
      "import \x7b z \x7d from 'zod';\nimport \x7b PetScheme \x7d from './../../schemes/.ts.scheme';\n\n" ++
        "export const UserScheme = z.object(\x7b\n\tpet: PetScheme,\n" ++
        "\tname: z.string().or(z.null()),\n\x7d);\n")]

/-- A tree with `dotSources`, an output module that is out of date, and a file that is no source. -/
def dotTree : FileTree :=
  let files : List Source :=
    [⟨"src/models/schemes/user.scheme.ts", "old"⟩, ⟨"src/notes.txt", "Some notes."⟩]
  (files ++ dotSources).foldl (fun t file => t.addFile file.path (Text.toBytes file.contents))
    (FileTree.empty ["home"])

/-- A search of all directories below `src` for the default pattern. -/
def dotInput : InputOptions := ⟨"src", true, [], none⟩

/-- `dotSources` are found in `dotTree`. -/
theorem loadSources_dotTree :
    loadSources dotTree dotInput (generateSettings {} true false) = .ok dotSources := by
  refine loadSources_eq_ok_iff.mpr
    ⟨_, dotSources.map Source.path, SourceFilter.ofPatterns_nil _, rfl, ?_⟩
  refine Fallible.mapM_eq_ok_iff.mpr (.cons ?_ (.cons ?_ .nil))
  · exact FileTree.readSource_eq_ok_iff.mpr ⟨rfl, FileTree.readText_eq_ok_iff.mpr
      ⟨["home", "src", ".ts"], _, rfl, Text.ofBytes?_toBytes _⟩⟩
  · exact FileTree.readSource_eq_ok_iff.mpr ⟨rfl, FileTree.readText_eq_ok_iff.mpr
      ⟨["home", "src", "models", "user.ts"], _, rfl, Text.ofBytes?_toBytes _⟩⟩

/-- `dotOutputs` are rendered from `dotSources`. -/
theorem generate_dotSources :
    Batch.generate (generateSettings {} true false) dotSources = .ok dotOutputs := by
  have hparse : Batch.parse dotSources = .ok dotFiles := by decide +kernel
  have hsort : DependencyOrder.sort (Batch.records dotFiles) = .ok (Batch.records dotFiles) := by
    cbv
  rw [Batch.generate_eq_of_sort hparse hsort]
  decide +kernel

/-- The run on the tree writes both outputs. -/
theorem run_dotTree : run dotTree (.generate dotInput true false false)
      = (wrote (dotOutputs.map Prod.fst), (dotTree.writeOutputs dotOutputs).2) ∧
    (wrote (dotOutputs.map Prod.fst)).exitCode = 0 := by
  refine run_generate_eq_iff.mpr ⟨dotOutputs, ?_, Prod.ext (by decide +kernel) rfl, rfl⟩
  exact rendered_eq_ok_iff.mpr ⟨{}, dotSources, rfl, loadSources_dotTree, generate_dotSources⟩

/-- The run on `dotTree` replaces the old output module, makes a directory for the other and leaves
the notes alone. -/
theorem run_dotTree_delivers :
    dotTree.Named ∧ ∃ t', run dotTree (.generate dotInput true false false)
        = (wrote (dotOutputs.map Prod.fst), t') ∧ dotTree.Delivered t' dotOutputs ∧
      t'.node? ["home", "src", "notes.txt"] = some (.file (Text.toBytes "Some notes.")) := by
  have hnamed : dotTree.Named := by decide +kernel
  obtain ⟨hrun, hexit⟩ := run_dotTree
  obtain ⟨sources, outputs, hload, hgenerate, hdelivered, -⟩ :=
    run_delivers hnamed rfl ⟨"schemes", by decide⟩ (by decide) hrun hexit
  obtain rfl := Except.ok.inj (hload.symm.trans loadSources_dotTree)
  obtain rfl := Except.ok.inj (hgenerate.symm.trans generate_dotSources)
  refine ⟨hnamed, _, hrun, hdelivered, ?_⟩
  have hnotes : dotTree.node? ["home", "src", "notes.txt"]
      = some (.file (Text.toBytes "Some notes.")) := rfl
  rcases hdelivered.elsewhere ["home", "src", "notes.txt"] (by decide +kernel) with
    hsame | ⟨hnone, -⟩
  · rw [hsame, hnotes]
  · rw [hnotes] at hnone
    cases hnone

end Request

/-! ## (3) The same run again -/

section

variable {t t' : FileTree} {filter : SourceFilter} {root : Text} {recursive : Bool}
  {paths places : List Text} {s : Settings} (hfilter : SourceFilter.ofPatterns s [] = .ok filter)
  (hscheme : s.schemeInfix = "scheme") (hdir : s.schemesDir = "schemes")

include hfilter hscheme hdir

/-- `filter.accepts` nothing at the location of an output module. -/
theorem FileTree.accepts_at_output (hroot : root ≠ []) {source : List Text}
    (hsource : Path.Relative source) {rel : List Text}
    (hloc : t.locationOf root ++ rel
      = t.locationOf (s.outputPath (source.foldl Path.join root))) :
    filter.accepts root (rel.foldl Path.join root) = false := by
  have hfree : '/' ∉ s.schemeInfix := by
    rw [hscheme]
    decide
  have hnames : Path.names s.schemesDir = ["schemes"] := by
    rw [hdir]
    decide
  have hfile := Path.fileName?_foldl_join hroot hsource.2
    (List.getLast?_eq_getLast_of_ne_nil hsource.1)
  rw [locationOf_outputPath t s hfree hnames (by decide) hfile,
    locationOf_foldl_join t hroot hsource.2, List.dropLast_append_of_ne_nil hsource.1,
    List.append_assoc] at hloc
  obtain rfl := List.append_cancel_left hloc
  refine SourceFilter.accepts_module_eq_false hscheme hfilter hroot (fun name hname => ?_) hfile
    (by simp)
  rcases List.mem_append.mp hname with hmem | hmem
  · exact hsource.2 name (List.dropLast_subset _ hmem)
  · rcases List.mem_pair.mp hmem with rfl | rfl
    · decide
    · exact Path.isFileName_of_fileName? (Settings.fileName?_outputPath s hfree hfile)

variable (hnamed : t.Named) (hfind : t.findSources filter root recursive = .ok paths)
  (hplaces : ∀ p ∈ places, p ∈ paths)

include hnamed hfind hplaces

/-- **What is written is not found.** -/
theorem FileTree.accepts_written {rel : List Text} (hroot : root ≠ [])
    (hloc : t.locationOf root ++ rel ∈ places.map fun p => t.locationOf (s.outputPath p)) :
    filter.accepts root (rel.foldl Path.join root) = false := by
  obtain ⟨p, hp, heq⟩ := List.mem_map.mp hloc
  obtain ⟨-, -, source, hsource, rfl⟩ := exists_of_mem_findSources hnamed hfind (hplaces p hp)
  exact accepts_at_output hfilter hscheme hdir hroot hsource heq.symm

variable (hrewrites : FileTree.Rewrites (places.map fun p => t.locationOf (s.outputPath p)) t t')

include hrewrites

/-- **`t'.findSources` finds the same sources again.** -/
theorem FileTree.findSources_again : t'.findSources filter root recursive = .ok paths := by
  rcases locate_of_findSources hfind with ⟨loc, hlocate⟩ | ⟨⟨loc, bytes, hlocate⟩, rfl⟩
  · have hroot := ne_nil_of_locate hlocate
    -- the search selects files, and none of those that were written
    have hsame : t'.entries.filterMap (sourceAt filter root recursive loc)
        = t.entries.filterMap (sourceAt filter root recursive loc) := by
      refine hrewrites.filterMap_entries (fun place => ?_) fun place hplace node => ?_
      · rw [Option.eq_none_iff_forall_ne_some]
        intro path hsource
        obtain ⟨rel, bytes, heq, -⟩ := sourceAt_eq_some_iff.mp hsource
        cases heq
      · rw [Option.eq_none_iff_forall_ne_some]
        intro path hsource
        obtain ⟨rel, bytes, heq, -, -, rfl, haccepts⟩ := sourceAt_eq_some_iff.mp hsource
        obtain ⟨rfl, -⟩ := Prod.mk.inj heq
        rw [locate_location hlocate] at hplace
        rw [accepts_written hfilter hscheme hdir hnamed hfind hplaces hroot hplace] at haccepts
        cases haccepts
    have hlocate' := locate_eq_of_keeps hrewrites.keeps hlocate (Or.inl rfl)
    rw [findSources_eq hlocate] at hfind
    rw [findSources_eq hlocate', hsame, hfind]
  · -- the search starts at a file and finds nothing, so nothing has been written there
    obtain ⟨-, -, -, -, hnode⟩ := slot_of_locate_file hlocate
    obtain rfl : places = [] :=
      List.eq_nil_iff_forall_not_mem.mpr fun p hp => List.not_mem_nil (hplaces p hp)
    exact findSources_of_file (locate_eq_of_keeps hrewrites.keeps hlocate
      (Or.inr (hrewrites.node?_file List.not_mem_nil hnode)))

/-- **`t'.readSources` reads them again.** -/
theorem FileTree.readSources_again {sources : List Source}
    (hread : t.readSources paths = .ok sources) : t'.readSources paths = .ok sources := by
  have hall := Fallible.mapM_eq_ok_iff.mp hread
  rw [← hread]
  refine Fallible.mapM_congr fun p hp => ?_
  obtain ⟨source, -, hsource⟩ := Fallible.exists_of_mem_left hall hp
  obtain ⟨hpath, htext⟩ := readSource_eq_ok_iff.mp hsource
  obtain ⟨loc, bytes, hlocate, hbytes⟩ := readText_eq_ok_iff.mp htext
  obtain ⟨-, -, -, -, hnode⟩ := slot_of_locate_file hlocate
  -- the source was found, so its location is not that of an output module
  have hapart : loc ∉ places.map fun p => t.locationOf (s.outputPath p) := by
    obtain ⟨hroot, haccepts, rel, ⟨-, hrel⟩, rfl⟩ := exists_of_mem_findSources hnamed hfind hp
    rw [locate_location hlocate, locationOf_foldl_join t hroot hrel]
    intro hwritten
    rw [accepts_written hfilter hscheme hdir hnamed hfind hplaces hroot hwritten] at haccepts
    cases haccepts
  have hlocate' := locate_eq_of_keeps hrewrites.keeps hlocate
    (Or.inr (hrewrites.node?_file hapart hnode))
  rw [hsource]
  exact readSource_eq_ok_iff.mpr ⟨hpath, readText_eq_ok_iff.mpr ⟨loc, bytes, hlocate', hbytes⟩⟩

end

namespace Request

/-- **`run` on the tree that the same run left** finds the same sources, ends alike and changes
nothing. -/
theorem run_again {t t' : FileTree} {input : InputOptions} {zodImport keepLeadingDot : Bool}
    {outcome : Outcome} (hnamed : t.Named) (hconfig : input.config? = none)
    (hpatterns : input.patterns = [])
    (hrun : run t (.generate input zodImport keepLeadingDot false) = (outcome, t'))
    (hexit : outcome.exitCode = 0) :
    (∃ sources, loadSources t input (generateSettings {} zodImport keepLeadingDot) = .ok sources ∧
      loadSources t' input (generateSettings {} zodImport keepLeadingDot) = .ok sources) ∧
      run t' (.generate input zodImport keepLeadingDot false) = (outcome, t') := by
  have hsettings : ∀ tree, settings tree input = .ok {} := fun tree => by rw [settings, hconfig]
  have hfree : '/' ∉ ({} : Settings).schemeInfix := by decide
  have hdir : Path.IsName ({} : Settings).schemesDir := ⟨"schemes", by decide⟩
  obtain ⟨outputs, hrendered, hwrite, rfl⟩ := run_generate_eq_iff.mp ⟨hrun, hexit⟩
  obtain ⟨chosen, sources, hchosen, hload, hgenerate⟩ := rendered_eq_ok_iff.mp hrendered
  obtain rfl : {} = chosen := Except.ok.inj ((hsettings t).symm.trans hchosen)
  obtain ⟨filter, paths, hfilter, hfind, hread⟩ := loadSources_eq_ok_iff.mp hload
  rw [hpatterns] at hfilter
  obtain ⟨places, hnodup, hplaces, hlocations⟩ := FileTree.exists_places_of_generate hread hgenerate
  obtain ⟨-, hlocated⟩ := FileTree.writeOutputs_eq_ok hwrite
  have hrewrites := FileTree.writeOutputs_rewrites t outputs
  rw [hwrite] at hrewrites
  rw [hlocations] at hrewrites hlocated
  -- the first run has left the sources where they were
  have hload' : loadSources t' input (generateSettings {} zodImport keepLeadingDot) = .ok sources := by
    refine loadSources_eq_ok_iff.mpr ⟨filter, paths, hpatterns ▸ hfilter, ?_, ?_⟩
    · exact FileTree.findSources_again hfilter rfl rfl hnamed hfind hplaces hrewrites
    · exact FileTree.readSources_again hfilter rfl rfl hnamed hfind hplaces hrewrites hread
  -- and the output modules where the second run puts them
  have hwrite' : t'.writeOutputs outputs = (.ok (outputs.map Prod.fst), t') := by
    refine FileTree.writeOutputs_of_located fun output houtput => ⟨_, hlocated ?_ output houtput⟩
    exact FileTree.nodup_locationOf hnamed hfind hfree hdir hnodup hplaces
  refine ⟨⟨sources, hload, hload'⟩, ?_⟩
  exact (run_generate_eq_iff.mpr ⟨outputs,
    rendered_eq_ok_iff.mpr ⟨{}, sources, hsettings t', hload', hgenerate⟩, hwrite', rfl⟩).1

/-- The second run on `dotTree` changes nothing. -/
theorem run_dotTree_again :
    dotTree.Named ∧ ∃ t', run dotTree (.generate dotInput true false false)
        = (wrote (dotOutputs.map Prod.fst), t') ∧
      loadSources t' dotInput (generateSettings {} true false) = .ok dotSources ∧
      run t' (.generate dotInput true false false) = (wrote (dotOutputs.map Prod.fst), t') := by
  have hnamed : dotTree.Named := by decide +kernel
  obtain ⟨hrun, hexit⟩ := run_dotTree
  obtain ⟨⟨sources, hload, hload'⟩, hrun'⟩ := run_again hnamed rfl rfl hrun hexit
  obtain rfl := Except.ok.inj (hload.symm.trans loadSources_dotTree)
  exact ⟨hnamed, _, hrun, hload', hrun'⟩

end Request

end InterfaceSchemes
