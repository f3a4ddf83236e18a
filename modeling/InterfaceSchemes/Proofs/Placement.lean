import InterfaceSchemes.Placement
import InterfaceSchemes.Proofs.Path

/-! # Where output modules are found

The place of an output module is put together as text. This file says what the text means as a
path: which names it has, that it keeps the extension and the root of its source, and when one
output module can import from another.

* **`Settings.schemeBase_eq_iff`** — which sources have their schemes in one place.
* **`Settings.fileName_eq_of_moduleName_eq`** — the name of a module tells that of its source.
* **`Settings.outputPath_eq_iff`** — which sources have one output module.
* **`Settings.names_outputPath`** — the names are those of the directory of the source, those of
  the scheme directory, and the name of the module.
* **`Settings.extension_outputPath`** — the extension of the source is the extension of its module.
* **`Settings.exists_importPath`** — imports between two modules can always be spelled. -/

namespace InterfaceSchemes.Settings

/-! ## (1) The name of a module -/

/-- The file name of the output module of a source. -/
def moduleName (s : Settings) (source : Text) : Text :=
  (Path.stem? source).getD [] ++ '.' :: (s.schemeInfix ++ Path.extension source)

/-- `s.schemeBase source`, by its separators. -/
theorem schemeBase_eq (s : Settings) (source : Text) :
    s.schemeBase source = Path.directory source ++ '/' :: (s.schemesDir ++ '/' ::
      ((Path.stem? source).getD [] ++ '.' :: s.schemeInfix)) := by
  simp [schemeBase]

/-- `s.outputPath source`, by its separators. -/
theorem outputPath_eq (s : Settings) (source : Text) :
    s.outputPath source =
      Path.directory source ++ '/' :: (s.schemesDir ++ '/' :: s.moduleName source) := by
  simp [outputPath, schemeBase, moduleName]

/-- `'/' ∈ s.schemeBase source`: a place of schemes is never the name of a library. -/
theorem slash_mem_schemeBase (s : Settings) (source : Text) : '/' ∈ s.schemeBase source := by
  rw [schemeBase_eq]
  simp

/-- A file name is its stem, which is not empty, and its extension. -/
theorem stem_append_extension {source name : Text} (hname : Path.fileName? source = some name) :
    (Path.stem? source).getD [] ++ Path.extension source = name ∧
      (Path.stem? source).getD [] ≠ [] := by
  have hvoid : name ≠ [] := by
    rintro rfl
    exact absurd (Path.of_mem_names (Path.mem_names_of_fileName? hname)).2 (by decide)
  rw [Path.stem?, Path.extension, hname, Option.map_some, Option.getD_some, Option.bind_some]
  rcases Path.splitName_cases name with hsplit | ⟨stem, ext, hsplit, hjoined, hstem, -⟩
  · rw [hsplit]
    exact ⟨List.append_nil name, hvoid⟩
  · rw [hsplit]
    exact ⟨hjoined.symm, hstem⟩

/-- A file name, put together from its two parts, holds no separator. -/
theorem slash_notMem_stem_append (source : Text) :
    '/' ∉ (Path.stem? source).getD [] ++ Path.extension source := by
  cases hname : Path.fileName? source with
  | none => simp [Path.stem?, Path.extension, hname]
  | some name =>
    rw [(stem_append_extension hname).1]
    exact (Path.of_mem_names (Path.mem_names_of_fileName? hname)).1

/-- A stem holds no separator. -/
theorem slash_notMem_stem (source : Text) : '/' ∉ (Path.stem? source).getD [] :=
  fun hmem => slash_notMem_stem_append source (List.mem_append_left _ hmem)

/-- An extension holds no separator. -/
theorem slash_notMem_extension (source : Text) : '/' ∉ Path.extension source :=
  fun hmem => slash_notMem_stem_append source (List.mem_append_right _ hmem)

/-- The name of a module holds no separator, unless the infix does. -/
theorem slash_notMem_moduleName (s : Settings) (hfree : '/' ∉ s.schemeInfix) (source : Text) :
    '/' ∉ s.moduleName source := by
  rw [moduleName, List.mem_append, List.mem_cons, List.mem_append]
  rintro (hmem | hmem | hmem | hmem)
  · exact slash_notMem_stem source hmem
  · exact absurd hmem (by decide)
  · exact hfree hmem
  · exact slash_notMem_extension source hmem

/-- **`s.moduleName source` is a name**: not void and no step upward. A stem that is a single dot
comes with an extension. -/
theorem moduleName_spec (s : Settings) {source name : Text} (hfree : '/' ∉ s.schemeInfix)
    (hname : Path.fileName? source = some name) :
    Path.names (s.moduleName source) = [s.moduleName source] ∧ s.moduleName source ≠ Path.up := by
  obtain ⟨hjoined, hstem⟩ := stem_append_extension hname
  have hvoid := (Path.of_mem_names (Path.mem_names_of_fileName? hname)).2
  obtain ⟨c, stem, hcons⟩ := List.exists_cons_of_ne_nil hstem
  constructor
  · apply Path.names_singleton (slash_notMem_moduleName s hfree source)
    rw [moduleName, hcons, Path.isVoid]
    cases stem <;> simp
  · intro hup
    rw [moduleName, hcons, Path.up, List.cons_append, List.cons.injEq] at hup
    obtain ⟨rfl, hrest⟩ := hup
    cases stem with
    | cons d stem => simp at hrest
    | nil =>
      -- then the file name of the source is a single dot, which is void
      simp only [List.nil_append, List.cons.injEq, true_and, List.append_eq_nil_iff] at hrest
      rw [← hjoined, hcons, hrest.2] at hvoid
      exact absurd hvoid (by decide)

/-- Sources without a stem have no file name. -/
theorem stem?_eq_iff {p q : Text} :
    Path.stem? p = Path.stem? q ↔ (Path.stem? p).getD [] = (Path.stem? q).getD [] := by
  have hne : ∀ source stem, Path.stem? source = some stem → stem ≠ [] := by
    intro source stem hstem
    obtain ⟨name, hname, -⟩ := Option.map_eq_some_iff.mp hstem
    have hnonempty := (stem_append_extension hname).2
    rwa [hstem] at hnonempty
  refine ⟨fun heq => by rw [heq], fun heq => ?_⟩
  cases hp : Path.stem? p with
  | none =>
    cases hq : Path.stem? q with
    | none => rfl
    | some stem =>
      rw [hp, hq] at heq
      exact absurd heq.symm (hne q stem hq)
  | some stem =>
    cases hq : Path.stem? q with
    | none =>
      rw [hp, hq] at heq
      exact absurd heq (hne p stem hp)
    | some other =>
      rw [hp, hq] at heq
      exact congrArg some heq

/-- **`s.schemeBase p = s.schemeBase q`** exactly if `p` and `q` have the same directory and the
same stem. -/
theorem schemeBase_eq_iff (s : Settings) {p q : Text} :
    s.schemeBase p = s.schemeBase q ↔
      Path.directory p = Path.directory q ∧ Path.stem? p = Path.stem? q := by
  have hbase : ∀ source, s.schemeBase source
      = ((Path.directory source ++ '/' :: s.schemesDir) ++ '/' :: (Path.stem? source).getD [])
        ++ '.' :: s.schemeInfix := by
    intro source
    simp [schemeBase]
  rw [hbase, hbase, List.append_left_inj, stem?_eq_iff]
  constructor
  · intro heq
    obtain ⟨hfront, hstem⟩ :=
      Text.append_cons_inj (slash_notMem_stem p) (slash_notMem_stem q) heq
    exact ⟨List.append_cancel_right hfront, hstem⟩
  · rintro ⟨hdirectory, hstem⟩
    rw [hdirectory, hstem]

/-- **`s.moduleName` puts the infix before the extension**, or at the end of a name that has none.
-/
theorem moduleName_cases (s : Settings) {source name : Text}
    (hname : Path.fileName? source = some name) :
    Path.splitName name = (name, none) ∧ s.moduleName source = name ++ '.' :: s.schemeInfix ∨
      ∃ stem ext, name = stem ++ '.' :: ext ∧ stem ≠ [] ∧ '.' ∉ ext ∧
        s.moduleName source = (stem ++ '.' :: s.schemeInfix) ++ '.' :: ext := by
  rw [moduleName, Path.stem?, Path.extension, hname, Option.map_some, Option.getD_some,
    Option.bind_some]
  rcases Path.splitName_cases name with hsplit | ⟨stem, ext, hsplit, hjoined, hstem, hdot⟩
  · rw [hsplit]
    exact Or.inl ⟨rfl, by rw [List.append_nil]⟩
  · rw [hsplit]
    exact Or.inr ⟨stem, ext, hjoined, hstem, hdot, by simp⟩

/-- A name without an extension and one with an extension give different modules. -/
theorem append_infix_ne (s : Settings) {name stem : Text} (hname : Path.splitName name = (name, none))
    (hstem : stem ≠ []) (ext : Text) :
    name ++ '.' :: s.schemeInfix ≠ (stem ++ '.' :: s.schemeInfix) ++ '.' :: ext := by
  intro heq
  have hlength := congrArg List.length heq
  rw [List.append_assoc] at heq
  -- the name is longer than the stem by as much as the extension has characters
  rcases List.append_eq_append_iff.mp heq with ⟨rest, hstemEq, -⟩ | ⟨rest, rfl, hrest⟩
  · have hshort := congrArg List.length hstemEq
    simp only [List.length_append, List.length_cons] at hlength hshort
    omega
  · cases rest with
    | nil =>
      simp only [List.length_append, List.length_cons, List.length_nil] at hlength
      omega
    | cons c rest =>
      obtain rfl : '.' = c := (List.cons.inj hrest).1
      obtain ⟨before, after, hsplit⟩ := Path.exists_extension_of_dot hstem rest
      rw [hsplit] at hname
      cases hname

/-- **`s.moduleName` tells the file name of the source**, whatever the infix. -/
theorem fileName_eq_of_moduleName_eq (s : Settings) {p q a b : Text}
    (hp : Path.fileName? p = some a) (hq : Path.fileName? q = some b)
    (heq : s.moduleName p = s.moduleName q) : a = b := by
  rcases moduleName_cases s hp with ⟨hsplit, hmodule⟩ | ⟨stem, ext, rfl, hstem, hdot, hmodule⟩ <;>
    rcases moduleName_cases s hq with ⟨hsplit', hmodule'⟩ | ⟨stem', ext', rfl, hstem', hdot', hmodule'⟩
  · rw [hmodule, hmodule'] at heq
    exact List.append_cancel_right heq
  · rw [hmodule, hmodule'] at heq
    exact absurd heq (append_infix_ne s hsplit hstem' ext')
  · rw [hmodule, hmodule'] at heq
    exact absurd heq.symm (append_infix_ne s hsplit' hstem ext)
  · rw [hmodule, hmodule'] at heq
    obtain ⟨hfront, rfl⟩ := Text.append_cons_inj hdot hdot' heq
    rw [List.append_cancel_right hfront]

/-- If the infix has a separator, what stands behind the last one tells the extension of the source. -/
theorem extension_eq_of_outputPath_eq (s : Settings) (hslash : '/' ∈ s.schemeInfix) {p q : Text}
    (heq : s.outputPath p = s.outputPath q) : Path.extension p = Path.extension q := by
  obtain ⟨front, back, hsplit, hback⟩ := Text.exists_last hslash
  have hpath : ∀ source, s.outputPath source
      = (Path.directory source ++ '/' :: (s.schemesDir ++ '/' ::
          ((Path.stem? source).getD [] ++ '.' :: front))) ++ '/' :: (back ++ Path.extension source) := by
    intro source
    simp [outputPath, schemeBase_eq, hsplit]
  have hfree : ∀ source, '/' ∉ back ++ Path.extension source := by
    intro source hmem
    rcases List.mem_append.mp hmem with hmem | hmem
    · exact hback hmem
    · exact slash_notMem_extension source hmem
  rw [hpath, hpath] at heq
  exact List.append_cancel_left (Text.append_cons_inj (hfree p) (hfree q) heq).2

/-- **`s.outputPath p = s.outputPath q`** exactly if `p` and `q` have the same directory and the
same file name, whatever stands in the settings. The last separator of the path is that before the
name of the module, or the last one of the infix. -/
theorem outputPath_eq_iff (s : Settings) {p q a b : Text} (hp : Path.fileName? p = some a)
    (hq : Path.fileName? q = some b) :
    s.outputPath p = s.outputPath q ↔ Path.directory p = Path.directory q ∧ a = b := by
  constructor
  · intro heq
    by_cases hslash : '/' ∈ s.schemeInfix
    · -- the extensions are the same, so the places of the schemes are
      have hext := extension_eq_of_outputPath_eq s hslash heq
      rw [outputPath, outputPath, hext] at heq
      obtain ⟨hdirectory, hstem⟩ := (schemeBase_eq_iff s).mp (List.append_cancel_right heq)
      refine ⟨hdirectory, ?_⟩
      rw [← (stem_append_extension hp).1, ← (stem_append_extension hq).1, hstem, hext]
    · rw [outputPath_eq, outputPath_eq, ← List.cons_append, ← List.append_assoc, ← List.cons_append,
        ← List.append_assoc] at heq
      obtain ⟨hfront, hmodule⟩ := Text.append_cons_inj (slash_notMem_moduleName s hslash p)
        (slash_notMem_moduleName s hslash q) heq
      exact ⟨List.append_cancel_right hfront, fileName_eq_of_moduleName_eq s hp hq hmodule⟩
  · rintro ⟨hdirectory, rfl⟩
    rw [outputPath_eq, outputPath_eq, moduleName, moduleName, hdirectory, Path.stem?, Path.stem?,
      Path.extension, Path.extension, hp, hq]

/-! ## (2) Output modules as paths -/

section OutputPath

variable (s : Settings) {source name : Text} (hfree : '/' ∉ s.schemeInfix)
  (hname : Path.fileName? source = some name)

include hfree hname

/-- **The names of `s.outputPath source`**: those of the directory of the source, of the scheme
directory, and the name of the module. -/
theorem names_outputPath :
    Path.names (s.outputPath source) =
      (Path.names source).dropLast ++ (Path.names s.schemesDir ++ [s.moduleName source]) := by
  rw [outputPath_eq, Path.names_append, Path.names_append, Path.names_directory,
    (moduleName_spec s hfree hname).1]

/-- `Path.fileName? (s.outputPath source) = some (s.moduleName source)`. -/
theorem fileName?_outputPath :
    Path.fileName? (s.outputPath source) = some (s.moduleName source) := by
  rw [Path.fileName?_eq_some_iff, names_outputPath s hfree hname]
  exact ⟨by simp, (moduleName_spec s hfree hname).2⟩

/-- The names of the directory of an output module. -/
theorem names_directory_outputPath :
    Path.names (Path.directory (s.outputPath source)) =
      (Path.names source).dropLast ++ Path.names s.schemesDir := by
  rw [Path.names_directory, names_outputPath s hfree hname, ← List.append_assoc,
    List.dropLast_concat]

/-- `s.outputPath source` does not lead upward, unless its source or the scheme directory does. -/
theorem up_notMem_names_outputPath (hdirUp : Path.up ∉ Path.names s.schemesDir)
    (hup : Path.up ∉ Path.names source) : Path.up ∉ Path.names (s.outputPath source) := by
  rw [names_outputPath s hfree hname, List.mem_append, List.mem_append, List.mem_singleton]
  rintro (hmem | hmem | heq)
  · exact hup (List.dropLast_subset _ hmem)
  · exact hdirUp hmem
  · exact (moduleName_spec s hfree hname).2 heq.symm

end OutputPath

/-- **`s.outputPath source` has the extension of `source`.** -/
theorem extension_outputPath (s : Settings) {source : Text} (hfree : '/' ∉ s.schemeInfix)
    (hext : Path.extension source ≠ []) :
    Path.extension (s.outputPath source) = Path.extension source := by
  cases hname : Path.fileName? source with
  | none =>
    rw [Path.extension, hname] at hext
    exact absurd rfl hext
  | some name =>
    rw [Path.extension, hname, Option.bind_some] at hext
    rw [Path.extension, Path.extension, fileName?_outputPath s hfree hname, hname, Option.bind_some,
      Option.bind_some]
    rcases moduleName_cases s hname with ⟨hsplit, -⟩ | ⟨stem, ext, rfl, hstem, hdot, hmodule⟩
    · rw [hsplit] at hext
      exact absurd rfl hext
    · rw [hmodule, Path.splitName_append (by simp) hdot, Path.splitName_append hstem hdot]

/-- An import names the module itself exactly if it leads to the place of the module's schemes. -/
theorem origin_append_extension_iff (s : Settings) {source origin : Text}
    (hfree : '/' ∉ s.schemeInfix) (hext : Path.extension source ≠ []) :
    origin ++ Path.extension (s.outputPath source) = s.outputPath source ↔
      origin = s.schemeBase source := by
  rw [extension_outputPath s hfree hext, outputPath, List.append_left_inj]

/-- `s.schemeBase source` is rooted like `source`. -/
theorem isRooted_schemeBase (s : Settings) {source : Text} (hsource : Path.names source ≠ []) :
    Path.isRooted (s.schemeBase source) = Path.isRooted source := by
  rw [schemeBase_eq, Path.isRooted_directory_append hsource]

/-- `s.outputPath source` is rooted like `source`. -/
theorem isRooted_outputPath (s : Settings) {source : Text} (hsource : Path.names source ≠ []) :
    Path.isRooted (s.outputPath source) = Path.isRooted source := by
  rw [outputPath_eq, Path.isRooted_directory_append hsource]

/-- The directory of an output module is rooted like the source. It is not empty, since the scheme
directory has a name. -/
theorem isRooted_directory_outputPath (s : Settings) {source name : Text}
    (hfree : '/' ∉ s.schemeInfix) (hname : Path.fileName? source = some name)
    (hdir : Path.names s.schemesDir ≠ []) :
    Path.isRooted (Path.directory (s.outputPath source)) = Path.isRooted source := by
  have hne : Path.directory (s.outputPath source) ≠ [] := by
    intro hnil
    have hnames := names_directory_outputPath s hfree hname
    rw [hnil, Path.names_nil, eq_comm, List.append_eq_nil_iff] at hnames
    exact hdir hnames.2
  have houtput : Path.names (s.outputPath source) ≠ [] :=
    List.ne_nil_of_mem (Path.mem_names_of_fileName? (fileName?_outputPath s hfree hname))
  rw [Path.isRooted_directory houtput hne,
    isRooted_outputPath s (List.ne_nil_of_mem (Path.mem_names_of_fileName? hname))]

/-! ## (3) Imports between output modules -/

/-- There is a path from `base` to `target` if they are rooted alike and `base` has no step upward
left over. -/
theorem exists_relativePath {base target : Text}
    (hrooted : Path.isRooted base = Path.isRooted target)
    (hup : Path.isRooted base = true ∨ Path.up ∉ Path.names base) :
    ∃ path, relativePath base target = .ok path := by
  obtain ⟨path, hpath⟩ := Path.exists_relative? hrooted (Path.up_notMem_segments hup)
  exact ⟨path, by rw [relativePath, hpath]⟩

/-- **`s.importPath` between two modules exists**, with the leading dot stripped or not: the sources
are both rooted, or both relative and the importing one does not lead upward. -/
theorem exists_importPath (s : Settings) {importer target name : Text}
    (hdir : Path.names s.schemesDir ≠ []) (hdirUp : Path.up ∉ Path.names s.schemesDir)
    (hfree : '/' ∉ s.schemeInfix) (hname : Path.fileName? importer = some name)
    (htarget : Path.names target ≠ [])
    (hrooted : Path.isRooted importer = Path.isRooted target)
    (hup : Path.isRooted importer = true ∨ Path.up ∉ Path.names importer) :
    ∃ path, s.importPath (s.outputPath importer) (s.schemeBase target) = .ok path := by
  have houtput : Path.isRooted (s.outputPath importer) = Path.isRooted importer :=
    isRooted_outputPath s (List.ne_nil_of_mem (Path.mem_names_of_fileName? hname))
  have hdirectory := isRooted_directory_outputPath s hfree hname hdir
  have htargetRooted : Path.isRooted importer = Path.isRooted (s.schemeBase target) :=
    hrooted.trans (isRooted_schemeBase s htarget).symm
  have hclean : Path.isRooted importer = true ∨ Path.up ∉ Path.names (s.outputPath importer) :=
    hup.imp_right (up_notMem_names_outputPath s hfree hname hdirUp)
  unfold importPath
  split
  · -- the path starts at the module itself
    obtain ⟨path, hpath⟩ := exists_relativePath (houtput.trans htargetRooted)
      (houtput.symm ▸ hclean)
    rw [hpath]
    exact ⟨_, rfl⟩
  · -- the path starts at the directory of the module, which has no other names
    have hcleanDirectory : Path.isRooted importer = true ∨
        Path.up ∉ Path.names (Path.directory (s.outputPath importer)) := by
      rw [Path.names_directory]
      exact hclean.imp_right fun hnot hmem => hnot (List.dropLast_subset _ hmem)
    obtain ⟨path, hpath⟩ := exists_relativePath (hdirectory.trans htargetRooted)
      (hdirectory.symm ▸ hcleanDirectory)
    rw [hpath]
    exact ⟨_, rfl⟩

end InterfaceSchemes.Settings
