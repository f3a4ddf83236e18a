import InterfaceSchemes.FileTree.Failure
import InterfaceSchemes.Text.Utf8

/-!
# File trees

A file tree is the list of its directories and files, each at the names that lead there from the
root. The list is kept in the order of these names, so a directory stands before what it holds and
the whole list is the walk through the tree that takes each directory's entries by name. Relative
paths start at the home directory of the tree.

* `FileTree.node?` looks at a location, `FileTree.put` changes one;
* `FileTree.empty` is the tree in which only the home directory exists;
* `FileTree.below` lists what a directory holds.
-/

namespace InterfaceSchemes

/-- The names that lead from the root to a directory or file. -/
abbrev Location := List Text

/-- What stands at a location. -/
inductive Node where
  /-- A directory. -/
  | directory
  /-- A file with its bytes. -/
  | file (bytes : ByteArray)

instance : DecidableEq Node
  | .directory, .directory => isTrue rfl
  | .directory, .file _ => isFalse nofun
  | .file _, .directory => isFalse nofun
  | .file a, .file b =>
    if h : a.data = b.data then isTrue (congrArg Node.file (ByteArray.ext h))
    else isFalse fun heq => h (congrArg ByteArray.data (Node.file.inj heq))

/-- What stands where, in the order of the locations. -/
structure FileTree where
  /-- The directories and files. -/
  entries : List (Location × Node)
  /-- Each location is there once, in order. -/
  sorted : entries.Pairwise fun a b => a.1 < b.1
  /-- The directory at which relative paths start. -/
  home : Location

namespace FileTree

/-- The entries with `node` at `loc`, in place of what was there. -/
def putEntry (loc : Location) (node : Node) :
    List (Location × Node) → List (Location × Node)
  | [] => [(loc, node)]
  | entry :: entries =>
    if loc < entry.1 then (loc, node) :: entry :: entries
    else if loc = entry.1 then (loc, node) :: entries
    else entry :: putEntry loc node entries

/-- What is in `putEntry loc node entries` is the new entry or was there before. -/
theorem mem_putEntry {loc : Location} {node : Node} {entries : List (Location × Node)}
    {entry : Location × Node} (h : entry ∈ putEntry loc node entries) :
    entry = (loc, node) ∨ entry ∈ entries := by
  induction entries with
  | nil =>
    rw [putEntry, List.mem_singleton] at h
    exact Or.inl h
  | cons first entries ih =>
    rw [putEntry] at h
    split at h
    · exact List.mem_cons.mp h
    · split at h
      · rcases List.mem_cons.mp h with h | h
        · exact Or.inl h
        · exact Or.inr (List.mem_cons_of_mem _ h)
      · rcases List.mem_cons.mp h with h | h
        · exact Or.inr (h ▸ List.mem_cons_self)
        · exact (ih h).imp_right (List.mem_cons_of_mem _)

/-- `putEntry` keeps the entries in order. -/
theorem pairwise_putEntry {loc : Location} {node : Node} {entries : List (Location × Node)}
    (h : entries.Pairwise fun a b => a.1 < b.1) :
    (putEntry loc node entries).Pairwise fun a b => a.1 < b.1 := by
  induction entries with
  | nil => simp [putEntry]
  | cons first entries ih =>
    obtain ⟨hfirst, hrest⟩ := List.pairwise_cons.mp h
    rw [putEntry]
    split
    · rename_i hlt
      refine List.pairwise_cons.mpr ⟨fun entry hentry => ?_, h⟩
      rcases List.mem_cons.mp hentry with rfl | hentry
      · exact hlt
      · exact List.lt_trans hlt (hfirst entry hentry)
    · rename_i hnot
      split
      · rename_i heq
        refine List.pairwise_cons.mpr ⟨fun entry hentry => ?_, hrest⟩
        have before := hfirst entry hentry
        rw [← heq] at before
        exact before
      · rename_i hne
        refine List.pairwise_cons.mpr ⟨fun entry hentry => ?_, ih hrest⟩
        rcases mem_putEntry hentry with rfl | hentry
        · exact Std.lt_of_le_of_ne (Std.not_lt.mp hnot) (Ne.symm hne)
        · exact hfirst entry hentry

/-- What stands at a location. The root is always a directory. -/
def node? (t : FileTree) (loc : Location) : Option Node :=
  if loc = [] then some .directory else t.entries.lookup loc

/-- The tree with `node` at `loc`. -/
def put (t : FileTree) (loc : Location) (node : Node) : FileTree where
  entries := putEntry loc node t.entries
  sorted := pairwise_putEntry t.sorted
  home := t.home

/-- The tree in which nothing exists but the home directory and the directories above it. -/
def empty (home : Location) : FileTree :=
  (List.range home.length).foldl (fun t n => t.put (home.take (n + 1)) .directory)
    ⟨[], .nil, home⟩

/-- What the directory at `loc` holds at any depth, by the names that lead there from it. -/
def below (t : FileTree) (loc : Location) : List (Location × Node) :=
  t.entries.filterMap fun entry =>
    match afterFront? loc entry.1 with
    | some (name :: names) => some (name :: names, entry.2)
    | _ => none

end FileTree

end InterfaceSchemes
