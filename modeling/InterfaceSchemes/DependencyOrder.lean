import InterfaceSchemes.Error
import InterfaceSchemes.Record

/-!
# Dependency order

Records are ordered so that each stands after the records it uses. The records are visited in the
order in which they are given; a visit first settles what the record uses and then appends the
record itself, so a record moves only where a dependency forces it to.

* `DependencyOrder.duplicate?` finds the first repeated name;
* `DependencyOrder.settle` visits the records with given names;
* `DependencyOrder.sort` orders a list of records, or tells why it cannot be ordered.
-/

namespace InterfaceSchemes.DependencyOrder

/-- The first record whose name an earlier one has, as an error about the two. -/
def duplicate? (seen : List Record) : List Record → Option Error
  | [] => none
  | r :: records =>
    match seen.find? fun earlier => earlier.name == r.name with
    | some earlier => some (.duplicateRecord r.name earlier.sourcePath r.sourcePath)
    | none => duplicate? (seen ++ [r]) records

/-- The record with a given name. -/
def declared? (records : List Record) (name : Text) : Option Record :=
  records.find? fun r => r.name == name

/-- The circle that closes when `name` is used at the end of a path; the newest name of the path
comes first. -/
def cycle (path : List Text) (name : Text) : List Text :=
  name :: ((path.takeWhile fun onPath => onPath != name).reverse ++ [name])

/-- The records whose names are not on the path. -/
def offPath (records : List Record) (path : List Text) : List Record :=
  records.filter fun r => !path.contains r.name

/-- `offPath` gets shorter with a declared name that is not on the path. -/
theorem length_offPath_lt {records : List Record} {path : List Text} {name : Text} {r : Record}
    (found : declared? records name = some r) (fresh : name ∉ path) :
    (offPath records (name :: path)).length < (offPath records path).length := by
  have member : r ∈ records := List.mem_of_find?_eq_some found
  have named : r.name = name := by simpa using List.find?_some found
  have inner : offPath records (name :: path)
      = (offPath records path).filter fun r => decide (r.name ≠ name) := by
    rw [offPath, offPath, List.filter_filter]
    congr 1
    funext r
    simp
  rw [inner]
  refine List.length_filter_lt_length_iff_exists.mpr ⟨r, ?_, ?_⟩
  · simp [offPath, member, named, fresh]
  · simp [named]

/-- Settles the records with the given names, one after the other, after those in `done`. The path
holds the names of the records that wait for this, the newest first. -/
def settle (records : List Record) (path : List Text) (done : List Record) :
    List Text → Except Error (List Record)
  | [] => .ok done
  | name :: names =>
    match _found : declared? records name with
    | none => .error (.missingDependency name (path.headD []))
    | some r =>
      if done.any fun settled => settled.name == name then settle records path done names
      else if _onPath : name ∈ path then .error (.cyclicDependency (cycle path name))
      else
        match settle records (name :: path) done r.dependsOn with
        | .error error => .error error
        | .ok done => settle records path (done ++ [r]) names
termination_by names => ((offPath records path).length, names.length)
decreasing_by
  · exact Prod.Lex.right _ (by simp)
  · exact Prod.Lex.left _ _ (length_offPath_lt _found _onPath)
  · exact Prod.Lex.right _ (by simp)

/-- The records in dependency order. A repeated name is reported before anything else. -/
def sort (records : List Record) : Except Error (List Record) :=
  match duplicate? [] records with
  | some error => .error error
  | none => settle records [] [] (records.map Record.name)

end InterfaceSchemes.DependencyOrder
