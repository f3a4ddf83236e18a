import InterfaceSchemes.Declaration.Basic
import InterfaceSchemes.Error
import InterfaceSchemes.Record
import InterfaceSchemes.Scheme.Basic

/-!
# Fields and records

The body of a declaration is cut at semicolons and line ends into fields. A field is a name, a colon
and the types that its values may have; a question mark after the name says that the value may be
missing, empty brackets after the types say that it is a list.
-/

namespace InterfaceSchemes

namespace Field

/-- Whether a character ends a field. -/
def isSeparator (c : Char) : Bool := c == ';' || c == '\n'

/-- The name before the colon, and whether it is marked as one that may be missing. -/
def readName (s : Text) : Text × Bool :=
  match beforeBack? "?" (Text.trim s) with
  | some name => (Text.trim name, true)
  | none => (Text.trim s, false)

/-- The types after the colon, and whether they are marked as the types of a list. -/
def readTypes (s : Text) : List Text × Bool :=
  match beforeBack? "[]" (Text.trim s) with
  | some types => ((Text.splitAt '|' types).map Text.trim, true)
  | none => ((Text.splitAt '|' (Text.trim s)).map Text.trim, false)

/-- The types that are not primitive, each once, in the order in which they first occur. -/
def recordTypes (types : List Text) : List Text :=
  (types.filter fun name => !Primitive.isPrimitive name).eraseDups

/-- Reads a field. Its name and its types must not be empty, and there is exactly one colon. -/
def read? (s : Text) : Option Field :=
  match Text.splitAt ':' s with
  | [left, right] =>
    let (name, nullable) := readName left
    let (types, isArray) := readTypes right
    if name.isEmpty || types.any List.isEmpty then none
    else some ⟨name, types, nullable, isArray, recordTypes types⟩
  | _ => none

/-- The texts of the fields in the body of a declaration. -/
def texts (body : Text) : List Text :=
  ((Text.splitWhere isSeparator body).map Text.trim).filter fun piece => !piece.isEmpty

/-- Reads a field of a declaration in the source at `path`. -/
def ofText (path s : Text) : Except Error Field :=
  match read? s with
  | some field => .ok field
  | none => .error (.malformedField path s)

end Field

/-- The record that a declaration in the source at `path` declares. -/
def Record.ofDeclaration (path : Text) (d : Declaration) : Except Error Record :=
  if d.body.groups.isEmpty then do
    let fields ← (Field.texts d.body.first).mapM (Field.ofText path)
    return Record.ofFields d.name path fields
  else .error (.nestedGroup path d.text)

/-- The records that a source declares. -/
def SourceRecords.ofSource (source : Source) : Except Error SourceRecords := do
  let records ← (Declaration.all source.contents).mapM (Record.ofDeclaration source.path)
  return ⟨source.path, records⟩

end InterfaceSchemes
