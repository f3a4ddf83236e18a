import InterfaceSchemes.Text.Basic

/-!
# Records

What a source declares: records with named fields. A field lists the types that a value may have,
and a record depends on the records that its fields name.
-/

namespace InterfaceSchemes

/-- A file to read declarations from. -/
structure Source where
  /-- The path, as the caller spells it. -/
  path : Text
  /-- The whole text of the file. -/
  contents : Text
deriving DecidableEq

/-- A field of a record. -/
structure Field where
  /-- The name of the field. -/
  name : Text
  /-- The types of which a value has one. -/
  types : List Text
  /-- Whether the value may be missing. -/
  nullable : Bool
  /-- Whether the value is a list. -/
  isArray : Bool
  /-- The types that are records, each once, in the order in which they first occur. -/
  dependsOn : List Text
deriving DecidableEq

/-- A declared record. -/
structure Record where
  /-- The name of the record. -/
  name : Text
  /-- The path of the source that declares it. -/
  sourcePath : Text
  /-- The fields in the order of their declaration. -/
  fields : List Field
  /-- The records that it uses, each once, in the order in which they first occur. -/
  dependsOn : List Text
deriving DecidableEq

/-- The record with these fields, which depends on what its fields depend on. -/
def Record.ofFields (name sourcePath : Text) (fields : List Field) : Record where
  name := name
  sourcePath := sourcePath
  fields := fields
  dependsOn := (fields.flatMap Field.dependsOn).eraseDups

/-- The records of one source. -/
structure SourceRecords where
  /-- The path of the source. -/
  sourcePath : Text
  /-- The records in the order of their declaration. -/
  records : List Record
deriving DecidableEq

end InterfaceSchemes
