import InterfaceSchemes.Placement
import InterfaceSchemes.Record
import InterfaceSchemes.Scheme.Basic

/-!
# Emitting schemes

The scheme of a record is a declaration in the emitted code, with one line for each field. A field
refers to other records by their schemes, so a record has to be emitted after the records it uses.
The registry holds the schemes of the records emitted so far.

* `Registry.scheme` looks a type up, the primitive types first;
* `Registry.emitField` builds the expression of a field;
* `Registry.emit` emits a record and registers its scheme;
* `Registry.emitAll` emits records in order up to the first that fails.
-/

namespace InterfaceSchemes

/-- A field of an emitted scheme. -/
structure SchemeField where
  /-- The name of the field. -/
  name : Text
  /-- The expression for its values. -/
  expr : Text
  /-- What the expression needs. -/
  imports : List Import
deriving DecidableEq

/-- The emitted scheme of a record. -/
structure SchemeDecl where
  /-- The path of the source that declares the record. -/
  sourcePath : Text
  /-- The name of the scheme. -/
  name : Text
  /-- The fields in order. -/
  fields : List SchemeField
  /-- The whole declaration. -/
  raw : Text
  /-- What the fields need, with repeats. -/
  imports : List Import
deriving DecidableEq

/-- The schemes of the records emitted so far, the newest first. -/
abbrev Registry := List (Text × Scheme)

namespace Registry

/-- The scheme of a type. -/
def scheme (registry : Registry) (name : Text) : Except Error Scheme :=
  match (Primitive.scheme? name).or (registry.lookup name) with
  | some scheme => .ok scheme
  | none => .error (.unknownType name)

/-- What one more type adds to a union. -/
def alternative (scheme : Scheme) : Text := ".or(" ++ scheme.expr ++ ")"

/-- The expression for a value of one of several types. -/
def unionExpr (first : Scheme) (others : List Scheme) : Text :=
  first.expr ++ others.flatMap alternative

/-- The expression of a field with this union of types. -/
def fieldExpr (field : Field) (union : Text) : Text :=
  let listed := if field.isArray then "z.array(" ++ union ++ ")" else union
  if field.nullable then listed ++ ".nullable()" else listed

/-- The emitted form of a field of a record from the source at `path`. -/
def emitField (registry : Registry) (path : Text) (field : Field) : Except Error SchemeField := do
  let schemes ← field.types.mapM registry.scheme
  match schemes with
  | [] => throw (.malformedField path field.name)
  | first :: others =>
    return ⟨field.name, fieldExpr field (unionExpr first others),
      schemes.flatMap Scheme.imports⟩

/-- The line of a field. -/
def fieldLine (field : SchemeField) : Text := "\t" ++ field.name ++ ": " ++ field.expr ++ ",\n"

/-- The declaration of the scheme `name` with these fields. -/
def declText (name : Text) (fields : List SchemeField) : Text :=
  "export const " ++ name ++ " = z.object(\x7b\n" ++ fields.flatMap fieldLine ++ "\x7d);"

/-- The scheme by which other records refer to a record. -/
def recordScheme (settings : Settings) (record : Record) : Scheme :=
  let name := record.name ++ settings.schemeSuffix
  ⟨name, [⟨[name], settings.schemeBase record.sourcePath, true⟩]⟩

/-- The emitted scheme of a record. -/
def emitDecl (settings : Settings) (registry : Registry) (record : Record) :
    Except Error SchemeDecl := do
  let fields ← record.fields.mapM (registry.emitField record.sourcePath)
  let name := record.name ++ settings.schemeSuffix
  return ⟨record.sourcePath, name, fields, declText name fields,
    fields.flatMap SchemeField.imports⟩

/-- Emits a record and registers its scheme; a record that fails leaves the registry alone. -/
def emit (settings : Settings) (registry : Registry) (record : Record) :
    Except Error SchemeDecl × Registry :=
  match emitDecl settings registry record with
  | .ok decl => (.ok decl, (record.name, recordScheme settings record) :: registry)
  | .error error => (.error error, registry)

/-- Emits records in order. The records before one that fails stay registered. -/
def emitAll (settings : Settings) (registry : Registry) :
    List Record → Except Error (List SchemeDecl) × Registry
  | [] => (.ok [], registry)
  | record :: records =>
    match emit settings registry record with
    | (.error error, registry) => (.error error, registry)
    | (.ok decl, registry) =>
      let (decls, registry) := emitAll settings registry records
      (decls.map (decl :: ·), registry)

end Registry

end InterfaceSchemes
