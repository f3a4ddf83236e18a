import InterfaceSchemes.Text.Basic

/-!
# Schemes and the primitive types

A scheme says how emitted code refers to a type: by an expression, and by the imports that the
expression needs. The primitive types have fixed schemes.
-/

namespace InterfaceSchemes

/-- An import of an output module. -/
structure Import where
  /-- The imported names. -/
  symbols : List Text
  /-- A module name, or the place of an output module without its extension. -/
  origin : Text
  /-- Whether the origin is a place that is spelled relative to the importing module. -/
  resolveRelative : Bool
deriving DecidableEq

/-- The name by which imports of one module are told apart. -/
def Import.leadingSymbol? (i : Import) : Option Text := i.symbols.head?

/-- How emitted code refers to a type. -/
structure Scheme where
  /-- The expression for the type. -/
  expr : Text
  /-- What the expression needs. -/
  imports : List Import
deriving DecidableEq

namespace Primitive

/-- The types that need no declaration, with their schemes. -/
def table : List (Text × Scheme) :=
  [("number", ⟨"z.number()", []⟩),
    ("string", ⟨"z.string()", []⟩),
    ("boolean", ⟨"z.boolean()", []⟩),
    ("any", ⟨"z.any()", []⟩),
    ("null", ⟨"z.null()", []⟩),
    ("undefined", ⟨"z.undefined()", []⟩),
    ("DateTime",
      ⟨"z.string().datetime().transform(dt => DateTime.fromISO(dt))",
        [⟨["DateTime"], "luxon", false⟩]⟩)]

/-- The primitive types in the order of the table. -/
def names : List Text := table.map Prod.fst

/-- The scheme of a primitive type. -/
def scheme? (name : Text) : Option Scheme := table.lookup name

/-- Whether a type is primitive. -/
def isPrimitive (name : Text) : Bool := (scheme? name).isSome

end Primitive

end InterfaceSchemes
