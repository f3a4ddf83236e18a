import InterfaceSchemes.Json.Reader
import InterfaceSchemes.Settings

/-!
# Settings from JSON

A settings document gives any of the settings by name; the others keep their defaults.
-/

namespace InterfaceSchemes.Settings

/-- The settings by their names in a document. -/
def shape : List (Json.Member Settings) :=
  [Json.member "schemeSuffix" Json.text fun value s => { s with schemeSuffix := value },
    Json.member "schemesDir" Json.text fun value s => { s with schemesDir := value },
    Json.member "schemeInfix" Json.text fun value s => { s with schemeInfix := value },
    Json.member "stripLeadingDot" Json.boolean fun value s => { s with stripLeadingDot := value },
    Json.member "zodImport" Json.boolean fun value s => { s with zodImport := value }]

/-- Reads settings from tokens. -/
def reader : Json.Reader Settings := Json.shaped "Settings" shape {}

/-- Reads settings from a document. -/
def ofJson (document : Text) : Except Json.Fault Settings := Json.read reader document

end InterfaceSchemes.Settings
