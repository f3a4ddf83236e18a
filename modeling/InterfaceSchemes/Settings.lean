import InterfaceSchemes.Text.Basic

/-!
# Settings

The choices that govern how schemes are named, where they are placed and how they are imported.
-/

namespace InterfaceSchemes

/-- The choices of a run. -/
structure Settings where
  /-- Added to the name of each record. -/
  schemeSuffix : Text := "Scheme"
  /-- The directory beside a source that holds its output module. -/
  schemesDir : Text := "schemes"
  /-- Stands between the stem and the extension of an output module. -/
  schemeInfix : Text := "scheme"
  /-- Import paths start at the importing file and lose their first dot, instead of starting at its
  directory. -/
  stripLeadingDot : Bool := true
  /-- Each output module begins by importing the validation library. -/
  zodImport : Bool := false
deriving DecidableEq

end InterfaceSchemes
