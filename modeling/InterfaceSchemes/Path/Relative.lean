import InterfaceSchemes.Path.Basic

/-!
# Clean segments and relative paths

Cleaning a path drops its void pieces and folds each step upward with the name before it. A step
upward with no name before it stays in front of a relative path and vanishes at the root.

* `Path.segments` is the clean form, `Path.normalize` its spelling;
* `Path.relative?` leads from one path to another.
-/

namespace InterfaceSchemes.Path

/-- One more name on a stack of clean segments, the newest first. -/
def pushSegment (rooted : Bool) (stack : List Text) (name : Text) : List Text :=
  if name = up then
    match stack with
    | top :: below =>
      if top ≠ up then below else if rooted then stack else up :: stack
    | [] => if rooted then [] else [up]
  else name :: stack

/-- The clean segments of a path. -/
def segments (p : Text) : List Text :=
  ((names p).foldl (pushSegment (isRooted p)) []).reverse

/-- The clean spelling of a path. -/
def normalize (p : Text) : Text :=
  match isRooted p, segments p with
  | true, parts => '/' :: Text.joinWith "/" parts
  | false, [] => "."
  | false, parts => Text.joinWith "/" parts

/-- What is left of two lists after their longest common beginning. -/
def dropCommon : List Text → List Text → List Text × List Text
  | a :: as, b :: bs => if a = b then dropCommon as bs else (a :: as, b :: bs)
  | as, bs => (as, bs)

/-- The path that leads from `base` to `target`. There is none between a rooted and a relative
path, nor out of a directory whose name is not known. -/
def relative? (base target : Text) : Option Text :=
  if isRooted base ≠ isRooted target then none
  else
    let (back, down) := dropCommon (segments base) (segments target)
    if up ∈ back then none
    else
      match List.replicate back.length up ++ down with
      | [] => some "."
      | parts => some (Text.joinWith "/" parts)

end InterfaceSchemes.Path
