import InterfaceSchemes.Text.Basic

/-!
# Paths as texts

A path is kept as it is spelled. Its *lead* is the separator that makes it rooted, or the dot of a
path that starts at the current directory; what follows the lead is cut at the separators into
*pieces*. A piece that is empty or a single dot is *void*: it leads nowhere. Nothing here asks what
exists on a disk.

* `Path.parent?`, `Path.fileName?`, `Path.stem?`, `Path.extension?` take a path apart;
* `Path.components` is a path up to void pieces;
* `Path.join` and `Path.below?` add a name below a directory and take a directory off again.
-/

namespace InterfaceSchemes.Path

/-- How a path begins. -/
inductive Lead where
  /-- A separator: the path starts at the root. -/
  | root
  /-- A dot on its own: the path starts at the current directory and says so. -/
  | here
  /-- Anything else. -/
  | bare
deriving DecidableEq

/-- The characters of a lead. -/
def Lead.text : Lead → Text
  | .root => "/"
  | .here => "."
  | .bare => ""

/-- The lead of a path. -/
def lead : Text → Lead
  | '/' :: _ => .root
  | ['.'] => .here
  | '.' :: '/' :: _ => .here
  | _ => .bare

/-- Whether a path starts at the root. -/
def isRooted (p : Text) : Bool := lead p == .root

/-- The pieces between the separators after the lead. -/
def pieces (p : Text) : List Text := Text.splitAt '/' (p.drop (lead p).text.length)

/-- A void piece names nothing: it is empty or a single dot. -/
def isVoid (piece : Text) : Bool := piece == [] || piece == ['.']

/-- The name of the directory above. -/
def up : Text := ['.', '.']

/-- The pieces without the void ones at the end. -/
def trimVoid (ps : List Text) : List Text := (ps.reverse.dropWhile isVoid).reverse

/-- The names on a path, with the steps upward among them. -/
def names (p : Text) : List Text := (pieces p).filter fun piece => !isVoid piece

/-- The components of a path: its lead, if it has one, and its names. Two spellings with the same
components differ in void pieces only. -/
def components (p : Text) : List Text :=
  match (lead p).text with
  | [] => names p
  | text => text :: names p

/-- The path without its last component, spelled as before up to there. The root and the empty path
have no parent. -/
def parent? (p : Text) : Option Text :=
  match trimVoid (pieces p) with
  | [] => if lead p = .here then some [] else none
  | ps => some ((lead p).text ++ Text.joinWith "/" (trimVoid ps.dropLast))

/-- The paths above and including `p`, from `p` upward, given the lead and the pieces of `p` from
the last to the first. -/
def ancestorsFrom (text : Text) : List Text → List Text
  | [] => if text = [] then [] else [text]
  | piece :: above =>
    if isVoid piece then ancestorsFrom text above
    else (text ++ Text.joinWith "/" (piece :: above).reverse) :: ancestorsFrom text above

/-- The path without void pieces at its end, its parent, the parent of that and so on. -/
def ancestors (p : Text) : List Text := ancestorsFrom (lead p).text (pieces p).reverse

/-- The last component, when it is a name and not a step upward. -/
def fileName? (p : Text) : Option Text :=
  match (trimVoid (pieces p)).getLast? with
  | some name => if name = up then none else some name
  | none => none

/-- A file name cut at its last dot, if that dot is not its first character: what stands before the
dot, and what stands after it. -/
def splitName (name : Text) : Text × Option Text :=
  match name.reverse.dropWhile (· != '.') with
  | _ :: c :: before =>
    ((c :: before).reverse, some (name.reverse.takeWhile (· != '.')).reverse)
  | _ => (name, none)

/-- The file name without its extension. -/
def stem? (p : Text) : Option Text := (fileName? p).map fun name => (splitName name).1

/-- The extension with its dot; empty if there is none. -/
def extension (p : Text) : Text :=
  match (fileName? p).bind fun name => (splitName name).2 with
  | some ext => '.' :: ext
  | none => []

/-- The directory of a path: its parent without separators at the end, or a dot if the parent is
empty or missing. -/
def directory (p : Text) : Text :=
  match parent? p with
  | some (c :: q) => Text.trimEnd (· == '/') (c :: q)
  | _ => "."

/-- The path of `name` in the directory `p`. -/
def join (p name : Text) : Text :=
  match p.getLast? with
  | none => name
  | some '/' => p ++ name
  | some _ => p ++ '/' :: name

/-- What is left of a list of pieces after its first `n` names. -/
def dropNames : Nat → List Text → List Text
  | 0, ps => ps
  | _ + 1, [] => []
  | n + 1, piece :: ps => if isVoid piece then dropNames (n + 1) ps else dropNames n ps

/-- The part of `p` below `root`, when the components of `root` begin those of `p`. It keeps the
spelling of `p` but for void pieces at its ends. -/
def below? (root p : Text) : Option Text :=
  if (components root).isPrefixOf (components p) then
    if components root = [] then
      some ((lead p).text ++ Text.joinWith "/" (trimVoid (pieces p)))
    else
      let rest := dropNames (names root).length (pieces p)
      some (Text.joinWith "/" (trimVoid (rest.dropWhile isVoid)))
  else none

end InterfaceSchemes.Path
