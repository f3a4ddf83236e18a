import InterfaceSchemes.Text.Basic

/-!
# Command-line arguments

An argument that starts with two dashes is a flag by its name, with its value after an equals sign or
in the next argument; one dash and a letter is a flag by its letter, with its value right behind it or
in the next argument. Two dashes alone end the flags. Everything else is an operand, which is a path,
and a command takes only so many of them. Arguments are refused at the first that makes no sense.

* `Flag` describes a flag;
* `Arguments.read` sorts arguments into flags and operands, or refuses them.
-/

namespace InterfaceSchemes

/-- What a flag takes. -/
inductive FlagKind where
  /-- No value: the flag is there or not. -/
  | switch
  /-- A path, which is not empty. -/
  | path
  /-- Any text. -/
  | text
deriving DecidableEq

/-- A flag that a command knows. -/
structure Flag where
  /-- The name, without the dashes. -/
  name : Text
  /-- What the flag takes. -/
  kind : FlagKind
  /-- Another name. -/
  alias? : Option Text := none
  /-- The letter, for use after a single dash. -/
  letter? : Option Char := none
  /-- Whether the flag may be given more than once. -/
  repeatable : Bool := false

/-- Why arguments are not carried out. -/
inductive Refusal where
  /-- They make no sense. -/
  | usage
  /-- They ask for help. -/
  | help
deriving DecidableEq

/-- Arguments that make sense. -/
structure Arguments where
  /-- The flags by name, with their values, in the order in which they are given. -/
  flags : List (Text × Text) := []
  /-- The operands in order. -/
  operands : List Text := []

namespace Arguments

/-- Whether a flag is given. -/
def has (a : Arguments) (name : Text) : Bool := a.flags.any fun flag => flag.1 == name

/-- The value of a flag. -/
def value? (a : Arguments) (name : Text) : Option Text := a.flags.lookup name

/-- All values of a flag in order. -/
def values (a : Arguments) (name : Text) : List Text :=
  (a.flags.filter fun flag => flag.1 == name).map Prod.snd

/-- The arguments with one more flag, unless it is there already or its value is not allowed. -/
def addFlag (a : Arguments) (flag : Flag) (value : Text) : Except Refusal Arguments :=
  if !flag.repeatable && a.has flag.name then .error .usage
  else if flag.kind = .path ∧ value = [] then .error .usage
  else .ok { a with flags := a.flags ++ [(flag.name, value)] }

/-- The arguments with one more operand, of which there may be `most`. -/
def addOperand (most : Nat) (a : Arguments) (arg : Text) : Except Refusal Arguments :=
  if arg = [] ∨ most ≤ a.operands.length then .error .usage
  else .ok { a with operands := a.operands ++ [arg] }

/-- Whether an argument can be the value of the flag before it. -/
def isValue (arg : Text) : Bool :=
  match arg with
  | '-' :: _ :: _ => false
  | _ => true

/-- The name and the value of an argument after its two dashes. -/
def splitFlag (arg : Text) : Text × Option Text :=
  match arg.dropWhile (· != '=') with
  | _ :: value => (arg.takeWhile (· != '='), some value)
  | [] => (arg, none)

/-- The value that stands right behind the letter of a flag. -/
def attached? (behind : Text) : Option Text :=
  match behind with
  | [] => none
  | '=' :: value => some value
  | value => some value

/-- What an argument is. -/
inductive Reading where
  /-- The end of the flags. -/
  | stop
  /-- A flag, with the value that comes with it. -/
  | flag (flag : Flag) (value? : Option Text)
  /-- Neither a flag nor a way to end the flags. -/
  | operand
  /-- A request for help. -/
  | help
  /-- A flag that is not known. -/
  | unknown

/-- Reads one argument. -/
def reading (known : List Flag) (arg : Text) : Reading :=
  match arg with
  | ['-', '-'] => .stop
  | '-' :: '-' :: rest =>
    let (name, value?) := splitFlag rest
    if name = "help" ∧ value? = none then .help
    else
      match known.find? fun flag => flag.name == name || flag.alias? == some name with
      | some flag => .flag flag value?
      | none => .unknown
  | '-' :: letter :: behind =>
    if letter = 'h' then .help
    else
      match known.find? fun flag => flag.letter? == some letter with
      | some flag => .flag flag (attached? behind)
      | none => .unknown
  | _ => .operand

/-- Sorts arguments into flags and operands, after those that have been read. -/
def readFrom (known : List Flag) (most : Nat) (a : Arguments) :
    List Text → Except Refusal Arguments
  | [] => .ok a
  | arg :: args =>
    match reading known arg with
    | .stop => args.foldlM (addOperand most) a
    | .help => .error .help
    | .unknown => .error .usage
    | .operand =>
      match addOperand most a arg with
      | .error refusal => .error refusal
      | .ok a => readFrom known most a args
    | .flag flag value? =>
      match flag.kind, value?, args with
      | .switch, some _, _ => .error .usage
      | .switch, none, args =>
        match a.addFlag flag [] with
        | .error refusal => .error refusal
        | .ok a => readFrom known most a args
      | _, some value, args =>
        match a.addFlag flag value with
        | .error refusal => .error refusal
        | .ok a => readFrom known most a args
      | _, none, [] => .error .usage
      | _, none, value :: args =>
        match if isValue value then a.addFlag flag value else .error .usage with
        | .error refusal => .error refusal
        | .ok a => readFrom known most a args

/-- Sorts arguments into flags and at most `most` operands. -/
def read (known : List Flag) (most : Nat) (args : List Text) : Except Refusal Arguments :=
  readFrom known most {} args

end Arguments

end InterfaceSchemes
