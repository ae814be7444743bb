/-!
# Command-line arguments

Arguments are read from left to right.  An option may stand anywhere; its value is attached to it or
is the next argument, unless that looks like an option itself.  A value is settled, that is, checked
and recorded, only when the next option or operand starts or the arguments end.  After `--` all
arguments are operands.

## Main definitions

* `Slot`, `OptionSpec`, `Grammar` — what arguments there can be.
* `UsageError`, `Stop` — why the reading ends early.
* `Progress` — what has been read.
* `Grammar.read` — the reading, up to a subcommand if there is one.
-/

namespace SceneMarkup
namespace Command

/-- A place for a value. -/
structure Slot where
  /-- What the value is called. -/
  name : String
  /-- Which values are allowed. -/
  accepts : String → Bool

/-- What an option is for. -/
inductive OptionRole where
  /-- It is given or not. -/
  | switch
  /-- It has a value. -/
  | valued (accepts : String → Bool)
  /-- It asks for help. -/
  | help
  /-- It asks for the version. -/
  | version

/-- An option. -/
structure OptionSpec where
  /-- The name, which is written behind two hyphens. -/
  long : String
  /-- The letter, which is written behind one hyphen. -/
  short : Option Char
  /-- What it is for. -/
  role : OptionRole

/-- What arguments there can be. -/
structure Grammar where
  /-- The options. -/
  options : List OptionSpec
  /-- The operands in order, all of which must be given. -/
  operands : List Slot
  /-- The names of subcommands; one of them ends the reading. -/
  subcommands : List String

/-- What is wrong with the arguments. -/
inductive UsageError where
  /-- An option is not known. -/
  | unknownOption (text : String)
  /-- An option that has no value is given one. -/
  | unneededValue (name : String)
  /-- An option lacks its value. -/
  | missingValue (name : String)
  /-- A value is not allowed. -/
  | invalidValue (name value : String)
  /-- An option is given twice. -/
  | repeated (name : String)
  /-- There is one operand too many. -/
  | unexpectedOperand (text : String)
  /-- An operand is missing. -/
  | missingOperand (name : String)
  /-- There is no subcommand. -/
  | missingSubcommand
  deriving DecidableEq, Repr

/-- The words for an error. -/
def UsageError.message : UsageError → String
  | .unknownOption text => "unknown option " ++ text
  | .unneededValue name => "the option " ++ name ++ " has no value"
  | .missingValue name => "a value is missing for " ++ name
  | .invalidValue name value => "the value '" ++ value ++ "' is not allowed for " ++ name
  | .repeated name => "the option " ++ name ++ " is given more than once"
  | .unexpectedOperand text => "unexpected argument '" ++ text ++ "'"
  | .missingOperand name => "the argument " ++ name ++ " is missing"
  | .missingSubcommand => "a subcommand is missing"

/-- Why the reading ends early. -/
inductive Stop where
  /-- Help is asked for. -/
  | help
  /-- The version is asked for. -/
  | version
  /-- Something is wrong. -/
  | usage (error : UsageError)
  deriving DecidableEq, Repr

/-- Values by name. -/
abbrev Values := List (String × String)

/-- What has been read. -/
structure Progress where
  /-- The values that are settled, the last one first. -/
  settled : Values := []
  /-- The place whose value is still to be settled, and the value unless it is still to come. -/
  pending : Option (Slot × Option String) := none
  /-- The operands that are still to come. -/
  operands : List Slot
  /-- Whether all arguments from here on are operands. -/
  trailing : Bool := false

namespace Progress

/-- Records a value; no place has two. -/
def record (p : Progress) (slot : Slot) (value : String) : Except Stop Progress :=
  if (p.settled.lookup slot.name).isSome then .error (.usage (.repeated slot.name))
  else if slot.accepts value then .ok { p with settled := (slot.name, value) :: p.settled }
  else .error (.usage (.invalidValue slot.name value))

/-- Settles the value that is still to be settled. -/
def settle (p : Progress) : Except Stop Progress :=
  match p.pending with
  | none => .ok p
  | some (slot, some value) => { p with pending := none }.record slot value
  | some (slot, none) => .error (.usage (.missingValue slot.name))

/-- Whether the value of an option is still to come. -/
def isWaiting (p : Progress) : Bool :=
  match p.pending with
  | some (_, none) => true
  | _ => false

/-- Reads an operand. -/
def readOperand (p : Progress) (text : String) : Except Stop Progress :=
  match p.settle with
  | .error e => .error e
  | .ok p =>
    match p.operands with
    | [] => .error (.usage (.unexpectedOperand text))
    | slot :: slots => .ok { p with pending := some (slot, some text), operands := slots }

/-- Reads an option that is given or not. -/
def readSwitch (p : Progress) (name : String) : Except Stop Progress :=
  match p.settle with
  | .error e => .error e
  | .ok p => p.record ⟨name, fun _ => true⟩ ""

/-- Reads an option with its value, if that is attached. -/
def readValued (p : Progress) (slot : Slot) (attached : Option (List Char)) :
    Except Stop Progress :=
  match p.settle with
  | .error e => .error e
  | .ok p =>
    match attached with
    | some value => p.record slot (String.ofList value)
    | none => .ok { p with pending := some (slot, none) }

/-- Ends the reading because an option says so. -/
def stop (p : Progress) (why : Stop) : Except Stop Progress :=
  match p.settle with
  | .error e => .error e
  | .ok _ => .error why

/-- The values when the arguments have ended. -/
def finish (p : Progress) : Except Stop Values :=
  match p.settle with
  | .error e => .error e
  | .ok p =>
    match p.operands with
    | [] => .ok p.settled
    | slot :: _ => .error (.usage (.missingOperand slot.name))

end Progress

/-- The text before the first equals sign, and the text after it if there is one. -/
def splitEquals : List Char → List Char × Option (List Char)
  | [] => ([], none)
  | c :: s =>
    if c = '=' then ([], some s)
    else
      let (name, value) := splitEquals s
      (c :: name, value)

namespace Grammar

/-- Reads an option by its name, with what is attached to it behind an equals sign. -/
def readLong (g : Grammar) (p : Progress) (text : List Char) : Except Stop Progress :=
  let (name, value) := splitEquals text
  match g.options.find? fun o => o.long.toList == name with
  | none => .error (.usage (.unknownOption ("--" ++ String.ofList name)))
  | some o =>
    match o.role, value with
    | .valued accepts, value => p.readValued ⟨o.long, accepts⟩ value
    | _, some _ => .error (.usage (.unneededValue o.long))
    | .switch, none => p.readSwitch o.long
    | .help, none => p.stop .help
    | .version, none => p.stop .version

/-- Reads options by their letters; what follows the letter of an option with a value is that value,
with or without an equals sign. -/
def readShort (g : Grammar) (p : Progress) : List Char → Except Stop Progress
  | [] => .ok p
  | c :: s =>
    match g.options.find? fun o => o.short == some c with
    | none => .error (.usage (.unknownOption (String.ofList ['-', c])))
    | some o =>
      match o.role with
      | .valued accepts =>
        match s with
        | [] => p.readValued ⟨o.long, accepts⟩ none
        | '=' :: value => p.readValued ⟨o.long, accepts⟩ (some value)
        | value => p.readValued ⟨o.long, accepts⟩ (some value)
      | .switch =>
        match p.readSwitch o.long with
        | .error e => .error e
        | .ok p => readShort g p s
      | .help => p.stop .help
      | .version => p.stop .version

/-- Reads one argument. -/
def readArgument (g : Grammar) (p : Progress) (text : String) : Except Stop Progress :=
  if p.trailing then p.readOperand text
  else
    match text.toList with
    -- a value that is still to come is not settled by the two hyphens, but will be missing
    | ['-', '-'] => .ok { p with trailing := true }
    | '-' :: '-' :: s => g.readLong p s
    | '-' :: c :: s => g.readShort p (c :: s)
    -- a single hyphen is a value like any other
    | _ =>
      match p.pending with
      | some (slot, none) => .ok { p with pending := some (slot, some text) }
      | _ => p.readOperand text

/-- Reads arguments up to a subcommand; the answer is what has been read, and the subcommand with
the arguments behind it if there is one. -/
def readFrom (g : Grammar) (p : Progress) :
    List String → Except Stop (Progress × Option (String × List String))
  | [] => .ok (p, none)
  | text :: texts =>
    if !p.trailing && !p.isWaiting && g.subcommands.contains text then .ok (p, some (text, texts))
    else
      match g.readArgument p text with
      | .error e => .error e
      | .ok p => readFrom g p texts

/-- Reads arguments from their start. -/
def read (g : Grammar) (texts : List String) :
    Except Stop (Progress × Option (String × List String)) :=
  g.readFrom { operands := g.operands } texts

end Grammar
end Command
end SceneMarkup
