import SceneMarkup.Command.Arguments

/-!
# Invocations

What the program can be asked to do on the command line.

## Main definitions

* `Language`, `Format`, `Request` — what is asked for.
* `Invocation` — a request together with the settings file to use.
* `Invocation.parse` — the invocation that some arguments stand for.
-/

namespace SceneMarkup
namespace Command

/-- What a generated source is written in. -/
inductive Language where
  | html
  | scss
  deriving DecidableEq, Repr

/-- How a report is written. -/
inductive Format where
  | text
  | json
  deriving DecidableEq, Repr

/-- What is asked for.  Sources are given by their paths. -/
inductive Request where
  /-- The structure of a selection. -/
  | analyze (selection : String) (format : Format)
  /-- The style of a selection. -/
  | styles (selection : String)
  /-- A source by the house rules, or whether it follows them. -/
  | normalize (language : Language) (source : String) (check : Bool)
  /-- The classes of a source. -/
  | classes (language : Language) (source : String)
  /-- The lines of a stylesheet that are nested too deeply. -/
  | lint (source : String) (limit : Option Nat) (format : Format)
  /-- The prompt for a markup, perhaps with the classes of a stylesheet. -/
  | markupPrompt (selection : String) (stylesheet : Option String) (user : String)
  /-- The prompt for a stylesheet, perhaps for a markup. -/
  | stylesheetPrompt (selection : String) (markup : Option String) (user : String)
  deriving DecidableEq, Repr

/-- A request together with the settings file to use. -/
structure Invocation where
  /-- The settings file, if one is named. -/
  settings : Option String
  /-- What is asked for. -/
  request : Request
  deriving DecidableEq, Repr

/-! ### Values -/

/-- The language of a word. -/
def language? : String → Option Language
  | "html" => some .html
  | "scss" => some .scss
  | _ => none

/-- The format of a word. -/
def format? : String → Option Format
  | "text" => some .text
  | "json" => some .json
  | _ => none

/-- The number that some digits stand for, after those read so far. -/
def digitsValue? (n : Nat) : List Char → Option Nat
  | [] => some n
  | c :: s => if c.isDigit then digitsValue? (n * 10 + (c.toNat - '0'.toNat)) s else none

/-- A natural number of sixty-four bits, perhaps with a plus sign. -/
def limit? (s : String) : Option Nat :=
  let digits :=
    match s.toList with
    | '+' :: ds => ds
    | ds => ds
  match digits with
  | [] => none
  | ds => (digitsValue? 0 ds).filter (· < Nat.pow 2 64)

/-- Whether a value can be a path. -/
def isPath (s : String) : Bool := !s.isEmpty

/-! ### Grammars -/

/-- The option that asks for help. -/
def helpOption : OptionSpec := ⟨"help", some 'h', .help⟩

/-- The options that are known everywhere.  Being verbose changes nothing about the answers. -/
def globalOptions : List OptionSpec :=
  [⟨"verbose", some 'v', .switch⟩, ⟨"config", none, .valued isPath⟩, helpOption]

/-- The option for the format of a report. -/
def formatOption : OptionSpec := ⟨"format", some 'f', .valued fun s => (format? s).isSome⟩

/-- The operand for a language. -/
def languageOperand : Slot := ⟨"language", fun s => (language? s).isSome⟩

/-- The operand for a source. -/
def inputOperand : Slot := ⟨"input", isPath⟩

/-- A subcommand: its arguments, and the request that their values stand for. -/
structure Subcommand where
  /-- The name. -/
  name : String
  /-- The options apart from those known everywhere. -/
  options : List OptionSpec
  /-- The operands. -/
  operands : List Slot
  /-- The request. -/
  request? : Values → Option Request

/-- The value of the option for a format, which has a default. -/
def formatOf (vs : Values) : Format := ((vs.lookup "format").bind format?).getD .text

/-- The value of the operand for a language. -/
def languageOf? (vs : Values) : Option Language := (vs.lookup "language").bind language?

/-- The value of the operand for a source. -/
def inputOf? (vs : Values) : Option String := vs.lookup "input"

/-- The subcommand for the structure of a selection. -/
def analyzeCommand : Subcommand where
  name := "analyze"
  options := [formatOption]
  operands := [inputOperand]
  request? vs := (inputOf? vs).map fun input => .analyze input (formatOf vs)

/-- The subcommand for the style of a selection. -/
def stylesCommand : Subcommand where
  name := "styles"
  options := []
  operands := [inputOperand]
  request? vs := (inputOf? vs).map .styles

/-- The subcommand for the house rules. -/
def normalizeCommand : Subcommand where
  name := "normalize"
  options := [⟨"check", none, .switch⟩]
  operands := [languageOperand, inputOperand]
  request? vs :=
    match languageOf? vs, inputOf? vs with
    | some language, some input => some (.normalize language input (vs.lookup "check").isSome)
    | _, _ => none

/-- The subcommand for classes. -/
def classesCommand : Subcommand where
  name := "classes"
  options := []
  operands := [languageOperand, inputOperand]
  request? vs :=
    match languageOf? vs, inputOf? vs with
    | some language, some input => some (.classes language input)
    | _, _ => none

/-- The subcommand for lines that are nested too deeply. -/
def lintCommand : Subcommand where
  name := "lint-scss"
  options := [⟨"max-depth", none, .valued fun s => (limit? s).isSome⟩, formatOption]
  operands := [inputOperand]
  request? vs :=
    (inputOf? vs).map fun input =>
      .lint input ((vs.lookup "max-depth").bind limit?) (formatOf vs)

/-- The subcommand for prompts. -/
def promptCommand : Subcommand where
  name := "prompt"
  options :=
    [⟨"markup", none, .valued isPath⟩, ⟨"classes", none, .valued isPath⟩,
     ⟨"user-prompt", some 'u', .valued fun _ => true⟩]
  operands := [languageOperand, inputOperand]
  request? vs :=
    let user := (vs.lookup "user-prompt").getD ""
    match languageOf? vs, inputOf? vs with
    | some .html, some input => some (.markupPrompt input (vs.lookup "classes") user)
    | some .scss, some input => some (.stylesheetPrompt input (vs.lookup "markup") user)
    | _, _ => none

/-- All subcommands. -/
def subcommands : List Subcommand :=
  [analyzeCommand, stylesCommand, normalizeCommand, classesCommand, lintCommand, promptCommand]

/-- The name of the subcommand that asks for help. -/
def helpName : String := "help"

/-- The arguments in front of a subcommand. -/
def topGrammar : Grammar where
  options := globalOptions ++ [⟨"version", some 'V', .version⟩]
  operands := []
  subcommands := helpName :: subcommands.map Subcommand.name

/-- The arguments of a subcommand. -/
def Subcommand.grammar (c : Subcommand) : Grammar where
  options := globalOptions ++ c.options
  operands := c.operands
  subcommands := []

/-- What asking for help about some subcommands ends with: there is help about one at a time. -/
def helpStop : List String → Stop
  | [] => .help
  | [name] =>
    if topGrammar.subcommands.contains name then .help else .usage (.unexpectedOperand name)
  | _ :: name :: _ => .usage (.unexpectedOperand name)

/-- The invocation of a subcommand with its arguments.  What is pending from in front of the
subcommand is settled last, and a settings file named behind it goes before one named in front. -/
def Subcommand.invocation (c : Subcommand) (before : Progress) (texts : List String) :
    Except Stop Invocation :=
  match c.grammar.read texts with
  | .error e => .error e
  | .ok (behind, _) =>
    match behind.finish with
    | .error e => .error e
    | .ok vs =>
      match before.finish with
      | .error e => .error e
      | .ok us =>
        match c.request? vs with
        | some request =>
          .ok { settings := (vs.lookup "config").or (us.lookup "config"), request := request }
        | none => .error (.usage .missingSubcommand)

/-- The invocation that some arguments stand for. -/
def Invocation.parse (texts : List String) : Except Stop Invocation :=
  match topGrammar.read texts with
  | .error e => .error e
  | .ok (before, none) =>
    match before.finish with
    | .error e => .error e
    | .ok _ => .error (.usage .missingSubcommand)
  | .ok (before, some (name, texts)) =>
    if name = helpName then .error (helpStop texts)
    else
      match subcommands.find? fun c => c.name == name with
      | some c => c.invocation before texts
      | none => .error (.usage .missingSubcommand)

end Command
end SceneMarkup
