import SceneMarkup.Analysis.Recommendation
import SceneMarkup.Command.Invocation
import SceneMarkup.Command.Settings
import SceneMarkup.Command.Task
import SceneMarkup.Prompt.OptionsJson

/-!
# Running invocations

## Main definitions

* `Failure` — why there is no answer.
* `Request.task` — the task of a request.
* `run` — the task of the program.
-/

namespace SceneMarkup
namespace Command

open Text

/-! ### Failures -/

/-- Why there is no answer. -/
inductive Failure where
  /-- The settings file cannot be read. -/
  | unreadableSettings (path : String) (fault : ReadFault)
  /-- The settings file holds no settings. -/
  | invalidSettings (path : String) (fault : Json.RecordFault)
  /-- The selection cannot be read. -/
  | unreadableSelection (source : Source) (fault : ReadFault)
  /-- There is no selection in what was read. -/
  | invalidSelection (source : Source) (error : DocumentError)
  /-- A source cannot be read. -/
  | unreadableSource (source : Source) (fault : ReadFault)
  /-- The session has no answer. -/
  | session (error : SessionError)

/-- A fault of reading with its own cause. -/
def readCauses (fault : ReadFault) : List String := ["IO error: " ++ fault.message, fault.message]

/-- The words for a failure and for its causes, each with those of the next among them. -/
def Failure.causes : Failure → List String
  | .unreadableSettings path fault => ["Cannot read config " ++ path, fault.message]
  | .invalidSettings path fault => ["Invalid config " ++ path, fault.message]
  | .unreadableSelection source fault =>
    ("Failed to load selection from " ++ source.name) :: readCauses fault
  | .invalidSelection source error =>
    ["Failed to load selection from " ++ source.name, "Parse error: " ++ error.message,
      error.message] ++ error.cause?.toList
  | .unreadableSource source fault => ("Failed to read " ++ source.name) :: readCauses fault
  | .session error => [error.message]

/-- The outcome of a failure. -/
def Failure.outcome (f : Failure) : Outcome where
  code := 1
  err := "\nError: " ++ String.intercalate ": " f.causes ++ "\n\n"

/-- The task that only fails. -/
def Task.fail (f : Failure) : Task := .finish f.outcome

/-! ### Sources -/

/-- Goes on with the text of a source. -/
def withText (path : String) (next : List Char → Task) : Task :=
  .read (.ofPath path) fun
    | .ok text => next text
    | .error fault => .fail (.unreadableSource (.ofPath path) fault)

/-- Goes on with the selection in a source. -/
def withSelection (path : String) (next : Selection → Task) : Task :=
  .read (.ofPath path) fun
    | .ok text =>
      match Selection.parse text with
      | .ok s => next s
      | .error error => .fail (.invalidSelection (.ofPath path) error)
    | .error fault => .fail (.unreadableSelection (.ofPath path) fault)

/-- Goes on with the settings in a file.  A file that nobody named may be missing. -/
def withSettings (directory : String) (named : Option String) (next : ResponseOptions → Task) :
    Task :=
  let path := named.getD (directory ++ settingsFileName)
  .read (.file path) fun
    | .ok text =>
      match ResponseOptions.ofText? text with
      | .ok o => next o
      | .error fault => .fail (.invalidSettings path fault)
    | .error fault =>
      if named.isNone && fault == .notFound then next {} else .fail (.unreadableSettings path fault)

/-! ### Output -/

/-- A text with a line feed at its end. -/
def terminated (s : String) : String := if s.toList.getLast? = some '\n' then s else s ++ "\n"

/-- The task that only writes a text. -/
def Task.write (out : String) : Task := .finish { out := out }

/-- The structure of a selection. -/
def structureReport (s : Selection) : Format → String
  | .text => terminated (analyze s.roots).recommendation
  | .json => Json.prettyString (analyze s.roots).toJson ++ "\n"

/-- A finding of the nesting lint, as lines of text. -/
def findingLines (d : Stylesheet.Diagnostic) : String :=
  "  warning [" ++ d.rule ++ "] line " ++ Nat.repr d.line ++ ": " ++ d.message ++ "\n" ++
    match d.suggestion with
    | some suggestion => "    hint: " ++ suggestion ++ "\n"
    | none => ""

/-- The findings of the nesting lint about a source. -/
def lintReport (path : String) (ds : List Stylesheet.Diagnostic) : Format → String
  | .json => Json.prettyString (.array (ds.map Stylesheet.Diagnostic.toJson)) ++ "\n"
  | .text =>
    (if ds.isEmpty then "✓ No issues found!\n" else path ++ "\n") ++
      String.join (ds.map findingLines)

/-! ### Requests -/

/-- A source by the house rules. -/
def normalized (o : ResponseOptions) : Language → List Char → List Char
  | .html, source => Markup.normalize source
  | .scss, source => Stylesheet.normalize o.stylesheet source

/-- The classes of a source. -/
def classesOf : Language → List Char → List String
  | .html, source => Markup.classNames source
  | .scss, source => Stylesheet.classNames source

/-- The task that writes a prompt, if there is one. -/
def Task.writePrompt : Except SessionError String → Task
  | .ok text => .write (text ++ "\n")
  | .error e => .fail (.session e)

/-- The task of a request. -/
def Request.task (o : ResponseOptions) : Request → Task
  | .analyze selection format =>
    withSelection selection fun s => .write (structureReport s format)
  | .styles selection =>
    withSelection selection fun s =>
      .write (Json.prettyString (Style.ofNodes s.roots).toJson ++ "\n")
  | .normalize language path check =>
    withText path fun source =>
      let result := normalized o language source
      if check then
        if result = source then .finish {}
        else .finish { code := 1, err := "✗ " ++ path ++ " is not normalized\n" }
      else .write (terminated (String.ofList result))
  | .classes language path =>
    withText path fun source => .write (String.join ((classesOf language source).map (· ++ "\n")))
  | .lint path limit format =>
    withText path fun source =>
      let ds := Stylesheet.lintNesting (limit.getD o.stylesheet.nestingLimit) source
      .finish { code := if ds.isEmpty then 0 else 1, out := lintReport path ds format }
  | .markupPrompt selection stylesheet user =>
    withSelection selection fun s =>
      let session := (Session.new o).load s
      match stylesheet with
      | none => .writePrompt (session.markupPrompt user)
      | some path =>
        withText path fun response =>
          .writePrompt ((session.acceptStylesheet response).markupPrompt user)
  | .stylesheetPrompt selection markup user =>
    withSelection selection fun s =>
      let session := (Session.new o).load s
      match markup with
      | none => .writePrompt (session.stylesheetPrompt user)
      | some path => withText path fun code => .writePrompt (session.markupStylePrompt code user)

/-! ### The program -/

/-- The name of the program and its version. -/
def versionLine : String := "handoff 0.1.0\n"

/-- How the program is used. -/
def usageText : String :=
  "Usage: handoff [--verbose] [--config FILE] COMMAND\n\n" ++
    "Commands:\n" ++
    "  analyze INPUT [--format text|json]\n" ++
    "  styles INPUT\n" ++
    "  normalize html|scss INPUT [--check]\n" ++
    "  classes html|scss INPUT\n" ++
    "  lint-scss INPUT [--max-depth N] [--format text|json]\n" ++
    "  prompt html|scss INPUT [--markup FILE] [--classes FILE] [--user-prompt TEXT]\n"

/-- The outcome when the reading of the arguments ends early. -/
def Stop.outcome : Stop → Outcome
  | .help => { out := usageText }
  | .version => { out := versionLine }
  | .usage e => { code := 2, err := "error: " ++ e.message ++ "\n\n" ++ usageText }

/-- The task of the program, in a directory given by its path with a slash at its end. -/
def run (directory : String) (arguments : List String) : Task :=
  match Invocation.parse arguments with
  | .error stop => .finish stop.outcome
  | .ok i => withSettings directory i.settings fun o => i.request.task o

end Command
end SceneMarkup
