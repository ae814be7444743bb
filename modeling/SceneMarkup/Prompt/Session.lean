import SceneMarkup.Markup.House
import SceneMarkup.Markup.Wrapper
import SceneMarkup.Prompt.Fence
import SceneMarkup.Prompt.Request
import SceneMarkup.Stylesheet.House
import SceneMarkup.Stylesheet.Selector

/-!
# Sessions

A session carries what later prompts need from earlier responses: the selection, the last markup and
the classes of the last stylesheet.  A new selection makes the other two obsolete.

## Main definitions

* `ResponseOptions` — what can be configured about the handling of responses.
* `Session` — the sessions.
* `Session.load`, `Session.acceptMarkup`, `Session.acceptStylesheet` — what changes a session.
* `Session.analysis`, `Session.markupPrompt`, `Session.stylesheetPrompt`,
  `Session.markupStylePrompt` — what is asked of a session.
-/

namespace SceneMarkup

open Text

/-- What can be configured about the handling of responses. -/
structure ResponseOptions where
  /-- The house rules of stylesheets. -/
  stylesheet : Stylesheet.Options := {}
  /-- Whether the first tag of a markup gets the first class of the stylesheet. -/
  enforceWrapper : Bool := true
  deriving DecidableEq, Repr

/-- What later prompts need from earlier responses. -/
structure Session where
  /-- What is configured. -/
  options : ResponseOptions := {}
  /-- The selection, once there is one. -/
  selection : Option Selection := none
  /-- The last markup for this selection. -/
  markup : Option (List Char) := none
  /-- The classes of the last stylesheet for this selection. -/
  classes : List String := []

/-- Why a session has no answer. -/
inductive SessionError where
  /-- There is no selection. -/
  | missingSelection
  /-- The markup is blank. -/
  | missingMarkup
  deriving DecidableEq, Repr

/-- The words for an error. -/
def SessionError.message : SessionError → String
  | .missingSelection => "No selection loaded; load a scene tree first"
  | .missingMarkup => "No markup to build a stylesheet from"

/-- What becomes of a stylesheet response. -/
structure StylesheetOutcome where
  /-- The stylesheet. -/
  code : List Char
  /-- Its classes. -/
  classes : List String
  /-- The style of the selection. -/
  style : Style

namespace Session

/-- A session in which nothing has happened. -/
def new (options : ResponseOptions) : Session := { options := options }

/-- The session with a new selection. -/
def load (s : Session) (selection : Selection) : Session :=
  { s with selection := some selection, markup := none, classes := [] }

/-- What is asked of the selection, which must be there. -/
def ask {α : Type} (s : Session) (f : Selection → α) : Except SessionError α :=
  match s.selection with
  | some selection => .ok (f selection)
  | none => .error .missingSelection

/-- The structure of the selection. -/
def analysis (s : Session) : Except SessionError Analysis := s.ask fun x => analyze x.roots

/-- The prompt for a markup, with the known classes if there are any. -/
def markupPrompt (s : Session) (user : String) : Except SessionError String :=
  s.ask fun x =>
    if s.classes.isEmpty then Prompt.markupPrompt x user
    else Prompt.classedMarkupPrompt x user s.classes

/-- The markup of a response, by the house rules and with the wrapper class if that is asked for. -/
def markupOf (s : Session) (response : List Char) : List Char :=
  let code := Markup.normalize (Prompt.extractCode response)
  if s.options.enforceWrapper then
    match Markup.pickWrapper s.classes with
    | some wrapper => Markup.ensureWrapper code wrapper.toList
    | none => code
  else code

/-- The session after a markup response. -/
def acceptMarkup (s : Session) (response : List Char) : Session :=
  { s with markup := some (s.markupOf response) }

/-- The prompt for a stylesheet, for the last markup if there is one that is not blank. -/
def stylesheetPrompt (s : Session) (user : String) : Except SessionError String :=
  s.ask fun x =>
    match s.markup with
    | some markup =>
      if allBlank markup then Prompt.stylesheetPrompt x user
      else Prompt.markupStylePrompt markup x user
    | none => Prompt.stylesheetPrompt x user

/-- The prompt for a stylesheet for a given markup, which must not be blank. -/
def markupStylePrompt (s : Session) (markup : List Char) (user : String) :
    Except SessionError String :=
  if allBlank markup then .error .missingMarkup
  else s.ask fun x => Prompt.markupStylePrompt markup x user

/-- The stylesheet of a response, by the house rules. -/
def stylesheetOf (s : Session) (response : List Char) : List Char :=
  Stylesheet.normalize s.options.stylesheet (Prompt.extractCode response)

/-- What becomes of a stylesheet response. -/
def stylesheetOutcome (s : Session) (response : List Char) : StylesheetOutcome where
  code := s.stylesheetOf response
  classes := Stylesheet.classNames (s.stylesheetOf response)
  style :=
    match s.selection with
    | some x => Style.ofNodes x.roots
    | none => {}

/-- The session after a stylesheet response. -/
def acceptStylesheet (s : Session) (response : List Char) : Session :=
  { s with classes := Stylesheet.classNames (s.stylesheetOf response) }

end Session
end SceneMarkup
