/-!
# Tasks

A task is what the program does: it asks for the text of a source, goes on with what it gets, and
ends with an outcome.  Who carries a task out decides where the texts are from.

## Main definitions

* `Source`, `ReadFault` — sources of texts, and why one cannot be read.
* `Outcome` — what the program leaves behind.
* `Task` — the tasks.
-/

namespace SceneMarkup
namespace Command

/-- A source of text. -/
inductive Source where
  /-- The standard input. -/
  | standardInput
  /-- A file. -/
  | file (path : String)
  deriving DecidableEq, Repr

/-- The source that a path stands for; a lone hyphen is the standard input. -/
def Source.ofPath (path : String) : Source :=
  if path = "-" then .standardInput else .file path

/-- What a source is called in a message. -/
def Source.name : Source → String
  | .standardInput => "<stdin>"
  | .file path => path

/-- Why a source cannot be read. -/
inductive ReadFault where
  /-- There is none. -/
  | notFound
  /-- It is a directory. -/
  | isDirectory
  /-- A part of its path is a file that would have to be a directory. -/
  | notDirectory
  /-- Its bytes are no text. -/
  | notText
  /-- Anything else, in the words of the system. -/
  | other (message : String)
  deriving DecidableEq, Repr

/-- The words for a fault. -/
def ReadFault.message : ReadFault → String
  | .notFound => "No such file or directory (os error 2)"
  | .isDirectory => "Is a directory (os error 21)"
  | .notDirectory => "Not a directory (os error 20)"
  | .notText => "stream did not contain valid UTF-8"
  | .other message => message

/-- What the program leaves behind. -/
structure Outcome where
  /-- The exit code. -/
  code : Nat := 0
  /-- What is written to the standard output. -/
  out : String := ""
  /-- What is written to the standard error output. -/
  err : String := ""
  deriving DecidableEq, Repr

/-- What the program does. -/
inductive Task where
  /-- It ends. -/
  | finish (outcome : Outcome)
  /-- It asks for the text of a source and goes on. -/
  | read (source : Source) (next : Except ReadFault (List Char) → Task)

end Command
end SceneMarkup
