import SceneMarkup.Json.Printer
import SceneMarkup.Json.Reader
import SceneMarkup.Scene.Record
import SceneMarkup.Scene.Selection

/-!
# Selections as JSON documents

A selection is exchanged as a JSON document.  When it is read, the document may also be a bare array
of nodes, a single node, or `null`.  The depths of the nodes are recomputed.

## Main definitions

* `DocumentError` — what is wrong with a document.
* `Selection.ofJson?`, `Selection.parse` — reading.
* `Selection.toJson`, `Selection.render` — writing.
-/

namespace SceneMarkup

open Json

/-- What is wrong with a document. -/
inductive DocumentError where
  /-- It is no JSON text. -/
  | syntactic (fault : Fault)
  /-- Its root is of the wrong kind. -/
  | unexpectedRoot (found : String)
  /-- One of its trees has a record that does not decode. -/
  | invalidNode (index : Nat) (misfit : Misfit)

/-- The words for an error. -/
def DocumentError.message : DocumentError → String
  | .syntactic fault => "Invalid scene JSON: " ++ fault.message
  | .unexpectedRoot found =>
    "Unexpected root: expected a selection document, an array of nodes or a node, found " ++ found
  | .invalidNode index misfit =>
    "Invalid node at selection[" ++ Nat.repr index ++ "]: " ++ misfit.message

/-- The words for what caused an error, as far as it is told apart from the error itself. -/
def DocumentError.cause? : DocumentError → Option String
  | .syntactic fault => some fault.message
  | _ => none

/-- The kind of a JSON value. -/
def kindName : Json → String
  | .null => "null"
  | .bool _ => "boolean"
  | .number _ => "number"
  | .string _ => "string"
  | .array _ => "array"
  | .object _ => "object"

/-- The name of the file that a document states. -/
def fileNameOf (ms : List (String × Json)) : Option String :=
  match (lookup? "figmaFile" ms).or (lookup? "file" ms) with
  | some file => (member? "name" file).bind string?
  | none => none

/-- The trees of some JSON values, of which the first has an index. -/
def rootsFrom (index : Nat) : List Json → Except DocumentError (List SceneNode)
  | [] => .ok []
  | v :: vs =>
    match NodeRecord.decode v with
    | .error e => .error (.invalidNode index e)
    | .ok r =>
      match rootsFrom (index + 1) vs with
      | .error e => .error e
      | .ok ns => .ok (r.toNode 0 :: ns)

namespace Selection

/-- The selection with a file name and the trees of some JSON values. -/
def ofItems (fileName : Option String) (vs : List Json) : Except DocumentError Selection :=
  match rootsFrom 0 vs with
  | .error e => .error e
  | .ok roots => .ok ⟨fileName, roots⟩

/-- The selection of a JSON value. -/
def ofJson? : Json → Except DocumentError Selection
  | .null => ofItems none []
  | .array vs => ofItems none vs
  | .object ms =>
    match lookup? "selection" ms with
    | some (.array vs) => ofItems (fileNameOf ms) vs
    | some .null => ofItems (fileNameOf ms) []
    | some v => .error (.unexpectedRoot ("selection of type " ++ kindName v))
    | none => ofItems none [.object ms]
  | v => .error (.unexpectedRoot (kindName v))

/-- The selection of a JSON text. -/
def parse (text : List Char) : Except DocumentError Selection :=
  match read text with
  | .error fault => .error (.syntactic fault)
  | .ok v => ofJson? v

/-- The JSON document of a selection. -/
def toJson (s : Selection) : Json :=
  .object
    (optionalMember "figmaFile" (fun name => .object [("name", .string name)]) s.fileName ++
      [("selection", .array (SceneNode.toJsons s.roots))])

/-- The JSON text of a selection. -/
def render (s : Selection) : List Char := pretty s.toJson

end Selection
end SceneMarkup
