import SceneMarkup.Decimal.Layout
import SceneMarkup.Json.Value
import SceneMarkup.Text.Quoted

/-!
# Decoding JSON values

A record can be given as an object or as an array that holds its fields in order.  The members of an
object are taken in the order of their keys, the items of an array in that of the fields; the first
value of a wrong kind is reported, and after that the first field that is missing.  Unknown members
are passed over.

## Main definitions

* `Misfit` — why a value does not decode.
* `Decoder` — a reader of one type of values, with those of strings, truth values and numbers.
* `decodeRecord` — the reader of a record.
-/

namespace SceneMarkup
namespace Json

/-- Why a value does not decode. -/
inductive Misfit where
  /-- A value of a wrong kind. -/
  | wrongKind (found : Json) (expected : String)
  /-- A number of the right kind that is out of range. -/
  | wrongValue (found : Json) (expected : String)
  /-- A field without a value. -/
  | missing (field : String)
  /-- A field given twice. -/
  | duplicate (field : String)
  /-- An array of a wrong length. -/
  | wrongLength (n : Nat) (expected : String)
  /-- A word that is none of the known ones. -/
  | unknownWord (found : String) (known : List String)

/-- What a value is called in a message. -/
def kindText : Json → String
  | .null => "null"
  | .bool b => "boolean `" ++ (if b then "true" else "false") ++ "`"
  | .number (.integer i) => "integer `" ++ Int.repr i ++ "`"
  | .number (.real x) => "floating point `" ++ Decimal.floatText x ++ "`"
  | .string s => "string " ++ Text.quoted s
  | .array _ => "sequence"
  | .object _ => "map"

/-- Words in a row, each between backquotes. -/
def wordsText (ws : List String) : String :=
  String.intercalate ", " (ws.map fun w => "`" ++ w ++ "`")

/-- The words for a misfit. -/
def Misfit.message : Misfit → String
  | .wrongKind found expected => "invalid type: " ++ kindText found ++ ", expected " ++ expected
  | .wrongValue found expected => "invalid value: " ++ kindText found ++ ", expected " ++ expected
  | .missing field => "missing field `" ++ field ++ "`"
  | .duplicate field => "duplicate field `" ++ field ++ "`"
  | .wrongLength n expected => "invalid length " ++ Nat.repr n ++ ", expected " ++ expected
  | .unknownWord found known =>
    "unknown variant `" ++ found ++ "`, expected one of " ++ wordsText known

/-- A reader of one type of values. -/
abbrev Decoder (α : Type) := Json → Except Misfit α

/-- A string. -/
def decodeString : Decoder String
  | .string s => .ok s
  | v => .error (.wrongKind v "a string")

/-- A truth value. -/
def decodeBool : Decoder Bool
  | .bool b => .ok b
  | v => .error (.wrongKind v "a boolean")

/-- A natural number of sixty-four bits. -/
def decodeNat : Decoder Nat
  | .number (.integer i) =>
    if i < 0 then .error (.wrongValue (.number (.integer i)) "usize") else .ok i.toNat
  | v => .error (.wrongKind v "usize")

/-- A floating-point number. -/
def decodeFloat : Decoder Float
  | .number n => .ok n.toFloat
  | v => .error (.wrongKind v "f64")

/-- A value that may be `null`. -/
def decodeOption {α : Type} (d : Decoder α) : Decoder (Option α)
  | .null => .ok none
  | v =>
    match d v with
    | .ok a => .ok (some a)
    | .error e => .error e

/-- The items of a list, decoded in order. -/
def decodeItems {α : Type} (d : Decoder α) : List Json → Except Misfit (List α)
  | [] => .ok []
  | v :: vs =>
    match d v with
    | .error e => .error e
    | .ok a =>
      match decodeItems d vs with
      | .error e => .error e
      | .ok as => .ok (a :: as)

/-- A list. -/
def decodeList {α : Type} (d : Decoder α) : Decoder (List α)
  | .array vs => decodeItems d vs
  | v => .error (.wrongKind v "a sequence")

/-- One of some known words, given as a string or as the only key of an object whose value is
`null`. -/
def decodeWord {α : Type} (known : List (String × α)) : Decoder α
  | .string s => find s
  | .object [(k, v)] =>
    match find k, v with
    | .ok a, .null => .ok a
    | .ok _, v => .error (.wrongKind v "unit")
    | .error e, _ => .error e
  | .object ms => .error (.wrongValue (.object ms) "map with a single key")
  | v => .error (.wrongKind v "string or map")
where
  /-- The value of a word. -/
  find (s : String) : Except Misfit α :=
    match known.find? fun entry => entry.1 == s with
    | some entry => .ok entry.2
    | none => .error (.unknownWord s (known.map Prod.fst))

/-- What a record under construction makes of the value of one of its fields. -/
abbrev FieldStep (α : Type) := α → String → Json → Except Misfit α

/-- A record with the members of an object put into it. -/
def decodeMembers {α : Type} (step : FieldStep α) (a : α) :
    List (String × Json) → Except Misfit α
  | [] => .ok a
  | (k, v) :: ms =>
    match step a k v with
    | .ok a => decodeMembers step a ms
    | .error e => .error e

/-- A record with the items of an array put into its fields, in order. -/
def decodeFields {α : Type} (step : FieldStep α) (a : α) :
    List String → List Json → Except Misfit α
  | k :: ks, v :: vs =>
    match step a k v with
    | .ok a => decodeFields step a ks vs
    | .error e => .error e
  | _, _ => .ok a

/-- The type of a record as far as its decoding goes. -/
structure Shape where
  /-- What the record is called in a message. -/
  name : String
  /-- The fields in order. -/
  fields : List String
  /-- The fields that may be missing. -/
  optional : List String := []
  /-- The fields that may be missing from an object, but not from an array. -/
  nullable : List String := []

/-- What is wrong with an array for a record: it ends before a field that must be there, or it goes
on behind the last. -/
def Shape.lengthMisfit? (s : Shape) (n : Nat) : Option Misfit :=
  if (s.fields.drop n).any fun f => !s.optional.contains f then
    some (.wrongLength n (s.name ++ " with " ++ Nat.repr s.fields.length ++ " elements"))
  else if s.fields.length < n then some (.wrongLength n "fewer elements in array")
  else none

/-- What is wrong with an object for a record: a field that must be there is missing. -/
def Shape.missing? (s : Shape) (ms : List (String × Json)) : Option Misfit :=
  (s.fields.find? fun f =>
    !s.optional.contains f && !s.nullable.contains f && (lookup? f ms).isNone).map .missing

/-- A record, from the empty one by its fields. -/
def decodeRecord {α : Type} (shape : Shape) (step : FieldStep α) (empty : α) : Decoder α
  | .object ms =>
    match decodeMembers step empty ms with
    | .error e => .error e
    | .ok a =>
      match shape.missing? ms with
      | some e => .error e
      | none => .ok a
  | .array vs =>
    match decodeFields step empty shape.fields vs with
    | .error e => .error e
    | .ok a =>
      match shape.lengthMisfit? vs.length with
      | some e => .error e
      | none => .ok a
  | v => .error (.wrongKind v shape.name)

end Json
end SceneMarkup
