import SceneMarkup.Json.Decode
import SceneMarkup.Json.Skip

/-!
# Reading records from texts

A record can be read straight from a text.  What is wrong with a value is then reported with the
place where the reader stands: behind the value, but in front of an array or an object that it did
not look into.  Members that are not known are passed over; a known one must not come twice.

## Main definitions

* `RecordCause`, `RecordFault` — what is wrong with a text, and where.
* `readAs`, `readListAs` — values of known types.
* `RecordFormat`, `readRecord` — records.
-/

namespace SceneMarkup
namespace Json

/-- What is wrong with the text of a record. -/
inductive RecordCause where
  /-- It is no JSON text. -/
  | syntactic (cause : Cause)
  /-- A value does not fit. -/
  | misfit (misfit : Misfit)

/-- The words for what is wrong. -/
def RecordCause.message : RecordCause → String
  | .syntactic cause => cause.message
  | .misfit m => m.message

/-- What is wrong with the text of a record, and where. -/
structure RecordFault where
  /-- What is wrong. -/
  cause : RecordCause
  /-- Where. -/
  position : Position

/-- The words for a fault. -/
def RecordFault.message (f : RecordFault) : String := located f.cause.message f.position

/-- A fault of the text as a fault of the record. -/
def Fault.ofRecord (f : Fault) : RecordFault := ⟨.syntactic f.cause, f.position⟩

/-- What a reader of a part of a record answers. -/
abbrev RecordReading (α : Type) := Except RecordFault (α × Cursor)

/-- What a reader of a part of a text answers, as part of a record. -/
def liftFault {α : Type} : Except Fault α → Except RecordFault α
  | .ok a => .ok a
  | .error e => .error e.ofRecord

/-- A value that is neither an array nor an object.  An array or an object is not looked into: it
counts as an empty one, and the place stays in front of it. -/
def readOuter (c : Cursor) : Reading Json :=
  let c := c.skipBlanks
  match c.rest with
  | '[' :: _ => .ok (.array [], c)
  | '{' :: _ => .ok (.object [], c)
  | _ => readSimple (c.rest.length + 1) c

/-- A value of a type of which no array and no object is a value. -/
def readAs {α : Type} (d : Decoder α) (c : Cursor) : RecordReading α :=
  match readOuter c with
  | .error e => .error e.ofRecord
  | .ok (v, c) =>
    match d v with
    | .ok a => .ok (a, c)
    | .error m => .error ⟨.misfit m, c.position⟩

/-- The items of a list that are still to come, in at most so many steps. -/
def readItemsAs {α : Type} (d : Decoder α) : Nat → Bool → Cursor → RecordReading (List α)
  | 0, _, c => .error ⟨.syntactic .recursionLimit, c.position⟩
  | fuel + 1, first, c =>
    match nextItem? first c with
    | .error e => .error e.ofRecord
    | .ok none => .ok ([], c.skipBlanks.next)
    | .ok (some c) =>
      match readAs d c with
      | .error e => .error e
      | .ok (a, c) =>
        match readItemsAs d fuel false c with
        | .error e => .error e
        | .ok (as, c) => .ok (a :: as, c)

/-- A list of values. -/
def readListAs {α : Type} (d : Decoder α) (c : Cursor) : RecordReading (List α) :=
  match c.skipBlanks.rest with
  | '[' :: _ => readItemsAs d (c.rest.length + 1) true c.skipBlanks.next
  | _ => readAs (decodeList d) c

/-- How a record is read. -/
structure RecordFormat (α : Type) where
  /-- What the record is called in a message. -/
  name : String
  /-- The fields in order. -/
  fields : List String
  /-- The record with the value of one of the fields read into it. -/
  readField : α → String → Cursor → RecordReading α

variable {α : Type}

/-- The record with the value behind a key read into it, or passed over when the key is not
known. -/
def RecordFormat.readMember (f : RecordFormat α) (a : α) (key : String) (c : Cursor) :
    RecordReading α :=
  match readColon c with
  | .error e => .error e.ofRecord
  | .ok c =>
    if f.fields.contains key then f.readField a key c
    else
      match skipValue (stepsFor c.rest) c with
      | .error e => .error e.ofRecord
      | .ok c => .ok (a, c)

/-- Where a key that came before is reported: behind the blanks that follow it, and behind the end
of the object if that follows them. -/
def repeatedPosition (c : Cursor) : Position :=
  match c.skipBlanks.rest with
  | '}' :: _ => c.skipBlanks.next.position
  | _ => c.skipBlanks.position

/-- The record with the members of an object that are still to come read into it, in at most so many
steps; those in `seen` have come. -/
def RecordFormat.readObject (f : RecordFormat α) :
    Nat → Bool → List String → α → Cursor → RecordReading α
  | 0, _, _, _, c => .error ⟨.syntactic .recursionLimit, c.position⟩
  | fuel + 1, first, seen, a, c =>
    match nextKey? first c with
    | .error e => .error e.ofRecord
    | .ok none => .ok (a, c.skipBlanks.next)
    | .ok (some c) =>
      match readString fuel c.next with
      | .error e => .error e.ofRecord
      | .ok (key, c) =>
        -- the second value is not looked at
        if f.fields.contains key && seen.contains key then
          .error ⟨.misfit (.duplicate key), repeatedPosition c⟩
        else
          match f.readMember a key c with
          | .error e => .error e
          | .ok (a, c) => f.readObject fuel false (key :: seen) a c

/-- The end of an array behind its last field. -/
def readArrayEnd (c : Cursor) : Except Fault Cursor :=
  let c := c.skipBlanks
  match c.rest with
  | [] => .error (c.peekFault .eofList)
  | ']' :: _ => .ok c.next
  | ',' :: _ =>
    match c.next.skipBlanks.rest with
    | ']' :: _ => .error (c.next.skipBlanks.peekFault .trailingComma)
    | _ => .error (c.next.skipBlanks.peekFault .trailingCharacters)
  | _ => .error (c.peekFault .trailingCharacters)

/-- The record with the items of an array read into the fields that are still to come; fields behind
the end of the array stay as they are. -/
def RecordFormat.readArray (f : RecordFormat α) :
    List String → Bool → α → Cursor → RecordReading α
  | [], _, a, c =>
    match readArrayEnd c with
    | .ok c => .ok (a, c)
    | .error e => .error e.ofRecord
  | field :: fields, first, a, c =>
    match nextItem? first c with
    | .error e => .error e.ofRecord
    | .ok none => .ok (a, c.skipBlanks.next)
    | .ok (some c) =>
      match f.readField a field c with
      | .error e => .error e
      | .ok (a, c) => f.readArray fields false a c

/-- The record `a` with the fields that a value gives. -/
def RecordFormat.readFields (f : RecordFormat α) (a : α) (c : Cursor) : RecordReading α :=
  let c := c.skipBlanks
  match c.rest with
  | '[' :: _ => f.readArray f.fields true a c.next
  | '{' :: _ => f.readObject (c.rest.length + 1) true [] a c.next
  | _ => readAs (fun v => .error (.wrongKind v f.name)) c

/-- The record `a` with the fields that a whole text gives. -/
def readRecord (f : RecordFormat α) (a : α) (text : List Char) : Except RecordFault α :=
  match f.readFields a (Cursor.start text) with
  | .error e => .error e
  | .ok (a, c) =>
    match readEnd c with
    | .error e => .error e.ofRecord
    | .ok () => .ok a

end Json
end SceneMarkup
