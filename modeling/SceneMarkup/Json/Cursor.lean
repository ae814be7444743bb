/-!
# Places in a JSON text

A reader of JSON stands at a place of the text: it knows the text that remains and the place in
lines and columns.  Lines are counted from one.  The column is the number of bytes read on the line.
A fault is reported either where the reader stands or one byte further, when the byte there was
looked at and found wrong.

## Main definitions

* `Position`, `Cursor` — places.
* `Cause`, `Fault` — what is wrong with a text, and where.
* `Cursor.skipBlanks` — the place behind blanks.
-/

namespace SceneMarkup
namespace Json

/-- A place in lines and columns. -/
structure Position where
  /-- The line, counted from one. -/
  line : Nat
  /-- How many bytes of the line have been read. -/
  column : Nat
  deriving Repr, DecidableEq

/-- The place behind a character. -/
def Position.past (p : Position) (c : Char) : Position :=
  if c = '\n' then ⟨p.line + 1, 0⟩ else ⟨p.line, p.column + c.utf8Size⟩

/-- The place behind the first byte of a character. -/
def Position.pastByte (p : Position) (c : Char) : Position :=
  if c = '\n' then ⟨p.line + 1, 0⟩ else ⟨p.line, p.column + 1⟩

/-- Where a reader stands. -/
structure Cursor where
  /-- The text that remains. -/
  rest : List Char
  /-- The place. -/
  position : Position
  deriving Repr, DecidableEq

/-- The start of a text. -/
def Cursor.start (text : List Char) : Cursor := ⟨text, ⟨1, 0⟩⟩

/-- The place behind the next character. -/
def Cursor.next (c : Cursor) : Cursor :=
  match c.rest with
  | [] => c
  | x :: r => ⟨r, c.position.past x⟩

/-- The place behind the next byte. -/
def Cursor.peekPosition (c : Cursor) : Position :=
  match c.rest with
  | [] => c.position
  | x :: _ => c.position.pastByte x

/-- The place so many bytes further, or the end of the text. -/
def positionAfter : Nat → Position → List Char → Position
  | 0, p, _ => p
  | _ + 1, p, [] => p
  | n + 1, p, x :: r =>
    if x.utf8Size ≤ n + 1 then positionAfter (n + 1 - x.utf8Size) (p.past x) r
    else ⟨p.line, p.column + (n + 1)⟩

/-- Whether a character is a blank of JSON. -/
def isBlank (c : Char) : Bool := c == ' ' || c == '\t' || c == '\n' || c == '\r'

/-- The place behind the blanks that a text starts with. -/
def skipFrom (p : Position) : List Char → Cursor
  | [] => ⟨[], p⟩
  | x :: r => if isBlank x then skipFrom (p.past x) r else ⟨x :: r, p⟩

/-- The place behind the blanks. -/
def Cursor.skipBlanks (c : Cursor) : Cursor := skipFrom c.position c.rest

/-- What is wrong with a text. -/
inductive Cause where
  /-- The text ends where a value should be, or inside one. -/
  | eofValue
  /-- The text ends inside an array. -/
  | eofList
  /-- The text ends inside an object. -/
  | eofObject
  /-- The text ends inside a string. -/
  | eofString
  /-- Something else stands where a value should be. -/
  | expectedValue
  /-- One of the words `true`, `false` and `null` is misspelt. -/
  | expectedWord
  /-- There is no colon behind a key. -/
  | expectedColon
  /-- An item of an array is followed by neither a comma nor the end. -/
  | expectedCommaOrBracket
  /-- A member of an object is followed by neither a comma nor the end. -/
  | expectedCommaOrBrace
  /-- A member of an object starts with something that is no string. -/
  | keyMustBeString
  /-- A comma is followed by the end. -/
  | trailingComma
  /-- Something follows the end. -/
  | trailingCharacters
  /-- A number breaks off or has a leading zero. -/
  | invalidNumber
  /-- A number is too large. -/
  | numberOutOfRange
  /-- A backslash is followed by something that makes no escape. -/
  | invalidEscape
  /-- The first half of a pair is not followed by an escape for the second. -/
  | unexpectedEndOfHexEscape
  /-- Half of a pair stands alone. -/
  | loneSurrogate
  /-- A string holds a control character as it is. -/
  | controlCharacter
  /-- The reader was told to give up; it never is while it is given as many steps as the text asks
  for. -/
  | recursionLimit
  deriving Repr, DecidableEq

/-- The words for a cause. -/
def Cause.message : Cause → String
  | .eofValue => "EOF while parsing a value"
  | .eofList => "EOF while parsing a list"
  | .eofObject => "EOF while parsing an object"
  | .eofString => "EOF while parsing a string"
  | .expectedValue => "expected value"
  | .expectedWord => "expected ident"
  | .expectedColon => "expected `:`"
  | .expectedCommaOrBracket => "expected `,` or `]`"
  | .expectedCommaOrBrace => "expected `,` or `\x7d`"
  | .keyMustBeString => "key must be a string"
  | .trailingComma => "trailing comma"
  | .trailingCharacters => "trailing characters"
  | .invalidNumber => "invalid number"
  | .numberOutOfRange => "number out of range"
  | .invalidEscape => "invalid escape"
  | .unexpectedEndOfHexEscape => "unexpected end of hex escape"
  | .loneSurrogate => "lone leading surrogate in hex escape"
  | .controlCharacter => "control character (\\u0000-\\u001F) found while parsing a string"
  | .recursionLimit => "recursion limit exceeded"

/-- What is wrong with a text, and where. -/
structure Fault where
  /-- What is wrong. -/
  cause : Cause
  /-- Where. -/
  position : Position
  deriving Repr, DecidableEq

/-- A message with its place. -/
def located (message : String) (p : Position) : String :=
  message ++ " at line " ++ Nat.repr p.line ++ " column " ++ Nat.repr p.column

/-- The words for a fault. -/
def Fault.message (f : Fault) : String := located f.cause.message f.position

/-- A fault where the reader stands. -/
def Cursor.fault (c : Cursor) (cause : Cause) : Fault := ⟨cause, c.position⟩

/-- A fault of the byte that the reader looks at. -/
def Cursor.peekFault (c : Cursor) (cause : Cause) : Fault := ⟨cause, c.peekPosition⟩

/-- What a reader of a part of a text answers: a fault, or a value and the place behind it. -/
abbrev Reading (α : Type) := Except Fault (α × Cursor)

end Json
end SceneMarkup
