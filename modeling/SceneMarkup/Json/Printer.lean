import SceneMarkup.Decimal.Layout
import SceneMarkup.Json.Value

/-!
# Writing JSON texts

Values are written over several lines, two spaces deeper for each level; empty arrays and objects
stay on one line.  The members of an object are written in their order.

## Main definitions

* `escaped`, `stringText` — strings.
* `numberText` — numbers.
* `pretty` — values.
-/

namespace SceneMarkup
namespace Json

/-- Two hexadecimal digits. -/
def hexByte (n : Nat) : List Char := [Nat.digitChar (n / 16), Nat.digitChar (n % 16)]

/-- A character inside a string. -/
def escaped (c : Char) : List Char :=
  if c = '"' then ['\\', '"']
  else if c = '\\' then ['\\', '\\']
  else if c = '\x08' then ['\\', 'b']
  else if c = '\t' then ['\\', 't']
  else if c = '\n' then ['\\', 'n']
  else if c = '\x0c' then ['\\', 'f']
  else if c = '\r' then ['\\', 'r']
  else if c.toNat < 0x20 then '\\' :: 'u' :: '0' :: '0' :: hexByte c.toNat
  else [c]

/-- A string between its quotes. -/
def stringText (s : String) : List Char := '"' :: s.toList.flatMap escaped ++ ['"']

/-- A number. -/
def numberText : Number → List Char
  | .integer i => (Int.repr i).toList
  | .real x => (Decimal.floatText x).toList

/-- The start of a line so many levels deep. -/
def newline (level : Nat) : List Char := '\n' :: List.replicate (2 * level) ' '

mutual

/-- A value that stands so many levels deep. -/
def prettyAt (level : Nat) : Json → List Char
  | .null => "null".toList
  | .bool b => (if b then "true" else "false").toList
  | .number n => numberText n
  | .string s => stringText s
  | .array [] => "[]".toList
  | .array (v :: vs) =>
    '[' :: newline (level + 1) ++ prettyAt (level + 1) v ++ prettyItems (level + 1) vs ++
      newline level ++ [']']
  | .object [] => ['{', '}']
  | .object ((k, v) :: ms) =>
    '{' :: newline (level + 1) ++ stringText k ++ ": ".toList ++ prettyAt (level + 1) v ++
      prettyMembers (level + 1) ms ++ newline level ++ ['}']

/-- The items of an array behind its first. -/
def prettyItems (level : Nat) : List Json → List Char
  | [] => []
  | v :: vs => ',' :: newline level ++ prettyAt level v ++ prettyItems level vs

/-- The members of an object behind its first. -/
def prettyMembers (level : Nat) : List (String × Json) → List Char
  | [] => []
  | (k, v) :: ms =>
    ',' :: newline level ++ stringText k ++ ": ".toList ++ prettyAt level v ++
      prettyMembers level ms

end

/-- A value as a text of several lines. -/
def pretty (v : Json) : List Char := prettyAt 0 v

/-- A value as a string of several lines. -/
def prettyString (v : Json) : String := String.ofList (pretty v)

end Json
end SceneMarkup
