/-!
# JSON values

## Main definitions

* `Json` — the values.
* `Json.Number` — numbers: integers are kept apart from the numbers written with a point or an
  exponent, and from those too large for sixty-four bits.
* `insertMember` — the members of an object are sorted by key, and the last of two with one key
  wins.
* `Json.member?` — the member of a key.
-/

namespace SceneMarkup

/-- A number in a JSON text. -/
inductive Json.Number where
  /-- An integer of sixty-four bits, signed or not. -/
  | integer (i : Int)
  /-- Any other number. -/
  | real (x : Float)
  deriving DecidableEq

/-- A JSON value. -/
inductive Json where
  /-- The value `null`. -/
  | null
  /-- A truth value. -/
  | bool (b : Bool)
  /-- A number. -/
  | number (n : Json.Number)
  /-- A string. -/
  | string (s : String)
  /-- An array. -/
  | array (items : List Json)
  /-- An object with its members in order. -/
  | object (members : List (String × Json))

namespace Json

/-- A number as a floating-point number. -/
def Number.toFloat : Number → Float
  | .integer i => Float.ofInt i
  | .real x => x

/-- Members sorted by key, with one more of them; it takes the place of one with the same key. -/
def insertMember (key : String) (value : Json) : List (String × Json) → List (String × Json)
  | [] => [(key, value)]
  | (k, v) :: ms =>
    if key < k then (key, value) :: (k, v) :: ms
    else if key = k then (key, value) :: ms
    else (k, v) :: insertMember key value ms

/-- The value of the member with a key. -/
def lookup? (key : String) : List (String × Json) → Option Json
  | [] => none
  | (k, v) :: ms => if k = key then some v else lookup? key ms

@[simp] theorem lookup?_nil (key : String) : lookup? key [] = none := rfl

/-- The value of the member of an object with a key. -/
def member? (key : String) : Json → Option Json
  | .object ms => lookup? key ms
  | _ => none

/-- The text of a string value. -/
def string? : Json → Option String
  | .string s => some s
  | _ => none

/-- An integer value. -/
def ofNat (n : Nat) : Json := .number (.integer n)

/-- A floating-point value. -/
def ofFloat (x : Float) : Json := .number (.real x)

/-- A list of strings as a value. -/
def ofStrings (ss : List String) : Json := .array (ss.map .string)

/-- An optional value; nothing is `null`. -/
def ofOption {α : Type} (f : α → Json) : Option α → Json
  | some a => f a
  | none => .null

end Json
end SceneMarkup
