import SceneMarkup.Json.Cursor
import SceneMarkup.Json.Value

/-!
# Reading JSON texts

The reader of JSON values.  It goes from left to right and stops at the first fault.  A number
without a point or exponent that fits into sixty-four bits is an integer, with the exception of a
negative zero.

## Main definitions

* `readWord`, `readString`, `readNumber`, `readSimple` — the simple values.
* `readValue`, `readItems`, `readMembers` — all values.
* `read` — a whole text.
-/

namespace SceneMarkup
namespace Json

/-! ### Words -/

/-- The rest of one of the words `true`, `false` and `null`. -/
def readWord : List Char → Cursor → Except Fault Cursor
  | [], c => .ok c
  | a :: w, c =>
    match c.rest with
    | [] => .error (c.fault .eofValue)
    | x :: _ => if x = a then readWord w c.next else .error (c.peekFault .expectedWord)

/-! ### Strings -/

/-- The value of a hexadecimal digit. -/
def hexValue? (c : Char) : Option Nat :=
  if '0' ≤ c ∧ c ≤ '9' then some (c.toNat - '0'.toNat)
  else if 'a' ≤ c ∧ c ≤ 'f' then some (c.toNat - 'a'.toNat + 10)
  else if 'A' ≤ c ∧ c ≤ 'F' then some (c.toNat - 'A'.toNat + 10)
  else none

/-- The value of four hexadecimal digits. -/
def hexValues? (a b c d : Char) : Option Nat :=
  match hexValue? a, hexValue? b, hexValue? c, hexValue? d with
  | some a, some b, some c, some d => some (((a * 16 + b) * 16 + c) * 16 + d)
  | _, _, _, _ => none

/-- How many bytes the first four characters of a text take. -/
def firstFourBytes (s : List Char) : Nat := (s.take 4).foldl (fun n c => n + c.utf8Size) 0

/-- What is wrong where four hexadecimal digits should stand. -/
def hexFault (c : Cursor) : Fault :=
  ⟨if firstFourBytes c.rest < 4 then .eofString else .invalidEscape,
    positionAfter 4 c.position c.rest⟩

/-- Four hexadecimal digits. -/
def readHex (c : Cursor) : Reading Nat :=
  match c.rest with
  | x :: y :: z :: w :: _ =>
    match hexValues? x y z w with
    | some n => .ok (n, c.next.next.next.next)
    | none => .error (hexFault c)
  | _ => .error (hexFault c)

/-- The character `x`, which must come next in the escape of a second half. -/
def readMark (x : Char) (c : Cursor) : Except Fault Cursor :=
  match c.rest with
  | [] => .error (c.fault .eofString)
  | y :: _ => if y = x then .ok c.next else .error (c.peekFault .unexpectedEndOfHexEscape)

/-- The escape of the second half of a pair, and the character of the whole pair. -/
def readSecondHalf (high : Nat) (c : Cursor) : Reading Char :=
  match readMark '\\' c with
  | .error e => .error e
  | .ok c =>
    match readMark 'u' c with
    | .error e => .error e
    | .ok c =>
      match readHex c with
      | .error e => .error e
      | .ok (low, c) =>
        if 0xDC00 ≤ low ∧ low ≤ 0xDFFF then
          .ok (Char.ofNat ((high - 0xD800) * 0x400 + (low - 0xDC00) + 0x10000), c)
        else .error (c.fault .loneSurrogate)

/-- A character by its number, or by a pair of halves. -/
def readUnicode (c : Cursor) : Reading Char :=
  match readHex c with
  | .error e => .error e
  | .ok (n, c) =>
    if 0xDC00 ≤ n ∧ n ≤ 0xDFFF then .error (c.fault .loneSurrogate)
    else if 0xD800 ≤ n ∧ n ≤ 0xDBFF then readSecondHalf n c
    else .ok (Char.ofNat n, c)

/-- The character that a letter behind a backslash stands for. -/
def escapedChar? : Char → Option Char
  | '"' => some '"'
  | '\\' => some '\\'
  | '/' => some '/'
  | 'b' => some '\x08'
  | 'f' => some '\x0c'
  | 'n' => some '\n'
  | 'r' => some '\r'
  | 't' => some '\t'
  | _ => none

/-- The character of an escape, behind its backslash. -/
def readEscape (c : Cursor) : Reading Char :=
  match c.rest with
  | [] => .error (c.fault .eofString)
  | x :: _ =>
    if x = 'u' then readUnicode c.next
    else
      match escapedChar? x with
      | some y => .ok (y, c.next)
      | none => .error (c.peekFault .invalidEscape)

/-- The characters of a string up to its closing quote, in at most so many steps; those in `seen`
have been read, the last one first. -/
def readChars : Nat → List Char → Cursor → Reading (List Char)
  | 0, _, c => .error (c.fault .recursionLimit)
  | fuel + 1, seen, c =>
    match c.rest with
    | [] => .error (c.fault .eofString)
    | x :: _ =>
      if x = '"' then .ok (seen.reverse, c.next)
      else if x = '\\' then
        match readEscape c.next with
        | .error e => .error e
        | .ok (y, c) => readChars fuel (y :: seen) c
      else if x.toNat < 0x20 then .error (c.next.fault .controlCharacter)
      else readChars fuel (x :: seen) c.next

/-- A string, behind its opening quote, in at most so many steps. -/
def readString (fuel : Nat) (c : Cursor) : Reading String :=
  match readChars fuel [] c with
  | .error e => .error e
  | .ok (s, c) => .ok (String.ofList s, c)

/-! ### Numbers -/

/-- The digits at the start of a text, and the place behind them. -/
def digitsFrom (p : Position) : List Char → List Char × Cursor
  | [] => ([], ⟨[], p⟩)
  | x :: r =>
    if x.isDigit then
      let (ds, c) := digitsFrom (p.past x) r
      (x :: ds, c)
    else ([], ⟨x :: r, p⟩)

/-- The digits that come next. -/
def Cursor.digits (c : Cursor) : List Char × Cursor := digitsFrom c.position c.rest

/-- The number that a list of digits stands for. -/
def natOfDigits (ds : List Char) : Nat := ds.foldl (fun n d => n * 10 + (d.toNat - '0'.toNat)) 0

/-- The digits of a list put behind those of a number as long as it stays one of sixty-four bits,
and the digits that are left. -/
def fitDigits : Nat → List Char → Nat × List Char
  | n, [] => (n, [])
  | n, d :: ds =>
    let m := n * 10 + (d.toNat - '0'.toNat)
    if m < Nat.pow 2 64 then fitDigits m ds else (n, d :: ds)

/-- The digits of a number, those in front of its point and those behind it, as a number of
sixty-four bits, and the exponent of the power of ten that belongs to it.  Digits that do not fit
are left out. -/
def significand (whole fraction : List Char) : Nat × Int :=
  let (n, left) := fitDigits 0 whole
  let (m, left') := fitDigits n fraction
  (m, left.length + left'.length - fraction.length)

/-- A number with a sign. -/
def signedFloat (negative : Bool) (x : Float) : Float := if negative then -x else x

/-- A power of ten.  The greatest one that the format has is `10 ^ 308`. -/
def powerOfTen (k : Nat) : Float := Float.ofScientific 1 false k

/-- A number divided by the greatest power of ten so many times, or until it is zero. -/
def divideByGreatest : Nat → Float → Float
  | 0, x => x
  | k + 1, x => if x == 0.0 then x else divideByGreatest k (x / powerOfTen 308)

/-- The number `n * 10 ^ e`, or nothing when it is too large, for a number `n` of sixty-four bits.
It is not always the nearest one: both `n` and the power are rounded before the product or the
quotient is. -/
def decimalFloat? (negative : Bool) (n : Nat) (e : Int) : Option Float :=
  let x := n.toUInt64.toFloat
  if e < 0 then
    let k := (-e).toNat
    let times := (k - 1) / 308
    some (signedFloat negative (divideByGreatest times x / powerOfTen (k - 308 * times)))
  else if 308 < e then
    if x == 0.0 then some (signedFloat negative x) else none
  else
    let y := x * powerOfTen e.toNat
    if y.isInf then none else some (signedFloat negative y)

/-- The greatest exponent that is kept apart from an infinite one. -/
def greatestExponent : Nat := Nat.pow 2 31 - 1

/-- How many digits of an exponent may be read before it is greater than the greatest. -/
def exponentOverflow? (n : Nat) : Nat → List Char → Option Nat
  | _, [] => none
  | i, d :: ds =>
    let n := n * 10 + (d.toNat - '0'.toNat)
    if greatestExponent < n then some (i + 1) else exponentOverflow? n (i + 1) ds

/-- A number by its parts: sign, digits in front of and behind the point, and the exponent with the
place where its digits start. -/
def floatOfParts (negative : Bool) (whole fraction : List Char) (e : Int) (c : Cursor) :
    Reading Number :=
  let digits := significand whole fraction
  match decimalFloat? negative digits.1 (digits.2 + e) with
  | some x => .ok (.real x, c)
  | none => .error (c.fault .numberOutOfRange)

/-- The exponent of a number, behind its letter. -/
def readExponent (negative : Bool) (whole fraction : List Char) (c : Cursor) : Reading Number :=
  let (minus, c) :=
    match c.rest with
    | '+' :: _ => (false, c.next)
    | '-' :: _ => (true, c.next)
    | _ => (false, c)
  match c.digits with
  | ([], _) =>
    match c.rest with
    | [] => .error (c.fault .eofValue)
    | _ :: _ => .error (c.peekFault .invalidNumber)
  | (ds, behind) =>
    match exponentOverflow? 0 0 ds with
    | some n =>
      -- a number with such an exponent is zero or too large, and the other digits are not looked at
      if minus || (significand whole fraction).1 == 0 then
        .ok (.real (signedFloat negative 0.0), behind)
      else .error ⟨.numberOutOfRange, positionAfter n c.position c.rest⟩
    | none =>
      let e : Int := natOfDigits ds
      floatOfParts negative whole fraction (if minus then -e else e) behind

/-- The rest of a number that is no integer: a fraction behind its point. -/
def readFraction (negative : Bool) (whole : List Char) (c : Cursor) : Reading Number :=
  match c.digits with
  | ([], _) =>
    match c.rest with
    | [] => .error (c.fault .eofValue)
    | _ :: _ => .error (c.peekFault .invalidNumber)
  | (ds, c) =>
    match c.rest with
    | x :: _ =>
      if x = 'e' ∨ x = 'E' then readExponent negative whole ds c.next
      else floatOfParts negative whole ds 0 c
    | [] => floatOfParts negative whole ds 0 c

/-- An integer by its sign and digits, or a decimal when it needs more than sixty-four bits. -/
def integerOfParts (negative : Bool) (whole : List Char) (c : Cursor) : Reading Number :=
  let n := natOfDigits whole
  if negative then
    -- the integers have no negative zero
    if n = 0 ∨ Nat.pow 2 63 < n then floatOfParts negative whole [] 0 c else .ok (.integer (-n), c)
  else if n < Nat.pow 2 64 then .ok (.integer n, c)
  else floatOfParts negative whole [] 0 c

/-- A number behind its sign. -/
def readNumber (negative : Bool) (c : Cursor) : Reading Number :=
  match c.digits with
  | ([], _) =>
    match c.rest with
    | [] => .error (c.fault .eofValue)
    | _ :: _ => .error (c.peekFault .invalidNumber)
  -- a zero in front of other digits; the fault is at the digit behind it
  | ('0' :: _ :: _, _) => .error (c.next.peekFault .invalidNumber)
  | (whole, c) =>
    match c.rest with
    | [] => integerOfParts negative whole c
    | x :: _ =>
      if x = '.' then readFraction negative whole c.next
      else if x = 'e' ∨ x = 'E' then readExponent negative whole [] c.next
      else integerOfParts negative whole c

/-! ### Values -/

/-- The place of the next item of an array, or nothing behind its last. -/
def nextItem? (first : Bool) (c : Cursor) : Except Fault (Option Cursor) :=
  let c := c.skipBlanks
  match c.rest with
  | [] => .error (c.peekFault .eofList)
  | x :: _ =>
    if x = ']' then .ok none
    else if first then .ok (some c)
    else if x = ',' then
      let c := c.next.skipBlanks
      match c.rest with
      | [] => .error (c.peekFault .eofValue)
      | y :: _ => if y = ']' then .error (c.peekFault .trailingComma) else .ok (some c)
    else .error (c.peekFault .expectedCommaOrBracket)

/-- The place of the next key of an object, or nothing behind its last member. -/
def nextKey? (first : Bool) (c : Cursor) : Except Fault (Option Cursor) :=
  let c := c.skipBlanks
  match c.rest with
  | [] => .error (c.peekFault .eofObject)
  | x :: _ =>
    if x = '}' then .ok none
    else if first then
      if x = '"' then .ok (some c) else .error (c.peekFault .keyMustBeString)
    else if x = ',' then
      let c := c.next.skipBlanks
      match c.rest with
      | [] => .error (c.peekFault .eofValue)
      | y :: _ =>
        if y = '"' then .ok (some c)
        else if y = '}' then .error (c.peekFault .trailingComma)
        else .error (c.peekFault .keyMustBeString)
    else .error (c.peekFault .expectedCommaOrBrace)

/-- The colon behind a key. -/
def readColon (c : Cursor) : Except Fault Cursor :=
  let c := c.skipBlanks
  match c.rest with
  | [] => .error (c.peekFault .eofObject)
  | x :: _ => if x = ':' then .ok c.next else .error (c.peekFault .expectedColon)

/-- A value that is neither an array nor an object, in at most so many steps. -/
def readSimple (fuel : Nat) (c : Cursor) : Reading Json :=
  match c.rest with
  | [] => .error (c.peekFault .eofValue)
  | x :: _ =>
    if x = 'n' then
      match readWord "ull".toList c.next with
      | .ok c => .ok (.null, c)
      | .error e => .error e
    else if x = 't' then
      match readWord "rue".toList c.next with
      | .ok c => .ok (.bool true, c)
      | .error e => .error e
    else if x = 'f' then
      match readWord "alse".toList c.next with
      | .ok c => .ok (.bool false, c)
      | .error e => .error e
    else if x = '-' then
      match readNumber true c.next with
      | .ok (n, c) => .ok (.number n, c)
      | .error e => .error e
    else if x.isDigit then
      match readNumber false c with
      | .ok (n, c) => .ok (.number n, c)
      | .error e => .error e
    else if x = '"' then
      match readString fuel c.next with
      | .ok (s, c) => .ok (.string s, c)
      | .error e => .error e
    else .error (c.peekFault .expectedValue)

mutual

/-- A value, in at most so many steps. -/
def readValue : Nat → Cursor → Reading Json
  | 0, c => .error (c.fault .recursionLimit)
  | fuel + 1, c =>
    let c := c.skipBlanks
    match c.rest with
    | '[' :: _ =>
      match readItems fuel true c.next with
      | .ok (items, c) => .ok (.array items, c)
      | .error e => .error e
    | '{' :: _ =>
      match readMembers fuel true [] c.next with
      | .ok (members, c) => .ok (.object members, c)
      | .error e => .error e
    | _ => readSimple fuel c

/-- The items of an array that are still to come, in at most so many steps. -/
def readItems : Nat → Bool → Cursor → Reading (List Json)
  | 0, _, c => .error (c.fault .recursionLimit)
  | fuel + 1, first, c =>
    match nextItem? first c with
    | .error e => .error e
    | .ok none => .ok ([], c.skipBlanks.next)
    | .ok (some c) =>
      match readValue fuel c with
      | .error e => .error e
      | .ok (v, c) =>
        match readItems fuel false c with
        | .error e => .error e
        | .ok (vs, c) => .ok (v :: vs, c)

/-- The members of an object, those read already among them, in at most so many steps. -/
def readMembers : Nat → Bool → List (String × Json) → Cursor → Reading (List (String × Json))
  | 0, _, _, c => .error (c.fault .recursionLimit)
  | fuel + 1, first, seen, c =>
    match nextKey? first c with
    | .error e => .error e
    | .ok none => .ok (seen, c.skipBlanks.next)
    | .ok (some c) =>
      match readString fuel c.next with
      | .error e => .error e
      | .ok (key, c) =>
        match readColon c with
        | .error e => .error e
        | .ok c =>
          match readValue fuel c with
          | .error e => .error e
          | .ok (v, c) => readMembers fuel false (insertMember key v seen) c

end

/-- How many steps a text can ask for: two for each of its characters, and two for its end. -/
def stepsFor (text : List Char) : Nat := 2 * text.length + 2

/-- Nothing but blanks up to the end of the text. -/
def readEnd (c : Cursor) : Except Fault Unit :=
  let c := c.skipBlanks
  match c.rest with
  | [] => .ok ()
  | _ :: _ => .error (c.peekFault .trailingCharacters)

/-- The value of a whole text. -/
def read (text : List Char) : Except Fault Json :=
  match readValue (stepsFor text) (Cursor.start text) with
  | .error e => .error e
  | .ok (v, c) =>
    match readEnd c with
    | .error e => .error e
    | .ok () => .ok v

end Json
end SceneMarkup
