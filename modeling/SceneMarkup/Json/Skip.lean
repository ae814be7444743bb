import SceneMarkup.Json.Reader

/-!
# Passing over JSON values

A value that nobody asks for is only passed over.  It has to be well formed, but less is looked at
than when it is read: any four digits make an escape, numbers may be as large as they like, and a
comma before the end of an array or an object is found when the next value or key is missing.

## Main definitions

* `skipString`, `skipNumber` — the simple values.
* `skipValue`, `skipItems`, `skipMembers` — all values.
-/

namespace SceneMarkup
namespace Json

/-- The place behind an escape, from behind its backslash. -/
def skipEscape (c : Cursor) : Except Fault Cursor :=
  match c.rest with
  | [] => .error (c.fault .eofString)
  | x :: _ =>
    if x = 'u' then
      match readHex c.next with
      | .ok (_, c) => .ok c
      | .error e => .error e
    else if (escapedChar? x).isSome then .ok c.next
    else .error (c.peekFault .invalidEscape)

/-- The place behind a string, from behind its opening quote, in at most so many steps. -/
def skipString : Nat → Cursor → Except Fault Cursor
  | 0, c => .error (c.fault .recursionLimit)
  | fuel + 1, c =>
    match c.rest with
    | [] => .error (c.fault .eofString)
    | x :: _ =>
      if x = '"' then .ok c.next
      else if x = '\\' then
        match skipEscape c.next with
        | .ok c => skipString fuel c
        | .error e => .error e
      else if x.toNat < 0x20 then .error (c.fault .controlCharacter)
      else skipString fuel c.next

/-- The place behind some digits, of which there must be one. -/
def skipDigits (c : Cursor) : Except Fault Cursor :=
  match c.digits with
  | ([], _) => .error (c.peekFault .invalidNumber)
  | (_ :: _, c) => .ok c

/-- The place behind an exponent, from behind its letter. -/
def skipExponent (c : Cursor) : Except Fault Cursor :=
  match c.rest with
  | '+' :: _ => skipDigits c.next
  | '-' :: _ => skipDigits c.next
  | _ => skipDigits c

/-- The place behind an exponent, if there is one. -/
def skipOptionalExponent (c : Cursor) : Except Fault Cursor :=
  match c.rest with
  | x :: _ => if x = 'e' ∨ x = 'E' then skipExponent c.next else .ok c
  | [] => .ok c

/-- The place behind a number, from behind its sign. -/
def skipNumber (c : Cursor) : Except Fault Cursor :=
  match c.digits with
  | ([], _) => .error (c.peekFault .invalidNumber)
  | ('0' :: _ :: _, _) => .error (c.next.peekFault .invalidNumber)
  | (_, c) =>
    match c.rest with
    | '.' :: _ =>
      match skipDigits c.next with
      | .ok c => skipOptionalExponent c
      | .error e => .error e
    | _ => skipOptionalExponent c

/-- The place behind a value that is neither an array nor an object, in at most so many steps. -/
def skipSimple (fuel : Nat) (c : Cursor) : Except Fault Cursor :=
  match c.rest with
  | [] => .error (c.peekFault .eofValue)
  | x :: _ =>
    if x = 'n' then readWord "ull".toList c.next
    else if x = 't' then readWord "rue".toList c.next
    else if x = 'f' then readWord "alse".toList c.next
    else if x = '-' then skipNumber c.next
    else if x.isDigit then skipNumber c
    else if x = '"' then skipString fuel c.next
    else .error (c.peekFault .expectedValue)

/-- The place behind a key and its colon, in at most so many steps. -/
def skipKey (fuel : Nat) (c : Cursor) : Except Fault Cursor :=
  let c := c.skipBlanks
  match c.rest with
  | [] => .error (c.peekFault .eofObject)
  | x :: _ =>
    if x = '"' then
      match skipString fuel c.next with
      | .ok c => readColon c
      | .error e => .error e
    else .error (c.peekFault .keyMustBeString)

mutual

/-- The place behind a value, in at most so many steps. -/
def skipValue : Nat → Cursor → Except Fault Cursor
  | 0, c => .error (c.fault .recursionLimit)
  | fuel + 1, c =>
    let c := c.skipBlanks
    match c.rest with
    | '[' :: _ => skipItems fuel true c.next
    | '{' :: _ => skipMembers fuel true c.next
    | _ => skipSimple fuel c

/-- The place behind an array, from behind one of its items or its opening bracket, in at most so
many steps. -/
def skipItems : Nat → Bool → Cursor → Except Fault Cursor
  | 0, _, c => .error (c.fault .recursionLimit)
  | fuel + 1, first, c =>
    let c := c.skipBlanks
    match c.rest with
    | [] => .error (c.peekFault .eofList)
    | x :: _ =>
      if x = ']' then .ok c.next
      else if first || x == ',' then
        -- behind the comma before an end it is the value that is missing
        match skipValue fuel (if first then c else c.next) with
        | .ok c => skipItems fuel false c
        | .error e => .error e
      else .error (c.peekFault .expectedCommaOrBracket)

/-- The place behind an object, from behind one of its members or its opening brace, in at most so
many steps. -/
def skipMembers : Nat → Bool → Cursor → Except Fault Cursor
  | 0, _, c => .error (c.fault .recursionLimit)
  | fuel + 1, first, c =>
    let c := c.skipBlanks
    match c.rest with
    | [] => .error (c.peekFault .eofObject)
    | x :: _ =>
      if x = '}' then .ok c.next
      else if first || x == ',' then
        match skipKey fuel (if first then c else c.next) with
        | .error e => .error e
        | .ok c =>
          match skipValue fuel c with
          | .ok c => skipMembers fuel false c
          | .error e => .error e
      else .error (c.peekFault .expectedCommaOrBrace)

end

end Json
end SceneMarkup
