/-!
# Letters without regard to case

Two notions of "the same letter".  The narrow one knows the twenty-six ASCII letters only.  The wide
one is simple case folding, by which two characters outside ASCII count as letters too: the long
`s` and the kelvin sign.

## Main definitions

* `fold` — the folding as far as it reaches ASCII.
* `isFoldedLetter` — whether a character folds to a letter.
* `sameFolded`, `afterFolded?` — comparison of texts by folding.
* `sameAscii` — comparison of texts by ASCII case alone.

## Main results

* `sameAscii_self` — every text is the same as itself.
-/

namespace SceneMarkup
namespace Text

/-- The simple case folding, as far as it reaches ASCII letters. -/
def fold (c : Char) : Char :=
  if c = '\u017F' then 's' else if c = '\u212A' then 'k' else c.toLower

/-- Whether a character is an ASCII letter up to folding. -/
def isFoldedLetter (c : Char) : Bool := (fold c).isLower

/-- Whether a character is an ASCII letter or digit up to folding. -/
def isFoldedAlphanum (c : Char) : Bool := isFoldedLetter c || c.isDigit

/-- Whether a character is a hexadecimal digit of either case. -/
def isHexDigit (c : Char) : Bool :=
  c.isDigit || ('a' ≤ c && c ≤ 'f') || ('A' ≤ c && c ≤ 'F')

/-- What follows the word `w` at the start of a text, the case of its letters disregarded. -/
def afterFolded? : List Char → List Char → Option (List Char)
  | [], s => some s
  | _ :: _, [] => none
  | a :: w, c :: s => if fold c = a then afterFolded? w s else none

/-- Whether a text is the word `w` up to folding. -/
def sameFolded (w s : List Char) : Bool :=
  match afterFolded? w s with
  | some [] => true
  | _ => false

/-- Whether two texts differ at most in the case of their ASCII letters. -/
def sameAscii (s t : List Char) : Bool := s.map Char.toLower == t.map Char.toLower

@[simp] theorem sameAscii_self (s : List Char) : sameAscii s s = true := by simp [sameAscii]

end Text
end SceneMarkup
