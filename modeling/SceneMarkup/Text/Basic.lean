/-!
# Searching and dividing texts

A text is the list of its characters.  This module holds what every reader of texts is built from:
a fixed word at the start of a text, a fixed word anywhere in it, and the division into lines.

## Main definitions

* `after?` — what follows a fixed word at the start of a text.
* `contains` — whether a word occurs in a text.
* `divide?` — the text before and after the first occurrence of a word.
* `erase` — a text without the occurrences of a word.
* `lines`, `joinLines` — the division at line feeds, and its inverse.
* `joinWith` — texts in a row with a separator between neighbours.

## Main results

* `after?_eq_some_iff` — a word at the start and what follows it are the text.
* `append_of_divide?` — the parts of a divided text, with the word between them, are the text.
* `joinLines_lines` — the lines of a text put together again are the text.
-/

namespace SceneMarkup
namespace Text

/-- What follows the word `w` at the start of a text. -/
def after? : List Char → List Char → Option (List Char)
  | [], s => some s
  | _ :: _, [] => none
  | a :: w, c :: s => if a = c then after? w s else none

@[simp] theorem after?_nil (s : List Char) : after? [] s = some s := by cases s <;> rfl

@[simp] theorem after?_append (w s : List Char) : after? w (w ++ s) = some s := by
  induction w with
  | nil => simp
  | cons a w ih => simp [after?, ih]

theorem after?_eq_some_iff {w s r : List Char} : after? w s = some r ↔ s = w ++ r := by
  constructor
  · intro h
    induction w generalizing s with
    | nil => simpa using h
    | cons a w ih =>
      cases s with
      | nil => cases h
      | cons c s =>
        simp only [after?] at h
        split at h
        · rename_i hac
          rw [hac, ih h, List.cons_append]
        · cases h
  · rintro rfl
    exact after?_append w r

/-- Whether a text starts with the word `w`. -/
def startsWith (w s : List Char) : Bool := (after? w s).isSome

/-- Whether the word `w` occurs in a text. -/
def contains (w : List Char) : List Char → Bool
  | [] => w.isEmpty
  | c :: s => startsWith w (c :: s) || contains w s

@[simp] theorem contains_nil (w : List Char) : contains w [] = w.isEmpty := rfl

theorem contains_cons (w : List Char) (c : Char) (s : List Char) :
    contains w (c :: s) = (startsWith w (c :: s) || contains w s) := rfl

/-- The text before the first occurrence of the word `w`, and the text after it. -/
def divide? (w : List Char) : List Char → Option (List Char × List Char)
  | [] => if w.isEmpty then some ([], []) else none
  | c :: s =>
    match after? w (c :: s) with
    | some r => some ([], r)
    | none =>
      match divide? w s with
      | some (u, r) => some (c :: u, r)
      | none => none

/-- The two sides of the first occurrence, with the word between them, are the text. -/
theorem append_of_divide? {w s u r : List Char} (h : divide? w s = some (u, r)) :
    u ++ (w ++ r) = s := by
  induction s generalizing u r with
  | nil =>
    simp only [divide?] at h
    split at h
    · rename_i hw
      cases h
      simpa using hw
    · cases h
  | cons c s ih =>
    simp only [divide?] at h
    split at h
    · rename_i r' hr
      cases h
      rw [after?_eq_some_iff] at hr
      simp [hr]
    · split at h
      · rename_i u' r' hd
        cases h
        simp [ih hd]
      · cases h

/-- A text without the occurrences of the word `w`, found from left to right; `skip` characters of
an occurrence are still to be passed over. -/
def eraseFrom (w : List Char) : Nat → List Char → List Char
  | _, [] => []
  | skip + 1, _ :: s => eraseFrom w skip s
  | 0, c :: s =>
    if startsWith w (c :: s) then eraseFrom w (w.length - 1) s else c :: eraseFrom w 0 s

/-- A text without the occurrences of the word `w`. -/
def erase (w s : List Char) : List Char := eraseFrom w 0 s

/-- The lines of a text: what stands between its line feeds.  There is always at least one. -/
def lines : List Char → List (List Char)
  | [] => [[]]
  | c :: s =>
    if c = '\n' then [] :: lines s
    else
      match lines s with
      | [] => [[c]]
      | l :: ls => (c :: l) :: ls

/-- Texts in a row, with `sep` between neighbours. -/
def joinWith (sep : List Char) : List (List Char) → List Char
  | [] => []
  | [l] => l
  | l :: l' :: ls => l ++ (sep ++ joinWith sep (l' :: ls))

@[simp] theorem joinWith_nil (sep : List Char) : joinWith sep [] = [] := rfl

@[simp] theorem joinWith_singleton (sep l : List Char) : joinWith sep [l] = l := rfl

@[simp] theorem joinWith_cons_cons (sep l l' : List Char) (ls : List (List Char)) :
    joinWith sep (l :: l' :: ls) = l ++ (sep ++ joinWith sep (l' :: ls)) := rfl

/-- Lines put together again. -/
def joinLines (ls : List (List Char)) : List Char := joinWith ['\n'] ls

theorem lines_ne_nil (s : List Char) : lines s ≠ [] := by
  cases s with
  | nil => simp [lines]
  | cons c s =>
    simp only [lines]
    split
    · simp
    · split <;> simp

/-- Dividing into lines loses nothing. -/
theorem joinLines_lines (s : List Char) : joinLines (lines s) = s := by
  induction s with
  | nil => rfl
  | cons c s ih =>
    simp only [lines]
    cases h : lines s with
    | nil => exact absurd h (lines_ne_nil s)
    | cons l ls =>
      rw [h] at ih
      split
      · rename_i hc
        simpa [joinLines, hc] using ih
      · cases ls with
        | nil => simpa [joinLines] using ih
        | cons l' ls => simpa [joinLines] using ih

end Text
end SceneMarkup
