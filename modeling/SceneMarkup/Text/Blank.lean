/-!
# Blank characters

The white space of the standard: the characters with the property `White_Space`.  The zero-width
space and the byte-order mark are not among them.

## Main definitions

* `isBlank` — the property.
* `trimStart`, `trimEnd`, `trim` — a text without the blanks at its ends.
* `words` — the maximal runs of characters that are not blank.

## Main results

* `words_cons_of_blank` — blanks in front of a text do not change its words.
* `not_isBlank_of_mem_words` — a word is not empty and holds no blank.
-/

namespace SceneMarkup
namespace Text

/-- Whether a character is white space. -/
def isBlank (c : Char) : Bool :=
  let n := c.toNat
  (9 ≤ n && n ≤ 13) || n == 0x20 || n == 0x85 || n == 0xA0 || n == 0x1680 ||
    (0x2000 ≤ n && n ≤ 0x200A) || n == 0x2028 || n == 0x2029 || n == 0x202F || n == 0x205F ||
    n == 0x3000

@[simp] theorem isBlank_space : isBlank ' ' = true := rfl

@[simp] theorem isBlank_newline : isBlank '\n' = true := rfl

/-- A text without its leading blanks. -/
def trimStart (s : List Char) : List Char := s.dropWhile isBlank

/-- A text without its trailing blanks. -/
def trimEnd (s : List Char) : List Char := (s.reverse.dropWhile isBlank).reverse

/-- A text without the blanks at its two ends. -/
def trim (s : List Char) : List Char := trimEnd (trimStart s)

@[simp] theorem trimStart_nil : trimStart [] = [] := rfl

@[simp] theorem trim_nil : trim [] = [] := rfl

/-- Whether a text holds nothing but blanks. -/
def allBlank (s : List Char) : Bool := s.all isBlank

/-- Put a character in front of the first word, or start a word when there is none. -/
def consWord (c : Char) : List (List Char) → List (List Char)
  | [] => [[c]]
  | w :: ws => (c :: w) :: ws

/-- The words of a text in order: its maximal runs of characters that are not blank. -/
def words : List Char → List (List Char)
  | [] => []
  | c :: r =>
    if isBlank c then words r
    else
      match r with
      | [] => [[c]]
      | d :: _ => if isBlank d then [c] :: words r else consWord c (words r)

@[simp] theorem words_nil : words [] = [] := rfl

theorem words_cons_of_blank {c : Char} (h : isBlank c = true) (r : List Char) :
    words (c :: r) = words r := by simp [words, h]

/-- A word is not empty and holds no blank. -/
theorem not_isBlank_of_mem_words {s w : List Char} (h : w ∈ words s) :
    w ≠ [] ∧ ∀ c ∈ w, isBlank c = false := by
  induction s generalizing w with
  | nil => cases h
  | cons c r ih =>
    by_cases hc : isBlank c = true
    · rw [words_cons_of_blank hc] at h
      exact ih h
    · have hc : isBlank c = false := by simpa using hc
      have single : [c] ≠ [] ∧ ∀ x ∈ [c], isBlank x = false := by simp [hc]
      cases r with
      | nil =>
        have h : w ∈ [[c]] := by simpa only [words, hc, Bool.false_eq_true, if_false] using h
        rw [List.mem_singleton.1 h]
        exact single
      | cons d r =>
        cases hd : isBlank d with
        | true =>
          have h : w ∈ [c] :: words (d :: r) := by
            simpa only [words, hc, hd, Bool.false_eq_true, if_false, if_true] using h
          rcases List.mem_cons.1 h with rfl | h
          · exact single
          · exact ih h
        | false =>
          have h : w ∈ consWord c (words (d :: r)) := by
            simpa only [words, hc, hd, Bool.false_eq_true, if_false] using h
          cases hws : words (d :: r) with
          | nil =>
            rw [hws] at h
            rw [List.mem_singleton.1 h]
            exact single
          | cons v vs =>
            rw [hws] at h
            rcases List.mem_cons.1 h with rfl | h
            · -- the letter joins the first word
              have hv := ih (w := v) (by simp [hws])
              simpa [hc] using hv.2
            · exact ih (by simp [hws, h])

end Text
end SceneMarkup
