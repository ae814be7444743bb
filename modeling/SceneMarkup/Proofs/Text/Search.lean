import Mathlib.Data.List.Infix
import SceneMarkup.Text.Basic

/-!
# Laws of searching

A word occurs in a text when it is an infix of it.  Where a character that the word does not have
stands in the text, each occurrence is on one side of it.

## Main results

* `contains_iff_isInfix` — a word that occurs is an infix.
* `eq_append_of_not_mem` — a text without some character in front of the first one.
* `contains_append_cons` — a character of another kind parts the occurrences of a word.
* `contains_joinWith` — so does a separator that stands between texts.
* `contains_first_append_cons` — so does the first character of the word.
* `divide?_append` — a text divided at the first occurrence of a word.
* `divide?_eq_none_iff`, `length_le_of_divide?` — **what is divided is divided at the first
  occurrence.**
* `exists_suffix_of_divide?`, `divide?_append_of_getLast?` — an occurrence may start a few letters
  before a word that is put behind a text, unless the text ends with another letter.
-/

namespace SceneMarkup
namespace Text

theorem startsWith_iff_isPrefix {w s : List Char} : startsWith w s = true ↔ w <+: s := by
  rw [startsWith, Option.isSome_iff_exists]
  constructor
  · rintro ⟨r, hr⟩
    exact ⟨r, (after?_eq_some_iff.1 hr).symm⟩
  · rintro ⟨r, hr⟩
    exact ⟨r, after?_eq_some_iff.2 hr.symm⟩

/-- A word that occurs in a text is an infix of it. -/
theorem contains_iff_isInfix {w s : List Char} : contains w s = true ↔ w <:+: s := by
  induction s with
  | nil => simp
  | cons c s ih =>
    rw [contains_cons, Bool.or_eq_true, startsWith_iff_isPrefix, ih, List.infix_cons_iff]

/-- A word that occurs in a part of a text occurs in the text. -/
theorem contains_of_isInfix {w s t : List Char} (h : s <:+: t) (hs : contains w s = true) :
    contains w t = true :=
  contains_iff_isInfix.2 ((contains_iff_isInfix.1 hs).trans h)

theorem contains_eq_false_of_isInfix {w s t : List Char} (h : s <:+: t)
    (ht : contains w t = false) : contains w s = false := by
  rw [Bool.eq_false_iff] at ht ⊢
  exact fun hs => ht (contains_of_isInfix h hs)

theorem contains_append {w : List Char} (u v : List Char) : contains w (u ++ (w ++ v)) = true :=
  contains_iff_isInfix.2 ⟨u, v, List.append_assoc u w v⟩

/-- A text without the character `c`, in front of a text with it, ends before that character. -/
theorem eq_append_of_not_mem {c : Char} {u w y z : List Char} (hc : c ∉ w)
    (h : u ++ c :: y = w ++ z) : ∃ a, u = w ++ a ∧ z = a ++ c :: y := by
  rcases List.append_eq_append_iff.1 h with ⟨b, rfl, hb⟩ | ⟨a, rfl, ha⟩
  · cases b with
    | nil => exact ⟨[], by simp, hb.symm⟩
    | cons d b =>
      obtain ⟨rfl, -⟩ := List.cons.inj hb
      exact absurd (List.mem_append_right u List.mem_cons_self) hc
  · exact ⟨a, rfl, ha⟩

theorem startsWith_append_cons {c : Char} {w : List Char} (hc : c ∉ w) (u z : List Char) :
    startsWith w (u ++ c :: z) = startsWith w u := by
  rw [Bool.eq_iff_iff, startsWith_iff_isPrefix, startsWith_iff_isPrefix]
  constructor
  · rintro ⟨r, hr⟩
    obtain ⟨a, rfl, -⟩ := eq_append_of_not_mem hc hr.symm
    exact List.prefix_append w a
  · exact fun h => h.trans (List.prefix_append u _)

/-- A character that a word does not have parts its occurrences. -/
theorem contains_append_cons {c : Char} {w : List Char} (hc : c ∉ w) (u z : List Char) :
    contains w (u ++ c :: z) = (contains w u || contains w z) := by
  have hstart := startsWith_append_cons hc (z := z)
  induction u with
  | nil =>
    have : startsWith w (c :: z) = w.isEmpty := by
      rw [← List.nil_append (c :: z), hstart]
      cases w <;> rfl
    rw [List.nil_append, contains_cons, this, contains_nil]
  | cons d u ih =>
    rw [List.cons_append, contains_cons, ← List.cons_append, hstart, ih, contains_cons,
      Bool.or_assoc]

/-- A word occurs in joined texts when it occurs in one of them. -/
theorem contains_joinWith {c : Char} {w : List Char} (hc : c ∉ w) (hne : w ≠ [])
    (ls : List (List Char)) : contains w (joinWith [c] ls) = ls.any (contains w) := by
  induction ls with
  | nil => simpa using hne
  | cons l ls ih =>
    cases ls with
    | nil => simp
    | cons l' ls =>
      rw [joinWith_cons_cons, List.singleton_append, contains_append_cons hc, ih]
      rfl

section FirstLetter

variable {c : Char} {w : List Char} (hc : c ∉ w)

include hc

/-- The first character of a word parts its occurrences too, when the rest of the word does not
have it. -/
theorem startsWith_first_append_cons (d : Char) (u z : List Char) :
    startsWith (c :: w) (d :: (u ++ c :: z)) = startsWith (c :: w) (d :: u) := by
  have hstart := startsWith_append_cons hc u z
  simp only [startsWith] at hstart ⊢
  simp only [after?]
  split
  · exact hstart
  · rfl

theorem contains_first_append_cons (u z : List Char) :
    contains (c :: w) (u ++ c :: z) = (contains (c :: w) u || contains (c :: w) (c :: z)) := by
  induction u with
  | nil => rfl
  | cons d u ih =>
    rw [List.cons_append, contains_cons, startsWith_first_append_cons hc, ih,
      contains_cons _ d u, Bool.or_assoc]

/-- A text divided at the first occurrence of a word. -/
theorem divide?_append {u : List Char} (hu : contains (c :: w) u = false) (r : List Char) :
    divide? (c :: w) (u ++ (c :: w ++ r)) = some (u, r) := by
  induction u with
  | nil =>
    rw [List.nil_append, List.cons_append, divide?, ← List.cons_append, after?_append]
  | cons d u ih =>
    rw [contains_cons, Bool.or_eq_false_iff] at hu
    have hnone : after? (c :: w) (d :: (u ++ (c :: w ++ r))) = none := by
      have := startsWith_first_append_cons hc d u (w ++ r)
      rw [hu.1] at this
      simpa [startsWith] using this
    rw [List.cons_append, divide?, hnone, ih hu.2]

end FirstLetter

/-! ### First occurrences -/

section FirstOccurrence

variable {w : List Char}

/-- A text in which a word does not occur is not divided. -/
theorem divide?_eq_none_iff {s : List Char} : divide? w s = none ↔ contains w s = false := by
  induction s with
  | nil => cases w <;> simp [divide?]
  | cons c s ih =>
    rw [contains_cons, Bool.or_eq_false_iff, ← ih, startsWith, divide?]
    cases after? w (c :: s) with
    | some r => simp
    | none => cases divide? w s <;> simp

/-- No occurrence starts in front of the one at which a text is divided. -/
theorem length_le_of_divide? {s u r u' r' : List Char} (h : divide? w s = some (u, r))
    (hs : s = u' ++ (w ++ r')) : u.length ≤ u'.length := by
  induction s generalizing u u' with
  | nil =>
    simp only [divide?] at h
    split at h
    · cases h
      exact Nat.zero_le _
    · cases h
  | cons c s ih =>
    simp only [divide?] at h
    split at h
    · cases h
      exact Nat.zero_le _
    · next hnone =>
      split at h
      · next u₀ r₀ hd =>
        cases h
        cases u' with
        | nil =>
          rw [hs, List.nil_append, after?_append] at hnone
          cases hnone
        | cons c' u' => exact Nat.succ_le_succ (ih hd (List.cons.inj hs).2)
      · cases h

/-- A word does not occur in front of its first occurrence. -/
theorem contains_eq_false_of_divide? (hw : w ≠ []) {s u r : List Char}
    (h : divide? w s = some (u, r)) : contains w u = false := by
  rw [Bool.eq_false_iff]
  intro hcontains
  obtain ⟨x, y, hu⟩ := contains_iff_isInfix.1 hcontains
  have hs : s = x ++ (w ++ (y ++ (w ++ r))) := by
    rw [← append_of_divide? h, ← hu]
    simp
  have hle := length_le_of_divide? h hs
  rw [← hu, List.length_append, List.length_append] at hle
  have hpos := List.length_pos_iff.2 hw
  omega

/-- A word behind a text ends the first occurrence or has it in front: what is divided off goes on
with what follows the word. -/
theorem exists_of_divide? {p z u r : List Char} (h : divide? w (p ++ (w ++ z)) = some (u, r)) :
    ∃ x, p ++ w = u ++ (w ++ x) ∧ r = x ++ z := by
  have hle := length_le_of_divide? h rfl
  have hs : (u ++ w) ++ r = (p ++ w) ++ z := by
    rw [List.append_assoc, List.append_assoc]
    exact append_of_divide? h
  obtain ⟨x, hx, hr⟩ | ⟨x, hx, hz⟩ := List.append_eq_append_iff.1 hs
  · exact ⟨x, by rw [hx, List.append_assoc], hr⟩
  · have hlen := congrArg List.length hx
    simp only [List.length_append] at hlen
    obtain rfl : x = [] := List.length_eq_zero_iff.1 (by omega)
    exact ⟨[], by simpa using hx.symm, by simpa using hz.symm⟩

/-- A text without the word has at most a part of it in common with the word behind the text. -/
theorem exists_suffix_of_divide? {p z u r : List Char} (hp : contains w p = false)
    (h : divide? w (p ++ (w ++ z)) = some (u, r)) : ∃ x, x <:+ w ∧ r = x ++ z := by
  obtain ⟨x, hx, hr⟩ := exists_of_divide? h
  refine ⟨x, ?_, hr⟩
  rw [← List.append_assoc] at hx
  obtain ⟨y, -, hw⟩ | ⟨y, rfl, -⟩ := List.append_eq_append_iff.1 hx
  · exact ⟨y, hw.symm⟩
  · rw [List.append_assoc, contains_append] at hp
    cases hp

/-- A text without the word that does not end with one of its letters is what stands in front of the
word put behind it. -/
theorem divide?_append_of_getLast? {u : List Char} (hu : contains w u = false)
    (hlast : ∀ c ∈ u.getLast?, c ∉ w) (r : List Char) :
    divide? w (u ++ (w ++ r)) = some (u, r) := by
  cases h : divide? w (u ++ (w ++ r)) with
  | none =>
    rw [divide?_eq_none_iff, contains_append] at h
    cases h
  | some found =>
    obtain ⟨u', r'⟩ := found
    obtain ⟨y, rfl⟩ : ∃ y, u = u' ++ y := by
      have hprefix : u' <+: u ++ (w ++ r) := ⟨w ++ r', append_of_divide? h⟩
      obtain ⟨y, hy⟩ := List.prefix_of_prefix_length_le hprefix (List.prefix_append u _)
        (length_le_of_divide? h rfl)
      exact ⟨y, hy.symm⟩
    have hrest : y ++ (w ++ r) = w ++ r' := by
      have happend := append_of_divide? h
      rwa [List.append_assoc, List.append_cancel_left_eq, eq_comm] at happend
    -- what is left of the text starts the word, or the word starts it
    obtain ⟨a, hw, ha⟩ | ⟨a, rfl, -⟩ := List.append_eq_append_iff.1 hrest
    · cases hy : y.getLast? with
      | none =>
        obtain rfl := List.getLast?_eq_none_iff.1 hy
        rw [List.nil_append] at hw
        rw [← hw, List.append_cancel_left_eq] at ha
        rw [ha, List.append_nil]
      | some c =>
        have hmem : c ∈ (u' ++ y).getLast? := by
          rw [List.getLast?_append, hy]
          rfl
        exact absurd (hw ▸ List.mem_append_left a (List.mem_of_getLast? hy)) (hlast c hmem)
    · rw [contains_append] at hu
      cases hu

end FirstOccurrence

end Text
end SceneMarkup
