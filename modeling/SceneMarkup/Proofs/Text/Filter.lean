import Mathlib.Data.List.TakeWhile
import SceneMarkup.Text.Basic
import SceneMarkup.Text.Blank

/-!
# What the operations on texts keep

Trimming, dividing into words and taking a word out of a text drop characters of one kind only.  All
other characters are kept, in their order.  A kind of characters to be kept is a predicate `q`.

## Main results

* `filter_trim` — trimming keeps what is not blank.
* `flatten_words` — the words of a text are its characters that are not blank, in order.
* `filter_joinWith` — joining adds separators only.
* `filter_erase` — taking a word out keeps the characters that the word has not.
-/

namespace SceneMarkup
namespace Text

/-- What is checked of all the characters of a text holds of each. -/
theorem forall_mem_of_all {p : Char → Prop} [DecidablePred p] {s : List Char}
    (h : (s.all fun c => decide (p c)) = true) : ∀ c ∈ s, p c := by
  intro c hc
  exact of_decide_eq_true (List.all_eq_true.1 h c hc)

/-! ### Trimming -/

/-- A text is the blanks in front of it and what is left without them. -/
theorem exists_blanks_append_trimStart (s : List Char) :
    ∃ w, (∀ c ∈ w, isBlank c = true) ∧ s = w ++ trimStart s :=
  ⟨s.takeWhile isBlank, fun _ h => List.mem_takeWhile_imp h,
    List.takeWhile_append_dropWhile.symm⟩

/-- A text is what is left without the blanks behind it, and these. -/
theorem exists_trimEnd_append_blanks (s : List Char) :
    ∃ w, (∀ c ∈ w, isBlank c = true) ∧ s = trimEnd s ++ w := by
  obtain ⟨w, hw, h⟩ := exists_blanks_append_trimStart s.reverse
  refine ⟨w.reverse, fun c hc => hw c (List.mem_reverse.1 hc), ?_⟩
  rw [trimEnd, ← List.reverse_append]
  exact List.reverse_eq_iff.1 h

/-- Dropping characters that are not kept anyway. -/
theorem filter_dropWhile_of_disjoint {b q : Char → Bool} (h : ∀ c, b c = true → q c = false)
    (s : List Char) : (s.dropWhile b).filter q = s.filter q := by
  induction s with
  | nil => rfl
  | cons c s ih =>
    cases hc : b c with
    | true => rw [List.dropWhile_cons_of_pos hc, ih, List.filter_cons_of_neg (by simp [h c hc])]
    | false => rw [List.dropWhile_cons_of_neg (by simp [hc])]

section Keep

variable {q : Char → Bool}

theorem filter_trimStart (hq : ∀ c, isBlank c = true → q c = false) (s : List Char) :
    (trimStart s).filter q = s.filter q :=
  filter_dropWhile_of_disjoint hq s

theorem filter_trimEnd (hq : ∀ c, isBlank c = true → q c = false) (s : List Char) :
    (trimEnd s).filter q = s.filter q := by
  rw [trimEnd, List.filter_reverse, filter_dropWhile_of_disjoint hq, List.filter_reverse,
    List.reverse_reverse]

/-- Trimming keeps what is not blank. -/
theorem filter_trim (hq : ∀ c, isBlank c = true → q c = false) (s : List Char) :
    (trim s).filter q = s.filter q := by
  rw [trim, filter_trimEnd hq, filter_trimStart hq]

/-! ### Words -/

theorem flatten_consWord (c : Char) (ws : List (List Char)) :
    (consWord c ws).flatten = c :: ws.flatten := by
  cases ws <;> rfl

/-- The words of a text are its characters that are not blank, in order. -/
theorem flatten_words (s : List Char) : (words s).flatten = s.filter fun c => !isBlank c := by
  induction s with
  | nil => rfl
  | cons c r ih =>
    cases hc : isBlank c with
    | true => rw [words_cons_of_blank hc, ih, List.filter_cons_of_neg (by simp [hc])]
    | false =>
      rw [List.filter_cons_of_pos (by simp [hc]), ← ih]
      cases r with
      | nil => simp [words, hc]
      | cons d r =>
        cases hd : isBlank d with
        | true => simp [words, hc, hd]
        | false =>
          have hw : words (c :: d :: r) = consWord c (words (d :: r)) := by
            rw [words]
            simp [hc, hd]
          rw [hw, flatten_consWord]

/-- The words of a text keep what is not blank. -/
theorem filter_flatten_words (hq : ∀ c, isBlank c = true → q c = false) (s : List Char) :
    (words s).flatten.filter q = s.filter q := by
  rw [flatten_words, List.filter_filter]
  refine List.filter_congr fun c _ => ?_
  cases hc : isBlank c with
  | true => simp [hq c hc]
  | false => simp

/-- Joining adds separators only. -/
theorem filter_joinWith {sep : List Char} (hsep : sep.filter q = []) (ls : List (List Char)) :
    (joinWith sep ls).filter q = ls.flatten.filter q := by
  induction ls with
  | nil => rfl
  | cons l ls ih =>
    cases ls with
    | nil => simp
    | cons l' ls => simp [ih, hsep]

/-! ### Taking a word out -/

theorem eraseFrom_eq_erase_drop (w : List Char) (skip : Nat) (s : List Char) :
    eraseFrom w skip s = erase w (s.drop skip) := by
  induction s generalizing skip with
  | nil => cases skip <;> simp [eraseFrom, erase]
  | cons c s ih =>
    cases skip with
    | zero => rfl
    | succ skip => simpa [eraseFrom] using ih skip

theorem erase_cons_of_not_startsWith {w : List Char} {c : Char} {s : List Char}
    (h : startsWith w (c :: s) = false) : erase w (c :: s) = c :: erase w s := by
  simp [erase, eraseFrom, h]

/-- A word at the start of a text is passed over. -/
theorem erase_append_self {w : List Char} (hw : w ≠ []) (s : List Char) :
    erase w (w ++ s) = erase w s := by
  cases w with
  | nil => exact absurd rfl hw
  | cons a w =>
    have h : startsWith (a :: w) (a :: (w ++ s)) = true := by
      rw [startsWith, ← List.cons_append, after?_append]
      rfl
    rw [List.cons_append, erase, eraseFrom, if_pos h, eraseFrom_eq_erase_drop]
    simp

/-- Induction on a text by the occurrences of a word that is taken out of it. -/
theorem erase_induction {w : List Char} (hw : w ≠ []) {R : List Char → List Char → Prop}
    (nil : R [] []) (word : ∀ s s', R s s' → R (w ++ s) s')
    (plain : ∀ c s s', startsWith w (c :: s) = false → R s s' → R (c :: s) (c :: s'))
    (s : List Char) : R s (erase w s) := by
  -- what remains behind the word is shorter than the text
  induction hn : s.length using Nat.strongRecOn generalizing s with
  | ind n ih =>
    cases s with
    | nil => exact nil
    | cons c s =>
      cases h : startsWith w (c :: s) with
      | false =>
        rw [erase_cons_of_not_startsWith h]
        exact plain c s _ h (ih s.length (by simp [← hn]) s rfl)
      | true =>
        obtain ⟨r, hr⟩ := Option.isSome_iff_exists.1 h
        rw [after?_eq_some_iff] at hr
        rw [hr, erase_append_self hw]
        refine word r _ (ih r.length ?_ r rfl)
        have hlen := congrArg List.length hr
        rw [hn, List.length_append] at hlen
        have := List.length_pos_iff.2 hw
        omega

/-- Taking a word out of a text keeps the characters that the word has not. -/
theorem filter_erase {w : List Char} (hw : w ≠ []) (hq : w.filter q = []) (s : List Char) :
    (erase w s).filter q = s.filter q := by
  refine erase_induction (R := fun s s' => s'.filter q = s.filter q) hw rfl ?_ ?_ s
  · intro s s' h
    rw [List.filter_append, hq, List.nil_append, h]
  · intro c s s' _ h
    rw [List.filter_cons, List.filter_cons, h]

/-- Taking a word out of a text that contains it makes the text shorter by that word or more. -/
theorem length_erase_add_le {w : List Char} (hw : w ≠ []) {s : List Char}
    (h : contains w s = true) : (erase w s).length + w.length ≤ s.length := by
  refine (erase_induction (R := fun s s' => s'.length ≤ s.length ∧
    (contains w s = true → s'.length + w.length ≤ s.length)) hw ⟨Nat.le_refl _, ?_⟩ ?_ ?_ s).2 h
  · intro h
    exact absurd (List.isEmpty_iff.1 h) hw
  · intro s s' ih
    rw [List.length_append]
    exact ⟨by omega, fun _ => by omega⟩
  · intro c s s' hc ih
    rw [contains_cons, hc, Bool.false_or, List.length_cons, List.length_cons]
    refine ⟨by omega, fun h => ?_⟩
    have := ih.2 h
    omega

theorem length_erase_lt {w : List Char} (hw : w ≠ []) {s : List Char} (h : contains w s = true) :
    (erase w s).length < s.length := by
  have hpos := List.length_pos_iff.2 hw
  have hle := length_erase_add_le hw h
  omega

/-- A text is kept when the word is not in it. -/
theorem erase_eq_self_iff {w s : List Char} (hw : w ≠ []) :
    erase w s = s ↔ contains w s = false := by
  constructor
  · intro h
    by_contra hcontains
    rw [Bool.not_eq_false] at hcontains
    have hlt := length_erase_lt hw hcontains
    rw [h] at hlt
    exact absurd hlt (Nat.lt_irrefl _)
  · intro h
    induction s with
    | nil => rfl
    | cons c s ih =>
      rw [contains_cons, Bool.or_eq_false_iff] at h
      rw [erase_cons_of_not_startsWith h.1, ih h.2]

end Keep

end Text
end SceneMarkup
