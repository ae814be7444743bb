import SceneMarkup.Text.Basic

/-!
# Lines

Dividing into lines and putting lines together are inverse to each other.

## Main results

* `not_mem_of_mem_lines` — no line has a line break.
* `lines_joinLines` — lines put together are the lines of the text.
-/

namespace SceneMarkup
namespace Text

theorem lines_cons_of_ne {c : Char} (hc : c ≠ '\n') (s : List Char) :
    ∃ l ls, lines s = l :: ls ∧ lines (c :: s) = (c :: l) :: ls := by
  cases h : lines s with
  | nil => exact absurd h (lines_ne_nil s)
  | cons l ls => exact ⟨l, ls, rfl, by rw [lines, if_neg hc, h]⟩

/-- No line has a line break. -/
theorem not_mem_of_mem_lines {s l : List Char} (h : l ∈ lines s) : '\n' ∉ l := by
  induction s generalizing l with
  | nil =>
    obtain rfl : l = [] := by simpa [lines] using h
    exact List.not_mem_nil
  | cons c s ih =>
    by_cases hc : c = '\n'
    · rw [lines, if_pos hc] at h
      rcases List.mem_cons.1 h with rfl | h
      · exact List.not_mem_nil
      · exact ih h
    · obtain ⟨l₀, ls, hs, hcs⟩ := lines_cons_of_ne hc s
      rw [hcs] at h
      rcases List.mem_cons.1 h with rfl | h
      · rw [List.mem_cons, not_or]
        exact ⟨Ne.symm hc, ih (by rw [hs]; exact List.mem_cons_self)⟩
      · exact ih (by rw [hs]; exact List.mem_cons_of_mem _ h)

theorem lines_append_break {l : List Char} (h : '\n' ∉ l) (s : List Char) :
    lines (l ++ '\n' :: s) = l :: lines s := by
  induction l with
  | nil => simp [lines]
  | cons c l ih =>
    rw [List.mem_cons, not_or] at h
    rw [List.cons_append, lines, if_neg (Ne.symm h.1), ih h.2]

theorem lines_of_not_mem {l : List Char} (h : '\n' ∉ l) : lines l = [l] := by
  induction l with
  | nil => rfl
  | cons c l ih =>
    rw [List.mem_cons, not_or] at h
    rw [lines, if_neg (Ne.symm h.1), ih h.2]

/-- Lines put together are the lines of the text. -/
theorem lines_joinLines {ls : List (List Char)} (hne : ls ≠ []) (h : ∀ l ∈ ls, '\n' ∉ l) :
    lines (joinLines ls) = ls := by
  induction ls with
  | nil => exact absurd rfl hne
  | cons l ls ih =>
    have hl : '\n' ∉ l := h l List.mem_cons_self
    cases ls with
    | nil => exact lines_of_not_mem hl
    | cons l' ls =>
      have hrest : lines (joinLines (l' :: ls)) = l' :: ls :=
        ih (List.cons_ne_nil _ _) fun x hx => h x (List.mem_cons_of_mem _ hx)
      rw [joinLines, joinWith_cons_cons, List.singleton_append, lines_append_break hl, ← joinLines,
        hrest]

end Text
end SceneMarkup
