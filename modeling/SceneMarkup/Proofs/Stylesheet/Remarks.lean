import SceneMarkup.Proofs.Text.Filter
import SceneMarkup.Proofs.Text.Lines
import SceneMarkup.Proofs.Text.Search
import SceneMarkup.Stylesheet.Nesting
import SceneMarkup.Text.Digit

/-!
# Remarks on deep lines

A remark adds characters of its own to a line and takes none away; it has no brace, so the depths of
the lines stay, and the remark is found when the lines are looked at again.

## Main results

* `filter_markDeep` — what is not in a remark is kept.
* `lineDepths_markDeep` — remarks do not change the depth of any line.
* `markDeep_markDeep` — **remarks are made once.**
-/

namespace SceneMarkup
namespace Stylesheet

open Text

/-! ### The text of a remark -/

/-- The characters of a remark but for the digits of its limit. -/
def remarkText : List Char := " /* WARNING - nesting deeper than levels */".toList

/-- A remark is made of the digits of its limit and of fixed characters. -/
theorem mem_remark {limit : Nat} {c : Char} (h : c ∈ remark limit) :
    c.isDigit = true ∨ c ∈ remarkText := by
  have hstart : ∀ c ∈ ' ' :: remarkStart, c ∈ remarkText := forall_mem_of_all (by decide)
  have hspace : ' ' ∈ remarkText := by decide
  have hend : ∀ c ∈ " levels */".toList, c ∈ remarkText := forall_mem_of_all (by decide)
  rw [remark, List.append_assoc] at h
  rcases List.mem_append.1 h with h | h
  · exact Or.inr (hstart c h)
  · rcases List.mem_cons.1 h with rfl | h
    · exact Or.inr hspace
    · rcases List.mem_append.1 h with h | h
      · exact Or.inl (Nat.isDigit_of_mem_toDigits (by decide) (by decide) h)
      · exact Or.inr (hend c h)

/-- What a line with a remark is made of. -/
theorem remarked_eq (limit : Nat) (line : List Char) :
    ∃ u v, line = u ++ v ∧ remarked limit line = u ++ (remark limit ++ v) := by
  rw [remarked]
  split
  · next body hbody =>
    refine ⟨body.reverse, ['\r'], ?_, by simp⟩
    rw [← List.reverse_reverse line, hbody, List.reverse_cons]
  · exact ⟨line, [], by simp, by simp⟩

theorem contains_remarked (limit : Nat) (line : List Char) :
    contains remarkStart (remarked limit line) = true := by
  obtain ⟨u, v, -, h⟩ := remarked_eq limit line
  have hsplit : u ++ (remark limit ++ v) = (u ++ [' ']) ++ (remarkStart ++
      (' ' :: Nat.toDigits 10 limit ++ " levels */".toList ++ v)) := by
    simp [remark]
  rw [h, hsplit]
  exact contains_append _ _

/-! ### What remarks keep -/

section Keep

variable {q : Char → Bool}

theorem filter_markLine (limit : Nat) (hq : ∀ c ∈ remark limit, q c = false) (depth : Int)
    (line : List Char) : (markLine limit depth line).filter q = line.filter q := by
  rw [markLine]
  split
  · obtain ⟨u, v, hline, h⟩ := remarked_eq limit line
    have hnil : (remark limit).filter q = [] :=
      List.filter_eq_nil_iff.2 fun c hc => by simp [hq c hc]
    rw [h, hline, List.filter_append, List.filter_append, List.filter_append, hnil,
      List.nil_append]
  · rfl

/-- A kind of characters that a remark has none of is kept, provided that it has no line break. -/
theorem filter_markDeep (limit : Nat) (hq : ∀ c ∈ remark limit, q c = false)
    (hbreak : q '\n' = false) (s : List Char) : (markDeep limit s).filter q = s.filter q := by
  have key : ∀ ds ls, (markLines limit ds ls).flatten.filter q = ls.flatten.filter q := by
    intro ds ls
    induction ls generalizing ds with
    | nil => cases ds <;> rfl
    | cons l ls ih =>
      cases ds with
      | nil => rfl
      | cons d ds => simp [markLines, ih, filter_markLine limit hq]
  have hsep : ['\n'].filter q = [] := by simp [hbreak]
  conv => rhs; rw [← joinLines_lines s]
  rw [markDeep, joinLines, joinLines, filter_joinWith hsep, filter_joinWith hsep, key]

end Keep

/-! ### Remarks are made once -/

theorem markLine_markLine (limit : Nat) (depth : Int) (line : List Char) :
    markLine limit depth (markLine limit depth line) = markLine limit depth line := by
  cases h : isOver limit depth && !contains remarkStart line with
  | false => simp [markLine, h]
  | true => simp [markLine, h, contains_remarked]

theorem not_mem_remark {limit : Nat} {c : Char} (hd : c.isDigit = false) (ht : c ∉ remarkText) :
    c ∉ remark limit := by
  intro h
  rcases mem_remark h with h | h
  · rw [hd] at h
    cases h
  · exact ht h

/-- A character that no remark has is as frequent in a line with a remark as without. -/
theorem count_markLine {c : Char} (hd : c.isDigit = false) (ht : c ∉ remarkText) (limit : Nat)
    (depth : Int) (line : List Char) : (markLine limit depth line).count c = line.count c := by
  have hq : ∀ x ∈ remark limit, (x == c) = false := by
    intro x hx
    refine beq_false_of_ne ?_
    rintro rfl
    exact not_mem_remark hd ht hx
  rw [List.count_eq_length_filter, List.count_eq_length_filter, filter_markLine limit hq]

theorem netBraces_markLine (limit : Nat) (depth : Int) (line : List Char) :
    netBraces (markLine limit depth line) = netBraces line := by
  rw [netBraces, netBraces, count_markLine (by decide) (by decide),
    count_markLine (by decide) (by decide)]

theorem depthsFrom_markLines (limit : Nat) (depth : Int) (ds : List Int) (ls : List (List Char)) :
    depthsFrom depth (markLines limit ds ls) = depthsFrom depth ls := by
  induction ls generalizing depth ds with
  | nil => cases ds <;> rfl
  | cons l ls ih =>
    cases ds with
    | nil => rfl
    | cons d ds => rw [markLines, depthsFrom, depthsFrom, netBraces_markLine, ih]

theorem markLines_markLines (limit : Nat) (ds : List Int) (ls : List (List Char)) :
    markLines limit ds (markLines limit ds ls) = markLines limit ds ls := by
  induction ls generalizing ds with
  | nil => cases ds <;> rfl
  | cons l ls ih =>
    cases ds with
    | nil => rfl
    | cons d ds => rw [markLines, markLines, markLine_markLine, ih]

/-- The lines of a text with remarks are its lines, some of them with a remark. -/
theorem mem_markLines {limit : Nat} {ds : List Int} {ls : List (List Char)} {l : List Char}
    (h : l ∈ markLines limit ds ls) : ∃ d, ∃ l' ∈ ls, l = l' ∨ l = markLine limit d l' := by
  induction ls generalizing ds with
  | nil => cases ds <;> cases h
  | cons l' ls ih =>
    cases ds with
    | nil => exact ⟨0, l, h, Or.inl rfl⟩
    | cons d ds =>
      rcases List.mem_cons.1 h with rfl | h
      · exact ⟨d, l', List.mem_cons_self, Or.inr rfl⟩
      · obtain ⟨d', x, hx, hl⟩ := ih h
        exact ⟨d', x, List.mem_cons_of_mem _ hx, hl⟩

/-- The lines of a text with remarks are its lines with remarks. -/
theorem lines_markDeep (limit : Nat) (s : List Char) :
    lines (markDeep limit s) = markLines limit (lineDepths s) (lines s) := by
  refine lines_joinLines ?_ ?_
  · have hne := lines_ne_nil s
    rw [lineDepths]
    cases h : lines s with
    | nil => exact absurd h hne
    | cons l ls => exact List.cons_ne_nil _ _
  · intro l hl
    obtain ⟨d, l', hl', rfl | rfl⟩ := mem_markLines hl
    · exact not_mem_of_mem_lines hl'
    · rw [← List.count_eq_zero, count_markLine (by decide) (by decide), List.count_eq_zero]
      exact not_mem_of_mem_lines hl'

/-- Remarks do not change the depth of any line. -/
theorem lineDepths_markDeep (limit : Nat) (s : List Char) :
    lineDepths (markDeep limit s) = lineDepths s := by
  rw [lineDepths, lines_markDeep, depthsFrom_markLines, lineDepths]

/-- **Remarks are made once.** -/
theorem markDeep_markDeep (limit : Nat) (s : List Char) :
    markDeep limit (markDeep limit s) = markDeep limit s := by
  rw [markDeep, lineDepths_markDeep, lines_markDeep, markLines_markLines, markDeep]

end Stylesheet
end SceneMarkup
