import Mathlib.Data.List.TakeWhile
import SceneMarkup.Proofs.Text.Scan
import SceneMarkup.Stylesheet.Selector

/-!
# Class names of stylesheets

What is listed as a class of a stylesheet is an identifier: a letter, and behind it letters, digits,
underscores and hyphens.  The list is strictly increasing, so it is a set.

## Main definitions

* `IsClassName` — a letter and identifier characters behind it.

## Main results

* `isClassName_of_mem_classNames` — **every listed name is of that form.**
* `pairwise_classNames` — **the list is strictly increasing.**
-/

namespace SceneMarkup
namespace Stylesheet

open Text

/-- A letter with letters, digits, underscores and hyphens behind it. -/
def IsClassName (name : List Char) : Prop :=
  ∃ c u, name = c :: u ∧ c.isAlpha = true ∧ ∀ x ∈ u, isIdentChar x = true

/-- A class selector is a point in front of a class name. -/
theorem classSelector?_eq_some {s name r : List Char} (h : classSelector? s = some (name, r)) :
    s = '.' :: name ++ r ∧ IsClassName name := by
  unfold classSelector? at h
  split at h
  · next c s =>
    split at h
    · next hc =>
      obtain ⟨v, w, rfl, hv, rfl⟩ := eq_cons_of_cutAtBoundary h
      refine ⟨?_, c, v, rfl, hc, fun x hx => List.mem_takeWhile_imp (l := s) ?_⟩
      · have hs : v ++ (w ++ s.dropWhile isIdentChar) = s := by
          rw [← List.append_assoc, ← hv, List.takeWhile_append_dropWhile]
        rw [List.cons_append, List.cons_append, hs]
      · rw [hv]
        exact List.mem_append_left _ hx
    · cases h
  · cases h

theorem consumes_classSelector? : classSelector?.Consumes := by
  intro s name r h
  obtain ⟨hs, -⟩ := classSelector?_eq_some h
  exact ⟨'.' :: name, List.cons_ne_nil _ _, hs⟩

/-- Every class of a stylesheet is a class name. -/
theorem isClassName_of_mem_classNames {stylesheet : List Char} {name : String}
    (h : name ∈ classNames stylesheet) : IsClassName name.toList := by
  rw [classNames, mem_sortedSet, List.mem_map] at h
  obtain ⟨v, hv, rfl⟩ := h
  obtain ⟨o, ho, rfl⟩ := List.mem_map.1 hv
  obtain ⟨r, -, hread⟩ := read_of_mem_occurrences consumes_classSelector? ho
  rw [String.toList_ofList]
  exact (classSelector?_eq_some hread).2

/-- The classes of a stylesheet are strictly increasing. -/
theorem pairwise_classNames (stylesheet : List Char) :
    (classNames stylesheet).Pairwise (· < ·) :=
  pairwise_sortedSet _

end Stylesheet
end SceneMarkup
