/-!
# Sorted sets of strings

Strings in the order of their characters' code points, each listed once.

## Main definitions

* `insertSorted` — a sorted list with one more string.
* `sortedSet` — the strings of a list, sorted and without repetitions.

## Main results

* `mem_sortedSet` — the sorted set of a list has the members of the list.
* `pairwise_sortedSet` — it is strictly increasing.
-/

namespace SceneMarkup
namespace Text

/-- A sorted list with one more string, unless it is there already. -/
def insertSorted (s : String) : List String → List String
  | [] => [s]
  | t :: ts => if s < t then s :: t :: ts else if s = t then t :: ts else t :: insertSorted s ts

/-- The strings of a list, sorted and without repetitions. -/
def sortedSet : List String → List String
  | [] => []
  | s :: ss => insertSorted s (sortedSet ss)

@[simp] theorem sortedSet_nil : sortedSet [] = [] := rfl

@[simp] theorem sortedSet_cons (s : String) (ss : List String) :
    sortedSet (s :: ss) = insertSorted s (sortedSet ss) := rfl

theorem mem_insertSorted {s t : String} {ss : List String} :
    t ∈ insertSorted s ss ↔ t = s ∨ t ∈ ss := by
  induction ss with
  | nil => simp [insertSorted]
  | cons u ss ih =>
    simp only [insertSorted]
    split
    · simp
    · split
      · rename_i h
        simp [h]
      · simp only [List.mem_cons, ih]
        constructor
        · rintro (h | h | h) <;> simp [h]
        · rintro (h | h | h) <;> simp [h]

@[simp] theorem mem_sortedSet {t : String} {ss : List String} : t ∈ sortedSet ss ↔ t ∈ ss := by
  induction ss with
  | nil => simp
  | cons s ss ih => simp [mem_insertSorted, ih]

/-- One more string leaves a sorted list sorted. -/
theorem pairwise_insertSorted {s : String} {ss : List String} (h : ss.Pairwise (· < ·)) :
    (insertSorted s ss).Pairwise (· < ·) := by
  induction ss with
  | nil => simp [insertSorted]
  | cons t ts ih =>
    obtain ⟨ht, hts⟩ := List.pairwise_cons.1 h
    simp only [insertSorted]
    split
    · rename_i hst
      exact List.pairwise_cons.2
        ⟨fun u hu => (List.mem_cons.1 hu).elim (· ▸ hst) fun hu => String.lt_trans hst (ht u hu), h⟩
    · rename_i hst
      split
      · exact h
      · rename_i hne
        -- the order is total, so what is neither below nor equal is above
        have hts' : t < s := String.not_le.1 fun hle =>
          hne (String.le_antisymm hle (String.not_lt.1 hst))
        refine List.pairwise_cons.2 ⟨fun u hu => ?_, ih hts⟩
        rcases mem_insertSorted.1 hu with rfl | hu
        · exact hts'
        · exact ht u hu

/-- The sorted set of a list is strictly increasing. -/
theorem pairwise_sortedSet (ss : List String) : (sortedSet ss).Pairwise (· < ·) := by
  induction ss with
  | nil => exact List.Pairwise.nil
  | cons s ss ih => exact pairwise_insertSorted ih

end Text
end SceneMarkup
