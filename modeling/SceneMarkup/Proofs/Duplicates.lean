import Mathlib.Data.List.Induction

/-!
# The first of equal entries

Where a list is to name each thing once, `List.eraseDups` leaves the first of equal entries.  It is
told here from the end of the list, as the lists that grow entry by entry are made.

## Main results

* `eraseDups_concat` — one more entry.
* `eraseDups_filter` — entries may be picked before or behind it.
* `eraseDups_append_eq` — of the entries behind others, those are left that are new.
* `eraseDups_sublist` — the entries that are left keep their order.
* `nodup_eraseDups` — no two of them are equal.
-/

namespace SceneMarkup

variable {α : Type} [BEq α] [LawfulBEq α]

/-- One more entry is left out if it is in the list already. -/
theorem eraseDups_concat (as : List α) (a : α) :
    (as ++ [a]).eraseDups = if a ∈ as then as.eraseDups else as.eraseDups ++ [a] := by
  rw [List.eraseDups_append]
  by_cases h : a ∈ as
  · simp [List.removeAll, h]
  · simp [List.removeAll, h, List.eraseDups_cons]

/-- Entries may be picked before duplicates are left out or behind that. -/
theorem eraseDups_filter (p : α → Bool) (as : List α) :
    (as.filter p).eraseDups = as.eraseDups.filter p := by
  induction as using List.reverseRecOn with
  | nil => rfl
  | append_singleton as a ih =>
    rw [eraseDups_concat, List.filter_append]
    cases hp : p a with
    | false =>
      -- the last entry is not picked, whether it is a duplicate or not
      have hnone : [a].filter p = [] := by simp [hp]
      rw [hnone, List.append_nil, ih]
      split
      · rfl
      · rw [List.filter_append, hnone, List.append_nil]
    | true =>
      have hsome : [a].filter p = [a] := by simp [hp]
      have hmem : a ∈ as.filter p ↔ a ∈ as := by simp [hp]
      rw [hsome, eraseDups_concat, if_congr hmem rfl rfl, ih]
      split
      · rfl
      · rw [List.filter_append, hsome]

/-- Behind other entries only those are left that are new. -/
theorem eraseDups_append_eq (as bs : List α) :
    (as ++ bs).eraseDups = as.eraseDups ++ bs.eraseDups.filter fun b => b ∉ as.eraseDups := by
  rw [List.eraseDups_append, ← eraseDups_filter]
  congr 2
  rw [List.removeAll]
  exact List.filter_congr fun b _ => by simp

theorem eraseDups_sublist (as : List α) : as.eraseDups.Sublist as := by
  induction as using List.reverseRecOn with
  | nil => exact List.Sublist.refl _
  | append_singleton as a ih =>
    rw [eraseDups_concat]
    split
    · exact ih.trans (List.sublist_append_left as [a])
    · exact ih.append (List.Sublist.refl [a])

theorem nodup_eraseDups (as : List α) : as.eraseDups.Nodup := by
  induction as using List.reverseRecOn with
  | nil => exact List.nodup_nil
  | append_singleton as a ih =>
    rw [eraseDups_concat]
    split
    · exact ih
    · next ha =>
      refine List.nodup_append.2 ⟨ih, List.pairwise_singleton _ a, ?_⟩
      rintro b hb c hc rfl
      exact ha (List.mem_singleton.1 hc ▸ List.mem_eraseDups.1 hb)

end SceneMarkup
