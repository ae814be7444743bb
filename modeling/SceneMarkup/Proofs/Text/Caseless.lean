import SceneMarkup.Proofs.Text.Runs
import SceneMarkup.Text.Caseless

/-!
# Laws of letters without regard to case

Only capitals and two letters outside ASCII have another character as their fold; blanks are kept.

## Main results

* `fold_of_isBlank` — a blank is its own fold.
* `afterFolded?_eq_some_iff` — a word up to folding and what follows it are the text.
-/

namespace SceneMarkup
namespace Text

theorem toLower_of_not_ascii {c : Char} (h : ¬ c.toNat < 0x80) : c.toLower = c := by
  refine dif_neg ?_
  rintro ⟨-, hZ⟩
  have : c.toNat ≤ 90 := hZ
  omega

theorem toLower_of_isBlank {c : Char} (h : isBlank c = true) : c.toLower = c :=
  forall_blank (P := fun c => c.toLower = c) (by decide) h

/-- A blank is its own fold. -/
theorem fold_of_isBlank {c : Char} (h : isBlank c = true) : fold c = c :=
  forall_blank (P := fun c => fold c = c) (by decide) h

/-- A word up to folding and what follows it are the text. -/
theorem afterFolded?_eq_some_iff {w s r : List Char} :
    afterFolded? w s = some r ↔ ∃ u, u.map fold = w ∧ s = u ++ r := by
  constructor
  · intro h
    induction w generalizing s with
    | nil =>
      cases s <;> cases h <;> exact ⟨[], rfl, rfl⟩
    | cons a w ih =>
      cases s with
      | nil => cases h
      | cons c s =>
        simp only [afterFolded?] at h
        split at h
        · next hc =>
          obtain ⟨u, hu, rfl⟩ := ih h
          exact ⟨c :: u, by simp [hc, hu], rfl⟩
        · cases h
  · rintro ⟨u, rfl, rfl⟩
    induction u with
    | nil => cases r <;> rfl
    | cons c u ih => rw [List.map_cons, List.cons_append, afterFolded?, if_pos rfl, ih]

end Text
end SceneMarkup
