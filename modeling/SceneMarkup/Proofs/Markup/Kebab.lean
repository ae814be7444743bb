import SceneMarkup.Markup.ClassName
import SceneMarkup.Proofs.Text.Filter
import SceneMarkup.Proofs.Text.Lowercase

/-!
# What kebab case adds

Spelling a name in kebab case adds hyphens and turns capitals into small letters.  Of any other kind
of characters the spelling has no more than the name.

## Main results

* `countP_kebab_le` — **a name in kebab case has no more characters of an unmade kind.**
* `countP_kebabWords_le` — neither have the words of a value.
-/

namespace SceneMarkup
namespace Markup

open Text

variable {q : Char → Bool}

theorem countP_splitCamel (hq : q '-' = false) (s : List Char) :
    (splitCamel s).countP q = s.countP q := by
  induction s with
  | nil => rfl
  | cons c s ih =>
    rw [splitCamel]
    split
    · rw [List.countP_cons, List.countP_cons, List.countP_cons, hq, ih]
      rfl
    · rw [List.countP_cons, List.countP_cons, ih]

theorem countP_hyphenate_le (hq : q '-' = false) (s : List Char) :
    (hyphenate s).countP q ≤ s.countP q := by
  induction s with
  | nil => exact Nat.le_refl _
  | cons c s ih =>
    have hcons : hyphenate (c :: s) = (if isSeparator c then '-' else c) :: hyphenate s := rfl
    rw [hcons, List.countP_cons, List.countP_cons]
    split
    · rw [hq]
      exact Nat.le_add_right_of_le ih
    · exact Nat.add_le_add_right ih _

theorem squeezeHyphens_sublist (s : List Char) : (squeezeHyphens s).Sublist s := by
  induction s with
  | nil => exact List.Sublist.refl _
  | cons c s ih =>
    rw [squeezeHyphens]
    split
    · exact ih.cons c
    · exact ih.cons_cons c

theorem trimHyphens_sublist (s : List Char) : (trimHyphens s).Sublist s := by
  rw [trimHyphens, ← List.reverse_sublist, List.reverse_reverse]
  exact (List.dropWhile_sublist _).trans
    (List.reverse_sublist.2 (List.dropWhile_sublist _))

/-- **A name in kebab case has no more characters of an unmade kind than the name.** -/
theorem countP_kebab_le (hq : IsUnmade q) (s : List Char) : (kebab s).countP q ≤ s.countP q :=
  calc (kebab s).countP q
      ≤ (lower (squeezeHyphens (hyphenate (splitCamel s)))).countP q :=
        (trimHyphens_sublist _).countP_le
    _ ≤ (squeezeHyphens (hyphenate (splitCamel s))).countP q := countP_lower_le hq _
    _ ≤ (hyphenate (splitCamel s)).countP q := (squeezeHyphens_sublist _).countP_le
    _ ≤ (splitCamel s).countP q := countP_hyphenate_le hq.hyphen _
    _ = s.countP q := countP_splitCamel hq.hyphen s

theorem countP_flatten_map_le {f : List Char → List Char}
    (h : ∀ w, (f w).countP q ≤ w.countP q) (ws : List (List Char)) :
    (ws.map f).flatten.countP q ≤ ws.flatten.countP q := by
  induction ws with
  | nil => exact Nat.le_refl _
  | cons w ws ih =>
    have := h w
    rw [List.map_cons, List.flatten_cons, List.flatten_cons, List.countP_append,
      List.countP_append]
    omega

theorem countP_flatten_le_of_sublist {us ws : List (List Char)} (h : us.Sublist ws) :
    us.flatten.countP q ≤ ws.flatten.countP q := by
  induction h with
  | slnil => exact Nat.le_refl _
  | cons w _ ih =>
    rw [List.flatten_cons, List.countP_append]
    exact Nat.le_add_left_of_le ih
  | cons_cons w _ ih =>
    rw [List.flatten_cons, List.flatten_cons, List.countP_append, List.countP_append]
    exact Nat.add_le_add_left ih _

theorem countP_flatten_words_le (s : List Char) : (words s).flatten.countP q ≤ s.countP q := by
  rw [flatten_words]
  exact List.filter_sublist.countP_le

theorem countP_joinWith {sep : List Char} (hsep : sep.filter q = []) (ls : List (List Char)) :
    (joinWith sep ls).countP q = ls.flatten.countP q := by
  rw [List.countP_eq_length_filter, filter_joinWith hsep, ← List.countP_eq_length_filter]

/-- The words of a value in kebab case have no more characters of an unmade kind than the value. -/
theorem countP_kebabWords_le (hq : IsUnmade q) (hspace : q ' ' = false) (v : List Char) :
    (joinWith [' '] (kebabWords v)).countP q ≤ v.countP q :=
  calc (joinWith [' '] (kebabWords v)).countP q
      = (kebabWords v).flatten.countP q := countP_joinWith (by simp [hspace]) _
    _ ≤ ((words v).map kebab).flatten.countP q := countP_flatten_le_of_sublist List.filter_sublist
    _ ≤ (words v).flatten.countP q := countP_flatten_map_le (countP_kebab_le hq) _
    _ ≤ v.countP q := countP_flatten_words_le v

end Markup
end SceneMarkup
