import SceneMarkup.Proofs.Duplicates
import SceneMarkup.Proofs.Markup.Kebab
import SceneMarkup.Proofs.Markup.Rank

/-!
# Weights of classes

What the rules about classes make of the words of a value: kebab case does not raise their weight,
and the standard form of icons lowers it, even with the class `ico-normal` added.

## Main results

* `weight_kebabWords_le`, `fleeting_kebabWords_le` — a value in kebab case.
* `forall_mem_standardWords` — the classes in the standard form.
* `weight_standardWords_lt`, `fleeting_standardWords_le` — **a value in the standard form of
  icons.**
-/

namespace SceneMarkup
namespace Markup

open Text

/-! ### Sums of weights -/

theorem sum_weight_le_of_sublist {us ws : List (List Char)} (h : us.Sublist ws) :
    (us.map weight).sum ≤ (ws.map weight).sum := by
  induction h with
  | slnil => exact Int.le_refl _
  | cons w _ ih =>
    have := weight_nonneg w
    rw [List.map_cons, List.sum_cons]
    omega
  | cons_cons w _ ih =>
    rw [List.map_cons, List.map_cons, List.sum_cons, List.sum_cons]
    omega

/-! ### Kebab case -/

theorem isUnmade_isLetterN : IsUnmade isLetterN where
  ascii := by
    intro c h
    simp only [isLetterN, Bool.or_eq_true, beq_iff_eq] at h
    rcases h with rfl | rfl <;> decide
  toLower := by decide
  hyphen := by decide
  made := by decide

theorem isUnmade_isFleeting : IsUnmade isFleeting where
  ascii := by
    intro c h
    simp only [isFleeting, Bool.or_eq_true, beq_iff_eq] at h
    rcases h with ((rfl | rfl) | rfl) | rfl <;> decide
  toLower := by decide
  hyphen := by decide
  made := by decide

theorem fleeting_kebabWords_le (v : List Char) :
    fleeting (joinWith [' '] (kebabWords v)) ≤ fleeting v :=
  countP_kebabWords_le isUnmade_isFleeting (by decide) v

/-- The words of a value without quotes. -/
theorem weight_word_of_mem {v w : List Char} (hq : '"' ∉ v) (hw : w ∈ words v) :
    weight w = 2 * w.countP isLetterN - if w = iconSize then 1 else 0 := by
  obtain ⟨hne, hb⟩ := not_isBlank_of_mem_words hw
  refine weight_word hne hb fun h => hq ?_
  have hmem : '"' ∈ (words v).flatten := List.mem_flatten.2 ⟨w, hw, h⟩
  rw [flatten_words] at hmem
  exact (List.mem_filter.1 hmem).1

theorem kebab_iconSize : kebab iconSize = iconSize := by decide

theorem weight_kebab_le {v w : List Char} (hq : '"' ∉ v) (hw : w ∈ words v) :
    weight (kebab w) ≤ weight w := by
  by_cases h : w = iconSize
  · rw [h, kebab_iconSize]
  · have hle := weight_le (kebab w)
    have hcount := countP_kebab_le isUnmade_isLetterN w
    rw [weight_word_of_mem hq hw, if_neg h]
    omega

theorem sum_weight_map_le {f : List Char → List Char} {ws : List (List Char)}
    (h : ∀ w ∈ ws, weight (f w) ≤ weight w) :
    ((ws.map f).map weight).sum ≤ (ws.map weight).sum := by
  induction ws with
  | nil => exact Int.le_refl _
  | cons w ws ih =>
    have hw := h w List.mem_cons_self
    have hws := ih fun x hx => h x (List.mem_cons_of_mem _ hx)
    simp only [List.map_cons, List.sum_cons]
    omega

theorem weight_kebabWords_le {v : List Char} (hq : '"' ∉ v) :
    weight (joinWith [' '] (kebabWords v)) ≤ weight v := by
  rw [weight_joinWith, weight_eq_sum hq, kebabWords]
  exact (sum_weight_le_of_sublist List.filter_sublist).trans
    (sum_weight_map_le fun w hw => weight_kebab_le hq hw)

/-! ### The standard form of icons -/

theorem eraseIcon_sublist (s : List Char) : (eraseIcon s).Sublist s := by
  induction s using eraseIcon.induct with
  | case1 s h ih =>
    rw [eraseIcon, if_pos h]
    refine ih.trans ?_
    exact erase_induction (R := fun s s' => s'.Sublist s) (by decide) (List.Sublist.refl _)
      (fun s s' h => h.trans (List.sublist_append_right _ _)) (fun c s s' _ h => h.cons_cons c) s
  | case2 s h =>
    rw [eraseIcon, if_neg h]

/-- Each word taken out of a name has a letter `n`. -/
theorem countP_erase_icon (s : List Char) :
    4 * (erase "icon".toList s).countP isLetterN + s.length
      ≤ 4 * s.countP isLetterN + (erase "icon".toList s).length := by
  refine erase_induction (R := fun s s' => 4 * s'.countP isLetterN + s.length
    ≤ 4 * s.countP isLetterN + s'.length) (by decide) (Nat.le_refl _) ?_ ?_ s
  · intro s s' h
    have hn : "icon".toList.countP isLetterN = 1 := by decide
    have hlen : "icon".toList.length = 4 := by decide
    rw [List.countP_append, List.length_append, hn, hlen]
    omega
  · intro c s s' _ h
    rw [List.countP_cons, List.countP_cons, List.length_cons, List.length_cons]
    omega

theorem countP_eraseIcon_lt {s : List Char} (h : mentionsIcon s = true) :
    (eraseIcon s).countP isLetterN < s.countP isLetterN := by
  have hlen : (erase "icon".toList s).length < s.length := length_erase_lt (by decide) h
  have hcount := countP_erase_icon s
  have hle := (eraseIcon_sublist (erase "icon".toList s)).countP_le (p := isLetterN)
  rw [eraseIcon, if_pos hlen]
  omega

theorem iconName_eq (w : List Char) :
    iconName w = "default".toList ∨ (iconName w).Sublist (eraseIcon w) := by
  have hsub : (trimHyphens (squeezeHyphens (eraseIcon w))).Sublist (eraseIcon w) :=
    (trimHyphens_sublist _).trans (squeezeHyphens_sublist _)
  unfold iconName
  split
  · exact Or.inl rfl
  · exact Or.inr hsub

theorem weight_iconClass_lt {v w : List Char} (hq : '"' ∉ v) (hw : w ∈ words v)
    (h : mentionsIcon w = true) : weight (iconClass (iconName w)) + 2 ≤ weight w := by
  have hsize : w ≠ iconSize := by
    rintro rfl
    exact absurd h (by decide)
  have hlt := countP_eraseIcon_lt h
  have hname : (iconName w).countP isLetterN ≤ (eraseIcon w).countP isLetterN := by
    rcases iconName_eq w with hd | hd
    · have hdefault : "default".toList.countP isLetterN = 0 := by decide
      rw [hd, hdefault]
      exact Nat.zero_le _
    · exact hd.countP_le
  have hprefix : "ico-".toList.countP isLetterN = 0 := by decide
  have hle := weight_le (iconClass (iconName w))
  rw [iconClass, List.countP_append, hprefix] at hle
  rw [weight_word_of_mem hq hw, if_neg hsize, iconClass]
  omega

theorem weight_standardWord_le {v w : List Char} (hq : '"' ∉ v) (hw : w ∈ words v) :
    weight (standardWord w) ≤ weight w := by
  rw [standardWord]
  split
  · next h =>
    have := weight_iconClass_lt hq hw h
    omega
  · exact Int.le_refl _

/-- The words of an icon lose weight when one of them is renamed. -/
theorem sum_weight_map_standardWord {v : List Char} (hq : '"' ∉ v) {ws : List (List Char)}
    (hws : ∀ w ∈ ws, w ∈ words v) (h : ws.any mentionsIcon = true) :
    ((ws.map standardWord).map weight).sum + 2 ≤ (ws.map weight).sum := by
  induction ws with
  | nil => cases h
  | cons w ws ih =>
    have hw := hws w List.mem_cons_self
    have hrest : ∀ x ∈ ws, x ∈ words v := fun x hx => hws x (List.mem_cons_of_mem _ hx)
    simp only [List.map_cons, List.sum_cons]
    cases hm : mentionsIcon w with
    | true =>
      have hlt := weight_iconClass_lt hq hw hm
      have hle := sum_weight_map_le (f := standardWord)
        fun x hx => weight_standardWord_le hq (hrest x hx)
      rw [standardWord, if_pos hm]
      omega
    | false =>
      have hle := weight_standardWord_le hq hw
      have hany : ws.any mentionsIcon = true := by simpa [hm] using h
      have := ih hrest hany
      omega

/-- What holds of the class that every icon has and of each class by its new name holds of all
classes in the standard form. -/
theorem forall_mem_standardWords {P : List Char → Prop} {ws : List (List Char)}
    (hword : ∀ w ∈ ws, P (standardWord w)) (hsize : P iconSize) :
    ∀ w ∈ standardWords ws, P w := by
  have hdups : ∀ w ∈ (ws.map standardWord).eraseDups, P w := by
    intro w hw
    obtain ⟨x, hx, rfl⟩ := List.mem_map.1 ((eraseDups_sublist _).subset hw)
    exact hword x hx
  intro w hw
  simp only [standardWords] at hw
  split at hw
  · exact hdups w hw
  · rcases List.mem_append.1 hw with hw | hw
    · exact hdups w hw
    · exact List.mem_singleton.1 hw ▸ hsize

/-- **The standard form of an icon's classes has less weight.** -/
theorem weight_standardWords_lt {v : List Char} (hq : '"' ∉ v)
    (h : (words v).any mentionsIcon = true) :
    weight (joinWith [' '] (standardWords (words v))) < weight v := by
  have hmap := sum_weight_map_standardWord hq (fun _ hw => hw) h
  have hdups := sum_weight_le_of_sublist (eraseDups_sublist ((words v).map standardWord))
  have hsize : weight iconSize = 1 := by decide
  rw [weight_joinWith, weight_eq_sum hq]
  simp only [standardWords]
  split
  · omega
  · rw [List.map_append, List.sum_append, List.map_singleton, List.sum_singleton, hsize]
    omega

theorem fleeting_standardWord_le (w : List Char) : fleeting (standardWord w) ≤ fleeting w := by
  have hprefix : fleeting "ico-".toList = 0 := by decide
  have hdefault : fleeting "default".toList = 0 := by decide
  rw [standardWord]
  split
  · rw [iconClass, fleeting_append, hprefix, Nat.zero_add]
    rcases iconName_eq w with h | h
    · rw [h, hdefault]
      exact Nat.zero_le _
    · exact (h.trans (eraseIcon_sublist w)).countP_le
  · exact Nat.le_refl _

theorem fleeting_standardWords_le (v : List Char) :
    fleeting (joinWith [' '] (standardWords (words v))) ≤ fleeting v := by
  have hdups := countP_flatten_le_of_sublist (q := isFleeting)
    (eraseDups_sublist ((words v).map standardWord))
  have hmap := countP_flatten_map_le fleeting_standardWord_le (words v)
  have hwords := countP_flatten_words_le (q := isFleeting) v
  have hsize : iconSize.countP isFleeting = 0 := by decide
  rw [fleeting, countP_joinWith (by decide), fleeting]
  simp only [standardWords]
  split
  · omega
  · rw [List.flatten_append, List.countP_append, List.flatten_singleton, hsize]
    omega

end Markup
end SceneMarkup
