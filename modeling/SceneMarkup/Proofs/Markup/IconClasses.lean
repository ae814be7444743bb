import SceneMarkup.Proofs.Markup.AttributeTexts
import SceneMarkup.Proofs.Markup.IconNames
import SceneMarkup.Proofs.Markup.Rerun
import SceneMarkup.Proofs.Markup.RewrittenTags

/-!
# Classes of icons

The rule of icons writes the class attribute of an icon anew and leaves the rest of the tag as it
is.  In a tag that is written with care the scanner finds the new attribute where it found the old
one, and its classes are the standard form of the old ones, so the rule has nothing to do there.

## Main definitions

* `isIconForm` — whether a class is the form that another class gets.
* `IsStandardForm` — what the standard form of classes keeps.

## Main results

* `isStandardForm_standardWords` — **the standard form of classes.**
* `findAttribute?_standardAttributes?` — the class attribute that is read in a rewritten tag.
* `standardIcons_rewrites_classes` — **the rule rewrites the class attributes of icons, and is done
  with its own result.**
-/

namespace SceneMarkup
namespace Markup

open Text

/-! ### The standard form of classes -/

/-- Whether a class is the form that a class among `ws` gets that mentions an icon. -/
def isIconForm (ws : List (List Char)) (w : List Char) : Bool :=
  ws.any fun x => mentionsIcon x && iconClass (iconName x) == w

/-- What the standard form `new` of the classes `ws` of an icon keeps. -/
structure IsStandardForm (ws new : List (List Char)) : Prop where
  /-- No class is repeated. -/
  nodup : new.Nodup
  /-- The class that every icon has is there. -/
  size : iconSize ∈ new
  /-- So is the form of each class that mentions an icon. -/
  icons : ∀ w ∈ ws, mentionsIcon w = true → iconClass (iconName w) ∈ new
  /-- So are all other classes. -/
  others : ∀ w ∈ ws, mentionsIcon w = false → w ∈ new
  /-- The other classes keep the order in which they first occur, when they are not the form of an
  icon. -/
  order : ((ws.filter fun w => !mentionsIcon w && !isIconForm ws w).eraseDups).Sublist new
  /-- A class that is the form of an icon too stands where the first of the two occurs. -/
  first : (ws.map standardWord).eraseDups <+: new

theorem standardWord_of_not_mentionsIcon {w : List Char} (h : mentionsIcon w = false) :
    standardWord w = w := by
  rw [standardWord, if_neg (by simp [h])]

theorem standardWord_of_mentionsIcon {w : List Char} (h : mentionsIcon w = true) :
    standardWord w = iconClass (iconName w) := by
  rw [standardWord, if_pos h]

/-- The classes that are no icons, picked before or behind the renaming. -/
theorem filter_map_standardWord (ws : List (List Char)) :
    (ws.map standardWord).filter (fun w => !mentionsIcon w && !isIconForm ws w) =
      ws.filter fun w => !mentionsIcon w && !isIconForm ws w := by
  rw [List.filter_map]
  have hsame : ∀ w ∈ ws, ((fun w => !mentionsIcon w && !isIconForm ws w) ∘ standardWord) w =
      (!mentionsIcon w && !isIconForm ws w) := by
    intro w hw
    cases hicon : mentionsIcon w with
    | false => simp [standardWord_of_not_mentionsIcon hicon, hicon]
    | true =>
      have hform : isIconForm ws (standardWord w) = true :=
        List.any_eq_true.2 ⟨w, hw, by simp [hicon, standardWord_of_mentionsIcon hicon]⟩
      simp [hform]
  rw [List.filter_congr hsame]
  conv => rhs; rw [← List.map_id (ws.filter _)]
  refine List.map_congr_left fun w hw => ?_
  have := (List.mem_filter.1 hw).2
  rw [Bool.and_eq_true, Bool.not_eq_true'] at this
  exact standardWord_of_not_mentionsIcon this.1

/-- **The standard form of classes.** -/
theorem isStandardForm_standardWords (ws : List (List Char)) :
    IsStandardForm ws (standardWords ws) := by
  have hprefix : (ws.map standardWord).eraseDups <+: standardWords ws := by
    simp only [standardWords]
    split
    · exact List.prefix_rfl
    · exact List.prefix_append _ _
  have hword : ∀ w ∈ ws, standardWord w ∈ standardWords ws := fun w hw =>
    hprefix.subset (List.mem_eraseDups.2 (List.mem_map_of_mem hw))
  refine ⟨?_, ?_, ?_, ?_, ?_, hprefix⟩
  · simp only [standardWords]
    split
    · exact nodup_eraseDups _
    · next hsize =>
      refine List.nodup_append.2 ⟨nodup_eraseDups _, List.pairwise_singleton _ _, ?_⟩
      rintro w hw x hx rfl
      refine hsize ?_
      rw [List.contains_iff_mem, ← List.mem_singleton.1 hx]
      exact hw
  · simp only [standardWords]
    split
    · next hsize => exact List.contains_iff_mem.1 hsize
    · exact List.mem_append_right _ (List.mem_singleton.2 rfl)
  · exact fun w hw hicon => standardWord_of_mentionsIcon hicon ▸ hword w hw
  · exact fun w hw hicon => standardWord_of_not_mentionsIcon hicon ▸ hword w hw
  · rw [← filter_map_standardWord, eraseDups_filter]
    exact List.filter_sublist.trans hprefix.sublist

/-- The standard form of words consists of words. -/
theorem word_of_mem_standardWords {v w : List Char} (h : w ∈ standardWords (words v)) :
    w ≠ [] ∧ ∀ c ∈ w, isBlank c = false := by
  have hico : ∀ c ∈ "ico-".toList, isBlank c = false := forall_mem_of_all (by decide)
  have hdefault : ∀ c ∈ "default".toList, isBlank c = false := forall_mem_of_all (by decide)
  have hword : ∀ w ∈ words v, standardWord w ≠ [] ∧ ∀ c ∈ standardWord w, isBlank c = false := by
    intro x hx
    obtain ⟨hne, hblank⟩ := not_isBlank_of_mem_words hx
    cases hicon : mentionsIcon x with
    | false =>
      rw [standardWord_of_not_mentionsIcon hicon]
      exact ⟨hne, hblank⟩
    | true =>
      rw [standardWord_of_mentionsIcon hicon]
      refine ⟨List.cons_ne_nil _ _, fun c hc => ?_⟩
      rcases List.mem_append.1 hc with hc | hc
      · exact hico c hc
      · rcases iconName_eq x with hname | hname
        · exact hdefault c (hname ▸ hc)
        · exact hblank c ((hname.trans (eraseIcon_sublist x)).subset hc)
  exact forall_mem_standardWords (P := fun w => w ≠ [] ∧ ∀ c ∈ w, isBlank c = false) hword
    ⟨by decide, forall_mem_of_all (by decide)⟩ w h

/-- A text that starts as classes in the standard form do mentions no icon. -/
theorem any_mentionsIcon_of_isPrefix {ws : List (List Char)} {u : List Char}
    (hu : u <+: joinWith [' '] (standardWords ws)) : (words u).any mentionsIcon = false := by
  have hjoined : contains "icon".toList (joinWith [' '] (standardWords ws)) = false := by
    rw [contains_joinWith (by decide) (by decide), List.any_eq_false]
    intro w hw hicon
    have := mentionsIcon_of_mem_standardWords w hw
    rw [mentionsIcon, hicon] at this
    cases this
  rw [List.any_eq_false]
  intro w hw
  rw [Bool.not_eq_true]
  exact contains_eq_false_of_isInfix ((isInfix_of_mem_words hw).trans hu.isInfix) hjoined

/-! ### The rewritten attribute -/

/-- What is read of a value that was put between double quotes: up to the first of them. -/
theorem exists_attribute?_quotedText {name : List Char} (hname : name ≠ [])
    (hchars : ∀ c ∈ name, isNameChar c = true) (v z : List Char) :
    ∃ u z', u <+: v ∧ ('"' ∉ v → u = v) ∧
      quotedText name [] [] v ++ z = quotedText name [] [] u ++ z' ∧
      attribute? (quotedText name [] [] u ++ z') = some (⟨name, some u⟩, z') := by
  by_cases hv : '"' ∈ v
  · obtain ⟨u, x, rfl, hu⟩ := List.eq_append_cons_of_mem hv
    refine ⟨u, x ++ '"' :: z, List.prefix_append u _, fun h => absurd hv h, by simp [quotedText], ?_⟩
    exact attribute?_quoted hname hchars (by simp) (by simp) hu _
  · exact ⟨v, z, List.prefix_rfl, fun _ => rfl, rfl,
      attribute?_quoted hname hchars (by simp) (by simp) hv z⟩

/-- **The class attribute that is read in a rewritten tag**, when the tag was written with care: it
stands where the old one stood, and has the classes in the standard form up to the first double
quote in them. -/
theorem findAttribute?_standardAttributes? {as : List Attribute} {attrs attrs' : List Char}
    (hattrs : RendersAttributes as attrs) (h : standardAttributes? attrs = some attrs') :
    ∃ o v u, findAttribute? "class".toList attrs = some o ∧ o.value.value = some v ∧
      attrs' = attrs.take o.start ++ (quotedText "class".toList [] []
        (joinWith [' '] (standardWords (words v))) ++ attrs.drop o.stop) ∧
      findAttribute? "class".toList attrs' =
        some ⟨o.start, quotedText "class".toList [] [] u, ⟨"class".toList, some u⟩⟩ ∧
      u <+: joinWith [' '] (standardWords (words v)) ∧
      ('"' ∉ v → u = joinWith [' '] (standardWords (words v))) := by
  obtain ⟨o, v, ho, hv, -, -, rfl⟩ := standardAttributes?_eq_quotedText h
  have hchars : ∀ c ∈ "class".toList, isNameChar c = true := forall_mem_of_all (by decide)
  have hname : sameAscii "class".toList "class".toList = true := by decide
  obtain ⟨u, z, hprefix, hall, htext, hread⟩ := exists_attribute?_quotedText (by decide) hchars
    (joinWith [' '] (standardWords (words v))) (attrs.drop o.stop)
  refine ⟨o, v, u, ho, hv, rfl, ?_, hprefix, fun hquote => hall fun hmem => ?_⟩
  · obtain ⟨as₁, s₁, w, -, s₂, h₁, hnone, hw, hne, -, -, hcut, hstart⟩ :=
      hattrs.exists_cut (P := fun a => sameAscii a.name "class".toList) (n := 0) ho
    have htake : attrs.take o.start = s₁ ++ w := by
      rw [hcut, ← List.append_assoc, hstart, Nat.zero_add, List.take_left]
    have hfind := h₁.find?_append hnone hw hne hread hname 0
    rw [htext, htake, List.append_assoc, findAttribute?, attributes, occurrences, hfind, hstart]
  · exact (mem_standardWords hmem).elim hquote (by decide)

/-! ### The rule -/

/-- The attribute text of an icon after the rule. -/
def standardAttributes (attrs : List Char) : List Char := (standardAttributes? attrs).getD attrs

/-- A blank in front of attributes stays there. -/
theorem startsBlank_take_append {attrs : List Char} {o : Occurrence Attribute}
    (h : startsBlank attrs = true) (ho : o ∈ attributes attrs) (z : List Char) :
    startsBlank (attrs.take o.start ++ z) = true := by
  obtain ⟨-, hcut, -, hread⟩ := cut_of_mem_occurrences consumes_attribute? ho
  cases htake : attrs.take o.start with
  | nil =>
    rw [hcut, htake, List.nil_append, startsBlank_of_attribute? hread] at h
    cases h
  | cons c s =>
    rw [hcut, htake] at h
    exact h

theorem isIconAttributes_standardAttributes {attrs : List Char} (h : IsIconAttributes attrs) :
    IsIconAttributes (standardAttributes attrs) := by
  rw [standardAttributes]
  cases hs : standardAttributes? attrs with
  | none => exact h
  | some attrs' =>
    refine ⟨?_, not_mem_standardAttributes h.close hs⟩
    obtain ⟨o, v, hfind, -, -, -, rfl⟩ := standardAttributes?_eq_quotedText hs
    exact startsBlank_take_append h.blank (mem_of_findAttribute? hfind).1 _

/-- The icons after the rule are those before it with their attribute texts rewritten. -/
theorem pieces_standardIcons (s : List Char) :
    pieces icon? (standardIcons.revise s) =
      (pieces icon? s).map (writtenIcon standardAttributes) := by
  refine pieces_writtenIcons (fun attrs _ => ?_)
    (fun attrs => isIconAttributes_standardAttributes) s
  rw [standardAttributes]
  cases standardAttributes? attrs with
  | none => rfl
  | some attrs' => simp [iconText]

/-- Icons whose classes mention no icon are left alone. -/
theorem standardAttributes?_of_not_mentionsIcon {attrs : List Char} {ws : List (List Char)}
    (hws : classWords? attrs = some ws) (hicon : ws.any mentionsIcon = false) :
    standardAttributes? attrs = none := by
  rw [Option.eq_none_iff_forall_ne_some]
  intro attrs' h
  obtain ⟨o, v, hfind, hv, hmentions, -, -⟩ := standardAttributes?_eq_quotedText h
  have hwords : classWords? attrs = some (words v) := by
    simp only [classWords?, hfind, hv, Option.map_some]
  rw [Option.some.inj (hws.symm.trans hwords), hmentions] at hicon
  cases hicon

/-- An icon that is left alone although its classes mention an icon has classes in the standard
form. -/
theorem isStandardIcon_of_standardAttributes? {attrs : List Char} {ws : List (List Char)}
    (h : standardAttributes? attrs = none) (hws : classWords? attrs = some ws)
    (hicon : ws.any mentionsIcon = true) : isStandardIcon ws = true := by
  rw [classWords?] at hws
  split at hws
  · next o ho =>
    obtain ⟨v, hv, rfl⟩ := Option.map_eq_some_iff.1 hws
    cases hs : isStandardIcon (words v) with
    | true => rfl
    | false =>
      simp only [standardAttributes?, ho, hv, hicon, hs] at h
      cases h
  · cases hws

/-- An icon after the rule is left alone by it.  Either it was left alone before, or its classes
mention no icon any more. -/
theorem icon_of_standardIcons {s : List Char} (h : ∀ o ∈ occurrences icon? s, IsWritten o.value) :
    ∀ o ∈ occurrences icon? (standardIcons.revise s), standardAttributes? o.value = none ∧
      ∀ ws, classWords? o.value = some ws → ws.any mentionsIcon = true →
        isStandardIcon ws = true := by
  rw [forall_occurrences_iff (Q := fun _ => IsWritten)] at h
  rw [forall_occurrences_iff (Q := fun _ attrs => standardAttributes? attrs = none ∧
    ∀ ws, classWords? attrs = some ws → ws.any mentionsIcon = true → isStandardIcon ws = true),
    pieces_standardIcons]
  intro t attrs hmem
  obtain ⟨x, hx, heq⟩ := List.mem_map.1 hmem
  cases x with
  | plain c => cases heq
  | found u old =>
    obtain ⟨-, rfl⟩ := Piece.found.inj heq
    rw [standardAttributes]
    cases hs : standardAttributes? old with
    | none => exact ⟨hs, fun ws => isStandardIcon_of_standardAttributes? hs⟩
    | some attrs' =>
      obtain ⟨as, has⟩ := h u old hx
      obtain ⟨o, v, w, -, -, -, hfind, hw, -⟩ := findAttribute?_standardAttributes? has hs
      have hwords : classWords? attrs' = some (words w) := by
        simp only [classWords?, hfind, Option.map_some]
      have hnone := any_mentionsIcon_of_isPrefix hw
      refine ⟨standardAttributes?_of_not_mentionsIcon hwords hnone, fun ws hws hicon => ?_⟩
      rw [Option.getD_some, hwords] at hws
      rw [← Option.some.inj hws, hnone] at hicon
      cases hicon

/-- **The rule rewrites the class attributes of icons and is done with its own result**, when the
tags of the icons are written with care.  An icon whose classes mention an icon after the rule is in
the standard form as it stands; in a rewritten tag nothing but the class attribute changes, and its
classes are the standard form of those before. -/
theorem standardIcons_rewrites_classes {s : List Char}
    (h : ∀ o ∈ occurrences icon? s, IsWritten o.value) :
    standardIcons.revise (standardIcons.revise s) = standardIcons.revise s ∧
      (∀ o ∈ occurrences icon? (standardIcons.revise s), ∀ ws, classWords? o.value = some ws →
        ws.any mentionsIcon = true →
        iconSize ∈ ws ∧ ∃ w ∈ ws, startsWith "ico-".toList w = true ∧ w ≠ iconSize) ∧
      pieces icon? (standardIcons.revise s) = (pieces icon? s).map (writtenIcon standardAttributes) ∧
      ∀ o ∈ occurrences icon? s, ∀ attrs, standardAttributes? o.value = some attrs →
        ∃ a v, findAttribute? "class".toList o.value = some a ∧ a.value.value = some v ∧
          attrs = o.value.take a.start ++ (quotedText "class".toList [] []
            (joinWith [' '] (standardWords (words v))) ++ o.value.drop a.stop) ∧
          ('"' ∉ v → classWords? attrs = some (standardWords (words v)) ∧
            IsStandardForm (words v) (standardWords (words v))) := by
  refine ⟨?_, ?_, pieces_standardIcons s, ?_⟩
  · exact standardIcons_eq_self fun o ho => (icon_of_standardIcons h o ho).1
  · intro o ho ws hws hicon
    have hform := (icon_of_standardIcons h o ho).2 ws hws hicon
    simp only [isStandardIcon, Bool.and_eq_true, List.contains_iff_mem, List.any_eq_true,
      bne_iff_ne] at hform
    exact hform
  · intro o ho attrs hs
    obtain ⟨as, has⟩ := h o ho
    obtain ⟨a, v, u, ha, hv, hattrs, hfind, -, hall⟩ := findAttribute?_standardAttributes? has hs
    refine ⟨a, v, ha, hv, hattrs, fun hquote => ⟨?_, isStandardForm_standardWords (words v)⟩⟩
    simp only [classWords?, hfind, Option.map_some]
    rw [hall hquote, words_joinWith_words fun w => word_of_mem_standardWords]

/-- An icon whose class names an icon, between other attributes. -/
def quotedIcon : List Char := "<i id=x class='icon big' hidden>".toList

theorem standardIcons_rewrites_classes_quotedIcon :
    standardIcons.revise quotedIcon = "<i id=x class=\"ico-default big ico-normal\" hidden>".toList ∧
      standardIcons.revise (standardIcons.revise quotedIcon) = standardIcons.revise quotedIcon :=
  ⟨by decide +kernel, (standardIcons_rewrites_classes (s := quotedIcon) (by decide +kernel)).1⟩

/-- A class that is the form of an icon too does not keep its place among the other classes. -/
theorem standardIcons_moves_class :
    IsWritten " class=\"icon-x a ico-x\"".toList ∧
      standardIcons.revise "<i class=\"icon-x a ico-x\">".toList =
        "<i class=\"ico-x a ico-normal\">".toList ∧
      ¬((words "icon-x a ico-x".toList).filter fun w => !mentionsIcon w).eraseDups.Sublist
        (words "ico-x a ico-normal".toList) := by
  decide +kernel

end Markup
end SceneMarkup
