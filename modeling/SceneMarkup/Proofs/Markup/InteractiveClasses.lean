import SceneMarkup.Markup.Summary
import SceneMarkup.Proofs.Markup.AttributeTexts
import SceneMarkup.Proofs.Markup.Siblings
import SceneMarkup.Proofs.Markup.Targets

/-!
# The classes of buttons and links

A summary lists the classes of buttons and links.  It reads a class wherever one is assigned behind a
blank of the tag, also between the quotes of another attribute, and it prefers one that does not
stand directly behind the name of the tag.  So what it lists is the class attribute of the tag only
where nothing else in the tag looks like one.

## Main definitions

* `givenClasses` — the classes that are assigned behind the blanks of a tag, with their places.
* `listedClass?` — the one of them that the summary lists.
* `classPlace?`, `classValue?` — the class attribute of a tag, as the scanner of attributes finds it.
* `PlainlyClassed` — a tag that gives its class attribute and no other class.
* `NoneHides`, `NoClassHides` — no class hides the end of a tag, and of any tag of a markup.
* `interactiveBy` — the buttons and links of a markup by a reader of classes.

## Main results

* `classedTag?_tag`, `classedTag?_eq_none_inside` — what is listed for a tag, and where nothing is.
* `values_classedTag?` — **the classes that are listed, tag by tag.**
* `listedClass?_eq_classValue?` — **in a plainly classed tag both readers find the same class.**
* `interactive_of_tags` — **what a summary lists for buttons and links, and when this is their class
  attributes.**
-/

namespace SceneMarkup
namespace Markup

open Text

/-! ### Classes that are given -/

/-- The reader of a class with something in it. -/
abbrev givenClass? : Recogniser Assignment := assignmentWhere? "class".toList isGiven

/-- The classes that are assigned behind the blanks of a tag, each with the number of characters in
front of it. -/
def givenClasses : List Char → List (Nat × List Char)
  | [] => []
  | c :: s =>
    if c = '>' then []
    else
      (if isBlank c then ((givenClass? s).map fun (a, _) => (1, a.value)).toList else []) ++
        (givenClasses s).map fun (n, v) => (n + 1, v)

/-- The class that a summary lists for a tag: the first that does not stand directly behind the blank
with which the text starts, or else the one that does. -/
def listedClass? (s : List Char) : Option (List Char) :=
  (((givenClasses s).find? fun g => g.1 != 1).or (givenClasses s).head?).map Prod.snd

/-- The place and the value of the class attribute of a tag, if the value is quoted and not blank. -/
def classPlace? (attrs : List Char) : Option (Nat × List Char) :=
  (findAttribute? "class".toList attrs).bind fun o =>
    if o.text.any isQuote then
      (o.value.value.filter fun v => !allBlank v).map (o.start, ·)
    else none

/-- The value of the class attribute of a tag, if it is quoted and not blank. -/
def classValue? (attrs : List Char) : Option (List Char) := (classPlace? attrs).map Prod.snd

/-- A tag that gives its class attribute and no other class. -/
structure PlainlyClassed (attrs : List Char) : Prop where
  /-- A class is given only at the class attribute, and the value of that is not blank. -/
  only_attribute : ∀ g ∈ givenClasses attrs, ∃ o ∈ findAttribute? "class".toList attrs,
    o.start = g.1 ∧ ∃ v ∈ o.value.value, allBlank v = false
  /-- A class attribute whose value is quoted and not blank is written in small letters behind a
  blank, and no other quote stands in its value. -/
  attribute_given : ∀ o ∈ findAttribute? "class".toList attrs, ∀ v ∈ o.value.value,
    o.text.any isQuote = true → allBlank v = false →
      o.value.name = "class".toList ∧ (attrs.take o.start).getLast?.any isBlank = true ∧
        v.any isQuote = false

instance (attrs : List Char) : Decidable (PlainlyClassed attrs) :=
  decidable_of_iff
    ((∀ g ∈ givenClasses attrs, ∃ o ∈ findAttribute? "class".toList attrs,
        o.start = g.1 ∧ ∃ v ∈ o.value.value, allBlank v = false) ∧
      ∀ o ∈ findAttribute? "class".toList attrs, ∀ v ∈ o.value.value,
        o.text.any isQuote = true → allBlank v = false →
          o.value.name = "class".toList ∧ (attrs.take o.start).getLast?.any isBlank = true ∧
            v.any isQuote = false)
    ⟨fun h => ⟨h.1, h.2⟩, fun h => ⟨h.only_attribute, h.attribute_given⟩⟩

/-! ### Reading what is given -/

theorem givenClasses_end (s : List Char) : givenClasses ('>' :: s) = [] := if_pos rfl

theorem givenClasses_cons {c : Char} (hc : c ≠ '>') (s : List Char) :
    givenClasses (c :: s) =
      (if isBlank c then ((givenClass? s).map fun (a, _) => (1, a.value)).toList else []) ++
        (givenClasses s).map fun (n, v) => (n + 1, v) := by
  rw [givenClasses, if_neg hc]

/-- A class is given where one is read behind a blank. -/
theorem mem_givenClasses_iff {s : List Char} {g : Nat × List Char} :
    g ∈ givenClasses s ↔ ∃ u c z a r, s = u ++ c :: z ∧ '>' ∉ u ∧ isBlank c = true ∧
      givenClass? z = some (a, r) ∧ g = ((u ++ [c]).length, a.value) := by
  constructor
  · intro h
    induction s generalizing g with
    | nil => cases h
    | cons c s ih =>
      by_cases hc : c = '>'
      · subst hc
        cases h
      · rw [givenClasses_cons hc, List.mem_append, List.mem_map] at h
        obtain h | ⟨g, hg, rfl⟩ := h
        · split_ifs at h with hblank
          · obtain ⟨⟨a, r⟩, hread, rfl⟩ := Option.map_eq_some_iff.1 (Option.mem_toList.1 h)
            exact ⟨[], c, s, a, r, rfl, List.not_mem_nil, hblank, hread, rfl⟩
          · cases h
        · obtain ⟨u, d, z, a, r, rfl, hu, hd, hread, rfl⟩ := ih hg
          exact ⟨c :: u, d, z, a, r, rfl, by simp [hu, Ne.symm hc], hd, hread, rfl⟩
  · rintro ⟨u, c, z, a, r, rfl, hu, hc, hread, rfl⟩
    have hne : c ≠ '>' := by
      rintro rfl
      cases hc
    induction u with
    | nil =>
      rw [List.nil_append, givenClasses_cons hne, if_pos hc, hread]
      exact List.mem_append_left _ (List.mem_singleton.2 rfl)
    | cons d u ih =>
      rw [List.mem_cons, not_or] at hu
      rw [List.cons_append, givenClasses_cons (Ne.symm hu.1)]
      exact List.mem_append_right _ (List.mem_map_of_mem (ih hu.2))

theorem pos_of_mem_givenClasses {s : List Char} {g : Nat × List Char} (h : g ∈ givenClasses s) :
    0 < g.1 := by
  obtain ⟨u, c, z, a, r, -, -, -, -, rfl⟩ := mem_givenClasses_iff.1 h
  simp

/-- Where no class is given in a tag, none is given in the rest of it. -/
theorem givenClasses_eq_nil_of_append {u : List Char} (hu : '>' ∉ u) {s : List Char}
    (h : givenClasses (u ++ s) = []) : givenClasses s = [] := by
  induction u with
  | nil => exact h
  | cons c u ih =>
    rw [List.mem_cons, not_or] at hu
    rw [List.cons_append, givenClasses_cons (Ne.symm hu.1), List.append_eq_nil_iff,
      List.map_eq_nil_iff] at h
    exact ih hu.2 h.2

/-- Whether no class of a tag hides its end: `attrs` is the text of the tag, `rest` stands behind
it. -/
def NoneHides (attrs rest : List Char) : Prop :=
  ∀ g ∈ givenClasses (attrs ++ '>' :: rest), '>' ∉ g.2

instance (attrs rest : List Char) : Decidable (NoneHides attrs rest) :=
  inferInstanceAs (Decidable (∀ g ∈ givenClasses (attrs ++ '>' :: rest), '>' ∉ g.2))

theorem noneHides_of_eq_nil {attrs rest : List Char}
    (h : givenClasses (attrs ++ '>' :: rest) = []) : NoneHides attrs rest := by
  rw [NoneHides, h]
  exact fun g hg => nomatch hg

theorem NoneHides.tail {c : Char} (hc : c ≠ '>') {attrs rest : List Char}
    (h : NoneHides (c :: attrs) rest) : NoneHides attrs rest := by
  intro g hg
  rw [NoneHides, List.cons_append, givenClasses_cons hc] at h
  exact h (g.1 + 1, g.2) (List.mem_append_right _ (List.mem_map_of_mem hg))

theorem NoneHides.not_mem_value {c : Char} (hc : isBlank c = true) {attrs rest r : List Char}
    {a : Assignment} (h : NoneHides (c :: attrs) rest)
    (ha : givenClass? (attrs ++ '>' :: rest) = some (a, r)) : '>' ∉ a.value := by
  have hne : c ≠ '>' := by
    rintro rfl
    cases hc
  rw [NoneHides, List.cons_append, givenClasses_cons hne, if_pos hc, ha] at h
  exact h (1, a.value) (List.mem_append_left _ (List.mem_singleton.2 rfl))

theorem givenClass?_append {a : Assignment} {t : List Char} (ht : IsAssignment "class".toList a t)
    (hgiven : isGiven a.value = true) (r : List Char) : givenClass? (t ++ r) = some (a, r) := by
  simp only [assignmentWhere?, assignment?_append ht, hgiven, if_true]

/-- A class that does not hide the end of its tag is read in the tag alone. -/
theorem givenClass?_tag {m rest : List Char} (hm : '>' ∉ m)
    (h : ∀ a r, givenClass? (m ++ '>' :: rest) = some (a, r) → '>' ∉ a.value) :
    (givenClass? (m ++ '>' :: rest)).map Prod.fst = (givenClass? m).map Prod.fst ∧
      throughTag? givenClass? (m ++ '>' :: rest) = (givenClass? m).map fun x => (x.1, rest) := by
  cases hread : givenClass? m with
  | some x =>
    obtain ⟨a, r⟩ := x
    obtain ⟨hgiven, t, ht, rfl⟩ := assignmentWhere?_eq_some hread
    have hr : '>' ∉ r := fun hmem => hm (List.mem_append_right t hmem)
    rw [throughTag?, List.append_assoc, givenClass?_append ht hgiven]
    simp only [tagBody?_append hr]
    exact ⟨rfl, rfl⟩
  | none =>
    have hnone : givenClass? (m ++ '>' :: rest) = none := by
      rw [Option.eq_none_iff_forall_ne_some]
      rintro ⟨a, r⟩ ha
      obtain ⟨hgiven, t, ht, hs⟩ := assignmentWhere?_eq_some ha
      have hclose : '>' ∉ t :=
        ht.not_mem (by decide) (h a r ha) (by decide) (by decide) (by decide)
      obtain ⟨b, rfl, -⟩ := eq_append_of_not_mem hclose hs
      rw [givenClass?_append ht hgiven] at hread
      cases hread
    rw [throughTag?, hnone]
    exact ⟨rfl, rfl⟩

/-- What is given in a tag does not depend on the text behind it. -/
theorem givenClasses_tag {attrs rest : List Char} (hattrs : '>' ∉ attrs)
    (h : NoneHides attrs rest) : givenClasses (attrs ++ '>' :: rest) = givenClasses attrs := by
  induction attrs with
  | nil => exact givenClasses_end rest
  | cons c attrs ih =>
    rw [List.mem_cons, not_or] at hattrs
    have hc := Ne.symm hattrs.1
    rw [List.cons_append, givenClasses_cons hc, givenClasses_cons hc, ih hattrs.2 (h.tail hc)]
    congr 1
    split_ifs with hblank
    · have hread := (givenClass?_tag hattrs.2 fun a r ha => h.not_mem_value hblank ha).1
      have hvalue := congrArg (Option.map fun a => (1, a.value)) hread
      rw [Option.map_map, Option.map_map] at hvalue
      exact congrArg Option.toList hvalue
    · rfl

/-- The first class of a tag is read. -/
theorem map_spaced?_tag {attrs rest : List Char} (hattrs : '>' ∉ attrs)
    (h : NoneHides attrs rest) :
    (spaced? (throughTag? givenClass?) (attrs ++ '>' :: rest)).map
        (fun x => (x.2.1.value, x.2.2)) =
      (givenClasses attrs).head?.map fun g => (g.2, rest) := by
  induction attrs with
  | nil => rfl
  | cons c attrs ih =>
    rw [List.mem_cons, not_or] at hattrs
    have hc := Ne.symm hattrs.1
    rw [List.cons_append, givenClasses_cons hc]
    have hrest : (spaced? (throughTag? givenClass?) (attrs ++ '>' :: rest)).map
        (fun x => (x.2.1.value, x.2.2)) =
        ((givenClasses attrs).map fun g => (g.1 + 1, g.2)).head?.map fun g => (g.2, rest) := by
      rw [List.head?_map, Option.map_map]
      exact ih hattrs.2 (h.tail hc)
    split_ifs with hblank
    · have hread := (givenClass?_tag hattrs.2 fun a r ha => h.not_mem_value hblank ha).2
      cases hgiven : givenClass? attrs with
      | none =>
        rw [hgiven] at hread
        rw [spaced?_cons_of_none fun _ => hread, if_neg hc, Option.map_map]
        exact hrest
      | some x =>
        rw [hgiven] at hread
        rw [spaced?_cons_of_some hblank hread]
        rfl
    · rw [spaced?_cons_of_none fun hb => absurd hb hblank, if_neg hc, Option.map_map,
        List.nil_append]
      exact hrest

/-! ### What is listed for a tag -/

/-- The classes behind later blanks go before the one behind the first blank. -/
theorem listedClass?_cons {c : Char} (hc : isBlank c = true) (s : List Char) :
    listedClass? (c :: s) =
      ((givenClasses s).head?.map Prod.snd).or ((givenClass? s).map fun x => x.1.value) := by
  have hne : c ≠ '>' := by
    rintro rfl
    cases hc
  rw [listedClass?, givenClasses_cons hne, if_pos hc]
  cases hs : givenClasses s with
  | nil => cases givenClass? s <;> rfl
  | cons g gs =>
    have hpos := pos_of_mem_givenClasses (hs ▸ List.mem_cons_self : g ∈ givenClasses s)
    have hlater : (g.1 + 1 != 1) = true := by
      rw [bne_iff_ne]
      omega
    cases givenClass? s <;> simp [hlater]

theorem listedClass?_eq_none_iff {s : List Char} :
    listedClass? s = none ↔ givenClasses s = [] := by
  rw [listedClass?, Option.map_eq_none_iff, Option.or_eq_none_iff, List.head?_eq_none_iff]
  exact and_iff_right_of_imp fun h => by rw [h]; rfl

/-- **What is listed for a tag.** -/
theorem classedTag?_tag {attrs rest : List Char} (hattrs : '>' ∉ attrs)
    (hblank : attrs = [] ∨ startsBlank attrs = true) (h : NoneHides attrs rest)
    (opening : List Char) :
    classedTag? opening isGiven (opening ++ (attrs ++ '>' :: rest)) =
      (listedClass? attrs).map (·, rest) := by
  rw [classedTag?, after?_append]
  cases attrs with
  | nil => rfl
  | cons c attrs =>
    have hc : isBlank c = true := hblank.resolve_left (List.cons_ne_nil c attrs)
    rw [List.mem_cons, not_or] at hattrs
    have hspaced := map_spaced?_tag hattrs.2 (h.tail (Ne.symm hattrs.1))
    have hhere := (givenClass?_tag hattrs.2 fun a r ha => h.not_mem_value hc ha).2
    rw [listedClass?_cons hc]
    simp only [List.cons_append, hc, if_true, spacedOrHere?]
    cases hgiven : (givenClasses attrs).head? with
    | some g =>
      rw [hgiven, Option.map_some, Option.map_eq_some_iff] at hspaced
      obtain ⟨⟨u, a, r⟩, hread, heq⟩ := hspaced
      obtain ⟨hvalue, rfl⟩ := Prod.mk.inj heq
      rw [hread]
      exact congrArg (fun v => some (v, r)) hvalue
    | none =>
      rw [hgiven, Option.map_none, Option.map_eq_none_iff] at hspaced
      rw [hspaced, hhere]
      cases givenClass? attrs <;> rfl

/-- What is read where something is listed. -/
theorem classedTag?_eq_some {opening s r v : List Char} {ok : List Char → Bool}
    (h : classedTag? opening ok s = some (v, r)) :
    ∃ attrs, '>' ∉ attrs ∧ startsBlank attrs = true ∧
      (∃ rest, s = opening ++ (attrs ++ '>' :: rest)) ∧
      ∃ x, s = opening ++ (x ++ '>' :: r) := by
  rw [classedTag?] at h
  split at h
  · cases h
  · cases h
  · next c s' hs =>
    rw [after?_eq_some_iff] at hs
    split_ifs at h with hc
    split at h
    · next u a rest hread =>
      cases h
      obtain ⟨z, -, -, hz, rfl⟩ := spacedOrHere?_eq_some hread
      obtain ⟨w, r', hassigned, rfl⟩ := throughTag?_eq_some hz
      obtain ⟨-, t, -, rfl⟩ := assignmentWhere?_eq_some hassigned
      obtain ⟨attrs, rest, hattrs, hcut⟩ :=
        exists_cut_of_mem (s := c :: (u ++ (t ++ (w ++ '>' :: r)))) (by simp)
      refine ⟨attrs, hattrs, ?_, ⟨rest, by rw [hs, hcut]⟩, c :: (u ++ (t ++ w)), by simp [hs]⟩
      cases attrs with
      | nil =>
        obtain ⟨rfl, -⟩ := List.cons.inj hcut
        cases hc
      | cons d attrs =>
        obtain ⟨rfl, -⟩ := List.cons.inj hcut
        exact hc
    · cases h

theorem consumes_classedTag? {opening : List Char} (ho : opening ≠ []) (ok : List Char → Bool) :
    (classedTag? opening ok).Consumes := by
  intro s v r h
  obtain ⟨-, -, -, -, x, rfl⟩ := classedTag?_eq_some h
  exact ⟨opening ++ (x ++ ['>']), List.append_ne_nil_of_left_ne_nil ho _, by simp⟩

/-- Something is listed only where a tag starts. -/
theorem classedTag?_eq_none_of_tag? {opening s : List Char} {ok : List Char → Bool}
    (h : tag? opening s = none) : classedTag? opening ok s = none := by
  rw [Option.eq_none_iff_forall_ne_some]
  rintro ⟨v, r⟩ hread
  obtain ⟨attrs, hattrs, hblank, ⟨rest, rfl⟩, -⟩ := classedTag?_eq_some hread
  rw [tag?_append hattrs (.inr hblank)] at h
  cases h

/-- Nothing is listed inside a tag that gives no class. -/
theorem classedTag?_eq_none_inside {opening attrs x y rest : List Char} (hopening : '>' ∉ opening)
    (hattrs : '>' ∉ attrs) (h : givenClasses (attrs ++ '>' :: rest) = [])
    (hcut : opening ++ attrs = x ++ y) :
    classedTag? opening isGiven (y ++ '>' :: rest) = none := by
  rw [Option.eq_none_iff_forall_ne_some]
  rintro ⟨v, r⟩ hread
  obtain ⟨z, hz, hblank, ⟨rest', hs⟩, -⟩ := classedTag?_eq_some hread
  have hall : '>' ∉ x ++ y := by
    rw [← hcut]
    simp [hopening, hattrs]
  rw [List.mem_append, not_or] at hall
  obtain ⟨rfl, rfl⟩ : y = opening ++ z ∧ rest = rest' := by
    have hbody := tagBody?_append hall.2 rest
    rw [hs, ← List.append_assoc, tagBody?_append (by simp [hopening, hz])] at hbody
    simpa [eq_comm] using hbody
  -- the tag that would start inside is a part of the tag around it
  have hsuffix : z <:+ attrs := by
    have hlength := congrArg List.length hcut
    simp only [List.length_append] at hlength
    refine List.suffix_of_suffix_length_le ⟨x ++ opening, ?_⟩ (List.suffix_append opening attrs)
      (by omega)
    rw [hcut, List.append_assoc]
  obtain ⟨b, rfl⟩ := hsuffix
  rw [List.append_assoc] at h
  have hb : '>' ∉ b := fun hmem => hattrs (List.mem_append_left z hmem)
  have hnil := givenClasses_eq_nil_of_append hb h
  have hhides := noneHides_of_eq_nil hnil
  rw [givenClasses_tag hz hhides] at hnil
  rw [List.append_assoc, classedTag?_tag hz (.inr hblank) hhides,
    listedClass?_eq_none_iff.2 hnil] at hread
  cases hread

/-! ### Tags of a markup -/

/-- A tag with the text behind it. -/
def tagWithRest? (opening : List Char) : Recogniser (List Char × List Char) := fun s =>
  (tag? opening s).map fun (attrs, rest) => ((attrs, rest), rest)

/-- Whether no class of a tag of a markup hides the end of the tag. -/
def NoClassHides (opening s : List Char) : Prop :=
  ∀ x ∈ values (tagWithRest? opening) s, NoneHides x.1 x.2

instance (opening s : List Char) : Decidable (NoClassHides opening s) :=
  inferInstanceAs (Decidable (∀ x ∈ values (tagWithRest? opening) s, NoneHides x.1 x.2))

theorem values_append_of_none {α : Type} {p : Recogniser α} {t r : List Char}
    (h : ∀ x y, t = x ++ y → y ≠ [] → p (y ++ r) = none) : values p (t ++ r) = values p r := by
  induction t with
  | nil => rfl
  | cons c t ih =>
    have hnone : p (c :: (t ++ r)) = none := h [] (c :: t) rfl (List.cons_ne_nil c t)
    rw [List.cons_append, values_cons_of_none hnone]
    exact ih fun x y hcut => h (c :: x) y (by rw [hcut]; rfl)

/-- **The classes that are listed, tag by tag.** -/
theorem values_classedTag? {opening : List Char} (hne : opening ≠ []) (hopening : '>' ∉ opening)
    {s : List Char} (h : NoClassHides opening s) :
    values (classedTag? opening isGiven) s = (values (tag? opening) s).filterMap listedClass? := by
  have hrest : (tagWithRest? opening).Consumes := by
    intro s x r hread
    obtain ⟨⟨attrs, r'⟩, htag, heq⟩ := Option.map_eq_some_iff.1 hread
    obtain ⟨rfl, rfl⟩ := Prod.mk.inj heq
    exact consumes_tag? hne htag
  induction s using text_induction (consumes_tag? hne) with
  | nil => rfl
  | plain c s hn ih =>
    have hnone : tagWithRest? opening (c :: s) = none := by rw [tagWithRest?, hn]; rfl
    rw [NoClassHides, values_cons_of_none hnone] at h
    rw [values_cons_of_none hn, values_cons_of_none (classedTag?_eq_none_of_tag? hn), ih h]
  | found t attrs r ht ha ih =>
    have hread : tagWithRest? opening (t ++ r) = some ((attrs, r), r) := by
      rw [tagWithRest?, ha]
      rfl
    rw [NoClassHides, values_of_some hrest hread, List.forall_mem_cons] at h
    obtain ⟨hblank, hs⟩ := tag?_eq_some ha
    have hattrs := not_mem_of_tag? ha
    have hlisted := classedTag?_tag hattrs hblank h.1 opening
    rw [values_of_some (consumes_tag? hne) ha, List.filterMap_cons]
    cases hclass : listedClass? attrs with
    | some v =>
      rw [hclass, ← hs] at hlisted
      rw [values_of_some (consumes_classedTag? hne isGiven) hlisted, ih h.2]
    | none =>
      -- nothing is read in the tag, at its start or inside
      have hnil : givenClasses (attrs ++ '>' :: r) = [] := by
        rw [givenClasses_tag hattrs h.1]
        exact listedClass?_eq_none_iff.1 hclass
      obtain rfl : t = (opening ++ attrs) ++ ['>'] :=
        List.append_cancel_right (hs.trans (by simp))
      rw [values_append_of_none, ih h.2]
      intro x y hcut hy
      obtain ⟨z, d, rfl⟩ := (List.eq_nil_or_concat' y).resolve_left hy
      rw [← List.append_assoc] at hcut
      obtain ⟨hinside, hlast⟩ := List.append_inj' hcut rfl
      obtain rfl := List.singleton_inj.1 hlast
      rw [List.append_assoc]
      exact classedTag?_eq_none_inside hopening hattrs hnil hinside

/-! ### Plainly classed tags -/

/-- What the scanner of attributes reads where a class is assigned, if it reads a value. -/
theorem quoted_of_attribute? {a : Attribute} {b : Assignment} {t r t' r' v : List Char}
    (ht : IsAssignment "class".toList b t) (hread : attribute? (t' ++ r') = some (a, r'))
    (hv : a.value = some v) (hs : t' ++ r' = t ++ r) :
    t'.any isQuote = true ∧ (v.any isQuote = false → v = b.value) := by
  obtain ⟨hquote, hvalue, w₁, w₂, q, hw₁, hw₂, hq, rfl⟩ := ht
  obtain ⟨-, hname, ⟨hnone, -⟩ | ⟨v', u₁, u₂, x, hv', hu₁, hu₂, hx, rfl⟩⟩ :=
    isAttributeText_of_attribute? hread
  · rw [hnone] at hv
    cases hv
  · obtain rfl : v = v' := Option.some.inj (hv.symm.trans hv')
    have hplace : a.name ++ (u₁ ++ '=' :: (u₂ ++ (x ++ r'))) =
        "class".toList ++ (w₁ ++ '=' :: (w₂ ++ b.quote :: (b.value ++ q :: r))) := by
      simpa using hs
    have hbehind := eq_of_equals hname (forall_mem_of_all (by decide)) hu₁ hw₁ hplace
    obtain ⟨rfl, hrest⟩ := eq_quoted_of_isValueText hx hu₂ hw₂ hquote hbehind
    refine ⟨by simp [hquote], fun hplain => ?_⟩
    exact (append_cons_inj (by simpa using hplain) hvalue hquote hq hrest).1

/-- A class attribute is assigned in its text, if its value is quoted and has no other quote. -/
theorem exists_isAssignment {a : Attribute} {t v : List Char} (h : IsAttributeText a t)
    (hname : a.name = "class".toList) (hv : a.value = some v) (hquoted : t.any isQuote = true)
    (hplain : v.any isQuote = false) : ∃ q, IsAssignment "class".toList ⟨q, v⟩ t := by
  have hvalue : ∀ c ∈ v, isQuote c = false := by simpa using hplain
  obtain ⟨-, -, ⟨hnone, -⟩ | ⟨v', w₁, w₂, x, hv', hw₁, hw₂, hx, rfl⟩⟩ := h
  · rw [hnone] at hv
    cases hv
  · obtain rfl : v = v' := Option.some.inj (hv.symm.trans hv')
    rw [hname] at hquoted ⊢
    rcases hx with ⟨q, hq, -, rfl⟩ | ⟨-, -, rfl⟩
    · exact ⟨q, hq, hvalue, w₁, w₂, q, hw₁, hw₂, hq, rfl⟩
    · -- no quote stands in front of a bare value, and none in it
      obtain ⟨c, hc, hquote⟩ := List.any_eq_true.1 hquoted
      have hfree : isQuote c = false := by
        rw [← List.cons_append, ← List.append_assoc, ← List.append_assoc, List.mem_append] at hc
        rcases hc with hc | hc
        · exact not_isQuote_of_mem_sign hw₁ hw₂ c (by simpa using hc)
        · exact hvalue c hc
      rw [hfree] at hquote
      cases hquote

theorem classPlace?_eq_some_iff {attrs v : List Char} {i : Nat} :
    classPlace? attrs = some (i, v) ↔ ∃ o, findAttribute? "class".toList attrs = some o ∧
      o.text.any isQuote = true ∧ o.value.value = some v ∧ allBlank v = false ∧ o.start = i := by
  rw [classPlace?, Option.bind_eq_some_iff]
  refine exists_congr fun o => and_congr_right fun _ => ?_
  by_cases hquoted : o.text.any isQuote = true
  · rw [if_pos hquoted, Option.map_eq_some_iff]
    simp [hquoted, and_assoc, and_left_comm, and_comm]
  · simp [hquoted]

/-- What is given in a plainly classed tag is its class attribute. -/
theorem PlainlyClassed.classPlace?_of_mem {attrs : List Char} (h : PlainlyClassed attrs)
    {g : Nat × List Char} (hg : g ∈ givenClasses attrs) : classPlace? attrs = some g := by
  obtain ⟨o, ho, hstart, v, hv, hvalue⟩ := h.only_attribute g hg
  obtain ⟨u, c, z, b, r, hattrs, -, -, hread, rfl⟩ := mem_givenClasses_iff.1 hg
  obtain ⟨-, t, ht, rfl⟩ := assignmentWhere?_eq_some hread
  obtain ⟨u', r', hplace, hlen, -, hattr⟩ :=
    place_of_mem_occurrences consumes_attribute? (List.mem_of_find?_eq_some ho)
  have hs : o.text ++ r' = t ++ r := by
    have hwhole : u' ++ (o.text ++ r') = (u ++ [c]) ++ (t ++ r) := by
      rw [← hplace, hattrs]
      simp
    exact (List.append_inj hwhole (hlen.trans hstart)).2
  obtain ⟨hquoted, hsame⟩ := quoted_of_attribute? ht hattr hv hs
  obtain rfl := hsame (h.attribute_given o ho v hv hquoted hvalue).2.2
  exact classPlace?_eq_some_iff.2 ⟨o, ho, hquoted, hv, hvalue, hstart⟩

/-- The class attribute of a plainly classed tag is given. -/
theorem PlainlyClassed.mem_of_classPlace? {attrs : List Char} (h : PlainlyClassed attrs)
    (hattrs : '>' ∉ attrs) {g : Nat × List Char} (hg : classPlace? attrs = some g) :
    g ∈ givenClasses attrs := by
  obtain ⟨i, v⟩ := g
  obtain ⟨o, ho, hquoted, hv, hvalue, rfl⟩ := classPlace?_eq_some_iff.1 hg
  obtain ⟨hname, hblank, hplain⟩ := h.attribute_given o ho v hv hquoted hvalue
  obtain ⟨u, r, rfl, hlen, -, hattr⟩ :=
    place_of_mem_occurrences consumes_attribute? (List.mem_of_find?_eq_some ho)
  obtain ⟨q, ht⟩ :=
    exists_isAssignment (isAttributeText_of_attribute? hattr) hname hv hquoted hplain
  rw [← hlen, List.take_left] at hblank
  obtain rfl | ⟨u, c, rfl⟩ := List.eq_nil_or_concat' u
  · cases hblank
  · have hc : isBlank c = true := by simpa using hblank
    have hgiven : isGiven v = true := by
      cases v with
      | nil => cases hvalue
      | cons d v => rfl
    refine mem_givenClasses_iff.2 ⟨u, c, o.text ++ r, ⟨q, v⟩, r, by simp, ?_, hc,
      givenClass?_append ht hgiven r, by rw [hlen]⟩
    exact fun hmem => hattrs (by simp [hmem])

theorem exists_mem_of_listedClass? {s v : List Char} (h : listedClass? s = some v) :
    ∃ g ∈ givenClasses s, g.2 = v := by
  obtain ⟨g, hg, rfl⟩ := Option.map_eq_some_iff.1 h
  refine ⟨g, ?_, rfl⟩
  rcases Option.or_eq_some_iff.1 hg with hfind | ⟨-, hhead⟩
  · exact List.mem_of_find?_eq_some hfind
  · exact List.mem_of_head? hhead

/-- **In a plainly classed tag both readers find the same class, or none.** -/
theorem listedClass?_eq_classValue? {attrs : List Char} (hattrs : '>' ∉ attrs)
    (h : PlainlyClassed attrs) : listedClass? attrs = classValue? attrs := by
  rw [classValue?]
  cases hlisted : listedClass? attrs with
  | some v =>
    obtain ⟨g, hg, rfl⟩ := exists_mem_of_listedClass? hlisted
    rw [h.classPlace?_of_mem hg]
    rfl
  | none =>
    cases hplace : classPlace? attrs with
    | none => rfl
    | some g =>
      have hg := h.mem_of_classPlace? hattrs hplace
      rw [listedClass?_eq_none_iff.1 hlisted] at hg
      cases hg

/-! ### Summaries -/

/-- The openings of the tags that people interact with. -/
def interactiveOpenings : List (List Char) := ["<button".toList, "<a".toList]

/-- The buttons and links of a markup, where `class?` tells the class of a tag from its attribute
text. -/
def interactiveBy (class? : List Char → Option (List Char)) (markup : List Char) :
    List InteractiveElement :=
  ((values (tag? "<button".toList) markup).filterMap class?).map
      (fun v => ⟨.button, (words v).map String.ofList⟩) ++
    ((values (tag? "<a".toList) markup).filterMap class?).map
      fun v => ⟨.link, (words v).map String.ofList⟩

theorem not_mem_of_mem_values {opening s attrs : List Char} (hne : opening ≠ [])
    (h : attrs ∈ values (tag? opening) s) : '>' ∉ attrs := by
  obtain ⟨o, ho, rfl⟩ := List.mem_map.1 h
  obtain ⟨-, r, -, -, -, hread⟩ := place_of_mem_occurrences (consumes_tag? hne) ho
  exact not_mem_of_tag? hread

/-- **What a summary lists for buttons and links, and when this is their class attributes.**  Unless a
class hides the end of a tag, the classes are listed tag by tag: of a tag those that are given behind
a blank, if any, and of several the first that does not stand directly behind the name of the tag.
So the classes that are listed are the quoted class attributes that are not blank, as the scanner of
attributes finds them, as soon as each of these tags gives its class attribute and no other class. -/
theorem interactive_of_tags {markup : List Char} (hgiven : allBlank markup = false)
    (h : ∀ opening ∈ interactiveOpenings, NoClassHides opening markup) :
    (summarize markup).interactive = interactiveBy listedClass? markup ∧
      ((∀ opening ∈ interactiveOpenings, ∀ attrs ∈ values (tag? opening) markup,
          PlainlyClassed attrs) →
        (summarize markup).interactive = interactiveBy classValue? markup) := by
  have hlisted : (summarize markup).interactive = interactiveBy listedClass? markup := by
    rw [summarize, if_neg (Bool.eq_false_iff.1 hgiven)]
    simp only [classLists, List.map_map]
    rw [values_classedTag? (by decide) (by decide) (h _ (by decide)),
      values_classedTag? (by decide) (by decide) (h _ (by decide))]
    rfl
  refine ⟨hlisted, fun hplain => ?_⟩
  have halike : ∀ opening ∈ interactiveOpenings, opening ≠ [] →
      (values (tag? opening) markup).filterMap listedClass? =
        (values (tag? opening) markup).filterMap classValue? := fun opening hopening hne =>
    List.filterMap_congr fun attrs hattrs =>
      listedClass?_eq_classValue? (not_mem_of_mem_values hne hattrs)
        (hplain opening hopening attrs hattrs)
  rw [hlisted, interactiveBy, halike _ (by decide) (by decide),
    halike _ (by decide) (by decide), interactiveBy]

/-- A button with a class behind another attribute, and a link with its class in front. -/
theorem interactive_of_tags_form :
    let form := "<p><a class='nav  top' href=\"/\">A</a><a href='#'></a>".toList ++
      "<button id=b data-class=\"wide\" class = \"btn\">".toList
    allBlank form = false ∧ (∀ opening ∈ interactiveOpenings, NoClassHides opening form) ∧
      (∀ opening ∈ interactiveOpenings, ∀ attrs ∈ values (tag? opening) form,
        PlainlyClassed attrs) ∧
      (summarize form).interactive = [⟨.button, ["btn"]⟩, ⟨.link, ["nav", "top"]⟩] := by
  intro form
  have hgiven : allBlank form = false := by decide +kernel
  have hhides : ∀ opening ∈ interactiveOpenings, NoClassHides opening form := by decide +kernel
  have hplain : ∀ opening ∈ interactiveOpenings, ∀ attrs ∈ values (tag? opening) form,
      PlainlyClassed attrs := by
    decide +kernel
  refine ⟨hgiven, hhides, hplain, ?_⟩
  rw [(interactive_of_tags hgiven hhides).2 hplain]
  decide +kernel

/-- Of two class attributes the second is listed, and a class that is mentioned in a title goes before
the class attribute. -/
theorem interactive_ne_of_lookalikes :
    let twice := "<button class=\"a\" class=\"b\">".toList
    let titled := "<a title=\"see class='x'\" class=\"a\">".toList
    (summarize twice).interactive = [⟨.button, ["b"]⟩] ∧
      interactiveBy classValue? twice = [⟨.button, ["a"]⟩] ∧
      (summarize titled).interactive = [⟨.link, ["x"]⟩] ∧
      interactiveBy classValue? titled = [⟨.link, ["a"]⟩] := by
  decide +kernel

end Markup
end SceneMarkup
