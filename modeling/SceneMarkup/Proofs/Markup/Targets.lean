import Mathlib.Data.List.DropRight
import SceneMarkup.Proofs.Markup.ItemClasses

/-!
# Targets of anchors

The rule of anchors reads a target behind the first blank of the tag that lets it, whatever stands
in front.  It blanks that target and leaves what is in front and behind, so the next run reads the
same places again and finds them blank.  One thing can move them: a target that holds a `>` hides
what follows it in the tag, and once it is blanked the next target comes to light.

## Main definitions

* `IsTargetOpening` — the text in front of a target.
* `anchorTag?` — the reader of an `<a>` tag.
* `targetPlace?` — where the rule reads the target of a tag.
* `blankedPiece` — what becomes of a piece of a markup.

## Main results

* `spaced?_lead` — a form behind a blank is found again after it was written anew.
* `pieces_emptyHref` — **the anchors of the revised markup, one to one.**
* `emptyHref_blanks_targets` — **the rule is done with its own result, and a target that the scanner
  of attributes finds at the place where the rule reads it is empty.**
-/

namespace SceneMarkup
namespace Markup

open Text

/-! ### Forms behind a blank -/

section Spaced

variable {α : Type} {p : Recogniser α}

theorem spaced?_cons_of_some {c : Char} {s r : List Char} {a : α} (hc : isBlank c = true)
    (h : p s = some (a, r)) : spaced? p (c :: s) = some ([c], a, r) := by
  unfold spaced?
  rw [if_pos hc, h]

theorem spaced?_cons_of_none {c : Char} {s : List Char} (h : isBlank c = true → p s = none) :
    spaced? p (c :: s) =
      if c = '>' then none else (spaced? p s).map fun (u, a, r) => (c :: u, a, r) := by
  have hnone : (if isBlank c then p s else none) = none := by
    cases hc : isBlank c with
    | false => rfl
    | true => exact h hc
  conv => lhs; unfold spaced?
  rw [hnone]
  cases spaced? p s <;> rfl

/-- A form behind a blank of a tag is one behind its first blank or behind a later one. -/
theorem isSome_spaced?_cons (c : Char) (s : List Char) :
    (spaced? p (c :: s)).isSome = true ↔
      isBlank c = true ∧ (p s).isSome = true ∨ c ≠ '>' ∧ (spaced? p s).isSome = true := by
  by_cases h : isBlank c = true ∧ (p s).isSome = true
  · obtain ⟨⟨a, r⟩, ha⟩ := Option.isSome_iff_exists.1 h.2
    simp [spaced?_cons_of_some h.1 ha, h]
  · have hnone : isBlank c = true → p s = none := by simpa using h
    rw [spaced?_cons_of_none hnone, or_iff_right h]
    split <;> simp_all

theorem isSome_spaced?_append {u : List Char} (hu : '>' ∉ u) {s : List Char}
    (h : (spaced? p s).isSome = true) : (spaced? p (u ++ s)).isSome = true := by
  induction u with
  | nil => exact h
  | cons c u ih =>
    rw [List.mem_cons, not_or] at hu
    exact (isSome_spaced?_cons c (u ++ s)).2 (Or.inr ⟨Ne.symm hu.1, ih hu.2⟩)

/-- **A form behind a blank is found again after it was written anew**, when it was not found at the
blanks in front of it because of what stands there. -/
theorem spaced?_lead {lead t r t' r' : List Char} {a b : α}
    (h : spaced? p (lead ++ (t ++ r)) = some (lead, a, r))
    (hnew : p (t' ++ r') = some (b, r'))
    (hlead : ∀ u, u ≠ [] → p (u ++ (t ++ r)) = none → p (u ++ (t' ++ r')) = none) :
    spaced? p (lead ++ (t' ++ r')) = some (lead, b, r') := by
  induction lead with
  | nil =>
    obtain ⟨w, b, _, hnil, -⟩ := spaced?_eq_some h
    simp at hnil
  | cons c lead ih =>
    rw [List.cons_append] at h ⊢
    by_cases hread : isBlank c = true ∧ (p (lead ++ (t ++ r))).isSome = true
    · obtain ⟨⟨d, z⟩, hd⟩ := Option.isSome_iff_exists.1 hread.2
      rw [spaced?_cons_of_some hread.1 hd] at h
      obtain rfl : lead = [] := by simpa using (congrArg Prod.fst (Option.some.inj h)).symm
      exact spaced?_cons_of_some hread.1 hnew
    · have hnone : isBlank c = true → p (lead ++ (t ++ r)) = none := by simpa using hread
      rw [spaced?_cons_of_none hnone] at h
      split at h
      · cases h
      · next hend =>
        obtain ⟨⟨u, d, z⟩, hrest, heq⟩ := Option.map_eq_some_iff.1 h
        obtain ⟨hu, rfl, rfl⟩ : c :: u = c :: lead ∧ d = a ∧ z = r := by simpa using heq
        obtain rfl := (List.cons.inj hu).2
        have hne : u ≠ [] := by
          rintro rfl
          obtain ⟨w, b, _, hnil, -⟩ := spaced?_eq_some hrest
          simp at hnil
        rw [spaced?_cons_of_none fun hc => hlead u hne (hnone hc), if_neg hend, ih hrest]
        rfl

end Spaced

/-! ### Targets -/

/-- A text of the word `href`, an equals sign and a quote, with blanks around the sign or not. -/
def IsTargetOpening (t : List Char) : Prop :=
  ∃ w₁ w₂ q, (∀ c ∈ w₁, isBlank c = true) ∧ (∀ c ∈ w₂, isBlank c = true) ∧ isQuote q = true ∧
    t = "href".toList ++ (w₁ ++ '=' :: (w₂ ++ [q]))

/-- A target is read where one is opened and a quote follows. -/
theorem isSome_target_iff {s : List Char} : (assignment? "href".toList s).isSome = true ↔
    ∃ t y, IsTargetOpening t ∧ s = t ++ y ∧ ∃ c ∈ y, isQuote c = true :=
  isSome_assignment?_iff

theorem IsTargetOpening.exists_cons {t : List Char} (h : IsTargetOpening t) :
    ∃ u, t = 'h' :: u ∧ 'h' ∉ u ∧ '<' ∉ u ∧ '>' ∉ u := by
  obtain ⟨u, rfl, hu⟩ := IsOpening.exists_cons (w := "ref".toList) h
  exact ⟨u, rfl, hu.not_mem (by decide) (by decide) (by decide) (by decide),
    hu.not_mem (by decide) (by decide) (by decide) (by decide),
    hu.not_mem (by decide) (by decide) (by decide) (by decide)⟩

/-- An assignment to `href` opens a target. -/
theorem exists_targetOpening {a : Assignment} {t : List Char}
    (h : IsAssignment "href".toList a t) :
    ∃ u q, IsTargetOpening u ∧ isQuote q = true ∧ t = u ++ (a.value ++ [q]) :=
  exists_opening_of_isAssignment h

theorem isInitial_href : IsInitial 'h' "ref".toList where
  once := by decide
  not_blank := by decide
  not_quote := by decide
  not_equals := by decide

/-- In front of an assignment to `href` a target is read whatever is assigned. -/
theorem target_eq_none_of_append {u t r t' r' : List Char} {a a' : Assignment} (hu : u ≠ [])
    (ht : IsAssignment "href".toList a t) (ht' : IsAssignment "href".toList a' t')
    (h : assignment? "href".toList (u ++ (t ++ r)) = none) :
    assignment? "href".toList (u ++ (t' ++ r')) = none :=
  isInitial_href.assignment?_eq_none hu ht ht' h

theorem not_mem_of_isAssignment {a : Assignment} {t : List Char}
    (h : IsAssignment "href".toList a t) (hvalue : '>' ∉ a.value) : '>' ∉ t :=
  h.not_mem (by decide) hvalue (by decide) (by decide) (by decide)

/-- Behind the first letter of an assignment to `href` no target starts before its end. -/
theorem isSome_spaced?_of_append {x z : List Char} (hx : 'h' ∉ x)
    (hlast : ∀ c ∈ x.getLast?, isBlank c = false)
    (h : (spaced? (assignment? "href".toList) (x ++ z)).isSome = true) :
    (spaced? (assignment? "href".toList) z).isSome = true := by
  induction x with
  | nil => exact h
  | cons c x ih =>
    have hx' := List.not_mem_of_not_mem_cons hx
    rcases (isSome_spaced?_cons c (x ++ z)).1 h with ⟨hc, htarget⟩ | ⟨-, htail⟩
    · cases x with
      | nil =>
        rw [hlast c rfl] at hc
        cases hc
      | cons d x =>
        obtain ⟨o, y, ho, hs, -⟩ := isSome_target_iff.1 htarget
        obtain ⟨v, rfl, -⟩ := ho.exists_cons
        obtain ⟨rfl, -⟩ := List.cons.inj hs
        exact absurd List.mem_cons_self hx'
    · cases x with
      | nil => exact htail
      | cons d x => exact ih hx' (by simpa using hlast) htail

/-- Nor does one start in the assignment of an empty value. -/
theorem isSome_spaced?_of_isAssignment {quote : Char} {t z : List Char}
    (ht : IsAssignment "href".toList ⟨quote, []⟩ t)
    (h : (spaced? (assignment? "href".toList) (t ++ z)).isSome = true) :
    (spaced? (assignment? "href".toList) z).isSome = true := by
  obtain ⟨o, q, ho, hq, rfl⟩ := exists_targetOpening ht
  obtain ⟨v, rfl, hv, -⟩ := ho.exists_cons
  have hletter : 'h' ∉ [q] := by
    rw [List.mem_singleton]
    rintro rfl
    cases hq
  rw [List.nil_append, List.cons_append, List.cons_append, isSome_spaced?_cons] at h
  refine isSome_spaced?_of_append ?_ ?_ (h.resolve_left fun hblank => ?_).2
  · exact fun hmem => (List.mem_append.1 hmem).elim hv hletter
  · simp [not_isBlank_of_isQuote hq]
  · cases hblank.1

/-! ### Reading an anchor -/

theorem isSome_spacedOrHere?_iff {α : Type} {p : Recogniser α} {s : List Char} :
    (spacedOrHere? p s).isSome = true ↔ (spaced? p s).isSome = true ∨ (p s).isSome = true := by
  rw [spacedOrHere?]
  cases spaced? p s with
  | some found => simp
  | none => cases p s <;> simp

theorem isSome_spaced?_blanks {w : List Char} (hw : ∀ c ∈ w, isBlank c = true) (hne : w ≠ [])
    (s : List Char) : (spaced? (assignment? "href".toList) (w ++ s)).isSome = true ↔
      (spacedOrHere? (assignment? "href".toList) s).isSome = true := by
  have hblank : ∀ c z, isBlank c = true → (assignment? "href".toList (c :: z)).isSome = false := by
    intro c z hc
    rw [Bool.eq_false_iff]
    intro h
    obtain ⟨o, y, ho, hs, -⟩ := isSome_target_iff.1 h
    obtain ⟨v, rfl, -⟩ := ho.exists_cons
    obtain ⟨rfl, -⟩ := List.cons.inj hs
    cases hc
  rw [isSome_spacedOrHere?_iff]
  induction w with
  | nil => exact absurd rfl hne
  | cons c w ih =>
    have hc := hw c List.mem_cons_self
    have hgt : c ≠ '>' := by
      rintro rfl
      cases hc
    rw [List.cons_append, isSome_spaced?_cons]
    cases w with
    | nil => simp [hc, hgt, or_comm]
    | cons d w =>
      have hw' : ∀ e ∈ d :: w, isBlank e = true := fun e he => hw e (List.mem_cons_of_mem _ he)
      rw [List.cons_append, hblank d _ (hw' d List.mem_cons_self)]
      simpa [hgt] using ih hw' (List.cons_ne_nil _ _)

/-- An anchor is read where `<a`, a blank and a target in the tag behind a blank follow. -/
theorem isSome_anchor?_iff {s : List Char} : (anchor? s).isSome = true ↔
    ∃ r, s = "<a".toList ++ r ∧ startsBlank r = true ∧
      (spaced? (assignment? "href".toList) r).isSome = true := by
  have hread : ∀ r, startsBlank r = true → ((anchor? ("<a".toList ++ r)).isSome = true ↔
      (spaced? (assignment? "href".toList) r).isSome = true) := by
    intro r hr
    obtain ⟨w, hw, hcut⟩ := exists_blanks_append_trimStart r
    have hne : w ≠ [] := by
      rintro rfl
      exact trimStart_ne_of_startsBlank hr hcut.symm
    conv => rhs; rw [hcut]
    rw [isSome_spaced?_blanks hw hne, anchor?, after?_append]
    simp only [if_pos hr]
    cases spacedOrHere? (assignment? "href".toList) (trimStart r) <;> simp
  constructor
  · intro h
    obtain ⟨⟨a, r⟩, ha⟩ := Option.isSome_iff_exists.1 h
    obtain ⟨w, -, t, hw, hne, -, -, hs⟩ := anchor?_eq_some ha
    have hstart : startsBlank (w ++ (a.lead ++ (t ++ r))) = true := by
      obtain ⟨c, w, rfl⟩ := List.exists_cons_of_ne_nil hne
      exact hw c List.mem_cons_self
    rw [hs] at h
    exact ⟨_, hs, hstart, (hread _ hstart).1 h⟩
  · rintro ⟨r, rfl, hr, h⟩
    exact (hread r hr).2 h

/-- What is read of an anchor that is cut behind the blanks of its name. -/
theorem anchor?_append {w x : List Char} (hw : ∀ c ∈ w, isBlank c = true) (hne : w ≠ [])
    (hx : trimStart x = x) : anchor? ("<a".toList ++ (w ++ x)) =
      (spacedOrHere? (assignment? "href".toList) x).map fun (lead, a, r) =>
        (⟨lead, a.value⟩, r) := by
  have hstart : startsBlank (w ++ x) = true := by
    obtain ⟨c, w, rfl⟩ := List.exists_cons_of_ne_nil hne
    exact hw c List.mem_cons_self
  have htrim : trimStart (w ++ x) = x := by
    rw [trimStart, List.dropWhile_append_of_pos hw, ← trimStart, hx]
  rw [anchor?, after?_append]
  simp only [if_pos hstart, htrim]
  cases spacedOrHere? (assignment? "href".toList) x <;> rfl

/-- The parts of an anchor. -/
theorem exists_parts_of_anchor? {s r : List Char} {a : Anchor} (h : anchor? s = some (a, r)) :
    ∃ w x b, (∀ c ∈ w, isBlank c = true) ∧ w ≠ [] ∧ trimStart x = x ∧ s = "<a".toList ++ (w ++ x) ∧
      spacedOrHere? (assignment? "href".toList) x = some (a.lead, b, r) ∧ b.value = a.target := by
  obtain ⟨y, rfl, hy, -⟩ := isSome_anchor?_iff.1 (Option.isSome_of_eq_some h)
  obtain ⟨w, hw, hcut⟩ := exists_blanks_append_trimStart y
  have hne : w ≠ [] := by
    rintro rfl
    exact trimStart_ne_of_startsBlank hy hcut.symm
  have hx := trimStart_trimStart y
  rw [hcut, anchor?_append hw hne hx, Option.map_eq_some_iff] at h
  obtain ⟨⟨lead, b, z⟩, hread, heq⟩ := h
  obtain ⟨rfl, rfl⟩ : (⟨lead, b.value⟩ : Anchor) = a ∧ z = r := by simpa using heq
  exact ⟨w, trimStart y, b, hw, hne, hx, by rw [← hcut], hread, rfl⟩

/-! ### Anchors written anew -/

/-- The text of an anchor after the rule. -/
def blankedText (t : List Char) (a : Anchor) : List Char :=
  if a.target.isEmpty then t else a.blanked

theorem emptyHref_eq (s : List Char) : emptyHref.revise s = replaceAll anchor? blankedText s := rfl

theorem trimStart_eq_self_iff {s : List Char} : trimStart s = s ↔ startsBlank s = false := by
  cases s with
  | nil => simp [startsBlank]
  | cons c s =>
    cases hc : isBlank c with
    | false => simp [trimStart, startsBlank, hc]
    | true =>
      have hne := trimStart_ne_of_startsBlank (s := c :: s) hc
      simp [startsBlank, hc, hne]

/-- The parts of an anchor, and of its text after the rule. -/
theorem exists_parts_of_blankedText {t r : List Char} {a : Anchor}
    (h : anchor? (t ++ r) = some (a, r)) :
    ∃ w u b w' u' q, t = "<a".toList ++ (w ++ (a.lead ++ u)) ∧
      IsAssignment "href".toList b u ∧ b.value = a.target ∧
      startsBlank (a.lead ++ (u ++ r)) = false ∧
      spacedOrHere? (assignment? "href".toList) (a.lead ++ (u ++ r)) = some (a.lead, b, r) ∧
      (∀ c ∈ w', isBlank c = true) ∧ w' ≠ [] ∧ IsAssignment "href".toList ⟨q, []⟩ u' ∧
      blankedText t a = "<a".toList ++ (w' ++ (a.lead ++ u')) := by
  obtain ⟨w, x, b, hw, hne, hx, hs, hread, hb⟩ := exists_parts_of_anchor? h
  obtain ⟨z, -, -, hz, rfl⟩ := spacedOrHere?_eq_some hread
  obtain ⟨u, hu, rfl⟩ := assignment?_eq_some hz
  obtain rfl : t = "<a".toList ++ (w ++ (a.lead ++ u)) :=
    List.append_cancel_right (hs.trans (by simp))
  rw [trimStart_eq_self_iff] at hx
  refine ⟨w, u, b, ?_⟩
  rw [blankedText]
  split
  · next hempty =>
    have hb' : b = ⟨b.quote, []⟩ := by
      rw [List.isEmpty_iff.1 hempty] at hb
      rw [← hb]
    exact ⟨w, u, b.quote, rfl, hu, hb, hx, hread, hw, hne, hb' ▸ hu, rfl⟩
  · refine ⟨[' '], "href=\"\"".toList, '"', rfl, hu, hb, hx, hread, by simp, by simp, ?_, ?_⟩
    · exact ⟨by decide, by simp, [], [], '"', by simp, by simp, by decide, by decide⟩
    · rw [Anchor.blanked]
      simp

/-- **An anchor is read again after its target was blanked**, with the same text in front of the
target, unless the target hid what follows it. -/
theorem anchor?_blankedText {t r r' : List Char} {a : Anchor} (h : anchor? (t ++ r) = some (a, r))
    (hclose : a.lead = [] → '>' ∉ a.target)
    (hr : (spaced? (assignment? "href".toList) r').isSome = true →
      (spaced? (assignment? "href".toList) r).isSome = true) :
    anchor? (blankedText t a ++ r') = some (⟨a.lead, []⟩, r') := by
  obtain ⟨w, u, b, w', u', q, rfl, hu, hb, hx, hread, hw', hne', hu', htext⟩ :=
    exists_parts_of_blankedText h
  have hnew := assignment?_append hu' r'
  have hstart : startsBlank (a.lead ++ (u' ++ r')) = false := by
    cases hlead : a.lead with
    | nil =>
      obtain ⟨o, q, ho, -, rfl⟩ := exists_targetOpening hu'
      obtain ⟨v, rfl, -⟩ := ho.exists_cons
      rfl
    | cons c lead =>
      rw [hlead] at hx
      exact hx
  have hagain : spacedOrHere? (assignment? "href".toList) (a.lead ++ (u' ++ r')) =
      some (a.lead, ⟨q, []⟩, r') := by
    rw [spacedOrHere?_eq_some_iff] at hread ⊢
    rcases hread with hspaced | ⟨hnone, hlead, -⟩
    · exact Or.inl (spaced?_lead hspaced hnew fun v hv => target_eq_none_of_append hv hu hu')
    · -- no target stands behind this one, and none comes to light in it or behind it
      rw [hlead, List.nil_append] at hnone ⊢
      refine Or.inr ⟨?_, rfl, hnew⟩
      rw [← Option.not_isSome_iff_eq_none] at hnone ⊢
      refine fun hsome => hnone (isSome_spaced?_append ?_ (hr ?_))
      · exact not_mem_of_isAssignment hu (hb ▸ hclose hlead)
      · exact isSome_spaced?_of_isAssignment hu' hsome
  rw [htext, List.append_assoc, List.append_assoc, List.append_assoc,
    anchor?_append hw' hne' (trimStart_eq_self_iff.2 hstart), hagain]
  rfl

/-! ### Anchors of the revised markup -/

/-- What stands up to the next `<` was there before. -/
theorem eq_of_emptyHref_eq_append {s w u : List Char} (hw : '<' ∉ w)
    (h : emptyHref.revise s = w ++ u) : ∃ r, s = w ++ r ∧ emptyHref.revise r = u := by
  refine eq_of_replaceAll_eq_append (P := fun c => c == '<') consumes_anchor? ?_ ?_ h
  · intro t a r ha _
    obtain ⟨w, u, b, w', u', q, -, -, -, -, -, -, -, -, htext⟩ := exists_parts_of_blankedText ha
    exact ⟨'<', by rw [← blankedText, htext]; rfl, rfl⟩
  · intro c hc
    rw [beq_eq_false_iff_ne]
    rintro rfl
    exact hw hc

theorem exists_quote_of_emptyHref {s : List Char}
    (h : ∃ c ∈ emptyHref.revise s, isQuote c = true) : ∃ c ∈ s, isQuote c = true := by
  rw [emptyHref_eq] at h
  induction s using text_induction consumes_anchor? with
  | nil => exact h
  | plain c s hn ih =>
    rw [replaceAll_cons_of_none hn] at h
    simp only [List.mem_cons, exists_eq_or_imp] at h ⊢
    exact h.imp_right ih
  | found t a r _ ha _ =>
    obtain ⟨w, quote, u, -, -, -, ⟨-, -, w₁, w₂, q, -, -, hq, rfl⟩, hs⟩ := anchor?_eq_some ha
    exact ⟨q, by rw [hs]; simp, hq⟩

theorem isSome_target_of_emptyHref {s : List Char}
    (h : (assignment? "href".toList (emptyHref.revise s)).isSome = true) :
    (assignment? "href".toList s).isSome = true := by
  obtain ⟨o, y, ho, hs, hquote⟩ := isSome_target_iff.1 h
  have hopen : '<' ∉ o := by
    obtain ⟨v, rfl, -, hv, -⟩ := ho.exists_cons
    simp [hv]
  obtain ⟨z, rfl, rfl⟩ := eq_of_emptyHref_eq_append hopen hs
  exact isSome_target_iff.2 ⟨o, z, ho, rfl, exists_quote_of_emptyHref hquote⟩

/-- No target comes to light in a tag. -/
theorem isSome_spaced?_of_emptyHref {s : List Char}
    (h : (spaced? (assignment? "href".toList) (emptyHref.revise s)).isSome = true) :
    (spaced? (assignment? "href".toList) s).isSome = true := by
  induction s using text_induction consumes_anchor? with
  | nil => exact h
  | plain c s hn ih =>
    rw [emptyHref_eq, replaceAll_cons_of_none hn, ← emptyHref_eq, isSome_spaced?_cons] at h
    exact (isSome_spaced?_cons c s).2
      (h.imp (And.imp_right isSome_target_of_emptyHref) (And.imp_right ih))
  | found t a r _ ha _ =>
    -- the anchor itself has one
    obtain ⟨y, hy, -, hspaced⟩ := isSome_anchor?_iff.1 (Option.isSome_of_eq_some ha)
    rw [hy]
    exact isSome_spaced?_append (by decide) hspaced

theorem startsBlank_of_emptyHref {s : List Char} (h : startsBlank (emptyHref.revise s) = true) :
    startsBlank s = true := by
  cases hs : emptyHref.revise s with
  | nil =>
    rw [hs] at h
    cases h
  | cons c u =>
    rw [hs] at h
    have hopen : '<' ∉ [c] := by
      rw [List.mem_singleton]
      rintro rfl
      cases h
    obtain ⟨r, rfl, -⟩ := eq_of_emptyHref_eq_append hopen hs
    exact h

/-- No anchor comes up at a plain character. -/
theorem anchor?_cons_emptyHref {c : Char} {s : List Char} (h : anchor? (c :: s) = none) :
    anchor? (c :: emptyHref.revise s) = none := by
  rw [← Option.not_isSome_iff_eq_none] at h ⊢
  refine fun hsome => h ?_
  obtain ⟨y, hy, hstart, hspaced⟩ := isSome_anchor?_iff.1 hsome
  obtain ⟨rfl, hs⟩ := List.cons.inj hy
  obtain ⟨z, rfl, rfl⟩ := eq_of_emptyHref_eq_append (w := ['a']) (by decide) hs
  exact isSome_anchor?_iff.2
    ⟨z, rfl, startsBlank_of_emptyHref hstart, isSome_spaced?_of_emptyHref hspaced⟩

/-- What becomes of a piece of a markup. -/
def blankedPiece : Piece Anchor → Piece Anchor
  | .plain c => .plain c
  | .found t a => .found (blankedText t a) ⟨a.lead, []⟩

/-- Whether no target hides what follows it in its tag. -/
def NoTargetHides (s : List Char) : Prop :=
  ∀ a ∈ values anchor? s, a.lead = [] → '>' ∉ a.target

instance (s : List Char) : Decidable (NoTargetHides s) :=
  inferInstanceAs (Decidable (∀ a ∈ values anchor? s, a.lead = [] → '>' ∉ a.target))

/-- **The anchors of the revised markup, one to one.** -/
theorem pieces_emptyHref {s : List Char} (h : NoTargetHides s) :
    pieces anchor? (emptyHref.revise s) = (pieces anchor? s).map blankedPiece := by
  replace h : ∀ t a, .found t a ∈ pieces anchor? s → a.lead = [] → '>' ∉ a.target := by
    intro t a hmem
    obtain ⟨o, ho, -, rfl⟩ := mem_occurrences_iff.2 hmem
    exact h _ (List.mem_map_of_mem ho)
  rw [emptyHref_eq]
  exact pieces_replaceAll_eq_map consumes_anchor? (fun _ => rfl) (fun _ _ => anchor?_cons_emptyHref)
    fun t a r hmem ha =>
      ⟨⟨a.lead, []⟩, rfl, anchor?_blankedText ha (h t a hmem) isSome_spaced?_of_emptyHref⟩

/-- The rule is done with its own result when no target hides what follows it. -/
theorem target_eq_nil_of_emptyHref {s : List Char} (h : NoTargetHides s) :
    ∀ o ∈ occurrences anchor? (emptyHref.revise s), o.value.target = [] := by
  rw [forall_occurrences_iff (Q := fun _ (a : Anchor) => a.target = []), pieces_emptyHref h]
  intro t a hmem
  obtain ⟨x, -, hx⟩ := List.mem_map.1 hmem
  cases x with
  | plain c => cases hx
  | found u b =>
    obtain ⟨-, rfl⟩ := Piece.found.inj hx
    rfl

/-! ### Tags of anchors -/

/-- An `<a>` tag with attributes, read as its attribute text. -/
def anchorTag? : Recogniser (List Char) := fun s =>
  match tag? "<a".toList s with
  | some (attrs, rest) => if attrs.isEmpty then none else some (attrs, rest)
  | none => none

theorem anchorTag?_eq_some_iff {s attrs r : List Char} : anchorTag? s = some (attrs, r) ↔
    startsBlank attrs = true ∧ '>' ∉ attrs ∧ s = "<a".toList ++ (attrs ++ '>' :: r) := by
  constructor
  · intro h
    rw [anchorTag?] at h
    split at h
    · next attrs' r' hread =>
      split at h
      · cases h
      · next hne =>
        cases h
        obtain ⟨hstart, hs⟩ := tag?_eq_some hread
        exact ⟨hstart.resolve_left (by simpa using hne), not_mem_of_tag? hread, hs⟩
    · cases h
  · rintro ⟨hstart, hclose, rfl⟩
    have hne : attrs.isEmpty = false := by
      cases attrs with
      | nil => cases hstart
      | cons _ _ => rfl
    rw [anchorTag?, tag?_append hclose (Or.inr hstart)]
    simp [hne]

theorem consumes_anchorTag? : anchorTag?.Consumes := by
  intro s attrs r h
  obtain ⟨-, -, hs⟩ := anchorTag?_eq_some_iff.1 h
  exact ⟨"<a".toList ++ (attrs ++ ['>']), List.cons_ne_nil _ _, by simpa using hs⟩

/-- Where in the text behind `<a` the rule reads the target. -/
def targetPlace? (s : List Char) : Option Nat :=
  (anchor? ("<a".toList ++ s)).map fun (a, _) => (s.takeWhile isBlank).length + a.lead.length

theorem not_mem_of_mem_occurrences {s : List Char} {o : Occurrence Anchor}
    (ho : o ∈ occurrences anchor? s) (hempty : o.value.target = []) : '>' ∉ o.text := by
  obtain ⟨r, -, hread⟩ := read_of_mem_occurrences consumes_anchor? ho
  obtain ⟨w, quote, t, hw, -, hlead, ht, hs⟩ := anchor?_eq_some hread
  have htext : o.text = "<a".toList ++ (w ++ (o.value.lead ++ t)) :=
    List.append_cancel_right (hs.trans (by simp))
  have hblank : '>' ∉ w := fun hmem => absurd (hw _ hmem) (by decide)
  have hassigned := not_mem_of_isAssignment ht (by simp [hempty])
  simp [htext, hblank, hlead, hassigned]

/-- A tag does not start inside an anchor without `>`: the tag that starts where the anchor does
reaches further. -/
theorem start_eq_of_covers {s : List Char} {o : Occurrence (List Char)} {a : Occurrence Anchor}
    (ho : o ∈ occurrences anchorTag? s) (ha : a ∈ occurrences anchor? s)
    (hle : a.start ≤ o.start) (hlt : o.start < a.stop) (hclose : '>' ∉ a.text) :
    a.start = o.start := by
  have hdrop := drop_start_of_mem_occurrences consumes_anchor? ha
  obtain ⟨hlen, -, -, hread⟩ := cut_of_mem_occurrences consumes_anchor? ha
  rw [← hdrop] at hread
  obtain ⟨y, hy, hstart, -⟩ := isSome_anchor?_iff.1 (Option.isSome_of_eq_some hread)
  have htext : ∀ {o : Occurrence (List Char)}, o ∈ occurrences anchorTag? s →
      o.text.getLast? = some '>' := by
    intro o ho
    obtain ⟨r, -, hread⟩ := read_of_mem_occurrences consumes_anchorTag? ho
    obtain ⟨-, -, hs⟩ := anchorTag?_eq_some_iff.1 hread
    obtain htext : o.text = ("<a".toList ++ o.value) ++ ['>'] :=
      List.append_cancel_right (hs.trans (by simp))
    rw [htext, List.getLast?_concat]
  -- where the anchor starts a tag is read too
  have hmem : '>' ∈ y := by
    have hmem : '>' ∈ s.drop o.start := by
      rw [drop_start_of_mem_occurrences consumes_anchorTag? ho]
      exact List.mem_append_left _ (List.mem_of_getLast? (htext ho))
    rw [← Nat.add_sub_cancel' hle, ← List.drop_drop] at hmem
    have := List.mem_of_mem_drop hmem
    rw [hy] at this
    exact (List.mem_append.1 this).resolve_left (by decide)
  obtain ⟨attrs, z, hattrs, rfl⟩ := exists_cut_of_mem hmem
  have hblank : startsBlank attrs = true := by
    cases attrs with
    | nil => cases hstart
    | cons c attrs => exact hstart
  obtain ⟨b, hb, hbstart, hbstop, -⟩ := exists_occurrence_of_read consumes_anchorTag?
    (anchorTag?_eq_some_iff.2 ⟨hblank, hattrs, hy⟩) (s.take a.start)
  rw [List.take_append_drop] at hb
  rw [hlen] at hbstart hbstop
  -- it ends before the other tag starts, that is, inside the anchor
  by_contra hne
  have hstop := stop_le_of_lt hb ho (by omega)
  have hlast : s[b.stop - 1]? = some '>' := by
    have hpos := List.length_pos_of_mem (List.mem_of_getLast? (htext hb))
    have hplace : b.stop - 1 = b.start + (b.text.length - 1) := by
      rw [Occurrence.stop]
      omega
    rw [hplace, ← List.getElem?_drop, drop_start_of_mem_occurrences consumes_anchorTag? hb,
      List.getElem?_append_left (by omega), ← List.getLast?_eq_getElem?, htext hb]
  have hplace : b.stop - 1 = a.start + (b.stop - 1 - a.start) := by omega
  rw [hplace, ← List.getElem?_drop, hdrop, List.getElem?_append_left] at hlast
  · exact hclose (List.mem_of_getElem? hlast)
  · rw [Occurrence.stop] at hlt
    omega

/-- A value behind a quote that is followed by a quote is empty or starts with the second quote. -/
theorem eq_nil_or_quote_of_isValueText {v t w₁ w₂ y z : List Char} {q q' : Char}
    (ht : IsValueText v t) (hw₁ : ∀ c ∈ w₁, isBlank c = true) (hw₂ : ∀ c ∈ w₂, isBlank c = true)
    (hq : isQuote q = true) (hq' : isQuote q' = true)
    (h : w₁ ++ (t ++ y) = w₂ ++ q :: q' :: z) : v = [] ∨ ∃ c ∈ v.head?, isQuote c = true := by
  obtain ⟨-, hrest⟩ := eq_quoted_of_isValueText ht hw₁ hw₂ hq h
  cases v with
  | nil => exact Or.inl rfl
  | cons c v =>
    obtain ⟨rfl, -⟩ := List.cons.inj hrest
    exact Or.inr ⟨c, rfl, hq'⟩

/-- The text in front of the target. -/
theorem targetPlace?_append {w lead z r : List Char} {b : Assignment}
    (hw : ∀ c ∈ w, isBlank c = true) (hne : w ≠ []) (hx : trimStart (lead ++ z) = lead ++ z)
    (h : spacedOrHere? (assignment? "href".toList) (lead ++ z) = some (lead, b, r)) :
    targetPlace? (w ++ (lead ++ z)) = some (w ++ lead).length := by
  have htake : (lead ++ z).takeWhile isBlank = [] := by
    rw [trimStart_eq_self_iff] at hx
    cases hs : lead ++ z with
    | nil => rfl
    | cons c s =>
      rw [hs] at hx
      exact List.takeWhile_cons_of_neg (by simpa [startsBlank] using hx)
  rw [targetPlace?, anchor?_append hw hne hx, h, List.takeWhile_append_of_pos hw, htake]
  simp

/-- What the scanner reads at the place of an empty target. -/
theorem eq_nil_or_quote_of_place {attrs rest r v : List Char} {a : Anchor}
    {href : Occurrence Attribute} (hread : anchor? ("<a".toList ++ (attrs ++ '>' :: rest)) =
      some (a, r)) (hempty : a.target = [])
    (hplace : targetPlace? (attrs ++ '>' :: rest) = some href.start)
    (hhref : href ∈ attributes attrs) (hv : href.value.value = some v) :
    v = [] ∨ ∃ c ∈ v.head?, isQuote c = true := by
  obtain ⟨w, x, b, hw, hne, hx, hs, hfound, hb⟩ := exists_parts_of_anchor? hread
  obtain ⟨z, -, -, hz, rfl⟩ := spacedOrHere?_eq_some hfound
  obtain ⟨u, hu, rfl⟩ := assignment?_eq_some hz
  replace hs := List.append_cancel_left hs
  -- the attribute starts where the assignment does
  obtain ⟨hlen, hcut, -, hattr⟩ := cut_of_mem_occurrences consumes_attribute? hhref
  rw [hs, targetPlace?_append hw hne hx hfound, Option.some.injEq] at hplace
  have hstarts : href.text ++ (attrs.drop href.stop ++ '>' :: rest) = u ++ r := by
    have hwhole : attrs.take href.start ++ (href.text ++ (attrs.drop href.stop ++ '>' :: rest)) =
        (w ++ a.lead) ++ (u ++ r) := by
      rw [← List.append_assoc href.text, ← List.append_assoc, ← hcut, hs, List.append_assoc]
    exact (List.append_inj hwhole (hlen.trans hplace.symm)).2
  obtain ⟨-, hname, ⟨hnone, -⟩ | ⟨v', u₁, u₂, t, hv', hu₁, hu₂, ht, htext⟩⟩ :=
    attribute?_eq_some hattr
  · rw [hnone] at hv
    cases hv
  · obtain rfl : v = v' := Option.some.inj (hv.symm.trans hv')
    obtain ⟨hquote, -, w₁, w₂, q, hw₁, hw₂, hq, rfl⟩ := hu
    have hequals : "href".toList ++ (w₁ ++ '=' :: (w₂ ++ b.quote :: q :: r)) =
        href.value.name ++ (u₁ ++ '=' :: (u₂ ++ (t ++ (attrs.drop href.stop ++ '>' :: rest)))) := by
      rw [← List.append_assoc, htext, hb, hempty] at hstarts
      simpa using hstarts.symm
    exact eq_nil_or_quote_of_isValueText ht hu₂ hw₂ hquote hq
      (eq_of_equals (forall_mem_of_all (by decide)) hname hw₁ hu₁ hequals).symm

/-- **The rule is done with its own result, and a target that the scanner of attributes finds at the
place where the rule reads it is empty**, or its value starts with a quote of the other kind, at
which the rule ends it. -/
theorem emptyHref_blanks_targets {s : List Char} (h : NoTargetHides s) :
    emptyHref.revise (emptyHref.revise s) = emptyHref.revise s ∧
      pieces anchor? (emptyHref.revise s) = (pieces anchor? s).map blankedPiece ∧
      ∀ o ∈ occurrences anchorTag? (emptyHref.revise s), ∀ href v,
        findAttribute? "href".toList o.value = some href → href.value.value = some v →
        targetPlace? (o.value ++ '>' :: (emptyHref.revise s).drop o.stop) = some href.start →
        v = [] ∨ ∃ c ∈ v.head?, isQuote c = true := by
  have hempty := target_eq_nil_of_emptyHref h
  refine ⟨emptyHref_eq_self hempty, pieces_emptyHref h, ?_⟩
  intro o ho href v hhref hv hplace
  obtain ⟨hlen, hcut, -, hread⟩ := cut_of_mem_occurrences consumes_anchorTag? ho
  obtain ⟨-, -, htag⟩ := anchorTag?_eq_some_iff.1 hread
  obtain ⟨⟨a, r⟩, ha, -⟩ := Option.map_eq_some_iff.1 hplace
  -- an anchor of the revised markup starts where the tag does
  have hcover := exists_occurrence_of_read consumes_anchor? (htag ▸ ha)
    ((emptyHref.revise s).take o.start)
  rw [← hcut, hlen] at hcover
  obtain ⟨b, hb, hle, hlt, hvalue⟩ := hcover
  have hstart := start_eq_of_covers ho hb hle hlt (not_mem_of_mem_occurrences hb (hempty b hb))
  refine eq_nil_or_quote_of_place ha ?_ hplace (List.mem_of_find?_eq_some hhref) hv
  rw [← hvalue hstart, hempty b hb]

/-- A link whose target stands behind its class, and one whose target holds a `>`.  Both targets are
empty where the scanner of attributes reads them. -/
theorem emptyHref_blanks_targets_links :
    let links := "<a class=\"nav\" href=\"/home\">Home</a> <a id=b href = '/a>b'>B</a>".toList
    NoTargetHides links ∧
      emptyHref.revise (emptyHref.revise links) = emptyHref.revise links ∧
      (values anchor? (emptyHref.revise links)).map Anchor.lead =
        ["class=\"nav\" ".toList, "id=b ".toList] ∧
      ∀ o ∈ occurrences anchorTag? (emptyHref.revise links),
        ∃ href ∈ findAttribute? "href".toList o.value, href.value.value = some [] := by
  intro links
  have hides : NoTargetHides links := by decide +kernel
  obtain ⟨hdone, hpieces, hvalues⟩ := emptyHref_blanks_targets hides
  refine ⟨hides, hdone, ?_, ?_⟩
  · rw [values, occurrences, hpieces]
    decide +kernel
  · let blanked := "<a class=\"nav\" href=\"\">Home</a> <a id=b href=\"\">B</a>".toList
    have hblanked : emptyHref.revise links = blanked := by decide +kernel
    rw [hblanked] at hvalues ⊢
    have hread : ∀ o ∈ occurrences anchorTag? blanked,
        ∃ href ∈ findAttribute? "href".toList o.value, ∃ v ∈ href.value.value,
          targetPlace? (o.value ++ '>' :: blanked.drop o.stop) = some href.start ∧
            v.head?.any isQuote = false := by
      decide +kernel
    intro o ho
    obtain ⟨href, hhref, v, hv, hplace, hquote⟩ := hread o ho
    refine ⟨href, hhref, ?_⟩
    rcases hvalues o ho href v hhref hv hplace with rfl | ⟨c, hc, hc'⟩
    · exact hv
    · rw [Option.mem_def.1 hc, Option.any_some, hc'] at hquote
      cases hquote

/-- The title of a link mentions a target, and that one is blanked instead of the target of the
link; a target with a `>` hides another one from the first run. -/
theorem emptyHref_misses_target :
    let link := "<a title=\"see href='q'\" href=\"x\">".toList
    let veiled := "<a href=\"x>\" href=\"y\">".toList
    emptyHref.revise (emptyHref.revise veiled) ≠ emptyHref.revise veiled ∧
      (values anchorTag? (emptyHref.revise link)).map (fun attrs =>
        (findAttribute? "href".toList attrs).bind fun href => href.value.value) =
          [some "x".toList] := by
  decide +kernel

end Markup
end SceneMarkup
