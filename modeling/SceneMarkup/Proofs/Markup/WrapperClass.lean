import SceneMarkup.Proofs.Markup.Targets
import SceneMarkup.Proofs.Markup.WrappedMentions
import SceneMarkup.Proofs.Stylesheet.ClassNames

/-!
# The class of the first tag

A markup with a wrapper class is the markup with one more class in its first tag, and that tag is
found again: what stands in front of a tag is read as before when the tag goes on in another way,
and so is what stands in front of a class attribute.  So a second class of the same name is never
added.

## Main definitions

* `ReplacesTag` — a text that is read as a tag where another tag was read.
* `OpeningTag.classes` — the classes in the first quoted class attribute of a tag.

## Main results

* `bareClass_append` — a class of a stylesheet is put on as it is, without the points in front.
* `isSome_openingTag?_congr` — whether a tag is read is told by its text up to a character that no
  name has.
* `ReplacesTag.first?` — the first tag of a markup with another text for its first tag.
* `quotedClass?_append` — the class attribute of a tag with one more class.
* `replacesTag_withClass`, `quotedClass?_withClass` — **a tag with a class is a tag again, and has
  the class.**
* `ensureWrapper_first_tag` — **the first tag of a markup with a wrapper class.**
-/

namespace SceneMarkup
namespace Markup

open Text

/-! ### The class of a wrapper -/

theorem isNameChar_of_isIdentChar {c : Char} (h : Stylesheet.isIdentChar c = true) :
    isNameChar c = true := by
  rw [Stylesheet.isIdentChar, Bool.or_eq_true, Bool.or_eq_true, beq_iff_eq, beq_iff_eq] at h
  rcases h with (h | rfl) | rfl
  · exact isNameChar_of_isAlphanum h
  · decide
  · decide

theorem isNameChar_of_isClassName {name : List Char} (h : Stylesheet.IsClassName name) :
    ∀ c ∈ name, isNameChar c = true := by
  obtain ⟨c, u, rfl, hc, hu⟩ := h
  rintro d (_ | ⟨_, hd⟩)
  · exact isNameChar_of_isAlpha hc
  · exact isNameChar_of_isIdentChar (hu d hd)

/-- A class of a stylesheet is put on as it is, without the points in front of it. -/
theorem bareClass_append {dots name : List Char} (hdots : ∀ c ∈ dots, c = '.')
    (hname : Stylesheet.IsClassName name) : bareClass (dots ++ name) = name := by
  have hblank : ∀ c ∈ dots ++ name, isBlank c = false := by
    intro c hc
    rcases List.mem_append.1 hc with hc | hc
    · rw [hdots c hc]
      decide
    · exact isBlank_of_isNameChar (isNameChar_of_isClassName hname c hc)
  obtain ⟨c, u, rfl, hc, -⟩ := hname
  have hpoint : c ≠ '.' := by
    rintro rfl
    exact absurd hc (by decide)
  rw [bareClass, trim_run hblank, List.dropWhile_append_of_pos (by simpa using hdots)]
  exact List.dropWhile_cons_of_neg (by simpa using hpoint)

theorem bareClass_of_isClassName {name : List Char} (h : Stylesheet.IsClassName name) :
    bareClass name = name := by
  have hbare := bareClass_append (List.forall_mem_nil (· = '.')) h
  rwa [List.nil_append] at hbare

/-! ### Names that end at a boundary -/

/-- Whether a run can be cut is told by the first character behind it. -/
theorem isSome_cutAtBoundary_congr {r r' : List Char} (h : startsWord r = startsWord r') (c : Char)
    (run : List Char) : (cutAtBoundary c run r).isSome = (cutAtBoundary c run r').isSome := by
  induction run generalizing c with
  | nil =>
    rw [cutAtBoundary, cutAtBoundary, boundaryAfter, boundaryAfter, h]
    split <;> rfl
  | cons d run ih =>
    have hd := ih d
    rw [cutAtBoundary, cutAtBoundary, boundaryAfter, boundaryAfter, List.cons_append,
      List.cons_append, startsWord_cons, startsWord_cons]
    cases h₁ : cutAtBoundary d run r with
    | some found =>
      obtain ⟨found', h₂⟩ := Option.isSome_iff_exists.1 (hd.symm.trans (by rw [h₁]; rfl))
      rw [h₂]
      rfl
    | none =>
      have h₂ : cutAtBoundary d run r' = none := by
        rw [← Option.not_isSome_iff_eq_none, ← hd, h₁]
        decide
      rw [h₂]
      dsimp only
      split <;> rfl

/-- A run behind a word character can be cut when no word character follows it. -/
theorem isSome_cutAtBoundary {c : Char} (hc : isWord c = true) (run : List Char) {r : List Char}
    (hr : startsWord r = false) : (cutAtBoundary c run r).isSome = true := by
  induction run generalizing c with
  | nil => simp [cutAtBoundary, boundaryAfter, hc, hr]
  | cons d run ih =>
    rw [cutAtBoundary]
    cases hcut : cutAtBoundary d run r with
    | some found => rfl
    | none =>
      -- no cut behind the next character, so that one is no word character
      cases hd : isWord d with
      | true =>
        have := ih hd
        rw [hcut] at this
        cases this
      | false => simp [boundaryAfter, hc, hd]

theorem isWord_of_isAlpha {c : Char} (hc : c.isAlpha = true) : isWord c = true := by
  have hcode := toNat_of_isAlpha hc
  rw [isWord_of_ascii (by omega), Char.isAlphanum, hc]
  rfl

/-! ### The first tag -/

/-- An opening tag is read where a name can be cut and a `>` follows. -/
theorem isSome_openingTag?_cons {c : Char} {s : List Char} (hclose : '>' ∈ s) :
    (openingTag? ('<' :: c :: s)).isSome =
      (c.isAlpha && (cutAtBoundary c (s.takeWhile isTagChar) (s.dropWhile isTagChar)).isSome) := by
  rw [openingTag?]
  cases hc : c.isAlpha with
  | false => rfl
  | true =>
    cases hcut : cutAtBoundary c (s.takeWhile isTagChar) (s.dropWhile isTagChar) with
    | none => rfl
    | some found =>
      obtain ⟨name, r⟩ := found
      obtain ⟨v, w, rfl, hrun, rfl⟩ := eq_cons_of_cutAtBoundary hcut
      have hs : s = v ++ (w ++ s.dropWhile isTagChar) := by
        rw [← List.append_assoc, ← hrun, List.takeWhile_append_dropWhile]
      have hv : '>' ∉ v := by
        intro hmem
        have := List.mem_takeWhile_imp (hrun ▸ List.mem_append_left w hmem)
        revert this
        decide
      have hrest : '>' ∈ w ++ s.dropWhile isTagChar := by
        rw [hs] at hclose
        exact (List.mem_append.1 hclose).resolve_left hv
      cases hbody : tagBody? (w ++ s.dropWhile isTagChar) with
      | none => exact absurd hrest (not_mem_of_tagBody?_eq_none hbody)
      | some found => simp [hbody]

/-- Whether a tag is read is told by its text up to a character that no name has. -/
theorem isSome_openingTag?_congr {x z z' : List Char} {b : Char} (hx : x ≠ [])
    (hb : isTagChar b = false) (hz : '>' ∈ b :: z) (hz' : '>' ∈ b :: z') :
    (openingTag? (x ++ b :: z)).isSome = (openingTag? (x ++ b :: z')).isSome := by
  obtain ⟨d, x, rfl⟩ := List.exists_cons_of_ne_nil hx
  by_cases hd : d = '<'
  · subst hd
    cases x with
    | nil =>
      have hletter : b.isAlpha = false := by
        rw [isTagChar, Char.isAlphanum, Bool.or_eq_false_iff, Bool.or_eq_false_iff] at hb
        exact hb.1.1
      simp [openingTag?, hletter]
    | cons c y =>
      have hstop : ∀ z : List Char, ∀ c ∈ (b :: z).head?, isTagChar c = false := by
        rintro z c ⟨⟩
        exact hb
      obtain ⟨htake, hdrop⟩ := takeWhile_append_of_stops (s := y) (hstop z)
      obtain ⟨htake', hdrop'⟩ := takeWhile_append_of_stops (s := y) (hstop z')
      simp only [List.cons_append]
      rw [isSome_openingTag?_cons (List.mem_append_right y hz),
        isSome_openingTag?_cons (List.mem_append_right y hz'), htake, hdrop, htake', hdrop']
      congr 1
      refine isSome_cutAtBoundary_congr ?_ c _
      cases y.dropWhile isTagChar <;> rfl
  · have hnone : ∀ s, openingTag? (d :: s) = none := by
      intro s
      unfold openingTag?
      split
      · next heq => exact absurd (List.cons.inj heq).1 hd
      · rfl
    rw [List.cons_append, List.cons_append, hnone, hnone]

theorem OpeningTag.WellFormed.not_mem_body {tag : OpeningTag} (h : tag.WellFormed) :
    '>' ∉ tag.name ++ tag.attrs := by
  rw [List.mem_append, not_or]
  exact ⟨fun hmem => absurd (h.isNameChar _ hmem) (by decide), h.attrs⟩

theorem OpeningTag.WellFormed.not_mem_front {tag : OpeningTag} (h : tag.WellFormed) :
    '>' ∉ '<' :: (tag.name ++ tag.attrs) :=
  List.not_mem_cons_of_ne_of_not_mem (by decide) h.not_mem_body

/-- A text that is read as a tag goes to its first `>`. -/
theorem text_of_openingTag? {u r r' : List Char} {tag : OpeningTag} (hu : '>' ∉ u)
    (h : openingTag? (u ++ '>' :: r) = some (tag, r')) : tag.text = u ++ ['>'] ∧ r' = r := by
  obtain ⟨htext, htag⟩ := openingTag?_eq_some h
  rw [OpeningTag.text, List.append_assoc ('<' :: tag.name ++ tag.attrs),
    List.singleton_append] at htext
  obtain ⟨rfl, rfl⟩ := append_cons_inj_of_not_mem hu htag.not_mem_front htext
  exact ⟨rfl, rfl⟩

/-- A text that is read as a tag where another tag was read. -/
def ReplacesTag (tag : OpeningTag) (t : List Char) : Prop :=
  ∃ u, t = '<' :: u ++ ['>'] ∧ '>' ∉ u ∧
    ∀ r, (openingTag? (tag.text ++ r)).isSome = true → (openingTag? (t ++ r)).isSome = true

/-- **The first tag of a markup with another text for its first tag** stands where that stood. -/
theorem ReplacesTag.first? {tag : OpeningTag} {x t r : List Char} (ht : ReplacesTag tag t)
    (h : Text.first? openingTag? (x ++ (tag.text ++ r)) = some (x, tag, r)) :
    ∃ tag' : OpeningTag, tag'.text = t ∧
      Text.first? openingTag? (x ++ (t ++ r)) = some (x, tag', r) := by
  obtain ⟨u, rfl, hu, hread⟩ := ht
  obtain ⟨s, hs, htag⟩ := first?_eq_some h
  obtain rfl := List.append_cancel_left hs
  obtain ⟨⟨tag', r'⟩, hread⟩ := Option.isSome_iff_exists.1 (hread r (by rw [htag]; rfl))
  have hstart : '>' ∉ '<' :: u := by simp [hu]
  have hnew : '<' :: u ++ ['>'] ++ r = '<' :: u ++ '>' :: r := by simp
  rw [hnew] at hread ⊢
  obtain ⟨htext, rfl⟩ := text_of_openingTag? hstart hread
  refine ⟨tag', htext, ?_⟩
  refine first?_append_of_some h hread (List.cons_ne_nil _ _) fun y hy _ hnone => ?_
  rw [OpeningTag.text] at hnone
  simp only [List.cons_append] at hnone ⊢
  have hsame : (openingTag? (y ++ '<' :: (tag.name ++ tag.attrs ++ ['>'] ++ r'))).isSome =
      (openingTag? (y ++ '<' :: (u ++ '>' :: r'))).isSome :=
    isSome_openingTag?_congr hy (by decide) (by simp) (by simp)
  rwa [← Option.not_isSome_iff_eq_none, ← hsame, Option.not_isSome_iff_eq_none]

/-! ### The class attribute -/

theorem isInitial_class : IsInitial 'c' "lass".toList where
  once := by decide
  not_blank := by decide
  not_quote := by decide
  not_equals := by decide

/-- The quoted class attribute of a tag is an assignment behind its first blank that lets it. -/
theorem quotedClass?_eq_map_spaced? {u : List Char} (hu : '>' ∉ u) :
    quotedClass? (u ++ ['>']) = (spaced? (assignment? "class".toList) (u ++ ['>'])).map
      fun found => ⟨found.1, found.2.1, found.2.2⟩ := by
  induction u with
  | nil => decide
  | cons c u ih =>
    rw [List.mem_cons, not_or] at hu
    rw [List.cons_append]
    unfold quotedClass? spaced?
    rw [if_neg (Ne.symm hu.1), ih hu.2]
    cases (if isBlank c then assignment? "class".toList (u ++ ['>']) else none) with
    | some found => rfl
    | none => cases spaced? (assignment? "class".toList) (u ++ ['>']) <;> rfl

/-- An attribute of a tag ends in front of the end of the tag. -/
theorem exists_parts_of_quotedClass? {u : List Char} {q : QuotedClass}
    (h : quotedClass? (u ++ ['>']) = some q) :
    ∃ x c t y, q.before = x ++ [c] ∧ isBlank c = true ∧ IsAssignment "class".toList q.assignment t ∧
      q.after = y ++ ['>'] ∧ u = x ++ c :: (t ++ y) := by
  obtain ⟨x, c, t, hbefore, hc, ht, htext⟩ := quotedClass?_eq_some h
  obtain ⟨o, q', -, hq', rfl⟩ := exists_opening_of_isAssignment ht
  -- the attribute ends in a quote, and the tag does not
  rcases List.eq_nil_or_concat q.after with hafter | ⟨y, d, hafter⟩
  · have hcut : u ++ ['>'] = (x ++ c :: (o ++ q.assignment.value)) ++ [q'] := by
      rw [htext, hafter]
      simp
    obtain ⟨-, hlast⟩ := List.append_inj' hcut rfl
    obtain ⟨rfl, -⟩ := List.cons.inj hlast
    cases hq'
  · rw [List.concat_eq_append] at hafter
    have hcut : u ++ ['>'] = (x ++ c :: ((o ++ (q.assignment.value ++ [q'])) ++ y)) ++ [d] := by
      rw [htext, hafter]
      simp
    obtain ⟨rfl, hlast⟩ := List.append_inj' hcut rfl
    obtain ⟨rfl, -⟩ := List.cons.inj hlast
    exact ⟨x, c, _, y, hbefore, hc, ht, hafter, rfl⟩

theorem not_isQuote_of_isPlainChar {c : Char} (h : isPlainChar c = true) : isQuote c = false := by
  simp only [isPlainChar, Bool.not_eq_true', Bool.or_eq_false_iff] at h
  exact h.1.1.1

section Append

variable {u name : List Char} {q : QuotedClass} (hu : '>' ∉ u)
  (h : quotedClass? (u ++ ['>']) = some q) (hname : ∀ c ∈ name, isPlainChar c = true)

include hu h hname

/-- A tag with one more class in its class attribute, and the place of the attribute in it. -/
theorem exists_parts_of_append : ∃ x c t t' y, isBlank c = true ∧
    IsAssignment "class".toList q.assignment t ∧
    IsAssignment "class".toList ⟨q.assignment.quote, appendClass q.assignment.value name⟩ t' ∧
    q.before = x ++ [c] ∧ q.after = y ++ ['>'] ∧ u = x ++ c :: (t ++ y) ∧
    q.append name = x ++ c :: (t' ++ y) ++ ['>'] ∧ '>' ∉ x ++ c :: (t' ++ y) := by
  obtain ⟨x, c, t, y, hbefore, hc, ht, hafter, rfl⟩ := exists_parts_of_quotedClass? h
  have hassigned := ht
  obtain ⟨hquote, hvalue, w₁, w₂, q', -, -, -, rfl⟩ := ht
  have hend : '>' ≠ q.assignment.quote := by
    intro heq
    rw [← heq] at hquote
    cases hquote
  have hclose : '>' ∉ appendClass q.assignment.value name := by
    intro hmem
    rcases mem_appendClass hmem with hmem | heq | hmem
    · exact hu (by simp [hmem])
    · cases heq
    · cases hname _ hmem
  refine ⟨x, c, _, "class".toList ++ ([] ++ '=' :: ([] ++ q.assignment.quote ::
    (appendClass q.assignment.value name ++ [q.assignment.quote]))), y, hc, hassigned,
    ⟨hquote, fun d hd => ?_, [], [], _, isBlank_of_mem_nil, isBlank_of_mem_nil, hquote, rfl⟩,
    hbefore, hafter, rfl, ?_, ?_⟩
  · rcases mem_appendClass hd with hd | rfl | hd
    · exact hvalue d hd
    · decide
    · exact not_isQuote_of_isPlainChar (hname d hd)
  · rw [QuotedClass.append, hbefore, hafter]
    simp
  · rw [List.mem_append, not_or, List.mem_cons, not_or, List.mem_append, not_or] at hu ⊢
    refine ⟨hu.1, hu.2.1, ?_, hu.2.2.2⟩
    simp [hend, hclose]

/-- **The class attribute of a tag with one more class** is where it was. -/
theorem quotedClass?_append : quotedClass? (q.append name) =
    some ⟨q.before, ⟨q.assignment.quote, appendClass q.assignment.value name⟩, q.after⟩ := by
  obtain ⟨x, c, t, t', y, hc, ht, ht', hbefore, hafter, rfl, happend, hclose⟩ :=
    exists_parts_of_append hu h hname
  rw [quotedClass?_eq_map_spaced? hu, Option.map_eq_some_iff] at h
  obtain ⟨⟨x', a, r⟩, hspaced, heq⟩ := h
  obtain ⟨rfl, rfl, rfl⟩ := QuotedClass.mk.inj heq
  have hold : x ++ c :: (t ++ y) ++ ['>'] = q.before ++ (t ++ q.after) := by
    rw [hbefore, hafter]
    simp
  have hnew : x ++ c :: (t' ++ y) ++ ['>'] = q.before ++ (t' ++ q.after) := by
    rw [hbefore, hafter]
    simp
  rw [hold] at hspaced
  rw [happend, quotedClass?_eq_map_spaced? hclose, hnew, spaced?_lead hspaced
    (assignment?_append ht' q.after) fun u hne => isInitial_class.assignment?_eq_none hne ht ht']
  rfl

end Append

theorem quotedClass?_append_of_not_isBlank {x : List Char} (hx : ∀ c ∈ x, isBlank c = false)
    (s : List Char) :
    quotedClass? (x ++ s) = (quotedClass? s).map fun q => { q with before := x ++ q.before } := by
  induction x with
  | nil => simp
  | cons c x ih =>
    rw [List.forall_mem_cons] at hx
    rw [List.cons_append]
    conv => lhs; unfold quotedClass?
    simp only [hx.1, ih hx.2]
    cases quotedClass? s <;> rfl

/-! ### A tag with a class -/

section WithClass

variable {tag : OpeningTag} {name : List Char}

theorem withClass_of_mem {q : QuotedClass} (h : quotedClass? tag.text = some q)
    (hmem : name ∈ words q.assignment.value) : withClass tag name = tag.text := by
  simp only [withClass, h]
  rw [if_pos (List.contains_iff_mem.2 hmem)]

theorem withClass_of_not_mem {q : QuotedClass} (h : quotedClass? tag.text = some q)
    (hmem : name ∉ words q.assignment.value) : withClass tag name = q.append name := by
  simp only [withClass, h]
  rw [if_neg (by rwa [List.contains_iff_mem])]

/-- A class without quotes stays as it is. -/
theorem withClass_of_occurs (h : quotedClass? tag.text = none)
    (hassigned : occurs classEquals? tag.text = true) : withClass tag name = tag.text := by
  simp only [withClass, h]
  rw [if_pos hassigned]

/-- The text of a tag with a class attribute in front of its other attributes. -/
def OpeningTag.classed (tag : OpeningTag) (name : List Char) : List Char :=
  '<' :: (tag.name ++ ' ' :: ("class=\"".toList ++ (name ++ '"' :: tag.attrs))) ++ ['>']

/-- A tag without a class gets one in front of its attributes. -/
theorem withClass_of_not_occurs (h : quotedClass? tag.text = none)
    (hassigned : occurs classEquals? tag.text = false) : withClass tag name = tag.classed name := by
  simp only [withClass, h]
  rw [if_neg (by simp [hassigned]), OpeningTag.classed]
  simp

variable (htag : tag.WellFormed) (hname : ∀ c ∈ name, isPlainChar c = true)

include htag

theorem replacesTag_text : ReplacesTag tag tag.text :=
  ⟨tag.name ++ tag.attrs, rfl, htag.not_mem_body, fun _ hr => hr⟩

include hname

/-- A tag with one more class in its class attribute is read up to the attribute as before. -/
theorem replacesTag_append {q : QuotedClass} (h : quotedClass? tag.text = some q) :
    ReplacesTag tag (q.append name) := by
  have htext : tag.text = '<' :: (tag.name ++ tag.attrs) ++ ['>'] := rfl
  rw [htext] at h
  obtain ⟨x, c, t, t', y, hc, -, -, -, -, hu, happend, hend⟩ :=
    exists_parts_of_append htag.not_mem_front h hname
  have hstop : isTagChar c = false := by
    rw [Bool.eq_false_iff]
    intro htagChar
    have := isNameChar_of_isTagChar htagChar
    rw [not_isNameChar_of_isBlank hc] at this
    cases this
  cases x with
  | nil =>
    obtain ⟨rfl, -⟩ := List.cons.inj hu
    cases hc
  | cons d x =>
    obtain ⟨rfl, hu⟩ := List.cons.inj hu
    refine ⟨x ++ c :: (t' ++ y), happend, List.not_mem_of_not_mem_cons hend, fun r hr => ?_⟩
    have hold : tag.text ++ r = '<' :: x ++ c :: (t ++ y ++ '>' :: r) := by
      rw [htext, hu]
      simp
    have hnew : q.append name ++ r = '<' :: x ++ c :: (t' ++ y ++ '>' :: r) := by
      rw [happend]
      simp
    have hsame : (openingTag? ('<' :: x ++ c :: (t ++ y ++ '>' :: r))).isSome =
        (openingTag? ('<' :: x ++ c :: (t' ++ y ++ '>' :: r))).isSome :=
      isSome_openingTag?_congr (List.cons_ne_nil '<' x) hstop (by simp) (by simp)
    rwa [hnew, ← hsame, ← hold]

/-- A tag with a class attribute behind its name is read at least up to that one's blank. -/
theorem replacesTag_classed : ReplacesTag tag (tag.classed name) := by
  refine ⟨_, rfl, ?_, fun r _ => ?_⟩
  · have hfree := htag.not_mem_body
    rw [List.mem_append, not_or] at hfree
    have hclass : '>' ∉ name := fun hmem => absurd (hname _ hmem) (by decide)
    simp [hfree, hclass]
  · obtain ⟨c, v, hcv, hc, hv⟩ := htag.name
    have hnew : tag.classed name ++ r = '<' :: c ::
        (v ++ ' ' :: ("class=\"".toList ++ (name ++ '"' :: (tag.attrs ++ '>' :: r)))) := by
      rw [OpeningTag.classed, hcv]
      simp
    obtain ⟨htake, hdrop⟩ := takeWhile_append_of_head? hv
      (z := ' ' :: ("class=\"".toList ++ (name ++ '"' :: (tag.attrs ++ '>' :: r))))
      (by rintro d ⟨⟩; decide)
    rw [hnew, isSome_openingTag?_cons (by simp), hc, htake, hdrop, Bool.true_and]
    exact isSome_cutAtBoundary (isWord_of_isAlpha hc) v rfl

/-- A tag with a class is a tag again. -/
theorem replacesTag_withClass : ReplacesTag tag (withClass tag name) := by
  cases hq : quotedClass? tag.text with
  | some q =>
    by_cases hmem : name ∈ words q.assignment.value
    · rw [withClass_of_mem hq hmem]
      exact replacesTag_text htag
    · rw [withClass_of_not_mem hq hmem]
      exact replacesTag_append htag hname hq
  | none =>
    cases hassigned : occurs classEquals? tag.text with
    | true =>
      rw [withClass_of_occurs hq hassigned]
      exact replacesTag_text htag
    | false =>
      rw [withClass_of_not_occurs hq hassigned]
      exact replacesTag_classed htag hname

/-- The classes in the first quoted class attribute of a tag. -/
def OpeningTag.classes (tag : OpeningTag) : List (List Char) :=
  match quotedClass? tag.text with
  | some q => words q.assignment.value
  | none => []

/-- The class of a tag that had none. -/
theorem quotedClass?_classed : quotedClass? (tag.classed name) =
    some ⟨'<' :: tag.name ++ [' '], ⟨'"', name⟩, tag.attrs ++ ['>']⟩ := by
  have hfront : ∀ c ∈ '<' :: tag.name, isBlank c = false := by
    rw [List.forall_mem_cons]
    exact ⟨by decide, fun c hc => isBlank_of_isNameChar (htag.isNameChar c hc)⟩
  have hassigned : IsAssignment "class".toList ⟨'"', name⟩
      ("class".toList ++ ([] ++ '=' :: ([] ++ '"' :: (name ++ ['"'])))) :=
    ⟨rfl, fun c hc => not_isQuote_of_isPlainChar (hname c hc), [], [], '"', isBlank_of_mem_nil,
      isBlank_of_mem_nil, rfl, rfl⟩
  have hread := assignment?_append hassigned (tag.attrs ++ ['>'])
  have htext : tag.classed name = '<' :: tag.name ++ ' ' :: ("class".toList ++ ([] ++ '=' ::
      ([] ++ '"' :: (name ++ ['"']))) ++ (tag.attrs ++ ['>'])) := by
    rw [OpeningTag.classed]
    simp
  rw [htext, quotedClass?_append_of_not_isBlank hfront]
  unfold quotedClass?
  rw [if_pos isBlank_space, hread]
  rfl

variable (hne : name ≠ []) (hblank : ∀ c ∈ name, isBlank c = false)

include hne hblank

/-- What a tag with a class has for its class attribute. -/
theorem quotedClass?_withClass :
    (quotedClass? tag.text = none ∧ occurs classEquals? tag.text = true ∧
      withClass tag name = tag.text) ∨
    ∃ q', quotedClass? (withClass tag name) = some q' ∧ name ∈ words q'.assignment.value ∧
      (words q'.assignment.value = tag.classes ∨
        name ∉ tag.classes ∧ words q'.assignment.value = tag.classes ++ [name]) ∧
      ∀ q, quotedClass? tag.text = some q → q'.before = q.before ∧ q'.after = q.after := by
  have hword : words name = [name] := words_run hne hblank
  cases hq : quotedClass? tag.text with
  | some q =>
    have hclasses : tag.classes = words q.assignment.value := by rw [OpeningTag.classes, hq]
    refine Or.inr ?_
    by_cases hmem : name ∈ words q.assignment.value
    · rw [withClass_of_mem hq hmem, hclasses]
      refine ⟨q, hq, hmem, Or.inl rfl, ?_⟩
      rintro _ ⟨⟩
      exact ⟨rfl, rfl⟩
    · have happend : quotedClass? (q.append name) = _ :=
        quotedClass?_append htag.not_mem_front hq hname
      have hadded := words_appendClass q.assignment.value name
      rw [hword] at hadded
      rw [withClass_of_not_mem hq hmem, hclasses]
      refine ⟨_, happend, ?_, Or.inr ⟨hmem, hadded⟩, ?_⟩
      · rw [hadded]
        exact List.mem_append_right _ List.mem_cons_self
      · rintro _ ⟨⟩
        exact ⟨rfl, rfl⟩
  | none =>
    have hclasses : tag.classes = [] := by rw [OpeningTag.classes, hq]
    cases hassigned : occurs classEquals? tag.text with
    | true => exact Or.inl ⟨rfl, rfl, withClass_of_occurs hq hassigned⟩
    | false =>
      rw [withClass_of_not_occurs hq hassigned, hclasses]
      refine Or.inr ⟨_, quotedClass?_classed htag hname, ?_,
        Or.inr ⟨List.not_mem_nil, hword⟩, fun _ h => nomatch h⟩
      rw [hword]
      exact List.mem_cons_self

/-- A tag with a class has it. -/
theorem withClass_eq_text {tag' : OpeningTag} (h : tag'.text = withClass tag name) :
    withClass tag' name = tag'.text := by
  rcases quotedClass?_withClass htag hname hne hblank with
    ⟨hq, hassigned, hkept⟩ | ⟨q', hq', hmem, -⟩
  · rw [hkept] at h
    rw [← h] at hq hassigned
    exact withClass_of_occurs hq hassigned
  · rw [← h] at hq'
    exact withClass_of_mem hq' hmem

end WithClass

/-! ### The first tag of a markup with a wrapper class -/

section EnsureWrapper

theorem ensureWrapper_of_none {markup : List Char} (h : first? openingTag? markup = none)
    (wrapper : List Char) : ensureWrapper markup wrapper = markup := by
  rw [ensureWrapper, h]
  split <;> rfl

variable {dots name : List Char} (hdots : ∀ c ∈ dots, c = '.') (hname : Stylesheet.IsClassName name)

include hname

theorem isPlainChar_of_isClassName : ∀ c ∈ name, isPlainChar c = true :=
  fun c hc => isPlainChar_of_isNameChar (isNameChar_of_isClassName hname c hc)

theorem not_isBlank_of_isClassName : ∀ c ∈ name, isBlank c = false :=
  fun c hc => isBlank_of_isNameChar (isNameChar_of_isClassName hname c hc)

theorem ne_nil_of_isClassName : name ≠ [] := by
  obtain ⟨c, u, rfl, -⟩ := hname
  exact List.cons_ne_nil c u

include hdots

variable {markup before after : List Char} {tag : OpeningTag}
  (h : first? openingTag? markup = some (before, tag, after))

include h

theorem ensureWrapper_of_some :
    ensureWrapper markup (dots ++ name) = before ++ (withClass tag name ++ after) := by
  rw [ensureWrapper, bareClass_append hdots hname, h]
  obtain ⟨c, u, rfl, -⟩ := hname
  exact List.append_assoc _ _ _

/-- The first tag is found where it was, with the class. -/
theorem exists_first_tag_of_ensureWrapper : markup = before ++ (tag.text ++ after) ∧
    tag.WellFormed ∧ ∃ tag' : OpeningTag, tag'.text = withClass tag name ∧
      first? openingTag? (ensureWrapper markup (dots ++ name)) = some (before, tag', after) := by
  rw [ensureWrapper_of_some hdots hname h]
  obtain ⟨t, hmarkup, ht⟩ := first?_eq_some h
  obtain ⟨rfl, htag⟩ := openingTag?_eq_some ht
  rw [hmarkup] at h
  exact ⟨hmarkup, htag,
    (replacesTag_withClass htag (isPlainChar_of_isClassName hname)).first? h⟩

/-- A second call finds the class and changes nothing. -/
theorem ensureWrapper_ensureWrapper_of_some :
    ensureWrapper (ensureWrapper markup (dots ++ name)) (dots ++ name) =
      ensureWrapper markup (dots ++ name) := by
  obtain ⟨-, htag, tag', htext, hfirst⟩ := exists_first_tag_of_ensureWrapper hdots hname h
  have hkept := withClass_eq_text htag (isPlainChar_of_isClassName hname)
    (ne_nil_of_isClassName hname) (not_isBlank_of_isClassName hname) htext
  rw [ensureWrapper_of_some hdots hname hfirst, hkept, htext, ensureWrapper_of_some hdots hname h]

end EnsureWrapper

/-- **The first tag of a markup with a wrapper class.**  The text in front of it and behind it is
kept, and so is the place of its first quoted class attribute with all classes in their order.  The
wrapper class is among them, behind the others where it was not; only a tag whose class is assigned
without quotes stays without it.  So a second call changes nothing. -/
theorem ensureWrapper_first_tag {dots name : List Char} (hdots : ∀ c ∈ dots, c = '.')
    (hname : Stylesheet.IsClassName name) (markup : List Char) :
    ensureWrapper (ensureWrapper markup (dots ++ name)) (dots ++ name) =
        ensureWrapper markup (dots ++ name) ∧
      (first? openingTag? markup = none → ensureWrapper markup (dots ++ name) = markup) ∧
      ∀ before tag after, first? openingTag? markup = some (before, tag, after) →
        markup = before ++ (tag.text ++ after) ∧
        ∃ tag', first? openingTag? (ensureWrapper markup (dots ++ name)) =
            some (before, tag', after) ∧
          ensureWrapper markup (dots ++ name) = before ++ (tag'.text ++ after) ∧
          ((quotedClass? tag.text = none ∧ occurs classEquals? tag.text = true ∧
              ensureWrapper markup (dots ++ name) = markup) ∨
            ∃ q', quotedClass? tag'.text = some q' ∧ name ∈ words q'.assignment.value ∧
              (words q'.assignment.value = tag.classes ∨
                name ∉ tag.classes ∧ words q'.assignment.value = tag.classes ++ [name]) ∧
              ∀ q, quotedClass? tag.text = some q →
                q'.before = q.before ∧ q'.after = q.after) := by
  refine ⟨?_, fun h => ensureWrapper_of_none h _, fun before tag after h => ?_⟩
  · cases h : first? openingTag? markup with
    | none => rw [ensureWrapper_of_none h, ensureWrapper_of_none h]
    | some found => exact ensureWrapper_ensureWrapper_of_some hdots hname h
  · obtain ⟨hmarkup, htag, tag', htext, hfirst⟩ :=
      exists_first_tag_of_ensureWrapper hdots hname h
    have hresult : ensureWrapper markup (dots ++ name) = before ++ (tag'.text ++ after) := by
      rw [ensureWrapper_of_some hdots hname h, htext]
    refine ⟨hmarkup, tag', hfirst, hresult, ?_⟩
    rcases quotedClass?_withClass htag (isPlainChar_of_isClassName hname)
      (ne_nil_of_isClassName hname) (not_isBlank_of_isClassName hname)
      with ⟨hq, hassigned, hkept⟩ | hclass
    · refine Or.inl ⟨hq, hassigned, ?_⟩
      rw [hresult, htext, hkept, ← hmarkup]
    · rw [htext]
      exact Or.inr hclass

/-- A tag whose name is cut in front of its last letter, with a class between unequal quotes. -/
theorem ensureWrapper_first_tag_unequal_quotes :
    (∀ c ∈ "..".toList, c = '.') ∧ Stylesheet.IsClassName "landing".toList ∧
    first? openingTag? "1 < 2 <a-é class = 'hero\" id=m><p class=\"landing\">".toList =
      some ("1 < 2 ".toList, ⟨"a-".toList, "é class = 'hero\" id=m".toList⟩,
        "<p class=\"landing\">".toList) ∧
    ensureWrapper "1 < 2 <a-é class = 'hero\" id=m><p class=\"landing\">".toList
        ("..".toList ++ "landing".toList) =
      "1 < 2 <a-é class='hero landing' id=m><p class=\"landing\">".toList ∧
    ensureWrapper "1 < 2 <a-é class='hero landing' id=m><p class=\"landing\">".toList
        ("..".toList ++ "landing".toList) =
      "1 < 2 <a-é class='hero landing' id=m><p class=\"landing\">".toList ∧
    ∃ tag' q', first? openingTag?
        "1 < 2 <a-é class='hero landing' id=m><p class=\"landing\">".toList =
          some ("1 < 2 ".toList, tag', "<p class=\"landing\">".toList) ∧
      quotedClass? tag'.text = some q' ∧ "landing".toList ∈ words q'.assignment.value := by
  have hdots : ∀ c ∈ "..".toList, c = '.' := forall_mem_of_all (by decide)
  have hname : Stylesheet.IsClassName "landing".toList :=
    ⟨'l', "anding".toList, rfl, by decide, forall_mem_of_all (by decide)⟩
  have hfirst : first? openingTag?
      "1 < 2 <a-é class = 'hero\" id=m><p class=\"landing\">".toList =
        some ("1 < 2 ".toList, ⟨"a-".toList, "é class = 'hero\" id=m".toList⟩,
          "<p class=\"landing\">".toList) := by decide +kernel
  have hresult : ensureWrapper "1 < 2 <a-é class = 'hero\" id=m><p class=\"landing\">".toList
      ("..".toList ++ "landing".toList) =
        "1 < 2 <a-é class='hero landing' id=m><p class=\"landing\">".toList := by decide +kernel
  obtain ⟨hagain, -, htag⟩ := ensureWrapper_first_tag hdots hname
    "1 < 2 <a-é class = 'hero\" id=m><p class=\"landing\">".toList
  obtain ⟨-, tag', hfirst', -, hclass⟩ := htag _ _ _ hfirst
  rw [hresult] at hagain hfirst'
  refine ⟨hdots, hname, hfirst, hresult, hagain, tag', ?_⟩
  rcases hclass with ⟨hquoted, -⟩ | ⟨q', hq', hmem, -⟩
  · exact absurd hquoted (by decide +kernel)
  · exact ⟨q', hfirst', hq', hmem⟩

end Markup
end SceneMarkup
