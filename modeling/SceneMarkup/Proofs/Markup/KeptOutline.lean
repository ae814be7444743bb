import SceneMarkup.Proofs.Markup.Headings
import SceneMarkup.Proofs.Markup.Items
import SceneMarkup.Proofs.Markup.Outline
import SceneMarkup.Proofs.Markup.Progress

/-!
# Rules that keep the outline

The rules for icons, buttons, items and headings read whole tags and write tags with the same frame.
They keep the outline of every markup.

## Main definitions

* `hiddenAttributes` — the attribute text of a hidden icon.
* `iconBody` — the part of it that the icon had.

## Main results

* `keeps_standardIcons`, `keeps_typedButtons`, `keeps_hiddenIcons`, `keeps_groupItems`,
  `keeps_singleHeading` — **each of these rules keeps the outline.**
-/

namespace SceneMarkup
namespace Markup

open Text

/-! ### Tags with a fixed opening -/

theorem not_mem_of_tag? {opening s r attrs : List Char} (h : tag? opening s = some (attrs, r)) :
    '>' ∉ attrs := by
  rw [tag?] at h
  split at h
  · cases h
  · split at h
    · next attrs' rest hbody =>
      split at h
      · cases h
        exact not_mem_of_tagBody? hbody
      · cases h
    · cases h

/-- The name of such a tag ends where its attribute text starts. -/
theorem stopsName_of_tag? {opening s r attrs : List Char} (h : tag? opening s = some (attrs, r)) :
    StopsName attrs := by
  rcases (tag?_eq_some h).1 with rfl | hblank
  · exact stopsName_nil
  · cases attrs with
    | nil => exact stopsName_nil
    | cons c attrs => exact stopsName_cons (not_isNameChar_of_isBlank hblank) _

/-! ### Values of attributes -/

/-- A value stands in the text of its tag. -/
theorem mem_of_mem_value {attrs v : List Char} {o : Occurrence Attribute}
    (ho : o ∈ attributes attrs) (hv : o.value.value = some v) {c : Char} (hc : c ∈ v) :
    c ∈ attrs := by
  obtain ⟨u, r, rfl, -, -, hread⟩ := place_of_mem_occurrences consumes_attribute? ho
  obtain ⟨-, -, ⟨hnone, -⟩ | ⟨v', w₁, w₂, t, hv', -, -, ht, htext⟩⟩ := attribute?_eq_some hread
  · rw [hv] at hnone
    cases hnone
  · obtain rfl : v = v' := Option.some.inj (hv.symm.trans hv')
    have hmem : c ∈ t := by
      rcases ht with ⟨q, -, -, rfl⟩ | ⟨-, -, rfl⟩
      · simp [hc]
      · exact hc
    rw [htext]
    simp [hmem]

/-- A value in double quotes holds none of them. -/
theorem not_mem_value_of_quoted {attrs v : List Char} {as : List Attribute}
    {o : Occurrence Attribute} (h : quotedAttributes? attrs = some as) (ho : o ∈ attributes attrs)
    (hv : o.value.value = some v) : '"' ∉ v := by
  have hmem : Piece.found o.text o.value ∈ pieces attribute? attrs :=
    mem_occurrences_iff.1 ⟨o, ho, rfl, rfl⟩
  have hlast := standsAlone_of_quotedFrom h _ hmem
  obtain ⟨r, -, hread⟩ := read_of_mem_occurrences consumes_attribute? ho
  obtain ⟨-, -, v', w₁, w₂, hv', -, -, hquote, -⟩ :=
    eq_quotedText_of_getLast? hread (by simpa [standsAlone] using hlast)
  obtain rfl : v = v' := Option.some.inj (hv.symm.trans hv')
  exact hquote

theorem mem_joinWith {sep : List Char} {ls : List (List Char)} {c : Char}
    (h : c ∈ joinWith sep ls) : c ∈ sep ∨ ∃ l ∈ ls, c ∈ l := by
  induction ls with
  | nil => cases h
  | cons l ls ih =>
    cases ls with
    | nil => exact Or.inr ⟨l, List.mem_cons_self, h⟩
    | cons l' ls =>
      rw [joinWith_cons_cons, List.mem_append, List.mem_append] at h
      rcases h with h | h | h
      · exact Or.inr ⟨l, List.mem_cons_self, h⟩
      · exact Or.inl h
      · rcases ih h with h | ⟨l'', hl'', hc⟩
        · exact Or.inl h
        · exact Or.inr ⟨l'', List.mem_cons_of_mem _ hl'', hc⟩

/-! ### Icon classes -/

theorem mem_of_mem_words {s w : List Char} (hw : w ∈ words s) {c : Char} (hc : c ∈ w) : c ∈ s := by
  have hmem : c ∈ (words s).flatten := List.mem_flatten.2 ⟨w, hw, hc⟩
  rw [flatten_words] at hmem
  exact List.mem_of_mem_filter hmem

/-- The standard form of the classes of an icon has the characters of the value, and some letters
and hyphens. -/
theorem mem_standardWords {v : List Char} {c : Char}
    (h : c ∈ joinWith [' '] (standardWords (words v))) :
    c ∈ v ∨ c ∈ " ico-normal-default".toList := by
  have hsize : ∀ c ∈ iconSize, c ∈ " ico-normal-default".toList := forall_mem_of_all (by decide)
  have hico : ∀ c ∈ "ico-".toList, c ∈ " ico-normal-default".toList := forall_mem_of_all (by decide)
  have hdefault : ∀ c ∈ "default".toList, c ∈ " ico-normal-default".toList :=
    forall_mem_of_all (by decide)
  have hword : ∀ w, c ∈ standardWord w → c ∈ w ∨ c ∈ " ico-normal-default".toList := by
    intro w hc
    rw [standardWord] at hc
    split at hc
    · rcases List.mem_append.1 hc with hc | hc
      · exact Or.inr (hico c hc)
      · rcases iconName_eq w with hname | hname
        · exact Or.inr (hdefault c (hname ▸ hc))
        · exact Or.inl ((hname.trans (eraseIcon_sublist w)).subset hc)
    · exact Or.inl hc
  rcases mem_joinWith h with h | ⟨w, hw, hc⟩
  · rw [List.mem_singleton.1 h]
    exact Or.inr (by decide)
  · exact forall_mem_standardWords
      (P := fun w => c ∈ w → c ∈ v ∨ c ∈ " ico-normal-default".toList)
      (fun w hw hc => (hword w hc).imp_left (mem_of_mem_words hw))
      (fun hc => Or.inr (hsize c hc)) w hw hc

theorem not_mem_quotedText {name v : List Char} {d : Char} (hd : d ≠ '=') (hd' : d ≠ '"')
    (hname : d ∉ name) (hv : d ∉ v) : d ∉ quotedText name [] [] v := by
  simp [quotedText, hd, hd', hname, hv]

/-- A whole tag can be written with another body of the same frame. -/
theorem keeps_tag_text (body body' : List Char) (hbody : '>' ∉ body) (hbody' : '>' ∉ body')
    (hframe : FrameKept body body') (x y : List Char) :
    Keeps (x ++ ('<' :: (body ++ ['>']) ++ y)) (x ++ ('<' :: (body' ++ ['>']) ++ y)) := by
  simpa using keeps_tag body body' hbody hbody' hframe x y

/-- The frame of an icon whose classes are in the standard form. -/
theorem frame?_standardAttributes {attrs attrs' : List Char} {as : List Attribute}
    (hattrs : StopsName attrs) (h : standardAttributes? attrs = some attrs')
    (hframe : frame? ("i".toList ++ attrs) = some as) :
    frame? ("i".toList ++ attrs') = some as := by
  obtain ⟨o, v, hfind, hv, -, -, rfl⟩ := standardAttributes?_eq_quotedText h
  obtain ⟨ho, hclass⟩ := mem_of_findAttribute? hfind
  have hchars : ∀ c ∈ "i".toList, isNameChar c = true := forall_mem_of_all (by decide)
  obtain ⟨-, hopen, as', hquoted, -⟩ := frame?_tag_eq_some hchars hattrs hframe
  have hold : isHouseName o.value.name = true :=
    List.any_eq_true.2 ⟨"class".toList, by decide, hclass⟩
  have hquote : '"' ∉ joinWith [' '] (standardWords (words v)) := by
    intro hmem
    rcases mem_standardWords hmem with hmem | hmem
    · exact not_mem_value_of_quoted hquoted ho hv hmem
    · exact absurd hmem (by decide)
  have hopen' : '<' ∉ joinWith [' '] (standardWords (words v)) := by
    intro hmem
    rcases mem_standardWords hmem with hmem | hmem
    · exact hopen (mem_of_mem_value ho hv hmem)
    · exact absurd hmem (by decide)
  have hclassChars : ∀ c ∈ "class".toList, isNameChar c = true := forall_mem_of_all (by decide)
  exact frame?_replace hchars hattrs hframe ho hold (by decide) (by decide) hclassChars hquote hopen'

/-- The attribute text in the standard form ends no tag. -/
theorem not_mem_standardAttributes {attrs attrs' : List Char} (hclose : '>' ∉ attrs)
    (h : standardAttributes? attrs = some attrs') : '>' ∉ attrs' := by
  obtain ⟨o, v, hfind, hv, -, -, rfl⟩ := standardAttributes?_eq_quotedText h
  obtain ⟨ho, -⟩ := mem_of_findAttribute? hfind
  have hvalue : '>' ∉ joinWith [' '] (standardWords (words v)) := by
    intro hmem
    rcases mem_standardWords hmem with hmem | hmem
    · exact hclose (mem_of_mem_value ho hv hmem)
    · exact absurd hmem (by decide)
  have hwritten : '>' ∉ quotedText "class".toList [] []
      (joinWith [' '] (standardWords (words v))) :=
    not_mem_quotedText (by decide) (by decide) (by decide) hvalue
  have htake : '>' ∉ attrs.take o.start := fun h => hclose (List.mem_of_mem_take h)
  have hdrop : '>' ∉ attrs.drop o.stop := fun h => hclose (List.mem_of_mem_drop h)
  simp only [List.mem_append, not_or]
  exact ⟨htake, hwritten, hdrop⟩

/-- Bringing the classes of icons to the standard form keeps the outline. -/
theorem keeps_standardIcons (s : List Char) : Keeps s (standardIcons.revise s) := by
  refine keeps_replaceAll consumes_icon? ?_ s
  intro t attrs r h x y
  cases hs : standardAttributes? attrs with
  | none => exact Keeps.refl _
  | some attrs' =>
    have htag := icon?_eq_some h
    obtain rfl := text_of_tag? htag
    have hclose := not_mem_of_tag? htag
    have hletter : '>' ∉ "i".toList := by decide
    refine keeps_tag_text ("i".toList ++ attrs) ("i".toList ++ attrs') ?_ ?_ ?_ x y
    · simp [hclose]
    · simp [not_mem_standardAttributes hclose hs]
    · exact fun as => frame?_standardAttributes (stopsName_of_tag? htag) hs

/-! ### Button types and hidden icons -/

/-- A button with a type has one attribute more in front. -/
theorem typedButton_eq (attrs : List Char) :
    typedButton attrs = '<' :: ("button".toList ++
      ' ' :: (quotedText "type".toList [] [] "button".toList ++ attrs) ++ ['>']) := by
  unfold typedButton
  simp [quotedText]

theorem not_isNameChar_space : isNameChar ' ' = false := by decide

/-- An attribute of the house in front of the others does not belong to the frame. -/
theorem frame?_cons {tag name v attrs : List Char} {as : List Attribute}
    (htag : ∀ c ∈ tag, isNameChar c = true) (hattrs : StopsName attrs)
    (hhouse : isHouseName name = true) (hname : name ≠ [])
    (hchars : ∀ c ∈ name, isNameChar c = true) (hv : '"' ∉ v) (hopen : '<' ∉ v)
    (h : frame? (tag ++ attrs) = some as) :
    frame? (tag ++ ' ' :: (quotedText name [] [] v ++ attrs)) = some as := by
  obtain ⟨hletter, hmem, as', hquoted, rfl⟩ := frame?_tag_eq_some htag hattrs h
  have hname' : '<' ∉ name := fun hmem => absurd (hchars _ hmem) (by decide)
  have hmem' : '<' ∉ ' ' :: (quotedText name [] [] v ++ attrs) := by
    simp [quotedText, hname', hopen, hmem]
  rw [frame?_tag hletter htag (stopsName_cons not_isNameChar_space _), if_neg hmem',
    quotedAttributes?_cons hname hchars hv, hquoted]
  simp [hhouse]

/-- Giving every button a type keeps the outline. -/
theorem keeps_typedButtons (s : List Char) : Keeps s (typedButtons.revise s) := by
  refine keeps_replaceAll consumes_button? ?_ s
  intro t attrs r h x y
  split
  · exact Keeps.refl _
  · obtain rfl := text_of_tag? h
    have hclose := not_mem_of_tag? h
    have hchars : ∀ c ∈ "button".toList, isNameChar c = true := forall_mem_of_all (by decide)
    have htype : ∀ c ∈ "type".toList, isNameChar c = true := forall_mem_of_all (by decide)
    rw [typedButton_eq]
    refine keeps_tag_text ("button".toList ++ attrs) _ ?_ ?_ ?_ x y
    · simp [hclose]
    · simp [quotedText, hclose]
    · exact fun as => frame?_cons hchars (stopsName_of_tag? h) (by decide) (by decide) htype
        (by decide) (by decide)

/-- The attribute that hides an icon. -/
def hidingText : List Char := quotedText "aria-hidden".toList [] [] "true".toList

/-- The attribute text of a hidden icon. -/
def hiddenAttributes (attrs : List Char) : List Char :=
  match beforeSlash? (trimEnd attrs) with
  | some body => trimEnd body ++ ' ' :: (hidingText ++ " /".toList)
  | none => trimEnd attrs ++ ' ' :: (hidingText ++ [])

theorem hiddenTag_eq (attrs : List Char) :
    hiddenTag attrs = '<' :: ("i".toList ++ hiddenAttributes attrs ++ ['>']) := by
  rw [hiddenTag, hiddenAttributes]
  cases beforeSlash? (trimEnd attrs) with
  | some body => simp [hidingText, quotedText]
  | none => simp [hidingText, quotedText]

/-- The attribute text of an icon up to the blanks and the slash at its end. -/
def iconBody (attrs : List Char) : List Char :=
  match beforeSlash? (trimEnd attrs) with
  | some body => trimEnd body
  | none => trimEnd attrs

/-- Nothing but blanks and slashes stands behind the body of an icon. -/
theorem exists_iconBody_append (attrs : List Char) :
    ∃ w, attrs = iconBody attrs ++ w ∧ ∀ c ∈ w, isBlank c = true ∨ c = '/' := by
  obtain ⟨w, hw, hattrs⟩ := exists_trimEnd_append_blanks attrs
  rw [iconBody]
  split
  · next body hbody =>
    obtain ⟨w', hblanks, hw'⟩ := exists_trimEnd_append_blanks body
    rw [beforeSlash?_eq_some hbody] at hattrs
    refine ⟨w' ++ ('/' :: w), ?_, fun c hc => ?_⟩
    · rw [← List.append_assoc, ← hw', hattrs, List.append_assoc, List.singleton_append]
    · rcases List.mem_append.1 hc with hc | hc
      · exact Or.inl (hblanks c hc)
      · exact (List.mem_cons.1 hc).symm.imp_left (hw c)
  · exact ⟨w, hattrs, fun c hc => Or.inl (hw c hc)⟩

/-- A hidden icon is its body, the attribute that hides it, and a slash or not. -/
theorem hiddenAttributes_eq_iconBody (attrs : List Char) :
    ∃ z, hiddenAttributes attrs = iconBody attrs ++ ' ' :: (hidingText ++ z) ∧
      (z = " /".toList ∨ z = []) := by
  rw [hiddenAttributes, iconBody]
  split
  · exact ⟨" /".toList, rfl, Or.inl rfl⟩
  · exact ⟨[], rfl, Or.inr rfl⟩

/-- A hidden icon is its attribute text up to blanks and a slash at the end, the attribute that hides
it, and a slash or not. -/
theorem hiddenAttributes_eq (attrs : List Char) :
    ∃ u w z, attrs = u ++ w ∧ (∀ c ∈ w, isBlank c = true ∨ c = '/') ∧
      hiddenAttributes attrs = u ++ ' ' :: (hidingText ++ z) ∧ (z = " /".toList ∨ z = []) := by
  obtain ⟨w, hattrs, hw⟩ := exists_iconBody_append attrs
  obtain ⟨z, hhidden, hz⟩ := hiddenAttributes_eq_iconBody attrs
  exact ⟨iconBody attrs, w, z, hattrs, hw, hhidden, hz⟩

/-- It has the characters of the icon and those of its new attribute. -/
theorem mem_hiddenAttributes {attrs : List Char} {c : Char} (h : c ∈ hiddenAttributes attrs) :
    c ∈ attrs ∨ c ∈ " aria-hidden=\"true\" /".toList := by
  have hslash : ∀ c ∈ ' ' :: (hidingText ++ " /".toList),
      c ∈ " aria-hidden=\"true\" /".toList := forall_mem_of_all (by decide)
  have hnone : ∀ c ∈ ' ' :: (hidingText ++ []), c ∈ " aria-hidden=\"true\" /".toList :=
    forall_mem_of_all (by decide)
  obtain ⟨u, w, z, hattrs, -, hhidden, hz⟩ := hiddenAttributes_eq attrs
  rw [hhidden] at h
  rcases List.mem_append.1 h with h | h
  · rw [hattrs]
    exact Or.inl (List.mem_append_left w h)
  · rcases hz with rfl | rfl
    · exact Or.inr (hslash c h)
    · exact Or.inr (hnone c h)

theorem stopsName_hiddenAttributes {attrs : List Char} (h : StopsName attrs) :
    StopsName (hiddenAttributes attrs) := by
  obtain ⟨u, w, z, rfl, -, hhidden, -⟩ := hiddenAttributes_eq attrs
  rw [hhidden]
  cases u with
  | nil => exact stopsName_cons not_isNameChar_space _
  | cons c u => exact stopsName_cons (h c rfl) _

theorem getLast?_of_beforeSlash?_eq_none {s : List Char} (h : beforeSlash? s = none) :
    s.getLast? ≠ some '/' := by
  intro hlast
  obtain ⟨u, rfl⟩ := List.getLast?_eq_some_iff.1 hlast
  rw [beforeSlash?, List.reverse_append] at h
  cases h

/-- Hiding an icon adds an attribute at the end. -/
theorem quotedAttributes?_hiddenAttributes {attrs : List Char} {as : List Attribute}
    (h : quotedAttributes? attrs = some as) :
    quotedAttributes? (hiddenAttributes attrs) =
      some (as ++ [⟨"aria-hidden".toList, some "true".toList⟩]) := by
  have hchars : ∀ c ∈ "aria-hidden".toList, isNameChar c = true := forall_mem_of_all (by decide)
  have htrim := quotedAttributes?_trimEnd h
  rw [hiddenAttributes]
  split
  · next body hbody =>
    rw [beforeSlash?_eq_some hbody] at htrim
    obtain ⟨hquoted, hbare⟩ := quotedAttributes?_of_slash htrim
    have hend : quotedAttributes? " /".toList = some [] := by decide
    rw [hidingText, quotedAttributes?_concat (quotedAttributes?_trimEnd hquoted)
      (isBare_trimEnd hquoted hbare) (by decide) hchars (by decide), hend]
    rfl
  · next hnone =>
    have hbare := isBare_of_not_slash htrim (getLast?_of_beforeSlash?_eq_none hnone)
    rw [hidingText, quotedAttributes?_concat htrim hbare (by decide) hchars (by decide)]
    rfl

/-- Hiding icons keeps the outline. -/
theorem keeps_hiddenIcons (s : List Char) : Keeps s (hiddenIcons.revise s) := by
  refine keeps_replaceAll consumes_icon? ?_ s
  intro t attrs r h x y
  split
  · have htag := icon?_eq_some h
    obtain rfl := text_of_tag? htag
    have hclose := not_mem_of_tag? htag
    have hchars : ∀ c ∈ "i".toList, isNameChar c = true := forall_mem_of_all (by decide)
    rw [hiddenTag_eq]
    refine keeps_tag_text ("i".toList ++ attrs) _ ?_ ?_ ?_ x y
    · simp [hclose]
    · intro hmem
      rcases List.mem_append.1 hmem with hmem | hmem
      · exact absurd (hchars _ hmem) (by decide)
      · exact (mem_hiddenAttributes hmem).elim hclose (by decide)
    · intro as has
      have hattrs := stopsName_of_tag? htag
      obtain ⟨-, hopen, as', hquoted, rfl⟩ := frame?_tag_eq_some hchars hattrs has
      have hopen' : '<' ∉ hiddenAttributes attrs :=
        fun hmem => (mem_hiddenAttributes hmem).elim hopen (by decide)
      rw [frame?_tag (by decide) hchars (stopsName_hiddenAttributes hattrs), if_neg hopen',
        quotedAttributes?_hiddenAttributes hquoted, Option.map_some, List.filter_append,
        List.filter_cons_of_neg (by decide), List.filter_nil, List.append_nil]
  · exact Keeps.refl _

/-! ### Headings -/

theorem frame?_of_not_startsLetter {body : List Char} (h : startsLetter body = false) :
    frame? body = none := by
  rw [frame?, h, Bool.false_and, if_neg Bool.false_ne_true]

/-- A heading tag as a tag. -/
theorem body_of_mem_headings {s t : List Char} {tag : HeadingTag}
    (h : .found t tag ∈ pieces headingTag? s) :
    (∃ attrs, tag = .opening attrs ∧ '>' ∉ attrs ∧ t = '<' :: ("h1".toList ++ attrs ++ ['>'])) ∨
      tag = .closing ∧ ∃ u, '>' ∉ u ∧ t = '<' :: ("/h1".toList ++ u ++ ['>']) := by
  obtain ⟨r, -, hr⟩ := occurrence_of_mem consumes_headingTag? h
  rw [headingTag?] at hr
  split at hr
  · next attrs rest ht =>
    cases hr
    exact Or.inl ⟨attrs, rfl, not_mem_of_tag? ht, text_of_tag? ht⟩
  · split at hr
    · next u rest ht =>
      cases hr
      exact Or.inr ⟨rfl, u, not_mem_of_tag? ht, text_of_tag? ht⟩
    · cases hr

/-- Demoting a heading tag or not keeps the outline. -/
theorem keeps_step {s t : List Char} {tag : HeadingTag} (h : .found t tag ∈ pieces headingTag? s)
    (d : Demotion) (x y : List Char) : Keeps (x ++ (t ++ y)) (x ++ ((d.step t tag).1 ++ y)) := by
  rcases body_of_mem_headings h with ⟨attrs, rfl, hclose, rfl⟩ | ⟨rfl, u, hclose, rfl⟩
  · rw [Demotion.step]
    split
    · have h₁ : ∀ c ∈ "h1".toList, isNameChar c = true := forall_mem_of_all (by decide)
      have h₂ : ∀ c ∈ "h2".toList, isNameChar c = true := forall_mem_of_all (by decide)
      refine keeps_tag_text ("h1".toList ++ attrs) ("h2".toList ++ attrs) ?_ ?_ ?_ x y
      · simp [hclose]
      · simp [hclose]
      · intro as has
        rwa [frame?_append (by decide) h₁, ← frame?_append (by decide) h₂] at has
    · exact Keeps.refl _
  · rw [Demotion.step]
    split
    · refine keeps_tag_text ("/h1".toList ++ u) "/h2".toList ?_ (by decide) ?_ x y
      · simp [hclose]
      · intro as has
        have hnone : frame? ("/h1".toList ++ u) = none := frame?_of_not_startsLetter (by simp [startsLetter])
        rw [hnone] at has
        cases has
    · exact Keeps.refl _

/-- Keeping one heading of level one keeps the outline. -/
theorem keeps_singleHeading (s : List Char) : Keeps s (singleHeading.revise s) := by
  have key : ∀ (ps : List (Piece HeadingTag)), (∀ y ∈ ps, y ∈ pieces headingTag? s) →
      ∀ d x, Keeps (x ++ ps.flatMap Piece.text) (x ++ demote d ps) := by
    intro ps
    induction ps with
    | nil => exact fun _ d x => Keeps.refl _
    | cons piece ps ih =>
      intro hps d x
      have hrest := ih fun y hy => hps y (List.mem_cons_of_mem _ hy)
      cases piece with
      | plain c =>
        have := hrest d (x ++ [c])
        simpa [demote] using this
      | found t tag =>
        rw [demote, List.flatMap_cons, Piece.text_found]
        have hstep := keeps_step (hps _ List.mem_cons_self) d x (ps.flatMap Piece.text)
        have := hrest (d.step t tag).2 (x ++ (d.step t tag).1)
        rw [List.append_assoc, List.append_assoc] at this
        exact hstep.trans this
  have := key (pieces headingTag? s) (fun _ hy => hy) ⟨false, false⟩ []
  rwa [List.nil_append, flatMap_text_pieces] at this

/-! ### Items -/

/-- An item starts with a tag. -/
theorem exists_tag_of_isItem {t : List Char} (h : IsItem t) :
    ∃ c z, '>' ∉ c ∧ t = '<' :: (c ++ '>' :: z) := by
  obtain ⟨u, rfl⟩ := h
  have hopening : "<div".toList = '<' :: "div".toList := by decide
  have hmem : '>' ∈ "div".toList ++ (u ++ "</div>".toList) := by simp
  obtain ⟨c, z, hclose, hcut⟩ := exists_cut_of_mem hmem
  exact ⟨c, z, hclose, by rw [hopening, List.cons_append, hcut]⟩

/-- Writing an item as a list item keeps the outline. -/
theorem keeps_listItem {t : List Char} (h : IsItem t) (x y : List Char) :
    Keeps (x ++ (t ++ y)) (x ++ (listItem t ++ y)) := by
  obtain ⟨u, rfl⟩ := h
  have hopening : "<div".toList = '<' :: "div".toList := by decide
  have hitem : "<li".toList = '<' :: "li".toList := by decide
  have hclosing : "</div>".toList = '<' :: ("/div".toList ++ ['>']) := by decide
  have hclosed : "</li>".toList = '<' :: ("/li".toList ++ ['>']) := by decide
  -- the closing tag first, so that the text up to it is still the one of the item
  have hlast : Keeps (x ++ ("<div".toList ++ (u ++ "</div>".toList) ++ y))
      (x ++ ("<div".toList ++ (u ++ "</li>".toList) ++ y)) := by
    have hnone : frame? "/div".toList = none := by decide
    have := keeps_tag_text "/div".toList "/li".toList (by decide) (by decide)
      (fun as has => by rw [hnone] at has; cases has) (x ++ ("<div".toList ++ u)) y
    rw [hclosing, hclosed]
    simpa using this
  have hfirst : Keeps (x ++ ("<div".toList ++ (u ++ "</li>".toList) ++ y))
      (x ++ ("<li".toList ++ (u ++ "</li>".toList) ++ y)) := by
    have hdiv : ∀ c ∈ "div".toList, isNameChar c = true := forall_mem_of_all (by decide)
    have hli : ∀ c ∈ "li".toList, isNameChar c = true := forall_mem_of_all (by decide)
    have hmem : '>' ∈ u ++ "</li>".toList := by simp
    obtain ⟨c, z, hclose, hcut⟩ := exists_cut_of_mem hmem
    have hframe : ∀ as, frame? ("div".toList ++ c) = some as →
        frame? ("li".toList ++ c) = some as := by
      intro as has
      rwa [frame?_append (by decide) hdiv, ← frame?_append (by decide) hli] at has
    have := keeps_tag ("div".toList ++ c) ("li".toList ++ c) (by simp [hclose])
      (by simp [hclose]) hframe x (z ++ y)
    rw [hcut, hopening, hitem]
    simpa using this
  rw [listItem, itemBody_of_isItem, List.append_assoc]
  exact hlast.trans hfirst

theorem endsInTag_listItem (b : Bool) (x t : List Char) :
    endsInTag b (x ++ listItem t) = false := by
  have hclosed : "</li>".toList = "</li".toList ++ ['>'] := by decide
  rw [listItem, hclosed, ← List.append_assoc, ← List.append_assoc, endsInTag_concat]

theorem allBlank_iff {s : List Char} : allBlank s = true ↔ ∀ c ∈ s, isBlank c = true :=
  List.all_eq_true

/-- The items behind the first one, behind a text that does not end inside a tag. -/
theorem keeps_others {gs : List Segment} (hgap : ∀ g ∈ gs, allBlank g.gap = true)
    (hitem : ∀ g ∈ gs, IsItem g.item) {x : List Char} (hx : endsInTag false x = false)
    (y : List Char) :
    Keeps (x ++ (gs.flatMap Segment.text ++ y))
      (x ++ ((gs.map Segment.item).flatMap (fun t => "\n    ".toList ++ listItem t) ++
        ("\n</ul>".toList ++ y))) := by
  induction gs generalizing x with
  | nil =>
    have hclosing : "\n</ul>".toList = ['\n'] ++ '<' :: ("/ul".toList ++ ['>']) := by decide
    have := keeps_tag_behind "/ul".toList ['\n'] hx (by decide)
      (forall_mem_of_all (by decide)) y
    rw [hclosing]
    simpa using this
  | cons g gs ih =>
    have hbreak : ∀ c ∈ "\n    ".toList, isBlank c = true := forall_mem_of_all (by decide)
    have hblanks := keeps_blanks hx (allBlank_iff.1 (hgap g List.mem_cons_self)) hbreak
      (g.item ++ (gs.flatMap Segment.text ++ y))
    have hlist := keeps_listItem (hitem g List.mem_cons_self) (x ++ "\n    ".toList)
      (gs.flatMap Segment.text ++ y)
    have hrest := ih (fun g hg => hgap g (List.mem_cons_of_mem _ hg))
      (fun g hg => hitem g (List.mem_cons_of_mem _ hg))
      (endsInTag_listItem false (x ++ "\n    ".toList) g.item)
    simp only [List.append_assoc] at hlist hrest
    have := (hblanks.trans hlist).trans hrest
    simpa [Segment.text] using this

/-- Making a list of a run keeps the outline. -/
theorem keeps_render {r : Run} (hgap : ∀ g ∈ r.others, allBlank g.gap = true)
    (hitems : ∀ t ∈ r.items, IsItem t) (x y : List Char) :
    Keeps (x ++ (r.text ++ y)) (x ++ (r.render ++ y)) := by
  by_cases hothers : r.others = []
  · rw [render_eq_text hothers]
    exact Keeps.refl _
  · have hopening : "<ul>".toList = '<' :: ("ul".toList ++ ['>']) := by decide
    have hbreak : ∀ c ∈ "\n    ".toList, isBlank c = true := forall_mem_of_all (by decide)
    have hfirst : IsItem r.first := hitems r.first List.mem_cons_self
    have hrest : ∀ g ∈ r.others, IsItem g.item := fun g hg =>
      hitems g.item (List.mem_cons_of_mem _ (List.mem_map_of_mem hg))
    obtain ⟨c, z, hclose, hcut⟩ := exists_tag_of_isItem hfirst
    have h₁ : Keeps (x ++ (r.gap ++ (r.first ++ (r.others.flatMap Segment.text ++ y))))
        (x ++ (r.gap ++ ("<ul>".toList ++ ("\n    ".toList ++
          (r.first ++ (r.others.flatMap Segment.text ++ y)))))) := by
      have := keeps_tag_in_front c "ul".toList "\n    ".toList hclose (by decide) hbreak
        (x ++ r.gap) (z ++ (r.others.flatMap Segment.text ++ y))
      rw [hcut, hopening]
      simpa using this
    have h₂ := keeps_listItem hfirst (x ++ (r.gap ++ ("<ul>".toList ++ "\n    ".toList)))
      (r.others.flatMap Segment.text ++ y)
    have h₃ := keeps_others hgap hrest (endsInTag_listItem false
      (x ++ (r.gap ++ ("<ul>".toList ++ "\n    ".toList))) r.first) y
    simp only [List.append_assoc] at h₂ h₃
    rw [render_eq_list hothers, Run.text]
    simp only [List.append_assoc]
    exact (h₁.trans h₂).trans h₃

/-- **Making lists of neighbouring items keeps the outline.** -/
theorem keeps_groupItems (s : List Char) : Keeps s (groupItems s) :=
  groupItems_invariant (Keeps.refl s) fun _ hgap hitems x y h =>
    h.trans (keeps_render hgap hitems x y)

end Markup
end SceneMarkup
