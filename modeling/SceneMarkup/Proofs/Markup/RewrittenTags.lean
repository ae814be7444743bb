import SceneMarkup.Proofs.Markup.KeptOutline

/-!
# Tags of a rewritten text

A rule that writes other tags in the place of tags changes nothing in front of the first `<`, and
adds no `>` to a text without one.  So it makes no tag where none stood: the tags of the rewritten
text are those that it wrote.

## Main definitions

* `TagsRewritten` — a text with other tags in the place of some.
* `writtenIcon` — an icon with its attribute text written anew.

## Main results

* `TagsRewritten.tag?_cons` — where no tag stood none is written.
* `pieces_writtenIcons` — **icons that are written anew are the icons of the text, one to one.**
-/

namespace SceneMarkup
namespace Markup

open Text

/-! ### Texts with other tags -/

/-- A text, and the text with others in the place of some parts that reach from a `<` to a `>`. -/
inductive TagsRewritten : List Char → List Char → Prop where
  /-- The empty text. -/
  | nil : TagsRewritten [] []
  /-- A character that stays. -/
  | plain (c : Char) {s s' : List Char} (rest : TagsRewritten s s') :
    TagsRewritten (c :: s) (c :: s')
  /-- Tags in the place of tags. -/
  | tag {t t' r r' : List Char} (start : t.head? = some '<') (stop : '>' ∈ t)
    (start' : t'.head? = some '<') (stop' : '>' ∈ t') (rest : TagsRewritten r r') :
    TagsRewritten (t ++ r) (t' ++ r')

namespace TagsRewritten

variable {s s' : List Char}

/-- What stands up to the next `<` was there before. -/
theorem exists_append (h : TagsRewritten s s') {w u : List Char} (hw : '<' ∉ w)
    (hs' : s' = w ++ u) : ∃ r, s = w ++ r ∧ TagsRewritten r u := by
  induction h generalizing w with
  | nil =>
    obtain ⟨rfl, rfl⟩ := List.append_eq_nil_iff.1 hs'.symm
    exact ⟨[], rfl, .nil⟩
  | plain c rest ih =>
    cases w with
    | nil =>
      obtain rfl : c :: _ = u := hs'
      exact ⟨_, rfl, rest.plain c⟩
    | cons d w =>
      obtain ⟨rfl, hrest⟩ := List.cons.inj hs'
      obtain ⟨r, rfl, hr⟩ := ih (List.not_mem_of_not_mem_cons hw) hrest
      exact ⟨r, rfl, hr⟩
  | tag start stop start' stop' rest ih =>
    cases w with
    | nil =>
      obtain rfl : _ ++ _ = u := hs'
      exact ⟨_, rfl, .tag start stop start' stop' rest⟩
    | cons d w =>
      -- the text would start with the `<` of a tag
      obtain ⟨t, rfl⟩ := List.head?_eq_some_iff.1 start'
      obtain ⟨rfl, -⟩ := List.cons.inj hs'
      exact absurd List.mem_cons_self hw

/-- No end of a tag is added where there was none. -/
theorem mem_of_mem (h : TagsRewritten s s') (hmem : '>' ∈ s') : '>' ∈ s := by
  induction h with
  | nil => exact hmem
  | plain c rest ih =>
    rcases List.mem_cons.1 hmem with rfl | hmem
    · exact List.mem_cons_self
    · exact List.mem_cons_of_mem _ (ih hmem)
  | tag start stop start' stop' rest ih => exact List.mem_append_left _ stop

/-- Where a tag with the opening word `<w` stands that was not written one stood before, with the
same character behind the word. -/
theorem exists_tag? (h : TagsRewritten s s') {w : List Char} (hw : '<' ∉ w) {c : Char}
    {attrs r : List Char} (hread : tag? ('<' :: w) (c :: s') = some (attrs, r)) :
    ∃ attrs' r', tag? ('<' :: w) (c :: s) = some (attrs', r') ∧ attrs'.head? = attrs.head? := by
  obtain ⟨hblank, htext⟩ := tag?_eq_some hread
  obtain ⟨rfl, hword⟩ := List.cons.inj htext
  obtain ⟨y, rfl, hy⟩ := h.exists_append hw hword
  cases attrs with
  | nil =>
    obtain ⟨y, rfl, -⟩ := hy.exists_append (w := ['>']) (by decide) rfl
    exact ⟨[], y, tag?_append List.not_mem_nil (Or.inl rfl) y, rfl⟩
  | cons b attrs =>
    have hb : isBlank b = true := hblank.resolve_left (List.cons_ne_nil _ _)
    have hne : ∀ d, isBlank d = false → d ≠ b := by
      rintro d hd rfl
      rw [hb] at hd
      cases hd
    have hopen : '<' ∉ [b] := by simpa using hne '<' (by decide)
    obtain ⟨z, rfl, hz⟩ := hy.exists_append (w := [b]) hopen rfl
    -- the tag ends at the first `>`, which need not be the one where it ended before
    obtain ⟨u, r', hu, rfl⟩ := exists_cut_of_mem (hz.mem_of_mem (by simp))
    have hclose : '>' ∉ b :: u := by simpa [hu] using hne '>' (by decide)
    exact ⟨b :: u, r', tag?_append hclose (Or.inr hb) r', rfl⟩

/-- Where no tag with the opening word `<w` stood none is written. -/
theorem tag?_cons (h : TagsRewritten s s') {w : List Char} (hw : '<' ∉ w) {c : Char}
    (hnone : tag? ('<' :: w) (c :: s) = none) : tag? ('<' :: w) (c :: s') = none := by
  rw [Option.eq_none_iff_forall_ne_some]
  rintro ⟨attrs, r⟩ hread
  obtain ⟨attrs', r', hread', -⟩ := h.exists_tag? hw hread
  rw [hread'] at hnone
  cases hnone

/-- Replacing all occurrences of a form rewrites tags when each occurrence and what replaces it
reach from a `<` to a `>`. -/
theorem replaceAll {α : Type} {p : Recogniser α} {f : List Char → α → List Char}
    (hp : p.Consumes)
    (h : ∀ t a r, p (t ++ r) = some (a, r) →
      (t.head? = some '<' ∧ '>' ∈ t) ∧ (f t a).head? = some '<' ∧ '>' ∈ f t a) (s : List Char) :
    TagsRewritten s (replaceAll p f s) := by
  refine replaceAll_induction hp .nil ?_ ?_ s
  · exact fun c s s' _ rest => rest.plain c
  · intro t a r r' _ ha rest
    obtain ⟨⟨hstart, hstop⟩, hstart', hstop'⟩ := h t a r ha
    exact .tag hstart hstop hstart' hstop' rest

end TagsRewritten

/-! ### Icons -/

theorem iconOpening_eq : "<i".toList = '<' :: "i".toList := by
  decide

/-- The text of an icon with the attribute text `attrs`. -/
def iconText (attrs : List Char) : List Char := "<i".toList ++ (attrs ++ ['>'])

theorem iconText_append (attrs r : List Char) :
    iconText attrs ++ r = "<i".toList ++ (attrs ++ '>' :: r) := by
  simp [iconText]

/-- Whether a text is the attribute text of an icon. -/
structure IsIconAttributes (attrs : List Char) : Prop where
  /-- It starts with a blank. -/
  blank : startsBlank attrs = true
  /-- It ends before the tag does. -/
  close : '>' ∉ attrs

theorem IsIconAttributes.icon?_append {attrs : List Char} (h : IsIconAttributes attrs)
    (r : List Char) : icon? (iconText attrs ++ r) = some (attrs, r) := by
  have hne : attrs.isEmpty = false := by
    cases attrs with
    | nil => cases h.blank
    | cons _ _ => rfl
  rw [iconText_append, icon?, tag?_append h.close (Or.inr h.blank)]
  simp only [hne]
  rfl

theorem isIconAttributes_of_icon? {s attrs r : List Char} (h : icon? s = some (attrs, r)) :
    IsIconAttributes attrs ∧ s = iconText attrs ++ r := by
  obtain ⟨hblank, hs⟩ := tag?_eq_some (icon?_eq_some h)
  refine ⟨⟨hblank.resolve_left ?_, not_mem_of_tag? (icon?_eq_some h)⟩, by rw [iconText_append, hs]⟩
  rintro rfl
  rw [icon?, icon?_eq_some h] at h
  cases h

/-- Where no icon stood none is written. -/
theorem TagsRewritten.icon?_cons {s s' : List Char} (h : TagsRewritten s s') {c : Char}
    (hnone : icon? (c :: s) = none) : icon? (c :: s') = none := by
  have hletter : '<' ∉ "i".toList := by decide
  rw [Option.eq_none_iff_forall_ne_some]
  rintro ⟨attrs, r⟩ hread
  obtain ⟨hattrs, -⟩ := isIconAttributes_of_icon? hread
  obtain ⟨attrs', r', hread', hhead⟩ := h.exists_tag? hletter (icon?_eq_some hread)
  have hne : attrs'.isEmpty = false := by
    cases attrs' with
    | nil =>
      rw [List.head?_nil, eq_comm, List.head?_eq_none_iff] at hhead
      rw [hhead] at hattrs
      cases hattrs.blank
    | cons _ _ => rfl
  rw [icon?, iconOpening_eq, hread'] at hnone
  simp [hne] at hnone

/-- A piece of a text in which icons have the attribute texts that `g` makes of theirs. -/
def writtenIcon (g : List Char → List Char) : Piece (List Char) → Piece (List Char)
  | .plain c => .plain c
  | .found _ attrs => .found (iconText (g attrs)) (g attrs)

variable {f : List Char → List Char → List Char} {g : List Char → List Char}

/-- **Icons that are written anew are the icons of the text, one to one.** -/
theorem pieces_writtenIcons
    (hf : ∀ attrs, IsIconAttributes attrs → f (iconText attrs) attrs = iconText (g attrs))
    (hg : ∀ attrs, IsIconAttributes attrs → IsIconAttributes (g attrs)) (s : List Char) :
    pieces icon? (replaceAll icon? f s) = (pieces icon? s).map (writtenIcon g) := by
  have htags : ∀ s, TagsRewritten s (replaceAll icon? f s) := by
    refine TagsRewritten.replaceAll consumes_icon? fun t attrs r ha => ?_
    obtain ⟨hattrs, htext⟩ := isIconAttributes_of_icon? ha
    obtain rfl := List.append_cancel_right htext
    rw [hf attrs hattrs]
    exact ⟨⟨rfl, by simp [iconText]⟩, rfl, by simp [iconText]⟩
  refine pieces_replaceAll_eq_map consumes_icon? (fun _ => rfl) (fun c r => (htags r).icon?_cons) ?_
  intro t attrs r _ ha
  obtain ⟨hattrs, htext⟩ := isIconAttributes_of_icon? ha
  obtain rfl := List.append_cancel_right htext
  rw [hf attrs hattrs]
  exact ⟨g attrs, rfl, (hg attrs hattrs).icon?_append _⟩

end Markup
end SceneMarkup
