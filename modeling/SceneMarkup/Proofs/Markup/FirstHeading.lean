import SceneMarkup.Proofs.Markup.RewrittenTags

/-!
# The first heading

What is known while going through the heading tags is told by the tags in front alone: whether one
of them opens a heading, and whether the last one does and is not the first to do so.  So each tag
is demoted or kept by its place among the others.  A demoted tag is no heading tag of level one any
more, and neither is anything in it when it holds no second `<`.

## Main definitions

* `isDemoted` — whether a heading tag is demoted, by the tags in front of it.
* `demotedTexts` — the heading tags of a text as the rule leaves them.
* `fill` — the pieces of a text with other occurrences.
* `openings` — the opening tags of a text.
* `Alternate` — heading tags that open and close in turn.

## Main results

* `singleHeading_eq_fill` — **the rule writes each tag by its place, and keeps what stands between.**
* `openings_singleHeading` — **the only opening tag of a rewritten text is the first of the text.**
* `isDemoted_of_alternate` — of tags that open and close in turn the first two are kept.
* `singleHeading_keeps_first` — all of it together.
-/

namespace SceneMarkup
namespace Markup

open Text

/-! ### The tags in front -/

/-- The text of a heading tag on level two. -/
def HeadingTag.demoted : HeadingTag → List Char
  | .opening attrs => "<h2".toList ++ attrs ++ ['>']
  | .closing => "</h2>".toList

/-- Whether a heading tag is demoted that stands behind the heading tags `front`: an opening tag when
there is one in front of it, a closing tag when it follows an opening tag that is demoted. -/
def isDemoted (front : List HeadingTag) : HeadingTag → Bool
  | .opening _ => front.any HeadingTag.isOpening
  | .closing => front.getLast?.any HeadingTag.isOpening && front.dropLast.any HeadingTag.isOpening

/-- What is known behind the heading tags `front`. -/
def Demotion.behind (front : List HeadingTag) : Demotion :=
  ⟨front.any HeadingTag.isOpening,
    front.getLast?.any HeadingTag.isOpening && front.dropLast.any HeadingTag.isOpening⟩

theorem Demotion.step_behind (front : List HeadingTag) (t : List Char) (tag : HeadingTag) :
    (Demotion.behind front).step t tag =
      (if isDemoted front tag then tag.demoted else t, Demotion.behind (front ++ [tag])) := by
  cases tag with
  | opening attrs =>
    have hbehind : Demotion.behind (front ++ [.opening attrs]) =
        ⟨true, front.any HeadingTag.isOpening⟩ := by
      simp [Demotion.behind, HeadingTag.isOpening]
    rw [hbehind, Demotion.step, isDemoted, Demotion.behind]
    cases front.any HeadingTag.isOpening <;> rfl
  | closing =>
    have hbehind : Demotion.behind (front ++ [.closing]) =
        ⟨front.any HeadingTag.isOpening, false⟩ := by
      simp [Demotion.behind, HeadingTag.isOpening]
    rw [hbehind, Demotion.step, isDemoted, Demotion.behind]
    cases front.getLast?.any HeadingTag.isOpening && front.dropLast.any HeadingTag.isOpening <;> rfl

/-! ### Tags by their place -/

/-- Pieces of a text with the texts `ts` in the place of the occurrences, in order. -/
def fill {α : Type} : List (Piece α) → List (List Char) → List Char
  | [], _ => []
  | .plain c :: ps, ts => c :: fill ps ts
  | .found t _ :: ps, [] => t ++ fill ps []
  | .found _ _ :: ps, t :: ts => t ++ fill ps ts

/-- Filled with its own occurrences a text is as it was. -/
theorem fill_text {α : Type} (p : Recogniser α) (s : List Char) :
    fill (pieces p s) ((occurrences p s).map Occurrence.text) = s := by
  have key : ∀ n (ps : List (Piece α)),
      fill ps ((placed n ps).map Occurrence.text) = ps.flatMap Piece.text := by
    intro n ps
    induction ps generalizing n with
    | nil => rfl
    | cons x ps ih =>
      cases x with
      | plain c => rw [placed, fill, ih, List.flatMap_cons]; rfl
      | found t a => rw [placed, List.map_cons, fill, ih, List.flatMap_cons]; rfl
  rw [occurrences, key, flatMap_text_pieces]

/-- The heading tags of a text as the rule leaves them, each by the tags in front of it. -/
def demotedTexts (s : List Char) : List (List Char) :=
  (occurrences headingTag? s).mapIdx fun i o =>
    if isDemoted ((values headingTag? s).take i) o.value then o.value.demoted else o.text

/-- Pieces demoted behind the heading tags `front`. -/
theorem demote_behind (front : List HeadingTag) (ps : List (Piece HeadingTag)) (n : Nat) :
    demote (Demotion.behind front) ps = fill ps ((placed n ps).mapIdx fun i o =>
      if isDemoted ((front ++ (placed n ps).map Occurrence.value).take (front.length + i)) o.value
      then o.value.demoted else o.text) := by
  induction ps generalizing front n with
  | nil => rfl
  | cons x ps ih =>
    cases x with
    | plain c => rw [demote, placed, fill, ih front (n + 1)]
    | found t tag =>
      have hfront : (front ++ tag :: (placed (n + t.length) ps).map Occurrence.value).take
          front.length = front := List.take_left
      have hnext : ∀ i, (front ++ tag :: (placed (n + t.length) ps).map Occurrence.value).take
          (front.length + (i + 1)) = (front ++ [tag] ++
            (placed (n + t.length) ps).map Occurrence.value).take ((front ++ [tag]).length + i) := by
        intro i
        rw [List.append_assoc, List.singleton_append, List.length_append, List.length_singleton,
          Nat.add_assoc, Nat.add_comm 1]
      rw [demote, Demotion.step_behind, ih (front ++ [tag]) (n + t.length), placed,
        List.mapIdx_cons, fill, List.map_cons, Nat.add_zero, hfront]
      simp only [hnext]

/-- **The rule writes each heading tag by its place, and keeps what stands between them.** -/
theorem singleHeading_eq_fill (s : List Char) :
    singleHeading.revise s = fill (pieces headingTag? s) (demotedTexts s) := by
  have := demote_behind [] (pieces headingTag? s) 0
  simp only [List.nil_append, List.length_nil, Nat.zero_add] at this
  exact this

/-! ### Headings read again -/

theorem headingTag?_of_ne {c : Char} (hc : c ≠ '<') (s : List Char) :
    headingTag? (c :: s) = none := by
  have h₁ : "<h1".toList = '<' :: "h1".toList := by decide
  have h₂ : "</h1".toList = '<' :: "/h1".toList := by decide
  rw [headingTag?, h₁, h₂, tag?, tag?, after?, after?, if_neg hc.symm, if_neg hc.symm]

/-- A text without `<` holds no heading tag. -/
theorem pieces_headingTag?_append {w : List Char} (hw : '<' ∉ w) (z : List Char) :
    pieces headingTag? (w ++ z) = w.map .plain ++ pieces headingTag? z := by
  induction w with
  | nil => rfl
  | cons c w ih =>
    rw [List.mem_cons, not_or] at hw
    rw [List.cons_append, pieces_cons_of_none (headingTag?_of_ne (Ne.symm hw.1) _), ih hw.2,
      List.map_cons, List.cons_append]

/-- A heading tag reads the same in front of any text. -/
theorem headingTag?_append {t r : List Char} {tag : HeadingTag}
    (h : headingTag? (t ++ r) = some (tag, r)) (z : List Char) :
    headingTag? (t ++ z) = some (tag, z) := by
  rw [headingTag?] at h ⊢
  split at h
  · next attrs rest ht =>
    cases h
    obtain rfl := text_of_tag? ht
    have hopening : tag? "<h1".toList ("<h1".toList ++ (attrs ++ '>' :: z)) = some (attrs, z) :=
      tag?_append (not_mem_of_tag? ht) (tag?_eq_some ht).1 z
    rw [List.append_assoc, List.append_assoc, List.singleton_append, hopening]
  · split at h
    · next hnone u rest ht =>
      cases h
      obtain rfl := text_of_tag? ht
      have hclosing : tag? "</h1".toList ("</h1".toList ++ (u ++ '>' :: z)) = some (u, z) :=
        tag?_append (not_mem_of_tag? ht) (tag?_eq_some ht).1 z
      have hopening : tag? "<h1".toList ("</h1".toList ++ (u ++ '>' :: z)) = none := rfl
      rw [List.append_assoc, List.append_assoc, List.singleton_append, hopening, hclosing]
    · cases h

/-- A heading tag, demoted or not, reaches from a `<` to a `>`. -/
theorem isTag_step {t r : List Char} {tag : HeadingTag} (h : headingTag? (t ++ r) = some (tag, r))
    (d : Demotion) : (t.head? = some '<' ∧ '>' ∈ t) ∧
      (d.step t tag).1.head? = some '<' ∧ '>' ∈ (d.step t tag).1 := by
  have htext : t.head? = some '<' ∧ '>' ∈ t := by
    rcases headingTag?_eq_some h with ⟨attrs, -, hs⟩ | ⟨-, u, hs⟩
    · obtain rfl : t = "<h1".toList ++ (attrs ++ ['>']) :=
        List.append_cancel_right (hs.trans (by simp))
      exact ⟨rfl, by simp⟩
    · obtain rfl : t = "</h1".toList ++ (u ++ ['>']) :=
        List.append_cancel_right (hs.trans (by simp))
      exact ⟨rfl, by simp⟩
  refine ⟨htext, ?_⟩
  cases tag with
  | opening attrs =>
    rw [Demotion.step]
    split
    · exact ⟨rfl, by simp⟩
    · exact htext
  | closing =>
    rw [Demotion.step]
    split
    · exact ⟨rfl, (by decide : '>' ∈ "</h2>".toList)⟩
    · exact htext

/-- Demoting rewrites tags. -/
theorem tagsRewritten_demote (s : List Char) (d : Demotion) :
    TagsRewritten s (demote d (pieces headingTag? s)) := by
  induction s using text_induction consumes_headingTag? generalizing d with
  | nil => exact .nil
  | plain c s hn ih =>
    rw [pieces_cons_of_none hn, demote]
    exact (ih d).plain c
  | found t tag r ht ha ih =>
    obtain ⟨⟨hstart, hstop⟩, hstart', hstop'⟩ := isTag_step ha d
    rw [pieces_append_of_some ht ha, demote]
    exact .tag hstart hstop hstart' hstop' (ih _)

/-- Where no heading tag stood none is written. -/
theorem headingTag?_cons_demote {c : Char} {s : List Char} (h : headingTag? (c :: s) = none)
    (d : Demotion) : headingTag? (c :: demote d (pieces headingTag? s)) = none := by
  have h₁ : "<h1".toList = '<' :: "h1".toList := by decide
  have h₂ : "</h1".toList = '<' :: "/h1".toList := by decide
  have htags := tagsRewritten_demote s d
  rw [headingTag?] at h ⊢
  split at h
  · cases h
  · next hopening =>
    split at h
    · cases h
    · next hclosing =>
      rw [h₁] at hopening
      rw [h₂] at hclosing
      rw [h₁, h₂, htags.tag?_cons (by decide) hopening, htags.tag?_cons (by decide) hclosing]

/-! ### Opening tags -/

/-- The texts of the opening tags of headings of level one. -/
def openings (s : List Char) : List (List Char) :=
  ((pieces headingTag? s).filter isOpeningPiece).map Piece.text

theorem openings_plain_append {w : List Char} {ps : List (Piece HeadingTag)} {z : List Char}
    (h : pieces headingTag? (w ++ z) = ps ++ pieces headingTag? z)
    (hps : ∀ x ∈ ps, isOpeningPiece x = false) : openings (w ++ z) = openings z := by
  have hnone : ps.filter isOpeningPiece = [] :=
    List.filter_eq_nil_iff.2 fun x hx => by simp [hps x hx]
  rw [openings, h, List.filter_append, hnone, List.nil_append]
  rfl

theorem openings_cons_of_none {c : Char} {s : List Char} (h : headingTag? (c :: s) = none) :
    openings (c :: s) = openings s := by
  rw [openings, pieces_cons_of_none h, List.filter_cons_of_neg (by simp [isOpeningPiece])]
  rfl

theorem openings_append_of_opening {t r attrs : List Char} (ht : t ≠ [])
    (h : headingTag? (t ++ r) = some (.opening attrs, r)) : openings (t ++ r) = t :: openings r := by
  rw [openings, pieces_append_of_some ht h, List.filter_cons_of_pos rfl]
  rfl

theorem openings_append_of_closing {t r : List Char} (ht : t ≠ [])
    (h : headingTag? (t ++ r) = some (.closing, r)) : openings (t ++ r) = openings r := by
  rw [openings, pieces_append_of_some ht h,
    List.filter_cons_of_neg (by simp [isOpeningPiece, HeadingTag.isOpening])]
  rfl

/-- A demoted tag opens no heading of level one, and nothing in it does when it holds no second
`<`. -/
theorem openings_demoted_append {t r : List Char} {tag : HeadingTag}
    (h : headingTag? (t ++ r) = some (tag, r)) (hlone : t.count '<' ≤ 1) (z : List Char) :
    openings (tag.demoted ++ z) = openings z := by
  have hplain : ∀ {w : List Char}, '<' ∉ w → (∀ z, headingTag? ('<' :: (w ++ z)) = none) →
      openings ('<' :: w ++ z) = openings z := by
    intro w hw hnone
    rw [List.cons_append, openings_cons_of_none (hnone z)]
    exact openings_plain_append (pieces_headingTag?_append hw z) (by simp [isOpeningPiece])
  cases tag with
  | opening attrs =>
    obtain ⟨attrs', htag, hs⟩ | ⟨htag, -⟩ := headingTag?_eq_some h
    · obtain rfl := HeadingTag.opening.inj htag
      obtain rfl : t = "<h1".toList ++ (attrs ++ ['>']) :=
        List.append_cancel_right (hs.trans (by simp))
      have hattrs : '<' ∉ attrs := by
        intro hmem
        have hpos := List.count_pos_iff.2 hmem
        have hcount : ("<h1".toList).count '<' = 1 := by decide
        rw [List.count_append, List.count_append, hcount] at hlone
        omega
      have hw : '<' ∉ "h2".toList ++ (attrs ++ ['>']) := by
        simp [hattrs]
      have htext : HeadingTag.demoted (.opening attrs) = '<' :: ("h2".toList ++ (attrs ++ ['>'])) := by
        simp [HeadingTag.demoted]
      rw [htext]
      exact hplain hw fun z => rfl
    · cases htag
  | closing => exact hplain (w := "/h2>".toList) (by decide) fun z => rfl

/-- **The only opening tag of a rewritten text is the first one of the text**, and none when one has
been seen. -/
theorem openings_demote {s : List Char}
    (h : ∀ t tag, .found t tag ∈ pieces headingTag? s → t.count '<' ≤ 1) (d : Demotion) :
    openings (demote d (pieces headingTag? s)) = (openings s).take (if d.seen then 0 else 1) := by
  induction s using text_induction consumes_headingTag? generalizing d with
  | nil => simp [openings, demote]
  | plain c s hn ih =>
    rw [pieces_cons_of_none hn] at h
    rw [pieces_cons_of_none hn, demote, openings_cons_of_none (headingTag?_cons_demote hn d),
      openings_cons_of_none hn, ih fun t tag hm => h t tag (List.mem_cons_of_mem _ hm)]
  | found t tag r ht ha ih =>
    rw [pieces_append_of_some ht ha] at h
    have hlone := h t tag List.mem_cons_self
    have hrest := ih fun t tag hm => h t tag (List.mem_cons_of_mem _ hm)
    rw [pieces_append_of_some ht ha, demote, Demotion.step.eq_def]
    cases tag with
    | opening attrs =>
      rw [openings_append_of_opening ht ha]
      cases hseen : d.seen with
      | true =>
        have := openings_demoted_append ha hlone (demote ⟨true, true⟩ (pieces headingTag? r))
        rw [HeadingTag.demoted, hrest] at this
        simpa using this
      | false =>
        have := openings_append_of_opening ht
          (headingTag?_append ha (demote ⟨true, false⟩ (pieces headingTag? r)))
        rw [hrest] at this
        simpa using this
    | closing =>
      rw [openings_append_of_closing ht ha]
      cases hpending : d.pending with
      | true =>
        have := openings_demoted_append ha hlone (demote ⟨d.seen, false⟩ (pieces headingTag? r))
        rw [HeadingTag.demoted, hrest] at this
        simpa using this
      | false =>
        have := openings_append_of_closing ht
          (headingTag?_append ha (demote d (pieces headingTag? r)))
        rw [hrest] at this
        simpa using this

theorem openings_singleHeading {s : List Char}
    (h : ∀ o ∈ occurrences headingTag? s, o.text.count '<' ≤ 1) :
    openings (singleHeading.revise s) = (openings s).take 1 := by
  rw [forall_occurrences_iff (Q := fun t _ => t.count '<' ≤ 1)] at h
  exact openings_demote h ⟨false, false⟩

/-- A text with one opening tag at most is kept. -/
theorem singleHeading_of_openings {s : List Char} (h : (openings s).length ≤ 1) :
    singleHeading.revise s = s := by
  refine singleHeading_eq_self ?_
  rw [countP_values, List.countP_eq_length_filter]
  simpa [openings] using h

/-! ### Headings in turn -/

/-- Heading tags that open and close in turn, an opening one first. -/
def Alternate (tags : List HeadingTag) : Prop :=
  ∀ i (h : i < tags.length), tags[i].isOpening = decide (i % 2 = 0)

instance (tags : List HeadingTag) : Decidable (Alternate tags) :=
  inferInstanceAs (Decidable (∀ i (_ : i < tags.length), _ = _))

/-- Of tags that open and close in turn the first two are kept, and all others demoted. -/
theorem isDemoted_of_alternate {tags : List HeadingTag} (h : Alternate tags) {i : Nat}
    (hi : i < tags.length) : isDemoted (tags.take i) tags[i] = decide (2 ≤ i) := by
  -- the first tag is an opening one
  have hany : ∀ n ≤ tags.length, (tags.take n).any HeadingTag.isOpening = decide (0 < n) := by
    intro n hn
    cases n with
    | zero => rfl
    | succ n =>
      have hmem : tags[0] ∈ tags.take (n + 1) := List.mem_take_iff_getElem.2 ⟨0, by omega, rfl⟩
      rw [decide_eq_true (Nat.succ_pos n), List.any_eq_true]
      exact ⟨tags[0], hmem, h 0 (by omega)⟩
  have hparity := h i hi
  cases htag : tags[i] with
  | opening attrs =>
    rw [htag, HeadingTag.isOpening, eq_comm, decide_eq_true_iff] at hparity
    rw [isDemoted, hany i hi.le, decide_eq_decide]
    omega
  | closing =>
    rw [htag, HeadingTag.isOpening, eq_comm, decide_eq_false_iff_not] at hparity
    obtain ⟨k, rfl⟩ : ∃ k, i = k + 1 := ⟨i - 1, by omega⟩
    have hk : k < tags.length := by omega
    have hopening : tags[k].isOpening = true := by
      rw [h k hk, decide_eq_true_iff]
      omega
    rw [isDemoted, List.take_succ_eq_append_getElem hk, List.getLast?_concat, List.dropLast_concat,
      Option.any_some, hopening, Bool.true_and, hany k hk.le, decide_eq_decide]
    omega

theorem demotedTexts_of_alternate {s : List Char} (h : Alternate (values headingTag? s)) :
    demotedTexts s = (occurrences headingTag? s).mapIdx fun i o =>
      if i < 2 then o.text else o.value.demoted := by
  refine List.ext_getElem (by simp [demotedTexts]) fun i h₁ h₂ => ?_
  have hi : i < (values headingTag? s).length := by simpa [demotedTexts, values] using h₁
  have hdemoted := isDemoted_of_alternate h hi
  simp only [values, List.getElem_map] at hdemoted
  simp only [demotedTexts, List.getElem_mapIdx, values, hdemoted, decide_eq_true_eq]
  split
  · rw [if_neg (by omega)]
  · rw [if_pos (by omega)]

/-- **One heading of level one stays.**  In a text whose heading tags hold no second `<`, the opening
tags of the rewritten text are the first one of the text, or none.  The text and the rewritten text
are the same pieces filled with heading tags, where a tag is demoted or kept by its place; of tags
that open and close in turn the first two are kept and all others demoted, with their attributes.  A
second run changes nothing. -/
theorem singleHeading_keeps_first {s : List Char}
    (h : ∀ o ∈ occurrences headingTag? s, o.text.count '<' ≤ 1) :
    openings (singleHeading.revise s) = (openings s).take 1 ∧
      s = fill (pieces headingTag? s) ((occurrences headingTag? s).map Occurrence.text) ∧
      singleHeading.revise s = fill (pieces headingTag? s) (demotedTexts s) ∧
      (Alternate (values headingTag? s) →
        demotedTexts s = (occurrences headingTag? s).mapIdx fun i o =>
          if i < 2 then o.text else o.value.demoted) ∧
      singleHeading.revise (singleHeading.revise s) = singleHeading.revise s := by
  have hopenings := openings_singleHeading h
  have hone : (openings (singleHeading.revise s)).length ≤ 1 := by
    rw [hopenings]
    exact List.length_take_le 1 _
  exact ⟨hopenings, (fill_text headingTag? s).symm, singleHeading_eq_fill s,
    demotedTexts_of_alternate, singleHeading_of_openings hone⟩

/-- Two headings with attributes and a third one that is not closed. -/
theorem singleHeading_keeps_first_of_three :
    let text := "<h1 id=\"a\">A</h1>, <h1 id=\"b\">B</h1 >, <h1>C".toList
    (∀ o ∈ occurrences headingTag? text, o.text.count '<' ≤ 1) ∧
      Alternate (values headingTag? text) ∧
      openings (singleHeading.revise text) = ["<h1 id=\"a\">".toList] ∧
      singleHeading.revise text =
        "<h1 id=\"a\">A</h1>, <h2 id=\"b\">B</h2>, <h2>C".toList := by
  intro text
  have hlone : ∀ o ∈ occurrences headingTag? text, o.text.count '<' ≤ 1 := by decide +kernel
  have hturn : Alternate (values headingTag? text) := by decide +kernel
  obtain ⟨hopenings, -, hfill, hdemoted, -⟩ := singleHeading_keeps_first hlone
  refine ⟨hlone, hturn, ?_, ?_⟩
  · rw [hopenings]
    decide +kernel
  · rw [hfill, hdemoted hturn]
    decide +kernel

end Markup
end SceneMarkup
