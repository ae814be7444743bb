import SceneMarkup.Proofs.Markup.Rank
import SceneMarkup.Proofs.Markup.Readers

/-!
# Demoted headings

Demoting a heading of level one takes the digit `1` out of its tags.

## Main definitions

* `HeadingTag.isOpening` — whether a heading tag opens a heading.

## Main results

* `demote_eq_text`, `fleeting_demote_lt` — a second opening tag is what makes the difference.
* `singleHeading_eq_self`, `singleHeading_idle_or_lowers` — **either there is at most one heading of
  level one and the text is kept, or the rule lowers the number of fleeting characters.**
-/

namespace SceneMarkup
namespace Markup

open Text

/-- Whether a tag opens a heading. -/
def HeadingTag.isOpening : HeadingTag → Bool
  | .opening _ => true
  | .closing => false

/-- Whether a piece is an opening tag of a heading. -/
def isOpeningPiece : Piece HeadingTag → Bool
  | .plain _ => false
  | .found _ tag => tag.isOpening

/-- The text of a heading tag. -/
def IsHeadingText (t : List Char) : HeadingTag → Prop
  | .opening attrs => t = "<h1".toList ++ (attrs ++ ['>'])
  | .closing => ∃ u, t = "</h1".toList ++ (u ++ ['>'])

theorem isHeadingText_of_mem_pieces {s t : List Char} {tag : HeadingTag}
    (h : .found t tag ∈ pieces headingTag? s) : IsHeadingText t tag := by
  obtain ⟨r, -, hr⟩ := occurrence_of_mem consumes_headingTag? h
  rcases headingTag?_eq_some hr with ⟨attrs, rfl, hs⟩ | ⟨rfl, u, hs⟩
  · exact List.append_cancel_right (hs.trans (by simp))
  · exact ⟨u, List.append_cancel_right (hs.trans (by simp))⟩

/-! ### One step -/

/-- A step keeps a tag or takes a digit out of it. -/
theorem fleeting_step_le {d : Demotion} {t : List Char} {tag : HeadingTag}
    (ht : IsHeadingText t tag) : fleeting (d.step t tag).1 ≤ fleeting t := by
  have h₁ : fleeting "<h1".toList = 1 := by decide
  have h₂ : fleeting "<h2".toList = 0 := by decide
  have h₃ : fleeting "</h1".toList = 1 := by decide
  have h₄ : fleeting "</h2>".toList = 0 := by decide
  cases tag with
  | opening attrs =>
    obtain rfl : t = "<h1".toList ++ (attrs ++ ['>']) := ht
    rw [Demotion.step]
    split
    · dsimp only
      rw [fleeting_append, fleeting_append, h₂, fleeting_append, h₁, fleeting_append]
      omega
    · exact Nat.le_refl _
  | closing =>
    rw [Demotion.step]
    split
    · dsimp only
      rw [h₄]
      exact Nat.zero_le _
    · exact Nat.le_refl _

theorem fleeting_step_opening_lt {d : Demotion} (hd : d.seen = true) {t attrs : List Char}
    (ht : IsHeadingText t (.opening attrs)) :
    fleeting (d.step t (.opening attrs)).1 < fleeting t := by
  have h₁ : fleeting "<h1".toList = 1 := by decide
  have h₂ : fleeting "<h2".toList = 0 := by decide
  obtain rfl : t = "<h1".toList ++ (attrs ++ ['>']) := ht
  rw [Demotion.step, if_pos hd]
  dsimp only
  rw [fleeting_append, fleeting_append, h₂, fleeting_append, h₁, fleeting_append]
  omega

/-! ### All tags -/

variable {d : Demotion} {ps : List (Piece HeadingTag)}

theorem fleeting_demote_le (h : ∀ t tag, .found t tag ∈ ps → IsHeadingText t tag) :
    fleeting (demote d ps) ≤ fleeting (ps.flatMap Piece.text) := by
  induction ps generalizing d with
  | nil => exact Nat.le_refl _
  | cons x ps ih =>
    have hps : ∀ t tag, .found t tag ∈ ps → IsHeadingText t tag :=
      fun t tag hm => h t tag (List.mem_cons_of_mem _ hm)
    cases x with
    | plain c =>
      have := ih (d := d) hps
      rw [demote, List.flatMap_cons, Piece.text_plain, List.singleton_append, fleeting_cons,
        fleeting_cons]
      omega
    | found t tag =>
      have ht := fleeting_step_le (d := d) (h t tag List.mem_cons_self)
      have := ih (d := (d.step t tag).2) hps
      rw [demote, List.flatMap_cons, Piece.text_found, fleeting_append, fleeting_append]
      omega

/-- With at most one opening tag, and none when one has been seen, nothing is demoted. -/
theorem demote_eq_text (hp : d.pending = false)
    (h : ps.countP isOpeningPiece ≤ if d.seen then 0 else 1) :
    demote d ps = ps.flatMap Piece.text := by
  induction ps generalizing d with
  | nil => rfl
  | cons x ps ih =>
    rw [List.countP_cons] at h
    cases x with
    | plain c => rw [demote, ih hp (by simpa [isOpeningPiece] using h), List.flatMap_cons]; rfl
    | found t tag =>
      cases tag with
      | closing =>
        have hstep : d.step t .closing = (t, d) := by rw [Demotion.step, hp]; rfl
        have hcount : isOpeningPiece (.found t .closing) = false := rfl
        rw [hcount] at h
        rw [demote, hstep, ih hp (by simpa using h), List.flatMap_cons, Piece.text_found]
      | opening attrs =>
        have hcount : isOpeningPiece (.found t (.opening attrs)) = true := rfl
        rw [hcount, if_pos rfl] at h
        cases hs : d.seen with
        | true =>
          rw [hs, if_pos rfl] at h
          omega
        | false =>
          rw [hs] at h
          have hstep : d.step t (.opening attrs) = (t, ⟨true, false⟩) := by
            rw [Demotion.step, hs]
            rfl
          have hnone : ps.countP isOpeningPiece = 0 := by simpa using h
          rw [demote, hstep, ih rfl (by rw [hnone]; exact Nat.zero_le _), List.flatMap_cons,
            Piece.text_found]

/-- A second opening tag is demoted. -/
theorem fleeting_demote_lt (hps : ∀ t tag, .found t tag ∈ ps → IsHeadingText t tag)
    (h : (if d.seen then 0 else 1) < ps.countP isOpeningPiece) :
    fleeting (demote d ps) < fleeting (ps.flatMap Piece.text) := by
  induction ps generalizing d with
  | nil => exact absurd h (Nat.not_lt_zero _)
  | cons x ps ih =>
    have hrest : ∀ t tag, .found t tag ∈ ps → IsHeadingText t tag :=
      fun t tag hm => hps t tag (List.mem_cons_of_mem _ hm)
    rw [List.countP_cons] at h
    cases x with
    | plain c =>
      have := ih (d := d) hrest (by simpa [isOpeningPiece] using h)
      rw [demote, List.flatMap_cons, Piece.text_plain, List.singleton_append, fleeting_cons,
        fleeting_cons]
      omega
    | found t tag =>
      have ht := hps t tag List.mem_cons_self
      rw [demote, List.flatMap_cons, Piece.text_found, fleeting_append, fleeting_append]
      cases tag with
      | closing =>
        have hseen : (d.step t .closing).2.seen = d.seen := by
          rw [Demotion.step]
          split <;> rfl
        have hcount : isOpeningPiece (.found t .closing) = false := rfl
        rw [hcount] at h
        have hlt := ih (d := (d.step t .closing).2) hrest (by rw [hseen]; simpa using h)
        have hle := fleeting_step_le (d := d) ht
        omega
      | opening attrs =>
        have hcount : isOpeningPiece (.found t (.opening attrs)) = true := rfl
        rw [hcount, if_pos rfl] at h
        cases hs : d.seen with
        | true =>
          have hlt := fleeting_step_opening_lt hs ht
          have hle := fleeting_demote_le (d := (d.step t (.opening attrs)).2) hrest
          omega
        | false =>
          rw [hs] at h
          have hseen : (d.step t (.opening attrs)).2.seen = true := by
            rw [Demotion.step, hs]
            rfl
          have hlt := ih (d := (d.step t (.opening attrs)).2) hrest (by
            rw [hseen, if_pos rfl]
            simpa using h)
          have hle := fleeting_step_le (d := d) ht
          omega

/-! ### The rule -/

theorem countP_values (s : List Char) :
    (values headingTag? s).countP HeadingTag.isOpening
      = (pieces headingTag? s).countP isOpeningPiece := by
  have key : ∀ n (ps : List (Piece HeadingTag)),
      ((placed n ps).map Occurrence.value).countP HeadingTag.isOpening
        = ps.countP isOpeningPiece := by
    intro n ps
    induction ps generalizing n with
    | nil => rfl
    | cons x ps ih =>
      cases x with
      | plain c => simpa [placed, isOpeningPiece] using ih (n + 1)
      | found t tag =>
        rw [placed, List.map_cons, List.countP_cons, List.countP_cons, ih]
        rfl
  exact key 0 _

/-- A text with at most one heading of level one is kept. -/
theorem singleHeading_eq_self {s : List Char}
    (h : (values headingTag? s).countP HeadingTag.isOpening ≤ 1) :
    singleHeading.revise s = s := by
  rw [countP_values] at h
  have := demote_eq_text (d := ⟨false, false⟩) rfl h
  rwa [flatMap_text_pieces] at this

/-- **Either there is at most one heading of level one, or the rule lowers the number of fleeting
characters.** -/
theorem singleHeading_idle_or_lowers (s : List Char) :
    (values headingTag? s).countP HeadingTag.isOpening ≤ 1 ∨
      fleeting (singleHeading.revise s) < fleeting s := by
  by_cases h : (values headingTag? s).countP HeadingTag.isOpening ≤ 1
  · exact Or.inl h
  · refine Or.inr ?_
    rw [countP_values] at h
    have hlt := fleeting_demote_lt (d := ⟨false, false⟩)
      (fun t tag hm => isHeadingText_of_mem_pieces hm) (Nat.not_le.1 h)
    rwa [flatMap_text_pieces] at hlt

end Markup
end SceneMarkup
