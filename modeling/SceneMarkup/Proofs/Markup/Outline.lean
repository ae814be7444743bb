import Mathlib.Data.List.Forall2
import Mathlib.Data.List.Induction
import SceneMarkup.Proofs.Markup.QuotedAttributes

/-!
# Outlines of markups

What stays of a markup when the tags are looked at from a distance: the characters outside the tags
that are not blank, and for each opening tag the attributes that no house rule writes.

## Main definitions

* `frame?` — the attributes of an opening tag that are none of the house.
* `anyTag?` — the reader of any tag, from `<` to the next `>`.
* `visible` — a markup without its tags and blanks.
* `outline` — the visible characters and the frames of the tags in a row.
* `Keeps` — a text has the visible characters of another one, and all of its frames.
* `Tagwise` — a text has the characters of another one and its frames, tag by tag.

## Main results

* `frame?_replace` — **writing an attribute of the house anew keeps the frame of a tag.**
* `outline_context` — a tag counts by itself behind a text or is part of a tag that starts there.
* `tagwise_tag` — **a tag with the frame of another one can stand for it in every context.**
* `keeps_tag_in_front`, `keeps_tag_behind` — tags more, in front of a tag and behind a text.
* `keeps_replaceAll` — replacing all occurrences keeps what each replacement keeps in all contexts.
-/

namespace SceneMarkup
namespace Markup

open Text

/-! ### Frames -/

/-- The names of the attributes that the house rules write. -/
def houseNames : List (List Char) :=
  ["class".toList, "href".toList, "type".toList, "aria-hidden".toList]

/-- Whether a name is one of them, the case of ASCII letters disregarded. -/
def isHouseName (name : List Char) : Bool := houseNames.any (sameAscii name)

/-- Whether a text starts with an ASCII letter. -/
def startsLetter : List Char → Bool
  | [] => false
  | c :: _ => c.isAlpha

/-- The attributes of an opening tag that are none of the house, when all its attributes are in
double quotes.  No other tag starts inside such a tag. -/
def frame? (body : List Char) : Option (List Attribute) :=
  if startsLetter body && !body.contains '<' then
    (quotedAttributes? (body.dropWhile isNameChar)).map fun as =>
      as.filter fun a => !isHouseName a.name
  else none

theorem toNat_of_isAlpha {c : Char} (h : c.isAlpha = true) : 65 ≤ c.toNat ∧ c.toNat ≤ 122 := by
  rcases Bool.or_eq_true_iff.1 h with hupper | hlower
  · obtain ⟨hA, hZ⟩ : 65 ≤ c.toNat ∧ c.toNat ≤ 90 := of_decide_eq_true hupper
    omega
  · obtain ⟨ha, hz⟩ := Bool.and_eq_true_iff.1 hlower
    have h₁ : 97 ≤ c.toNat := of_decide_eq_true ha
    have h₂ : c.toNat ≤ 122 := of_decide_eq_true hz
    omega

theorem isNameChar_of_isAlpha {c : Char} (h : c.isAlpha = true) : isNameChar c = true := by
  have hcode := toNat_of_isAlpha h
  have hblank : isBlank c = false := by
    cases hb : isBlank c with
    | false => rfl
    | true =>
      simp only [isBlank, Bool.or_eq_true, Bool.and_eq_true, decide_eq_true_eq, beq_iff_eq] at hb
      omega
  have hne : ∀ d, d.isAlpha = false → c ≠ d := by
    rintro d hd rfl
    rw [h] at hd
    cases hd
  simp [isNameChar, isQuote, hblank, hne]

/-- The frame of a tag does not depend on its name. -/
theorem frame?_append {name : List Char} (hletter : startsLetter name = true)
    (hchars : ∀ c ∈ name, isNameChar c = true) (rest : List Char) :
    frame? (name ++ rest) = if '<' ∈ rest then none else
      (quotedAttributes? (rest.dropWhile isNameChar)).map fun as =>
        as.filter fun a => !isHouseName a.name := by
  have hstart : startsLetter (name ++ rest) = true := by
    cases name with
    | nil => cases hletter
    | cons c name => exact hletter
  have hname : '<' ∉ name := fun hmem => absurd (hchars _ hmem) (by decide)
  have hcontains : (name ++ rest).contains '<' = rest.contains '<' := by
    simp [hname]
  rw [frame?, hstart, hcontains, List.dropWhile_append_of_pos hchars]
  by_cases hmem : '<' ∈ rest
  · simp [hmem]
  · simp [hmem]

theorem startsLetter_of_frame? {body : List Char} (h : frame? body = some as) :
    startsLetter body = true := by
  by_contra hletter
  simp [frame?, hletter] at h

/-- Whether the name of a tag ends in front of a text. -/
def StopsName (attrs : List Char) : Prop := ∀ c ∈ attrs.head?, isNameChar c = false

theorem stopsName_nil : StopsName [] := by
  intro c hc
  cases hc

theorem stopsName_cons {c : Char} (hc : isNameChar c = false) (s : List Char) :
    StopsName (c :: s) := by
  rintro d ⟨⟩
  exact hc

theorem stopsName_dropWhile (body : List Char) : StopsName (body.dropWhile isNameChar) := by
  intro c hc
  have := List.head?_dropWhile_not isNameChar body
  rw [Option.mem_def.1 hc] at this
  simpa using this

theorem cut_of_stopsName {attrs : List Char} (h : StopsName attrs) :
    attrs.takeWhile isNameChar = [] ∧ attrs.dropWhile isNameChar = attrs := by
  cases attrs with
  | nil => exact ⟨rfl, rfl⟩
  | cons c attrs => simp [h c rfl]

/-- The name of a tag ends where an attribute of it stands: some text is in front of the
attribute. -/
theorem stopsName_take_append {attrs : List Char} {o : Occurrence Attribute} (h : StopsName attrs)
    (ho : o ∈ attributes attrs) (z : List Char) : StopsName (attrs.take o.start ++ z) := by
  obtain ⟨u, r, rfl, hlen, htext, hread⟩ := place_of_mem_occurrences consumes_attribute? ho
  rw [← hlen, List.take_left]
  cases u with
  | nil =>
    obtain ⟨c, t, hct⟩ := List.exists_cons_of_ne_nil htext
    rw [hct] at h hread
    rw [List.cons_append, attribute?_cons_eq_none_iff.2 (h c rfl)] at hread
    cases hread
  | cons c u => exact stopsName_cons (h c rfl) _

section Tag

variable {tag attrs : List Char}

theorem frame?_tag (hletter : startsLetter tag = true) (htag : ∀ c ∈ tag, isNameChar c = true)
    (hattrs : StopsName attrs) :
    frame? (tag ++ attrs) = if '<' ∈ attrs then none else
      (quotedAttributes? attrs).map fun as => as.filter fun a => !isHouseName a.name := by
  rw [frame?_append hletter htag, (cut_of_stopsName hattrs).2]

theorem frame?_tag_eq_some (htag : ∀ c ∈ tag, isNameChar c = true) (hattrs : StopsName attrs)
    (h : frame? (tag ++ attrs) = some as) :
    startsLetter tag = true ∧ '<' ∉ attrs ∧ ∃ as', quotedAttributes? attrs = some as' ∧
      (as'.filter fun a => !isHouseName a.name) = as := by
  have hletter : startsLetter tag = true := by
    have hbody := startsLetter_of_frame? h
    cases tag with
    | nil =>
      cases attrs with
      | nil => cases hbody
      | cons c attrs =>
        have hc := hattrs c rfl
        rw [isNameChar_of_isAlpha hbody] at hc
        cases hc
    | cons c tag => exact hbody
  rw [frame?_tag hletter htag hattrs] at h
  split at h
  · cases h
  · next hmem => exact ⟨hletter, hmem, Option.map_eq_some_iff.1 h⟩

/-- **Writing an attribute of the house anew keeps the frame of a tag.** -/
theorem frame?_replace {name v : List Char} {o : Occurrence Attribute}
    (htag : ∀ c ∈ tag, isNameChar c = true) (hattrs : StopsName attrs)
    (h : frame? (tag ++ attrs) = some as) (ho : o ∈ attributes attrs)
    (hold : isHouseName o.value.name = true) (hnew : isHouseName name = true) (hname : name ≠ [])
    (hchars : ∀ c ∈ name, isNameChar c = true) (hv : '"' ∉ v) (hopen : '<' ∉ v) :
    frame? (tag ++ (attrs.take o.start ++ (quotedText name [] [] v ++ attrs.drop o.stop))) =
      some as := by
  obtain ⟨hletter, hmem, as', hquoted, rfl⟩ := frame?_tag_eq_some htag hattrs h
  obtain ⟨as₁, as₂, rfl, hwritten⟩ := quotedAttributes?_replace hquoted ho hname hchars hv
  have hopen' : '<' ∉ attrs.take o.start ++ (quotedText name [] [] v ++ attrs.drop o.stop) := by
    have hname' : '<' ∉ name := fun hmem => absurd (hchars _ hmem) (by decide)
    have htake' : '<' ∉ attrs.take o.start := fun h => hmem (List.mem_of_mem_take h)
    have hdrop' : '<' ∉ attrs.drop o.stop := fun h => hmem (List.mem_of_mem_drop h)
    simp [quotedText, hname', htake', hdrop', hopen]
  rw [frame?_tag hletter htag (stopsName_take_append hattrs ho _), if_neg hopen', hwritten]
  simp [hold, hnew]

end Tag

/-! ### Any tags -/

theorem tagBody?_append {u : List Char} (hu : '>' ∉ u) (r : List Char) :
    tagBody? (u ++ '>' :: r) = some (u, r) := by
  induction u with
  | nil => rfl
  | cons c u ih =>
    rw [List.mem_cons, not_or] at hu
    rw [List.cons_append, tagBody?, if_neg (Ne.symm hu.1), ih hu.2]

/-- A tag is read from its text, whatever follows. -/
theorem tag?_append {opening attrs : List Char} (hclose : '>' ∉ attrs)
    (hblank : attrs = [] ∨ startsBlank attrs = true) (r : List Char) :
    tag? opening (opening ++ (attrs ++ '>' :: r)) = some (attrs, r) := by
  have hok : (attrs.isEmpty || startsBlank attrs) = true := by
    rcases hblank with rfl | hblank
    · rfl
    · rw [hblank, Bool.or_true]
  simp only [tag?, after?_append, tagBody?_append hclose, hok, if_true]

theorem not_mem_of_tagBody? {s u r : List Char} (h : tagBody? s = some (u, r)) : '>' ∉ u := by
  induction s generalizing u r with
  | nil => cases h
  | cons c s ih =>
    rw [tagBody?] at h
    split at h
    · cases h
      exact List.not_mem_nil
    · next hc =>
      split at h
      · next u' r' hu' =>
        cases h
        rw [List.mem_cons, not_or]
        exact ⟨Ne.symm hc, ih hu'⟩
      · cases h

theorem not_mem_of_tagBody?_eq_none {s : List Char} (h : tagBody? s = none) : '>' ∉ s := by
  induction s with
  | nil => exact List.not_mem_nil
  | cons c s ih =>
    rw [tagBody?] at h
    split at h
    · cases h
    · next hc =>
      split at h
      · cases h
      · next hs =>
        rw [List.mem_cons, not_or]
        exact ⟨Ne.symm hc, ih hs⟩

/-- A text with a `>` in it, cut at the first one. -/
theorem exists_cut_of_mem {s : List Char} (h : '>' ∈ s) :
    ∃ c z, '>' ∉ c ∧ s = c ++ '>' :: z := by
  cases hs : tagBody? s with
  | none => exact absurd h (not_mem_of_tagBody?_eq_none hs)
  | some cz => exact ⟨cz.1, cz.2, not_mem_of_tagBody? hs, (append_of_tagBody? hs).symm⟩

/-- Any tag, read as the text between its `<` and the next `>`. -/
def anyTag? : Recogniser (List Char)
  | [] => none
  | c :: s => if c = '<' then tagBody? s else none

theorem anyTag?_append {u : List Char} (hu : '>' ∉ u) (r : List Char) :
    anyTag? ('<' :: (u ++ '>' :: r)) = some (u, r) := by
  rw [anyTag?, if_pos rfl, tagBody?_append hu]

theorem anyTag?_eq_some {s u r : List Char} (h : anyTag? s = some (u, r)) :
    '>' ∉ u ∧ s = '<' :: (u ++ '>' :: r) := by
  cases s with
  | nil => cases h
  | cons c s =>
    rw [anyTag?] at h
    split at h
    · next hc => exact ⟨not_mem_of_tagBody? h, by rw [hc, append_of_tagBody? h]⟩
    · cases h

theorem consumes_anyTag? : anyTag?.Consumes := by
  intro s u r h
  refine ⟨'<' :: (u ++ ['>']), List.cons_ne_nil _ _, ?_⟩
  rw [(anyTag?_eq_some h).2]
  simp

theorem pieces_tag {body : List Char} (h : '>' ∉ body) (z : List Char) :
    pieces anyTag? ('<' :: (body ++ '>' :: z)) =
      .found ('<' :: (body ++ ['>'])) body :: pieces anyTag? z := by
  have hread : anyTag? ('<' :: (body ++ ['>']) ++ z) = some (body, z) := by
    simpa using anyTag?_append h z
  have htext : '<' :: (body ++ '>' :: z) = '<' :: (body ++ ['>']) ++ z := by simp
  rw [htext, pieces_append_of_some (List.cons_ne_nil _ _) hread]

/-- Whether a text ends inside a tag; `b` says whether it starts inside one. -/
def endsInTag : Bool → List Char → Bool
  | b, [] => b
  | b, c :: s => endsInTag (if c = '<' then true else if c = '>' then false else b) s

theorem endsInTag_append (b : Bool) (s t : List Char) :
    endsInTag b (s ++ t) = endsInTag (endsInTag b s) t := by
  induction s generalizing b with
  | nil => rfl
  | cons c s ih => exact ih _

theorem endsInTag_concat (b : Bool) (s : List Char) : endsInTag b (s ++ ['>']) = false := by
  rw [endsInTag_append]
  rfl

theorem endsInTag_of_not_mem {s : List Char} (h : '>' ∉ s) : endsInTag true s = true := by
  induction s with
  | nil => rfl
  | cons c s ih =>
    rw [List.mem_cons, not_or] at h
    rw [endsInTag, if_neg (Ne.symm h.1), ite_self, ih h.2]

/-- A text that does not end inside a tag is read by itself. -/
theorem pieces_append_of_not_endsInTag {x : List Char} (h : endsInTag false x = false)
    (z : List Char) : pieces anyTag? (x ++ z) = pieces anyTag? x ++ pieces anyTag? z := by
  induction x using text_induction consumes_anyTag? with
  | nil => rfl
  | plain c x hn ih =>
    have hc : c ≠ '<' := by
      rintro rfl
      rw [anyTag?, if_pos rfl] at hn
      have := endsInTag_of_not_mem (not_mem_of_tagBody?_eq_none hn)
      rw [endsInTag, if_pos rfl, this] at h
      cases h
    have hread : anyTag? (c :: (x ++ z)) = none := by rw [anyTag?, if_neg hc]
    rw [endsInTag, if_neg hc, ite_self] at h
    rw [List.cons_append, pieces_cons_of_none hread, pieces_cons_of_none hn, ih h, List.cons_append]
  | found t u r ht hu ih =>
    obtain ⟨hmem, hs⟩ := anyTag?_eq_some hu
    obtain rfl : t = '<' :: (u ++ ['>']) := List.append_cancel_right (hs.trans (by simp))
    have hread : anyTag? ('<' :: (u ++ ['>']) ++ (r ++ z)) = some (u, r ++ z) := by
      have := anyTag?_append hmem (r ++ z)
      simpa using this
    have hclosed : endsInTag false ('<' :: (u ++ ['>'])) = false := endsInTag_concat _ ('<' :: u)
    rw [endsInTag_append, hclosed] at h
    rw [pieces_append_of_some ht hu, List.append_assoc, pieces_append_of_some ht hread, ih h,
      List.cons_append]

/-- A text that ends inside a tag ends inside the tag that starts at some `<`. -/
theorem exists_open_of_endsInTag {x : List Char} (h : endsInTag false x = true) :
    ∃ u b, x = u ++ '<' :: b ∧ endsInTag false u = false ∧ '>' ∉ b := by
  induction x using List.reverseRecOn with
  | nil => cases h
  | append_singleton x c ih =>
    rw [endsInTag_append, endsInTag, endsInTag] at h
    cases hx : endsInTag false x with
    | false =>
      rw [hx] at h
      have hc : c = '<' := by
        by_contra hc
        rw [if_neg hc, ite_self] at h
        cases h
      exact ⟨x, [], by rw [hc], hx, List.not_mem_nil⟩
    | true =>
      obtain ⟨u, b, rfl, hu, hb⟩ := ih hx
      have hc : '>' ≠ c := by
        rintro rfl
        cases h
      refine ⟨u, b ++ [c], by simp, hu, ?_⟩
      simpa [hb] using hc

/-! ### Outlines -/

/-- What a markup shows from a distance: a character, or the frame of a tag. -/
inductive Mark where
  /-- A character that is not blank, outside the tags. -/
  | char (c : Char)
  /-- The frame of a tag. -/
  | tag (frame : List Attribute)
  deriving Repr, DecidableEq

/-- The character of a mark. -/
def Mark.char? : Mark → Option Char
  | .char c => some c
  | .tag _ => none

/-- A markup without its tags and without blanks. -/
def visible (s : List Char) : List Char :=
  (replaceAll anyTag? (fun _ _ => []) s).filter fun c => !isBlank c

/-- The mark of a tag, if its attributes are in double quotes. -/
def tagMarks (body : List Char) : List Mark := (frame? body).toList.map .tag

/-- The marks of a piece of a markup. -/
def pieceMarks : Piece (List Char) → List Mark
  | .plain c => if isBlank c then [] else [.char c]
  | .found _ body => tagMarks body

/-- The visible characters and the frames of the tags in a row. -/
def outline (s : List Char) : List Mark := (pieces anyTag? s).flatMap pieceMarks

/-- The characters of an outline are the visible ones. -/
theorem visible_eq (s : List Char) : visible s = (outline s).filterMap Mark.char? := by
  rw [visible, replaceAll, outline]
  induction pieces anyTag? s with
  | nil => rfl
  | cons x ps ih =>
    rw [List.flatMap_cons, List.filter_append, ih, List.flatMap_cons, List.filterMap_append]
    congr 1
    cases x with
    | plain c =>
      rw [pieceMarks]
      cases hc : isBlank c with
      | false => simp [hc, Mark.char?]
      | true => simp [hc]
    | found t body =>
      have : ∀ as : Option (List Attribute), (as.toList.map Mark.tag).filterMap Mark.char? = [] := by
        rintro (_ | as) <;> rfl
      simp [pieceMarks, tagMarks, this]

theorem outline_append {x : List Char} (h : endsInTag false x = false) (z : List Char) :
    outline (x ++ z) = outline x ++ outline z := by
  rw [outline, pieces_append_of_not_endsInTag h, List.flatMap_append]
  rfl

theorem outline_tag {body : List Char} (h : '>' ∉ body) (z : List Char) :
    outline ('<' :: (body ++ '>' :: z)) = tagMarks body ++ outline z := by
  rw [outline, pieces_tag h]
  rfl

theorem outline_blanks {w : List Char} (hw : ∀ c ∈ w, isBlank c = true) (z : List Char) :
    outline (w ++ z) = outline z := by
  induction w with
  | nil => rfl
  | cons c w ih =>
    have hc := hw c List.mem_cons_self
    have hne : c ≠ '<' := by
      rintro rfl
      exact absurd hc (by decide)
    have hread : anyTag? (c :: (w ++ z)) = none := by rw [anyTag?, if_neg hne]
    rw [List.cons_append, outline, pieces_cons_of_none hread, List.flatMap_cons, pieceMarks,
      if_pos hc]
    exact ih fun d hd => hw d (List.mem_cons_of_mem _ hd)

theorem tagMarks_of_mem {body : List Char} (h : '<' ∈ body) : tagMarks body = [] := by
  simp [tagMarks, frame?, h]

/-- A tag counts by itself behind a text, or it is the end of a tag that starts in the text. -/
theorem outline_context (x : List Char) :
    (∀ body z, '>' ∉ body →
      outline (x ++ '<' :: (body ++ '>' :: z)) = outline x ++ (tagMarks body ++ outline z)) ∨
    ∃ ms, ∀ body z, '>' ∉ body → outline (x ++ '<' :: (body ++ '>' :: z)) = ms ++ outline z := by
  cases hx : endsInTag false x with
  | false =>
    refine Or.inl fun body z hbody => ?_
    rw [outline_append hx, outline_tag hbody]
  | true =>
    obtain ⟨u, b, rfl, hu, hb⟩ := exists_open_of_endsInTag hx
    refine Or.inr ⟨outline u, fun body z hbody => ?_⟩
    have htag : u ++ '<' :: b ++ '<' :: (body ++ '>' :: z)
        = u ++ '<' :: ((b ++ '<' :: body) ++ '>' :: z) := by simp
    have hmem : '>' ∉ b ++ '<' :: body := by simp [hb, hbody]
    rw [htag, outline_append hu, outline_tag hmem, tagMarks_of_mem (by simp), List.nil_append]

/-! ### What keeps an outline -/

/-- A text `t` shows the characters of `s`, and all the frames of `s` between them. -/
structure Keeps (s t : List Char) : Prop where
  /-- The visible characters are the same. -/
  visible : visible t = visible s
  /-- The marks of `s` are marks of `t`. -/
  sublist : (outline s).Sublist (outline t)

theorem Keeps.of_eq {s t : List Char} (h : outline s = outline t) : Keeps s t where
  visible := by rw [visible_eq, visible_eq, h]
  sublist := by rw [h]

theorem Keeps.refl (s : List Char) : Keeps s s := .of_eq rfl

theorem Keeps.trans {s t u : List Char} (h₁ : Keeps s t) (h₂ : Keeps t u) : Keeps s u where
  visible := h₂.visible.trans h₁.visible
  sublist := h₁.sublist.trans h₂.sublist

/-- Two outlines that differ in a part which shows the same characters and more frames. -/
theorem Keeps.of_marks {s t : List Char} {a b m n : List Mark}
    (hs : outline s = a ++ (m ++ b)) (ht : outline t = a ++ (n ++ b))
    (hchars : n.filterMap Mark.char? = m.filterMap Mark.char?) (hsub : m.Sublist n) :
    Keeps s t where
  visible := by
    rw [visible_eq, visible_eq, hs, ht]
    simp only [List.filterMap_append, hchars]
  sublist := by
    rw [hs, ht]
    exact (List.Sublist.refl a).append (hsub.append (List.Sublist.refl b))

theorem filterMap_tagMarks (body : List Char) : (tagMarks body).filterMap Mark.char? = [] := by
  rw [tagMarks]
  cases frame? body <;> rfl

/-! ### Tag by tag -/

/-- A tag with the frame of another one, if that has a frame. -/
def FrameKept (body body' : List Char) : Prop := ∀ as, frame? body = some as → frame? body' = some as

/-- The same character, or a tag with the frame of the other. -/
def PieceKept : Piece (List Char) → Piece (List Char) → Prop
  | .plain c, .plain c' => c = c'
  | .found _ body, .found _ body' => FrameKept body body'
  | _, _ => False

theorem PieceKept.refl (x : Piece (List Char)) : PieceKept x x := by
  cases x with
  | plain c => exact rfl
  | found t body => exact fun _ h => h

theorem PieceKept.trans {x y z : Piece (List Char)} (h₁ : PieceKept x y) (h₂ : PieceKept y z) :
    PieceKept x z := by
  cases x with
  | plain c =>
    cases y with
    | plain c' =>
      cases z with
      | plain c'' => exact Eq.trans h₁ h₂
      | found t b => exact h₂.elim
    | found t b => exact h₁.elim
  | found t b =>
    cases y with
    | plain c' => exact h₁.elim
    | found t' b' =>
      cases z with
      | plain c'' => exact h₂.elim
      | found t'' b'' => exact fun as h => h₂ as (h₁ as h)

/-- A text with the characters of another one and with its frames, tag by tag. -/
def Tagwise (s t : List Char) : Prop := List.Forall₂ PieceKept (pieces anyTag? s) (pieces anyTag? t)

theorem Tagwise.refl (s : List Char) : Tagwise s s :=
  List.forall₂_same.2 fun x _ => PieceKept.refl x

theorem Tagwise.trans {s t u : List Char} (h₁ : Tagwise s t) (h₂ : Tagwise t u) : Tagwise s u := by
  rw [Tagwise] at *
  generalize pieces anyTag? s = ps at *
  generalize pieces anyTag? t = qs at *
  generalize pieces anyTag? u = rs at *
  induction h₁ generalizing rs with
  | nil => exact h₂
  | cons hx _ ih =>
    cases h₂ with
    | cons hy h₂ => exact .cons (hx.trans hy) (ih _ h₂)

theorem Tagwise.keeps {s t : List Char} (h : Tagwise s t) : Keeps s t := by
  have key : ∀ {ps qs}, List.Forall₂ PieceKept ps qs →
      (qs.flatMap pieceMarks).filterMap Mark.char? = (ps.flatMap pieceMarks).filterMap Mark.char? ∧
        (ps.flatMap pieceMarks).Sublist (qs.flatMap pieceMarks) := by
    intro ps qs h
    induction h with
    | nil => exact ⟨rfl, List.Sublist.refl _⟩
    | @cons x y ps qs hxy _ ih =>
      simp only [List.flatMap_cons, List.filterMap_append, ih.1]
      cases x with
      | plain c =>
        cases y with
        | plain c' =>
          obtain rfl : c = c' := hxy
          exact ⟨rfl, (List.Sublist.refl _).append ih.2⟩
        | found t b => exact hxy.elim
      | found t b =>
        cases y with
        | plain c' => exact hxy.elim
        | found t' b' =>
          simp only [pieceMarks, filterMap_tagMarks, true_and]
          refine List.Sublist.append ?_ ih.2
          cases hf : frame? b with
          | none => simp [tagMarks, hf]
          | some as => simp [tagMarks, hf, hxy as hf]
  exact ⟨by rw [visible_eq, visible_eq]; exact (key h).1, (key h).2⟩

/-- **A tag with the frame of another one can stand for it in every context.** -/
theorem tagwise_tag (body body' : List Char) (hbody : '>' ∉ body) (hbody' : '>' ∉ body')
    (hframe : FrameKept body body') (x z : List Char) :
    Tagwise (x ++ '<' :: (body ++ '>' :: z)) (x ++ '<' :: (body' ++ '>' :: z)) := by
  have key : ∀ {u b b'}, endsInTag false u = false → '>' ∉ b → '>' ∉ b' → FrameKept b b' →
      Tagwise (u ++ '<' :: (b ++ '>' :: z)) (u ++ '<' :: (b' ++ '>' :: z)) := by
    intro u b b' hu hb hb' hkept
    rw [Tagwise, pieces_append_of_not_endsInTag hu, pieces_append_of_not_endsInTag hu,
      pieces_tag hb, pieces_tag hb']
    exact List.rel_append (Tagwise.refl u) (.cons hkept (Tagwise.refl z))
  cases hx : endsInTag false x with
  | false => exact key hx hbody hbody' hframe
  | true =>
    -- the tag is the end of a tag that starts in `x`, which has no frame
    obtain ⟨u, b, rfl, hu, hb⟩ := exists_open_of_endsInTag hx
    have hnone : frame? (b ++ '<' :: body) = none := by simp [frame?]
    have hkept : FrameKept (b ++ '<' :: body) (b ++ '<' :: body') := by
      intro as h
      rw [hnone] at h
      cases h
    have : Tagwise (u ++ '<' :: ((b ++ '<' :: body) ++ '>' :: z))
        (u ++ '<' :: ((b ++ '<' :: body') ++ '>' :: z)) :=
      key hu (by simp [hb, hbody]) (by simp [hb, hbody']) hkept
    simpa using this

theorem keeps_tag (body body' : List Char) (hbody : '>' ∉ body) (hbody' : '>' ∉ body')
    (hframe : FrameKept body body') (x z : List Char) :
    Keeps (x ++ '<' :: (body ++ '>' :: z)) (x ++ '<' :: (body' ++ '>' :: z)) :=
  (tagwise_tag body body' hbody hbody' hframe x z).keeps

/-- Another tag can be put in front of a tag. -/
theorem keeps_tag_in_front (body body' w : List Char) (hbody : '>' ∉ body) (hbody' : '>' ∉ body')
    (hw : ∀ c ∈ w, isBlank c = true) (x z : List Char) :
    Keeps (x ++ '<' :: (body ++ '>' :: z))
      (x ++ '<' :: (body' ++ '>' :: (w ++ '<' :: (body ++ '>' :: z)))) := by
  have hrest : outline (w ++ '<' :: (body ++ '>' :: z)) = tagMarks body ++ outline z := by
    rw [outline_blanks hw, outline_tag hbody]
  rcases outline_context x with h | ⟨ms, h⟩
  · refine .of_marks (n := tagMarks body' ++ tagMarks body) (h body z hbody) ?_ ?_ ?_
    · rw [h _ _ hbody', hrest, List.append_assoc]
    · rw [List.filterMap_append, filterMap_tagMarks, List.nil_append]
    · exact List.sublist_append_right _ _
  · refine .of_marks (m := []) (n := tagMarks body) (b := outline z) (h body z hbody) ?_ ?_ ?_
    · rw [h _ _ hbody', hrest]
    · exact filterMap_tagMarks body
    · exact List.nil_sublist _

/-- Another tag can be put behind a text that does not end inside a tag. -/
theorem keeps_tag_behind (body w : List Char) {x : List Char} (hx : endsInTag false x = false)
    (hbody : '>' ∉ body) (hw : ∀ c ∈ w, isBlank c = true) (z : List Char) :
    Keeps (x ++ z) (x ++ (w ++ '<' :: (body ++ '>' :: z))) := by
  refine .of_marks (m := []) (n := tagMarks body) (b := outline z) (outline_append hx z) ?_ ?_ ?_
  · rw [outline_append hx, outline_blanks hw, outline_tag hbody]
  · exact filterMap_tagMarks body
  · exact List.nil_sublist _

/-- Blanks outside the tags can be any other blanks. -/
theorem keeps_blanks {w w' x : List Char} (hx : endsInTag false x = false)
    (hw : ∀ c ∈ w, isBlank c = true) (hw' : ∀ c ∈ w', isBlank c = true) (z : List Char) :
    Keeps (x ++ (w ++ z)) (x ++ (w' ++ z)) := by
  refine .of_eq ?_
  rw [outline_append hx, outline_append hx, outline_blanks hw, outline_blanks hw']

section Replace

variable {α : Type} {p : Recogniser α} {f : List Char → α → List Char}

/-- Replacing all occurrences keeps what each replacement keeps in all contexts. -/
theorem keeps_replaceAll (hp : p.Consumes)
    (h : ∀ t a r, p (t ++ r) = some (a, r) → ∀ x y, Keeps (x ++ (t ++ y)) (x ++ (f t a ++ y)))
    (s : List Char) : Keeps s (replaceAll p f s) :=
  replaceAll_invariant hp (Keeps.refl s) fun x t a r _ _ ha hs =>
    hs.trans (h t a r ha x (replaceAll p f r))

end Replace

end Markup
end SceneMarkup
