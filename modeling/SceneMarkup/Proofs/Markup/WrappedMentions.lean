import SceneMarkup.Markup.Wrapper
import SceneMarkup.Proofs.Markup.KeptMentions
import SceneMarkup.Proofs.Text.Wordwise

/-!
# Mentions and the wrapper class

The wrapper class goes to the first tag of a markup: to the end of its quoted class attribute, or
into an attribute of its own in front of the others.  The mentions of the markup show what they
showed before, and the wrapper class.  The class names of a markup are among those that its mentions
show.

## Main definitions

* `OpeningTag.WellFormed` — a tag with a name that ends at its first `>`.

## Main results

* `openingTag?_eq_some`, `quotedClass?_eq_some` — what is read of the first tag.
* `words_appendClass` — a value with one more class at its end.
* `shows_ensureWrapper` — **the mentions behind the wrapper rule show one more class.**
* `forall_classNames_of_shows` — **the class names of a markup are shown by its mentions.**
-/

namespace SceneMarkup
namespace Markup

open Text

/-! ### What is read of the first tag -/

theorem isNameChar_of_isAlphanum {c : Char} (h : c.isAlphanum = true) : isNameChar c = true := by
  rcases Bool.or_eq_true_iff.1 h with h | h
  · exact isNameChar_of_isAlpha h
  · have hascii : c.toNat < 0x80 := by
      simp only [Char.isDigit, Bool.and_eq_true, decide_eq_true_eq] at h
      have : c.toNat ≤ 57 := h.2
      omega
    exact forall_ascii (P := fun c => c.isDigit = true → isNameChar c = true) (by decide) hascii h

theorem isNameChar_of_isTagChar {c : Char} (h : isTagChar c = true) : isNameChar c = true := by
  rw [isTagChar, Bool.or_eq_true, beq_iff_eq] at h
  rcases h with h | rfl
  · exact isNameChar_of_isAlphanum h
  · decide

/-- A tag whose name is a letter with tag characters behind it, and that ends at its first `>`. -/
structure OpeningTag.WellFormed (tag : OpeningTag) : Prop where
  name : ∃ c v, tag.name = c :: v ∧ c.isAlpha = true ∧ ∀ d ∈ v, isTagChar d = true
  attrs : '>' ∉ tag.attrs

theorem OpeningTag.WellFormed.isNameChar {tag : OpeningTag} (h : tag.WellFormed) :
    ∀ c ∈ tag.name, Markup.isNameChar c = true := by
  obtain ⟨c, v, hname, hc, hv⟩ := h.name
  rw [hname, List.forall_mem_cons]
  exact ⟨isNameChar_of_isAlpha hc, fun d hd => isNameChar_of_isTagChar (hv d hd)⟩

/-- An opening tag is read as its text. -/
theorem openingTag?_eq_some {s r : List Char} {tag : OpeningTag}
    (h : openingTag? s = some (tag, r)) : s = tag.text ++ r ∧ tag.WellFormed := by
  unfold openingTag? at h
  split at h
  · next c s =>
    split at h
    · next hc =>
      split at h
      · cases h
      · next name r' hcut =>
        split at h
        · next attrs rest hbody =>
          cases h
          obtain ⟨v, w, rfl, hrun, rfl⟩ := eq_cons_of_cutAtBoundary hcut
          have htext := append_of_tagBody? hbody
          refine ⟨?_, ⟨c, v, rfl, hc, fun d hd => ?_⟩, not_mem_of_tagBody? hbody⟩
          · have hs : s = v ++ (w ++ s.dropWhile isTagChar) := by
              rw [← List.append_assoc, ← hrun, List.takeWhile_append_dropWhile]
            rw [OpeningTag.text]
            conv => lhs; rw [hs, ← htext]
            simp
          · refine List.mem_takeWhile_imp (l := s) ?_
            rw [hrun]
            exact List.mem_append_left _ hd
        · cases h
    · cases h
  · cases h

/-- A quoted class attribute of a tag is an assignment behind a blank. -/
theorem quotedClass?_eq_some {s : List Char} {q : QuotedClass} (h : quotedClass? s = some q) :
    ∃ x c t, q.before = x ++ [c] ∧ isBlank c = true ∧
      IsAssignment "class".toList q.assignment t ∧ s = x ++ c :: (t ++ q.after) := by
  induction s generalizing q with
  | nil => cases h
  | cons c s ih =>
    unfold quotedClass? at h
    split at h
    · next a rest ha =>
      cases h
      split at ha
      · next hc =>
        obtain ⟨t, ht, rfl⟩ := assignment?_eq_some ha
        exact ⟨[], c, t, rfl, hc, ht, rfl⟩
      · cases ha
    · split at h
      · next q' hq' =>
        cases h
        obtain ⟨x, d, t, hx, hd, ht, rfl⟩ := ih hq'
        exact ⟨c :: x, d, t, by rw [hx]; rfl, hd, ht, rfl⟩
      · cases h

/-- One more class for a value is behind those that it had. -/
theorem words_appendClass (v name : List Char) :
    words (appendClass v name) = words v ++ words name := by
  unfold appendClass
  split
  · next htrim => rw [← words_trim v, htrim, words_nil, List.nil_append]
  · rw [words_append_blank isBlank_space, words_trim]

/-- A value with one more class at its end has this class and those that it had. -/
theorem mem_words_appendClass {v name w : List Char} (hname : ∀ c ∈ name, isBlank c = false)
    (hw : w ∈ words (appendClass v name)) : w ∈ words v ∨ w = name := by
  rw [words_appendClass, List.mem_append] at hw
  refine hw.imp_right fun hw => ?_
  cases name with
  | nil => cases hw
  | cons c name =>
    rw [words_run (List.cons_ne_nil c name) hname] at hw
    exact List.mem_singleton.1 hw

theorem mem_appendClass {v name : List Char} {c : Char} (hc : c ∈ appendClass v name) :
    c ∈ v ∨ c = ' ' ∨ c ∈ name := by
  unfold appendClass at hc
  split at hc
  · exact Or.inr (Or.inr hc)
  · rw [List.mem_append, List.mem_cons] at hc
    exact hc.imp_left fun hc => (trim_isInfix v).subset hc

theorem isPlainChar_of_mem_appendClass {v name : List Char} (hv : ∀ c ∈ v, isPlainChar c = true)
    (hname : ∀ c ∈ name, isPlainChar c = true) :
    ∀ c ∈ appendClass v name, isPlainChar c = true := by
  intro c hc
  rcases mem_appendClass hc with hc | rfl | hc
  · exact hv c hc
  · decide
  · exact hname c hc

/-! ### The wrapper class -/

section Wrapper

variable {P : List Char → Prop} {name : List Char}

/-- What is shown stays so when one more class may be shown. -/
theorem Mention.Shows.or {m : Mention} (h : m.Shows P) (name : List Char) :
    m.Shows fun w => P w ∨ w = name :=
  fun hs => ⟨(h hs).1, fun hseen w hw => Or.inl ((h hs).2 hseen w hw)⟩

/-- A class at the end of a quoted class attribute shows this class and what was shown. -/
theorem shows_append {tag : OpeningTag} {q : QuotedClass} (hq : quotedClass? tag.text = some q)
    (hplain : ∀ c ∈ name, isPlainChar c = true) (hblank : ∀ c ∈ name, isBlank c = false)
    {x z : List Char} (h : ∀ m ∈ mentions (x ++ (tag.text ++ z)), m.Shows P) :
    ∀ m ∈ mentions (x ++ (q.append name ++ z)), m.Shows fun w => P w ∨ w = name := by
  obtain ⟨y, c, t, hbefore, hc, ⟨hopen, hvalue, w₁, w₂, q', hw₁, hw₂, hq', rfl⟩, htext⟩ :=
    quotedClass?_eq_some hq
  have hcname := not_isNameChar_of_isBlank hc
  have hold : x ++ (tag.text ++ z) = (x ++ y) ++ c :: ("class".toList ++ (w₁ ++ '=' ::
      (w₂ ++ q.assignment.quote :: (q.assignment.value ++ q' :: (q.after ++ z))))) := by
    rw [htext]
    simp
  have hnew : x ++ (q.append name ++ z) = (x ++ y) ++ c :: ("class".toList ++ ([] ++ '=' ::
      ([] ++ q.assignment.quote :: (appendClass q.assignment.value name ++
        q.assignment.quote :: (q.after ++ z))))) := by
    rw [QuotedClass.append, hbefore]
    simp
  obtain ⟨ms, h₁, h₂⟩ := exists_mentions_append (alike_assignment hc (n := "class".toList)
    (by decide) (forall_mem_of_all (by decide)) hw₁ isBlank_of_mem_nil
    (w₂ ++ q.assignment.quote :: (q.assignment.value ++ q' :: (q.after ++ z)))
    ([] ++ q.assignment.quote :: (appendClass q.assignment.value name ++
        q.assignment.quote :: (q.after ++ z)))) (x ++ y)
  -- the attribute is a mention, and it is seen, so its classes were shown
  have hmention := mention?_of_sameAscii hcname sameAscii_class hw₁ hw₂
    (not_isBlank_of_isQuote hopen) (q.assignment.value ++ q' :: (q.after ++ z))
  rw [hold, h₁] at h
  have hfirst := h _ (List.mem_append_right _
    (by rw [mentions_cons_of_some hmention]; exact List.mem_cons_self))
  rw [hc] at hfirst
  have hmem : q.assignment.quote ∉ q.assignment.value :=
    fun hmem => by simpa [hopen] using hvalue _ hmem
  obtain ⟨rfl, hvplain, hread⟩ := classValue_of_closed hopen hmem hq' (q.after ++ z)
    (hfirst rfl).1
  rw [hread] at hfirst
  have hwords : ∀ w ∈ words q.assignment.value, P w :=
    (hfirst rfl).2 (Mention.isSeen_iff.2 ⟨_, rfl⟩)
  rw [hnew, h₂, mentions_quoted hcname sameAscii_class isBlank_of_mem_nil isBlank_of_mem_nil hopen
    (isPlainChar_of_mem_appendClass hvplain hplain)]
  intro m hm
  rcases List.mem_append.1 hm with hm | hm
  · exact (h m (List.mem_append_left _ hm)).or name
  · rcases List.mem_cons.1 hm with rfl | hm
    · exact Mention.shows_quoted fun _ w hw =>
        (mem_words_appendClass hblank hw).imp_left (hwords w)
    · refine (h m (List.mem_append_right _ ?_)).or name
      rw [mentions_quoted hcname sameAscii_class hw₁ hw₂ hopen hvplain]
      exact List.mem_cons_of_mem _ hm

/-- A class attribute in front of the others shows its class and what was shown. -/
theorem shows_newAttribute {tag : OpeningTag} (htag : ∀ c ∈ tag.name, isNameChar c = true)
    (hplain : ∀ c ∈ name, isPlainChar c = true) (hblank : ∀ c ∈ name, isBlank c = false)
    {x z : List Char} (h : ∀ m ∈ mentions (x ++ (tag.text ++ z)), m.Shows P) :
    ∀ m ∈ mentions (x ++ ('<' :: tag.name ++ " class=\"".toList ++ name ++ '"' :: tag.attrs ++
      ['>'] ++ z)), m.Shows fun w => P w ∨ w = name := by
  have hquote : isQuote '"' = true := by decide
  have hold : x ++ (tag.text ++ z) = x ++ '<' :: (tag.name ++ (tag.attrs ++ '>' :: z)) := by
    rw [OpeningTag.text]
    simp
  have hnew : x ++ ('<' :: tag.name ++ " class=\"".toList ++ name ++ '"' :: tag.attrs ++ ['>'] ++
      z) = x ++ '<' :: (tag.name ++ (' ' :: ("class".toList ++ ([] ++ '=' :: ([] ++ '"' ::
        (name ++ '"' :: (tag.attrs ++ '>' :: z))))))) := by
    simp
  rw [hold, mentions_cut (Or.inl rfl), mentions_cons, mentions_append_of_isNameChar htag] at h
  rw [hnew, mentions_cut (Or.inl rfl)]
  have hattrs : ∀ m ∈ mentions (tag.attrs ++ '>' :: z), m.Shows P :=
    fun m hm => h m (List.mem_append_right _ (List.mem_append_right _ hm))
  intro m hm
  rcases List.mem_append.1 hm with hm | hm
  · exact (h m (List.mem_append_left _ hm)).or name
  · refine shows_mentions_cons (by decide) (fun m hm => ?_) m hm
    rw [mentions_append_of_isNameChar htag, mentions_quoted (by decide) sameAscii_class
      isBlank_of_mem_nil isBlank_of_mem_nil hquote hplain] at hm
    rcases List.mem_cons.1 hm with rfl | hm
    · refine Mention.shows_quoted fun _ w hw => ?_
      have hw : w ∈ words (appendClass [] name) := hw
      exact (mem_words_appendClass hblank hw).imp_left (nomatch ·)
    · exact (shows_mentions_cons (by decide) hattrs m hm).or name

/-- One more class for a tag shows this class and what was shown. -/
theorem shows_withClass {tag : OpeningTag} (htag : ∀ c ∈ tag.name, isNameChar c = true)
    (hplain : ∀ c ∈ name, isPlainChar c = true) (hblank : ∀ c ∈ name, isBlank c = false)
    {x z : List Char} (h : ∀ m ∈ mentions (x ++ (tag.text ++ z)), m.Shows P) :
    ∀ m ∈ mentions (x ++ (withClass tag name ++ z)), m.Shows fun w => P w ∨ w = name := by
  rw [withClass]
  split
  · next q hq =>
    split
    · exact fun m hm => (h m hm).or name
    · exact shows_append hq hplain hblank h
  · split
    · exact fun m hm => (h m hm).or name
    · exact shows_newAttribute htag hplain hblank h

/-- A markup with the class of a wrapper shows this class and what it showed. -/
theorem shows_ensureWrapper {s wrapper : List Char}
    (hplain : ∀ c ∈ bareClass wrapper, isPlainChar c = true)
    (hblank : ∀ c ∈ bareClass wrapper, isBlank c = false) (h : ∀ m ∈ mentions s, m.Shows P) :
    ∀ m ∈ mentions (ensureWrapper s wrapper),
      m.Shows fun w => P w ∨ w = bareClass wrapper := by
  have hweak : ∀ m ∈ mentions s, m.Shows fun w => P w ∨ w = bareClass wrapper :=
    fun m hm => (h m hm).or (bareClass wrapper)
  unfold ensureWrapper
  split
  · exact hweak
  · split
    · next before tag after hfirst =>
      obtain ⟨t, rfl, ht⟩ := first?_eq_some hfirst
      obtain ⟨rfl, htag⟩ := openingTag?_eq_some ht
      rw [List.append_assoc]
      exact shows_withClass htag.isNameChar hplain hblank h
    · exact hweak

end Wrapper

/-! ### Class names -/

/-- The class names of a markup are shown by its mentions. -/
theorem forall_classNames_of_shows {P : List Char → Prop} {s : List Char}
    (h : ∀ m ∈ mentions s, m.Shows P) : ∀ n ∈ classNames s, P n.toList := by
  intro n hn
  obtain ⟨t, a, hmem, w, hw, rfl⟩ := mem_classNames.1 hn
  obtain ⟨o, ho, rfl, rfl⟩ := mem_occurrences_iff.2 hmem
  obtain ⟨u, r, hs, -, -, hread⟩ := place_of_mem_occurrences consumes_classAttribute? ho
  obtain ⟨hlead, -, q, t', ⟨hq, hvalue, w₁, w₂, q', hw₁, hw₂, hq', rfl⟩, htext⟩ :=
    classAttribute?_eq_some hread
  have hblank := not_isBlank_of_isQuote hq
  have hmention := mention?_of_sameAscii (not_isNameChar_of_isBlank hlead) sameAscii_class hw₁ hw₂
    hblank (o.value.value ++ q' :: r)
  have hat : o.text ++ r = o.value.lead ::
      ("class".toList ++ (w₁ ++ '=' :: (w₂ ++ q :: (o.value.value ++ q' :: r)))) := by
    rw [htext]
    simp
  have hfirst : ⟨isBlank o.value.lead, "class".toList,
      classValue (q :: (o.value.value ++ q' :: r))⟩ ∈ mentions s := by
    rw [hs, hat]
    refine mem_mentions_append_right u ?_
    rw [mentions_cons_of_some hmention]
    exact List.mem_cons_self
  have hshows := h _ hfirst
  rw [hlead] at hshows
  have hmem : q ∉ o.value.value := fun hmem => by simpa [hq] using hvalue _ hmem
  obtain ⟨-, -, hclosed⟩ := classValue_of_closed hq hmem hq' r (hshows rfl).1
  rw [hclosed] at hshows
  rw [String.toList_ofList]
  exact (hshows rfl).2 (Mention.isSeen_iff.2 ⟨_, rfl⟩) w hw

end Markup
end SceneMarkup
