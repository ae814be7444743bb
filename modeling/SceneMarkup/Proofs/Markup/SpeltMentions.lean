import SceneMarkup.Proofs.Markup.KeptOutline
import SceneMarkup.Proofs.Markup.Mentions

/-!
# Mentions and the rule of class names

The rule of class names rewrites the quoted class attributes that it sees, and leaves the others to
the rules behind it.  A mention is plain when none of the rules misreads it: its value is not torn,
and if the rule of class names does not see it, the rule of icons has nothing to make of it or its
classes are in kebab case anyway.  Behind the rule of class names, every mention that a later rule
or the list of class names reads is in kebab case.

## Main definitions

* `Mention.classes`, `Mention.isSeen` — what a mention lists, and whether the rule sees it.
* `Mention.IsPlain`, `Mention.IsSpelt` — mentions in front of the rule and behind it.
* `Mention.Shows` — a mention whose classes are of a kind, as far as the list of class names sees.

## Main results

* `exists_mentions_of_classAttribute?` — a class attribute is a mention.
* `isPlain_kebabClasses` — the rule keeps mentions plain.
* `found_of_isSeen` — the mentions that the rule sees are the attributes that it rewrites.
* `isSpelt_kebabClasses` — **behind the rule, plain mentions are spelt in kebab case.**
-/

namespace SceneMarkup
namespace Markup

open Text

namespace Mention

/-- The classes that a mention lists. -/
def classes (m : Mention) : List (List Char) := words m.value.text

/-- Whether the rule of class names sees a mention. -/
def isSeen (m : Mention) : Bool :=
  m.spaced && m.word == "class".toList && match m.value with | .quoted _ => true | _ => false

/-- A mention that the rules do not misread.  Its value is not torn, and when it is an attribute
that the rule of class names does not see, it mentions no icon or is in kebab case anyway. -/
def IsPlain (m : Mention) : Prop :=
  m.value ≠ .torn ∧
    (m.spaced = true → m.isSeen = false → m.classes.any mentionsIcon = true →
      ∀ w ∈ m.classes, kebab w = w)

instance (m : Mention) : Decidable m.IsPlain := inferInstanceAs (Decidable (_ ∧ _))

/-- A mention behind the rule of class names. -/
def IsSpelt (m : Mention) : Prop :=
  m.value ≠ .torn ∧
    (m.spaced = true → m.isSeen = true ∨ m.classes.any mentionsIcon = true →
      ∀ w ∈ m.classes, kebab w = w)

/-- A mention whose classes are of a kind, if it is an attribute that the list of class names sees;
other attributes are not torn. -/
def Shows (P : List Char → Prop) (m : Mention) : Prop :=
  m.spaced = true → m.value ≠ .torn ∧ (m.isSeen = true → ∀ w ∈ m.classes, P w)

theorem isSeen_iff {m : Mention} :
    m.isSeen = true ↔ ∃ v, m = ⟨true, "class".toList, .quoted v⟩ := by
  obtain ⟨spaced, word, value⟩ := m
  cases value <;> simp [isSeen]

theorem isSeen_of_isBare {m : Mention} (h : m.IsBare) : m.isSeen = false := by
  obtain ⟨v, hv⟩ := h
  simp [isSeen, hv]

theorem IsSpelt.shows {m : Mention} (h : m.IsSpelt) : m.Shows fun w => kebab w = w :=
  fun hs => ⟨h.1, fun hseen => h.2 hs (Or.inl hseen)⟩

/-- A value between quotes shows its classes. -/
theorem shows_quoted {P : List Char → Prop} {b : Bool} {k v : List Char}
    (h : b = true → ∀ w ∈ words v, P w) : Mention.Shows P ⟨b, k, .quoted v⟩ :=
  fun hb => ⟨by simp, fun _ => h hb⟩

theorem shows_of_isBare {m : Mention} (h : m.IsBare) (P : List Char → Prop) : m.Shows P := by
  refine fun _ => ⟨?_, fun hseen => ?_⟩
  · obtain ⟨v, hv⟩ := h
    simp [hv]
  · rw [isSeen_of_isBare h] at hseen
    cases hseen

theorem shows_of_not_isBlank {c : Char} (hc : isBlank c = false) {s : List Char} {m : Mention}
    (h : mention? (c :: s) = some m) (P : List Char → Prop) : m.Shows P := by
  obtain ⟨-, _, _, _, -, -, -, rfl⟩ := mention?_cons_eq_some_iff.1 h
  intro hspaced
  have hblank : isBlank c = true := hspaced
  rw [hc] at hblank
  cases hblank

end Mention

/-- A mention behind a character that is no blank shows nothing. -/
theorem shows_mentions_cons {c : Char} (hc : isBlank c = false) {s : List Char}
    {P : List Char → Prop} (h : ∀ m ∈ mentions s, m.Shows P) :
    ∀ m ∈ mentions (c :: s), m.Shows P := by
  intro m hm
  rw [mentions_cons] at hm
  rcases List.mem_append.1 hm with hm | hm
  · exact Mention.shows_of_not_isBlank hc (by simpa using hm) P
  · exact h m hm

/-! ### Class names -/

theorem isUnmade_not_isPlainChar : IsUnmade fun c => !isPlainChar c where
  ascii := by
    intro c h
    simp only [isPlainChar, isQuote, Bool.not_not, Bool.or_eq_true, beq_iff_eq] at h
    rcases h with (((rfl | rfl) | rfl) | rfl) | rfl <;> decide
  toLower := by decide
  hyphen := by decide
  made := by decide

/-- Kebab case keeps a value plain. -/
theorem isPlainChar_of_mem_kebabWords {v : List Char} (h : ∀ c ∈ v, isPlainChar c = true) :
    ∀ c ∈ joinWith [' '] (kebabWords v), isPlainChar c = true := by
  have hle := countP_kebabWords_le isUnmade_not_isPlainChar (by decide) v
  have hzero : v.countP (fun c => !isPlainChar c) = 0 :=
    List.countP_eq_zero.2 fun c hc => by simp [h c hc]
  rw [hzero] at hle
  intro c hc
  have := List.countP_eq_zero.1 (Nat.le_zero.1 hle) c hc
  simpa using this

theorem sameAscii_class : sameAscii "class".toList "class".toList = true := sameAscii_self _

/-- A class attribute is a mention with its value, when that is not torn. -/
theorem exists_mentions_of_classAttribute? {t r : List Char} {a : ClassAttribute}
    (h : classAttribute? (t ++ r) = some (a, r))
    (hclosed : ∀ m ∈ mentions (t ++ r), m.value ≠ .torn) :
    ∃ q w₁ w₂, isQuote q = true ∧ (∀ c ∈ w₁, isBlank c = true) ∧ (∀ c ∈ w₂, isBlank c = true) ∧
      isBlank a.lead = true ∧ (∀ c ∈ a.value, isPlainChar c = true) ∧
      t ++ r = a.lead :: ("class".toList ++ (w₁ ++ '=' :: (w₂ ++ q :: (a.value ++ q :: r)))) ∧
      mentions (t ++ r) = ⟨true, "class".toList, .quoted a.value⟩ :: mentions (q :: r) := by
  obtain ⟨hlead, -, q, t', ⟨hq, hvalue, w₁, w₂, q', hw₁, hw₂, hq', rfl⟩, hs⟩ :=
    classAttribute?_eq_some h
  have hname := not_isNameChar_of_isBlank hlead
  have hblank := not_isBlank_of_isQuote hq
  have htext : t ++ r =
      a.lead :: ("class".toList ++ (w₁ ++ '=' :: (w₂ ++ q :: (a.value ++ q' :: r)))) := by
    rw [hs]
    simp
  have hmention := mention?_of_sameAscii hname sameAscii_class hw₁ hw₂ hblank (a.value ++ q' :: r)
  have hmem : q ∉ a.value := fun hmem => by simpa [hq] using hvalue q hmem
  obtain ⟨rfl, hplain, -⟩ := classValue_of_closed hq hmem hq' r
    (hclosed ⟨isBlank a.lead, "class".toList, classValue (q :: (a.value ++ q' :: r))⟩
      (by rw [htext, mentions_cons_of_some hmention]; exact List.mem_cons_self))
  refine ⟨q', w₁, w₂, hq, hw₁, hw₂, hlead, hplain, htext, ?_⟩
  rw [htext, mentions_quoted hname sameAscii_class hw₁ hw₂ hq hplain, hlead]

theorem isPlain_quoted (v : List Char) : Mention.IsPlain ⟨true, "class".toList, .quoted v⟩ := by
  refine ⟨by simp, fun _ hseen => ?_⟩
  rw [Mention.isSeen_iff.2 ⟨v, rfl⟩] at hseen
  cases hseen

/-- The rule of class names keeps mentions plain. -/
theorem isPlain_kebabClasses (s x : List Char) (h : ∀ m ∈ mentions (x ++ s), m.IsPlain) :
    ∀ m ∈ mentions (x ++ kebabClasses.revise s), m.IsPlain := by
  revert x
  refine replaceAll_induction (R := fun s s' => ∀ x, (∀ m ∈ mentions (x ++ s), m.IsPlain) →
    ∀ m ∈ mentions (x ++ s'), m.IsPlain) consumes_classAttribute? ?_ ?_ ?_ s
  · exact fun x h => h
  · intro c s s' _ ih x h
    have := ih (x ++ [c]) (by simpa using h)
    simpa using this
  · intro t a r r' _ ha ih x h
    have htr : ∀ m ∈ mentions (t ++ r), m.IsPlain :=
      fun m hm => h m (mem_mentions_append_right x hm)
    obtain ⟨q, w₁, w₂, hq, hw₁, hw₂, hlead, hplain, htext, hmentions⟩ :=
      exists_mentions_of_classAttribute? ha fun m hm => (htr m hm).1
    have hwritten : kebabAttribute a ++ r' = a.lead :: ("class".toList ++
        ([] ++ '=' :: ([] ++ '"' :: (joinWith [' '] (kebabWords a.value) ++ '"' :: r')))) := by
      rw [kebabAttribute_eq]
      simp
    obtain ⟨ms, hold, hnew⟩ := exists_mentions_append (alike_assignment hlead (n := "class".toList)
      (by decide) (forall_mem_of_all (by decide)) hw₁ isBlank_of_mem_nil
      (w₂ ++ q :: (a.value ++ q :: r))
      ([] ++ '"' :: (joinWith [' '] (kebabWords a.value) ++ '"' :: r'))) x
    have hquote : isQuote '"' = true := by decide
    rw [hwritten, hnew, mentions_quoted (not_isNameChar_of_isBlank hlead) sameAscii_class
      (by simp) (by simp) hquote (isPlainChar_of_mem_kebabWords hplain), hlead]
    rw [htext, hold, ← htext, hmentions] at h
    intro m hm
    rcases List.mem_append.1 hm with hm | hm
    · exact h m (List.mem_append_left _ hm)
    · rcases List.mem_cons.1 hm with rfl | hm
      · exact isPlain_quoted _
      · refine ih ['"'] (fun m hm => ?_) m hm
        have hm : m ∈ mentions (q :: r) := by rwa [mentions_cons_of_isQuote hq hquote]
        exact h m (List.mem_append_right _ (List.mem_cons_of_mem _ hm))

/-- A mention with a value between quotes that is not empty is read as a class attribute. -/
theorem isSome_classAttribute?_of_mention? {c : Char} {s v : List Char}
    (h : mention? (c :: s) = some ⟨true, "class".toList, .quoted v⟩) (hv : v ≠ []) :
    (classAttribute? (c :: s)).isSome = true := by
  obtain ⟨-, k, w, r, rfl, -, hw, heq⟩ := mention?_cons_eq_some_iff.1 h
  obtain ⟨hc, rfl, hvalue⟩ := Mention.mk.inj heq
  obtain ⟨q, r', hq, hplain, hr⟩ := classValue_eq_quoted_iff.1 hvalue.symm
  refine (classAttribute?_isSome_iff _ _).2 ⟨hc.symm, _, r, q, _, after?_append _ _,
    trimStart_blanks_append hw (by decide) r, hr, hq, fun d hd => ?_, q, by simp, hq⟩
  -- the first character of the value is plain
  rw [List.head?_append_of_ne_nil v hv] at hd
  have hd := hplain d (List.mem_of_head? hd)
  simp only [isPlainChar, Bool.not_eq_true', Bool.or_eq_false_iff] at hd
  exact hd.1.1.1

/-- In a text without torn values every mention that the rule of class names sees is one of its
class attributes, unless it is empty. -/
theorem found_of_isSeen {s : List Char} (h : ∀ m ∈ mentions s, m.value ≠ .torn) {v : List Char}
    (hm : ⟨true, "class".toList, .quoted v⟩ ∈ mentions s) (hv : v ≠ []) :
    ∃ t a, .found t a ∈ pieces classAttribute? s ∧ a.value = v := by
  induction s using text_induction consumes_classAttribute? with
  | nil => cases hm
  | plain c s hn ih =>
    rw [mentions_cons] at h hm
    rw [pieces_cons_of_none hn]
    rcases List.mem_append.1 hm with hm | hm
    · -- an attribute would be read here
      have hm : mention? (c :: s) = some ⟨true, "class".toList, .quoted v⟩ := by simpa using hm
      have hsome := isSome_classAttribute?_of_mention? hm hv
      rw [hn] at hsome
      cases hsome
    · obtain ⟨t, a, hmem, ha⟩ := ih (fun m hm => h m (List.mem_append_right _ hm)) hm
      exact ⟨t, a, List.mem_cons_of_mem _ hmem, ha⟩
  | found t a r ht ha ih =>
    obtain ⟨q, w₁, w₂, hq, -, -, -, -, -, hmentions⟩ := exists_mentions_of_classAttribute? ha h
    rw [hmentions] at h hm
    rw [pieces_append_of_some ht ha]
    rcases List.mem_cons.1 hm with hm | hm
    · obtain ⟨-, -, hvalue⟩ := Mention.mk.inj hm
      exact ⟨t, a, List.mem_cons_self, (ClassValue.quoted.inj hvalue).symm⟩
    · rw [mentions_cons] at h hm
      rcases List.mem_append.1 hm with hm | hm
      · -- a quote is no blank
        have hm : mention? (q :: r) = some ⟨true, "class".toList, .quoted v⟩ := by simpa using hm
        obtain ⟨-, _, _, _, -, -, -, heq⟩ := mention?_cons_eq_some_iff.1 hm
        have hblank := (Mention.mk.inj heq).1
        rw [not_isBlank_of_isQuote hq] at hblank
        cases hblank
      · obtain ⟨t', a', hmem, ha'⟩ :=
          ih (fun m hm => h m (List.mem_cons_of_mem _ (List.mem_append_right _ hm))) hm
        exact ⟨t', a', List.mem_cons_of_mem _ hmem, ha'⟩

/-- Behind the rule of class names, the mentions of a markup with plain mentions only are spelt. -/
theorem isSpelt_kebabClasses {s : List Char} (h : ∀ m ∈ mentions s, m.IsPlain) :
    ∀ m ∈ mentions (kebabClasses.revise s), m.IsSpelt := by
  have hplain := isPlain_kebabClasses s [] h
  intro m hm
  refine ⟨(hplain m hm).1, fun hspaced hor => ?_⟩
  cases hseen : m.isSeen with
  | false => exact (hplain m hm).2 hspaced hseen (hor.resolve_left (by simp [hseen]))
  | true =>
    obtain ⟨v, rfl⟩ := Mention.isSeen_iff.1 hseen
    intro w hw
    have hv : v ≠ [] := by
      rintro rfl
      cases hw
    obtain ⟨t, a, hmem, rfl⟩ := found_of_isSeen (fun m hm => (hplain m hm).1) hm hv
    obtain ⟨-, a', -, -, -, rfl⟩ := mem_pieces_kebabClasses.1 hmem
    have hw : w ∈ words (joinWith [' '] (kebabWords a'.value)) := hw
    rw [words_joinWith_kebabWords] at hw
    obtain ⟨-, y, -, rfl⟩ := mem_kebabWords.1 hw
    exact kebab_kebab y

end Markup
end SceneMarkup
