import SceneMarkup.Proofs.Markup.KebabNames
import SceneMarkup.Proofs.Markup.Rerun

/-!
# Class attributes of the revised markup

The rule of class names leaves the places of the class attributes as they are: in its result an
attribute is found exactly where the rule wrote one with a class left in it.  No attribute comes up
between them, although a value that loses all its words is not seen any more.

## Main definitions

* `kebabPiece` — what becomes of a piece of a markup.

## Main results

* `classAttribute?_isSome_iff` — what stands behind a blank where an attribute is read.
* `classAttribute?_cons_revise` — no attribute comes up at a plain character.
* `pieces_kebabClasses` — **the pieces of the revised markup, piece by piece.**
* `mem_classNames_kebabClasses` — the class names of the revised markup.
* `classNames_of_kebabClasses` — **they are those of the markup in kebab case, and the rule is
  done with them.**
-/

namespace SceneMarkup
namespace Markup

open Text

/-! ### Reading an attribute -/

theorem classAttribute?_of_not_isBlank {c : Char} (h : isBlank c = false) (s : List Char) :
    classAttribute? (c :: s) = none := by
  rw [classAttribute?, h, if_neg Bool.false_ne_true]

/-- A value is read behind a quote when a quote follows, and it is not empty when the quote does not
follow at once. -/
theorem exists_value_iff {q : Char} (s : List Char) :
    (∃ a rest, quotedValue? (q :: s) = some (a, rest) ∧ a.value ≠ []) ↔
      isQuote q = true ∧ (∀ d ∈ s.head?, isQuote d = false) ∧ ∃ d ∈ s, isQuote d = true := by
  constructor
  · rintro ⟨a, rest, h, hne⟩
    obtain ⟨hq, hvalue, q', hq', hs⟩ := quotedValue?_eq_some h
    obtain ⟨rfl, rfl⟩ := List.cons.inj hs
    refine ⟨hq, fun d hd => ?_, q', by simp, hq'⟩
    rw [List.head?_append_of_ne_nil _ hne] at hd
    exact hvalue d (List.mem_of_head? hd)
  · rintro ⟨hq, hhead, d, hd, hquote⟩
    rw [quotedValue?, if_pos hq]
    split
    · next hs =>
      have := List.dropWhile_eq_nil_iff.1 hs d hd
      rw [hquote] at this
      cases this
    · next rest hs =>
      refine ⟨_, rest, rfl, ?_⟩
      cases s with
      | nil => cases hd
      | cons c s =>
        have hc : isQuote c = false := hhead c rfl
        simp [hc]

/-- An assignment is read where its name, an equals sign and a value follow, with blanks between
them or not. -/
theorem assignment?_eq_some_iff {name s r : List Char} {a : Assignment} :
    assignment? name s = some (a, r) ↔
      ∃ r₁ r₂, after? name s = some r₁ ∧ trimStart r₁ = '=' :: r₂ ∧
        quotedValue? (trimStart r₂) = some (a, r) := by
  constructor
  · intro h
    rw [assignment?] at h
    split at h
    · next r₁ hr₁ =>
      rw [equalsQuoted?] at h
      split at h
      · next r₂ hr₂ => exact ⟨r₁, r₂, hr₁, hr₂, h⟩
      · cases h
    · cases h
  · rintro ⟨r₁, r₂, hr₁, hr₂, h⟩
    simp only [assignment?, hr₁, equalsQuoted?, hr₂, h]

/-- A class attribute is a blank and an assignment to `class` with something in it. -/
theorem classAttribute?_eq_some_iff {c : Char} {s r : List Char} {a : ClassAttribute} :
    classAttribute? (c :: s) = some (a, r) ↔
      isBlank c = true ∧ ∃ b, assignment? "class".toList s = some (b, r) ∧ b.value ≠ [] ∧
        a = ⟨c, b.value⟩ := by
  cases hc : isBlank c with
  | false => simp [classAttribute?_of_not_isBlank hc]
  | true =>
    rw [classAttribute?, if_pos hc, assignmentWhere?]
    cases assignment? "class".toList s with
    | none => simp
    | some found =>
      obtain ⟨b, rest⟩ := found
      by_cases hne : b.value = []
      · simp [hne]
      · have hok : (!b.value.isEmpty) = true := by simpa using hne
        simp only [hok, if_true, Option.some.injEq, Prod.mk.injEq, true_and]
        constructor
        · rintro ⟨rfl, rfl⟩
          exact ⟨b, ⟨rfl, rfl⟩, hne, rfl⟩
        · rintro ⟨b', ⟨rfl, rfl⟩, -, rfl⟩
          exact ⟨rfl, rfl⟩

/-- A class attribute is read at a blank behind which the word `class`, an equals sign and a quote
follow, with blanks between them or not, and then a quote, but not at once. -/
theorem classAttribute?_isSome_iff (c : Char) (s : List Char) :
    (classAttribute? (c :: s)).isSome = true ↔
      isBlank c = true ∧ ∃ r₁ r₂ q r₃, after? "class".toList s = some r₁ ∧
        trimStart r₁ = '=' :: r₂ ∧ trimStart r₂ = q :: r₃ ∧ isQuote q = true ∧
        (∀ d ∈ r₃.head?, isQuote d = false) ∧ ∃ d ∈ r₃, isQuote d = true := by
  rw [Option.isSome_iff_exists]
  constructor
  · rintro ⟨⟨a, r⟩, h⟩
    obtain ⟨hc, b, hb, hne, -⟩ := classAttribute?_eq_some_iff.1 h
    obtain ⟨r₁, r₂, hr₁, hr₂, hv⟩ := assignment?_eq_some_iff.1 hb
    cases hq : trimStart r₂ with
    | nil =>
      rw [hq] at hv
      cases hv
    | cons q r₃ =>
      rw [hq] at hv
      exact ⟨hc, r₁, r₂, q, r₃, hr₁, hr₂, hq, (exists_value_iff r₃).1 ⟨b, r, hv, hne⟩⟩
  · rintro ⟨hc, r₁, r₂, q, r₃, hr₁, hr₂, hr₃, hvalue⟩
    obtain ⟨b, r, hb, hne⟩ := (exists_value_iff r₃).2 hvalue
    rw [← hr₃] at hb
    exact ⟨_, classAttribute?_eq_some_iff.2
      ⟨hc, b, assignment?_eq_some_iff.2 ⟨r₁, r₂, hr₁, hr₂, hb⟩, hne, rfl⟩⟩

/-- What is read of an attribute as the rule writes it. -/
theorem classAttribute?_written {c : Char} (hc : isBlank c = true) {v : List Char}
    (hv : ∀ d ∈ v, isQuote d = false) (r : List Char) :
    classAttribute? (c :: ("class=".toList ++ '"' :: (v ++ '"' :: r))) =
      if v = [] then none else some (⟨c, v⟩, r) := by
  have hword : after? "class".toList ("class=".toList ++ '"' :: (v ++ '"' :: r)) =
      some ('=' :: '"' :: (v ++ '"' :: r)) := rfl
  have hequals : trimStart ('=' :: '"' :: (v ++ '"' :: r)) = '=' :: '"' :: (v ++ '"' :: r) := rfl
  have hquote : trimStart ('"' :: (v ++ '"' :: r)) = '"' :: (v ++ '"' :: r) := rfl
  have htake : (v ++ '"' :: r).takeWhile (fun d => !isQuote d) = v := by
    rw [List.takeWhile_append_of_pos (by simpa using hv)]
    simp [isQuote]
  have hdrop : (v ++ '"' :: r).dropWhile (fun d => !isQuote d) = '"' :: r := by
    rw [List.dropWhile_append_of_pos (by simpa using hv)]
    simp [isQuote]
  have hvalue : quotedValue? ('"' :: (v ++ '"' :: r)) = some (⟨'"', v⟩, r) := by
    have hq : isQuote '"' = true := by decide
    rw [quotedValue?, if_pos hq, hdrop, htake]
  rw [classAttribute?, if_pos hc]
  simp only [assignmentWhere?, assignment?, hword, equalsQuoted?, hequals, hquote, hvalue]
  cases v with
  | nil => rfl
  | cons d v => rfl

/-! ### Plain characters stay plain -/

theorem revise_cons_of_none {c : Char} {s : List Char} (h : classAttribute? (c :: s) = none) :
    kebabClasses.revise (c :: s) = c :: kebabClasses.revise s :=
  replaceAll_cons_of_none h

theorem revise_append_of_some {t r : List Char} {a : ClassAttribute} (ht : t ≠ [])
    (h : classAttribute? (t ++ r) = some (a, r)) :
    kebabClasses.revise (t ++ r) = kebabAttribute a ++ kebabClasses.revise r :=
  replaceAll_append_of_some ht h

/-- A word without blanks was there before, with the same text behind it. -/
theorem eq_of_revise_eq_append {w s u : List Char} (hw : ∀ c ∈ w, isBlank c = false)
    (h : kebabClasses.revise s = w ++ u) : ∃ r, s = w ++ r ∧ kebabClasses.revise r = u := by
  refine eq_of_replaceAll_eq_append consumes_classAttribute? ?_ hw h
  intro t a r ha _
  rw [kebabAttribute_eq]
  exact ⟨a.lead, rfl, (classAttribute?_eq_some ha).1⟩

/-- So was a character behind blanks, unless an attribute that was rewritten starts there. -/
theorem trimStart_of_revise {s u : List Char} {d : Char} (hd : d ≠ 'c')
    (h : trimStart (kebabClasses.revise s) = d :: u) :
    ∃ r, trimStart s = d :: r ∧ kebabClasses.revise r = u := by
  induction s using text_induction consumes_classAttribute? with
  | nil => cases h
  | plain c s hn ih =>
    rw [revise_cons_of_none hn, trimStart] at h
    cases hc : isBlank c with
    | true =>
      rw [List.dropWhile_cons_of_pos hc] at h
      rw [trimStart, List.dropWhile_cons_of_pos hc]
      exact ih h
    | false =>
      rw [List.dropWhile_cons_of_neg (by simp [hc])] at h
      obtain ⟨rfl, rfl⟩ := List.cons.inj h
      exact ⟨s, List.dropWhile_cons_of_neg (by simp [hc]), rfl⟩
  | found t a r ht ha _ =>
    -- behind its blank the attribute starts with the word `class`
    rw [revise_append_of_some ht ha, kebabAttribute_eq, List.cons_append, trimStart,
      List.dropWhile_cons_of_pos (classAttribute?_eq_some ha).1] at h
    obtain ⟨rfl, -⟩ := List.cons.inj h
    exact absurd rfl hd

theorem exists_quote_of_revise {s : List Char}
    (h : ∃ d ∈ kebabClasses.revise s, isQuote d = true) : ∃ d ∈ s, isQuote d = true := by
  induction s using text_induction consumes_classAttribute? with
  | nil => exact h
  | plain c s hn ih =>
    rw [revise_cons_of_none hn] at h
    obtain ⟨d, hd, hquote⟩ := h
    rcases List.mem_cons.1 hd with rfl | hd
    · exact ⟨d, List.mem_cons_self, hquote⟩
    · obtain ⟨e, he, hquote⟩ := ih ⟨d, hd, hquote⟩
      exact ⟨e, List.mem_cons_of_mem _ he, hquote⟩
  | found t a r ht ha _ =>
    obtain ⟨-, -, quote, t', ⟨hquote, -, w₁, w₂, q, -, -, -, rfl⟩, hs⟩ :=
      classAttribute?_eq_some ha
    exact ⟨quote, by rw [hs]; simp, hquote⟩

theorem head?_of_revise {s : List Char}
    (h : ∀ d ∈ (kebabClasses.revise s).head?, isQuote d = false) :
    ∀ d ∈ s.head?, isQuote d = false := by
  cases s using text_induction consumes_classAttribute? with
  | nil => exact h
  | plain c s hn _ =>
    rw [revise_cons_of_none hn] at h
    exact h
  | found t a r ht ha _ =>
    rw [revise_append_of_some ht ha, kebabAttribute_eq] at h
    obtain ⟨-, -, quote, t', -, hs⟩ := classAttribute?_eq_some ha
    rw [hs]
    exact h

/-- No attribute comes up at a plain character. -/
theorem classAttribute?_cons_revise {c : Char} {s : List Char}
    (h : classAttribute? (c :: s) = none) :
    classAttribute? (c :: kebabClasses.revise s) = none := by
  rw [← Option.not_isSome_iff_eq_none] at h ⊢
  refine fun hsome => h ?_
  rw [classAttribute?_isSome_iff] at hsome ⊢
  obtain ⟨hc, r₁, r₂, q, r₃, h₁, h₂, h₃, hq, hhead, hquote⟩ := hsome
  have hword : ∀ d ∈ "class".toList, isBlank d = false := forall_mem_of_all (by decide)
  have hne : q ≠ 'c' := by
    rintro rfl
    cases hq
  -- what is read in the result is read in the text, step by step
  obtain ⟨s₁, rfl, rfl⟩ := eq_of_revise_eq_append hword (after?_eq_some_iff.1 h₁)
  obtain ⟨s₂, hs₂, rfl⟩ := trimStart_of_revise (by decide) h₂
  obtain ⟨s₃, hs₃, rfl⟩ := trimStart_of_revise hne h₃
  exact ⟨hc, s₁, s₂, q, s₃, after?_append _ _, hs₂, hs₃, hq, head?_of_revise hhead,
    exists_quote_of_revise hquote⟩

/-! ### The pieces of the revised markup -/

/-- What becomes of a piece of a markup: a class attribute keeps its place, unless it loses all its
words. -/
def kebabPiece : Piece ClassAttribute → List (Piece ClassAttribute)
  | .plain c => [.plain c]
  | .found _ a =>
    if kebabWords a.value = [] then (kebabAttribute a).map .plain
    else [.found (kebabAttribute a) ⟨a.lead, joinWith [' '] (kebabWords a.value)⟩]

theorem pieces_append_of_not_isBlank {u : List Char} (h : ∀ c ∈ u, isBlank c = false)
    (r : List Char) :
    pieces classAttribute? (u ++ r) = u.map .plain ++ pieces classAttribute? r := by
  induction u with
  | nil => rfl
  | cons c u ih =>
    rw [List.cons_append,
      pieces_cons_of_none (classAttribute?_of_not_isBlank (h c List.mem_cons_self) _),
      ih fun d hd => h d (List.mem_cons_of_mem _ hd)]
    rfl

theorem joinWith_kebabWords_eq_nil {v : List Char} :
    joinWith [' '] (kebabWords v) = [] ↔ kebabWords v = [] := by
  constructor
  · intro h
    cases hws : kebabWords v with
    | nil => rfl
    | cons w ws =>
      have hw : w ≠ [] := by
        have hmem : w ∈ kebabWords v := by rw [hws]; exact List.mem_cons_self
        simpa [kebabWords] using (List.mem_filter.1 hmem).2
      rw [hws] at h
      cases ws with
      | nil => exact absurd h hw
      | cons w' ws => exact absurd (List.append_eq_nil_iff.1 h).1 hw
  · intro h
    rw [h]
    rfl

theorem pieces_kebabAttribute {t r : List Char} {a : ClassAttribute}
    (h : classAttribute? (t ++ r) = some (a, r)) (r' : List Char) :
    pieces classAttribute? (kebabAttribute a ++ r') =
      kebabPiece (.found t a) ++ pieces classAttribute? r' := by
  obtain ⟨hlead, -, quote, t', ⟨-, hvalue, -⟩, -⟩ := classAttribute?_eq_some h
  have hwritten : kebabAttribute a ++ r' = a.lead ::
      ("class=".toList ++ '"' :: (joinWith [' '] (kebabWords a.value) ++ '"' :: r')) := by
    rw [kebabAttribute_eq]
    simp
  have hread := classAttribute?_written hlead (not_isQuote_of_mem_kebabWords hvalue) r'
  rw [kebabPiece]
  by_cases hnil : kebabWords a.value = []
  · -- nothing is left between the quotes, and no other attribute can start inside the text
    have hplain : ∀ c ∈ "class=".toList ++ ['"', '"'], isBlank c = false :=
      forall_mem_of_all (by decide)
    have htext : kebabAttribute a = a.lead :: ("class=".toList ++ ['"', '"']) := by
      rw [kebabAttribute_eq, hnil]
      rfl
    rw [if_pos (joinWith_kebabWords_eq_nil.2 hnil), ← hwritten, htext, List.cons_append] at hread
    rw [if_pos hnil, htext, List.cons_append, pieces_cons_of_none hread,
      pieces_append_of_not_isBlank hplain]
    rfl
  · rw [if_neg (fun h => hnil (joinWith_kebabWords_eq_nil.1 h)), ← hwritten] at hread
    rw [if_neg hnil, pieces_append_of_some (by simp [kebabAttribute]) hread]
    rfl

/-- **The pieces of the revised markup, piece by piece.** -/
theorem pieces_kebabClasses (s : List Char) :
    pieces classAttribute? (kebabClasses.revise s) =
      (pieces classAttribute? s).flatMap kebabPiece := by
  exact pieces_replaceAll consumes_classAttribute? (fun _ => rfl)
    (fun _ _ => classAttribute?_cons_revise) fun t a r _ ha => pieces_kebabAttribute ha _

/-- An attribute of the revised markup is one of the markup with its words in kebab case. -/
theorem mem_pieces_kebabClasses {s t : List Char} {a : ClassAttribute} :
    .found t a ∈ pieces classAttribute? (kebabClasses.revise s) ↔
      ∃ t' a', .found t' a' ∈ pieces classAttribute? s ∧ kebabWords a'.value ≠ [] ∧
        t = kebabAttribute a' ∧ a = ⟨a'.lead, joinWith [' '] (kebabWords a'.value)⟩ := by
  rw [pieces_kebabClasses, List.mem_flatMap]
  constructor
  · rintro ⟨x, hx, h⟩
    cases x with
    | plain c => simp [kebabPiece] at h
    | found t' a' =>
      rw [kebabPiece] at h
      split at h
      · simp at h
      · next hne =>
        obtain ⟨rfl, rfl⟩ := Piece.found.inj (List.mem_singleton.1 h)
        exact ⟨t', a', hx, hne, rfl, rfl⟩
  · rintro ⟨t', a', hx, hne, rfl, rfl⟩
    exact ⟨_, hx, by rw [kebabPiece, if_neg hne]; exact List.mem_singleton.2 rfl⟩

/-! ### Class names -/

theorem mem_kebabWords {v w : List Char} :
    w ∈ kebabWords v ↔ w ≠ [] ∧ ∃ x ∈ words v, kebab x = w := by
  simp [kebabWords, and_comm]

/-- The words of a value in kebab case are its words. -/
theorem words_joinWith_kebabWords (v : List Char) :
    words (joinWith [' '] (kebabWords v)) = kebabWords v := by
  refine words_joinWith_words fun w hw => ?_
  obtain ⟨hne, x, -, rfl⟩ := mem_kebabWords.1 hw
  exact ⟨hne, not_isBlank_of_mem_kebab⟩

/-- The words of a value in kebab case are spelt once. -/
theorem kebabWords_joinWith_kebabWords (v : List Char) :
    kebabWords (joinWith [' '] (kebabWords v)) = kebabWords v := by
  conv => lhs; rw [kebabWords]
  rw [words_joinWith_kebabWords]
  have hmap : (kebabWords v).map kebab = kebabWords v := by
    conv => rhs; rw [← List.map_id (kebabWords v)]
    refine List.map_congr_left fun w hw => ?_
    obtain ⟨-, x, -, rfl⟩ := mem_kebabWords.1 hw
    exact kebab_kebab x
  rw [hmap, List.filter_eq_self]
  intro w hw
  simpa using (mem_kebabWords.1 hw).1

theorem mem_classNames {s : List Char} {n : String} :
    n ∈ classNames s ↔
      ∃ t a, .found t a ∈ pieces classAttribute? s ∧ ∃ w ∈ words a.value, String.ofList w = n := by
  rw [classNames, mem_sortedSet, List.mem_flatMap]
  simp only [values, List.mem_map, ← mem_occurrences_iff]
  constructor
  · rintro ⟨a, ⟨o, ho, rfl⟩, w, hw, rfl⟩
    exact ⟨o.text, o.value, ⟨o, ho, rfl, rfl⟩, w, hw, rfl⟩
  · rintro ⟨t, a, ⟨o, ho, rfl, rfl⟩, w, hw, rfl⟩
    exact ⟨o.value, ⟨o, ho, rfl⟩, w, hw, rfl⟩

/-- The class names of the revised markup are those of the markup in kebab case. -/
theorem mem_classNames_kebabClasses {s : List Char} {n : String} :
    n ∈ classNames (kebabClasses.revise s) ↔ n ≠ "" ∧ ∃ c ∈ classNames s, kebabName c = n := by
  simp only [mem_classNames, mem_pieces_kebabClasses]
  constructor
  · rintro ⟨_, _, ⟨t, a, hmem, -, rfl, rfl⟩, w, hw, rfl⟩
    rw [words_joinWith_kebabWords] at hw
    obtain ⟨hne, x, hx, rfl⟩ := mem_kebabWords.1 hw
    refine ⟨by simpa using hne, String.ofList x, ⟨t, a, hmem, x, hx, rfl⟩, ?_⟩
    rw [kebabName, String.toList_ofList]
  · rintro ⟨hne, c, ⟨t, a, hmem, x, hx, rfl⟩, rfl⟩
    rw [kebabName, String.toList_ofList] at hne ⊢
    have hw : kebab x ∈ kebabWords a.value := mem_kebabWords.2 ⟨by simpa using hne, x, hx, rfl⟩
    refine ⟨_, _, ⟨t, a, hmem, List.ne_nil_of_mem hw, rfl, rfl⟩, kebab x, ?_, rfl⟩
    rwa [words_joinWith_kebabWords]

/-- The rule of class names is done with its own result. -/
theorem revise_revise_kebabClasses (s : List Char) :
    kebabClasses.revise (kebabClasses.revise s) = kebabClasses.revise s := by
  refine kebabClasses_eq_self ?_
  rw [forall_occurrences_iff (Q := fun t a => kebabAttribute a = t)]
  intro t a hmem
  obtain ⟨t', a', -, -, rfl, rfl⟩ := mem_pieces_kebabClasses.1 hmem
  rw [kebabAttribute, kebabAttribute, kebabWords_joinWith_kebabWords]

/-- **The class names after the rule are those before it in kebab case**, without those of which
nothing is left, sorted and each of them once; **and the rule is done with its own result.** -/
theorem classNames_of_kebabClasses (s : List Char) :
    (classNames (kebabClasses.revise s)).Pairwise (· < ·) ∧
      (∀ n, n ∈ classNames (kebabClasses.revise s) ↔
        n ≠ "" ∧ ∃ c ∈ classNames s, kebabName c = n) ∧
      kebabClasses.revise (kebabClasses.revise s) = kebabClasses.revise s :=
  ⟨pairwise_sortedSet _, fun _ => mem_classNames_kebabClasses, revise_revise_kebabClasses s⟩

end Markup
end SceneMarkup
