import SceneMarkup.Proofs.Text.Runs
import SceneMarkup.Proofs.Text.Search
import SceneMarkup.Proofs.Text.Words

/-!
# Rewriting word by word

A rewriting that keeps the blanks of a text and rewrites what stands between them piece by piece
turns the words of the text into those of the result.  As long as no word is lost, the blanks
between the words are those of the text.

## Main definitions

* `IsWordwise` — a rewriting that keeps blanks and works between them.
* `IsSingleSpaced` — the words stand apart by single spaces.

## Main results

* `IsWordwise.words_eq`, `IsWordwise.words_eq_map` — the words of a rewritten text.
* `IsWordwise.isSingleSpaced_iff` — **a rewritten text is spaced as the text is.**
* `isWordwise_erase` — taking out a word without blanks works between the blanks.
-/

namespace SceneMarkup
namespace Text

/-! ### Rewriting -/

/-- A rewriting that keeps the blanks of a text and rewrites each part between them by itself. -/
structure IsWordwise (f : List Char → List Char) : Prop where
  /-- Nothing comes of nothing. -/
  nil : f [] = []
  /-- What stands on the two sides of a blank is rewritten by itself. -/
  append_cons : ∀ u b e, isBlank b = true → f (u ++ b :: e) = f u ++ b :: f e

/-- A rewriting that keeps the words of a text apart and loses none of them. -/
def KeepsWords (f : List Char → List Char) (s : List Char) : Prop :=
  ∀ t ∈ words s, f t ≠ [] ∧ ∀ c ∈ f t, isBlank c = false

section Wordwise

variable {f : List Char → List Char} (hf : IsWordwise f)

include hf

/-- The words of a rewritten text are those of the rewritten words. -/
theorem IsWordwise.words_eq (s : List Char) :
    words (f s) = (words s).flatMap fun t => words (f t) := by
  have hrun : ∀ u, (∀ c ∈ u, isBlank c = false) →
      words (f u) = (words u).flatMap fun t => words (f t) := by
    intro u hu
    by_cases hnil : u = []
    · subst hnil
      rw [hf.nil]
      rfl
    · rw [words_run hnil hu, List.flatMap_singleton]
  induction s using run_induction isBlank with
  | run u hu => exact hrun u hu
  | cut u b e hu hb ih =>
    rw [hf.append_cons u b e hb, words_append_blank hb, words_append_blank hb,
      List.flatMap_append, hrun u hu, ih]

theorem IsWordwise.words_eq_map {s : List Char} (h : KeepsWords f s) :
    words (f s) = (words s).map f := by
  rw [hf.words_eq, List.map_eq_flatMap]
  refine List.flatMap_congr fun t ht => ?_
  exact words_run (h t ht).1 (h t ht).2

end Wordwise

/-! ### Single spaces -/

/-- A text whose words stand apart by single spaces, whatever blanks are around it. -/
def IsSingleSpaced (s : List Char) : Prop := trim s = joinWith [' '] (words s)

instance (s : List Char) : Decidable (IsSingleSpaced s) :=
  inferInstanceAs (Decidable (trim s = joinWith [' '] (words s)))

theorem trim_cons_of_isBlank {b : Char} (hb : isBlank b = true) (s : List Char) :
    trim (b :: s) = trim s := by
  rw [trim, trimStart, List.dropWhile_cons_of_pos hb, ← trimStart, ← trim]

theorem trimStart_of_head? {s : List Char} (h : ∀ c ∈ s.head?, isBlank c = false) :
    trimStart s = s := by
  cases s with
  | nil => rfl
  | cons c s => exact List.dropWhile_cons_of_neg (by simp [h c rfl])

theorem trimEnd_append_of_ne_nil {y : List Char} (hy : trimEnd y ≠ []) (x : List Char) :
    trimEnd (x ++ y) = x ++ trimEnd y := by
  have hne : y.reverse.dropWhile isBlank ≠ [] := by
    intro h
    exact hy (by rw [trimEnd, h]; rfl)
  rw [trimEnd, List.reverse_append, List.dropWhile_append]
  cases hd : y.reverse.dropWhile isBlank with
  | nil => exact absurd hd hne
  | cons c z =>
    rw [trimEnd, hd]
    simp

theorem trimEnd_append_blanks {w : List Char} (hw : ∀ c ∈ w, isBlank c = true) (x : List Char) :
    trimEnd (x ++ w) = trimEnd x := by
  rw [trimEnd, List.reverse_append, List.dropWhile_append_of_pos fun c hc =>
    hw c (List.mem_reverse.1 hc), ← trimEnd]

theorem head?_trim (s : List Char) : ∀ c ∈ (trim s).head?, isBlank c = false := by
  intro c hc
  obtain ⟨z, hz⟩ := List.head?_eq_some_iff.1 hc
  obtain ⟨w, -, hs⟩ := exists_trimEnd_append_blanks (trimStart s)
  rw [← trim, hz, List.cons_append, trimStart] at hs
  exact eq_false_of_dropWhile hs

theorem getLast?_trim (s : List Char) : ∀ c ∈ (trim s).getLast?, isBlank c = false := by
  intro c hc
  rw [trim, trimEnd, List.getLast?_reverse] at hc
  obtain ⟨z, hz⟩ := List.head?_eq_some_iff.1 hc
  exact eq_false_of_dropWhile hz

theorem trimEnd_trimEnd (s : List Char) : trimEnd (trimEnd s) = trimEnd s := by
  rw [trimEnd, trimEnd, List.reverse_reverse, List.dropWhile_idempotent isBlank]

theorem trim_trim (s : List Char) : trim (trim s) = trim s := by
  rw [trim, trimStart_of_head? (head?_trim s), trim, trimEnd_trimEnd]

theorem trimEnd_append_of_stops {y : List Char} (hy : ∀ c ∈ y.getLast?, isBlank c = false)
    (x : List Char) : trimEnd (y ++ x) = y ++ trimEnd x := by
  rw [← List.head?_reverse] at hy
  rw [trimEnd, List.reverse_append, (takeWhile_append_of_stops hy).2, List.reverse_append,
    List.reverse_reverse, trimEnd]

/-- Blanks are trimmed on both sides of a part of a text that starts and ends with none. -/
theorem trim_append_append {y : List Char} (hne : y ≠ [])
    (hhead : ∀ c ∈ y.head?, isBlank c = false) (hlast : ∀ c ∈ y.getLast?, isBlank c = false)
    (x z : List Char) : trim (x ++ (y ++ z)) = trimStart x ++ (y ++ trimEnd z) := by
  have hstart : trimStart (x ++ (y ++ z)) = trimStart x ++ (y ++ z) := by
    refine (takeWhile_append_of_stops ?_).2
    rwa [List.head?_append_of_ne_nil y hne]
  have hend : ∀ c ∈ (trimStart x ++ y).getLast?, isBlank c = false := by
    rwa [List.getLast?_append_of_ne_nil _ hne]
  rw [trim, hstart, ← List.append_assoc, trimEnd_append_of_stops hend, List.append_assoc]

theorem trim_isInfix (s : List Char) : trim s <:+: s := by
  obtain ⟨w, -, hs⟩ := exists_blanks_append_trimStart s
  obtain ⟨w', -, hs'⟩ := exists_trimEnd_append_blanks (trimStart s)
  exact ⟨w, w', by rw [List.append_assoc, trim, ← hs', ← hs]⟩

/-- A text without words is blank. -/
theorem isBlank_of_words_eq_nil {s : List Char} (h : words s = []) : ∀ c ∈ s, isBlank c = true := by
  have := flatten_words s
  rw [h, List.flatten_nil, eq_comm, List.filter_eq_nil_iff] at this
  intro c hc
  simpa using this c hc

section Run

variable {u : List Char} (hu : ∀ c ∈ u, isBlank c = false)

include hu

theorem head?_of_run : ∀ c ∈ u.head?, isBlank c = false := fun c hc =>
  hu c (List.mem_of_mem_head? hc)

theorem trim_run : trim u = u := by
  rw [trim, trimStart_of_head? (head?_of_run hu), trimEnd,
    ← trimStart, trimStart_of_head?, List.reverse_reverse]
  exact head?_of_run fun c hc => hu c (List.mem_reverse.1 hc)

theorem isSingleSpaced_run : IsSingleSpaced u := by
  by_cases hne : u = []
  · subst hne
    rfl
  · rw [IsSingleSpaced, words_run hne hu, trim_run hu]
    rfl

variable (hne : u ≠ []) {b : Char} (hb : isBlank b = true)

include hne hb

/-- A word with nothing but blanks behind it. -/
theorem isSingleSpaced_append_blanks {e : List Char} (he : words e = []) :
    IsSingleSpaced (u ++ b :: e) := by
  have hblank : ∀ c ∈ b :: e, isBlank c = true := by
    rintro c (_ | ⟨_, hc⟩)
    · exact hb
    · exact isBlank_of_words_eq_nil he c hc
  have hstart : trimStart (u ++ b :: e) = u ++ b :: e := by
    refine trimStart_of_head? ?_
    rw [List.head?_append_of_ne_nil u hne]
    exact head?_of_run hu
  have hrun := trim_run hu
  rw [trim, trimStart_of_head? (head?_of_run hu)] at hrun
  rw [IsSingleSpaced, trim, hstart, trimEnd_append_blanks hblank, hrun, words_append_blank hb, he,
    words_run hne hu]
  rfl

/-- A word in front of others: the blank is the only one, and a space. -/
theorem isSingleSpaced_append_iff {e : List Char} (he : words e ≠ []) :
    IsSingleSpaced (u ++ b :: e) ↔ b = ' ' ∧ trimStart e = e ∧ IsSingleSpaced e := by
  have hstart : trimStart (u ++ b :: e) = u ++ b :: e := by
    refine trimStart_of_head? ?_
    rw [List.head?_append_of_ne_nil u hne]
    exact head?_of_run hu
  have hend : trimEnd e ≠ [] := by
    intro h
    refine he ?_
    obtain ⟨w, hw, hs⟩ := exists_trimEnd_append_blanks e
    rw [h, List.nil_append] at hs
    rw [hs, ← List.append_nil w, words_blanks_append hw, words_nil]
  have hend' : trimEnd (b :: e) = b :: trimEnd e := trimEnd_append_of_ne_nil hend [b]
  obtain ⟨t, ts, hwords⟩ := List.exists_cons_of_ne_nil he
  have hjoin : joinWith [' '] (words (u ++ b :: e)) = u ++ ' ' :: joinWith [' '] (words e) := by
    rw [words_append_blank hb, words_run hne hu, hwords]
    rfl
  rw [IsSingleSpaced, trim, hstart, trimEnd_append_of_ne_nil (by rw [hend']; simp), hend', hjoin,
    List.append_cancel_left_eq, List.cons.injEq]
  refine and_congr_right fun _ => ?_
  constructor
  · intro h
    -- what is joined starts with a word
    have hhead : trimStart e = e := by
      obtain ⟨hne', hblank⟩ := not_isBlank_of_mem_words (s := e) (w := t) (by simp [hwords])
      obtain ⟨c, z, rfl⟩ := List.exists_cons_of_ne_nil hne'
      obtain ⟨w, -, hs⟩ := exists_trimEnd_append_blanks e
      refine trimStart_of_head? fun d hd => ?_
      have hc : (trimEnd e).head? = some c := by
        rw [h, hwords]
        cases ts <;> rfl
      rw [hs, List.head?_append_of_ne_nil _ hend, hc] at hd
      obtain rfl : c = d := Option.some.inj hd
      exact hblank c List.mem_cons_self
    refine ⟨hhead, ?_⟩
    rw [IsSingleSpaced, trim, hhead, h]
  · rintro ⟨hhead, h⟩
    rwa [IsSingleSpaced, trim, hhead] at h

end Run

theorem isSingleSpaced_cons_iff {b : Char} (hb : isBlank b = true) (s : List Char) :
    IsSingleSpaced (b :: s) ↔ IsSingleSpaced s := by
  rw [IsSingleSpaced, IsSingleSpaced, trim_cons_of_isBlank hb, words_cons_of_blank hb]

/-- A text that starts with a blank is not trimmed. -/
theorem trimStart_cons_ne {b : Char} (hb : isBlank b = true) (s : List Char) :
    trimStart (b :: s) ≠ b :: s := by
  intro h
  have hlen := congrArg List.length h
  rw [trimStart, List.dropWhile_cons_of_pos hb, List.length_cons] at hlen
  have := (List.dropWhile_sublist (l := s) isBlank).length_le
  omega

/-- **A text that is rewritten word by word is spaced as it was**, provided that no word is lost. -/
theorem IsWordwise.isSingleSpaced_iff {f : List Char → List Char} (hf : IsWordwise f)
    {s : List Char} (h : KeepsWords f s) : IsSingleSpaced (f s) ↔ IsSingleSpaced s := by
  -- whether a blank stands in front is carried along, for a second blank may meet the first there
  suffices key : (IsSingleSpaced (f s) ↔ IsSingleSpaced s) ∧
      (trimStart (f s) = f s ↔ trimStart s = s) from key.1
  have hrun : ∀ u, (∀ c ∈ u, isBlank c = false) → KeepsWords f u →
      (u ≠ [] → f u ≠ []) ∧ ∀ c ∈ f u, isBlank c = false := by
    intro u hu hkeep
    by_cases hnil : u = []
    · subst hnil
      rw [hf.nil]
      exact ⟨fun h => absurd rfl h, by simp⟩
    · obtain ⟨hne, hblank⟩ := hkeep u (by rw [words_run hnil hu]; exact List.mem_singleton_self u)
      exact ⟨fun _ => hne, hblank⟩
  induction s using run_induction isBlank with
  | run u hu =>
    obtain ⟨-, hfu⟩ := hrun u hu h
    have hhead := trimStart_of_head? (head?_of_run hu)
    have hhead' := trimStart_of_head? (head?_of_run hfu)
    exact ⟨iff_of_true (isSingleSpaced_run hfu) (isSingleSpaced_run hu), iff_of_true hhead' hhead⟩
  | cut u b e hu hb ih =>
    rw [KeepsWords, words_append_blank hb] at h
    have hkeep : KeepsWords f e := fun t ht => h t (List.mem_append_right _ ht)
    obtain ⟨ihspaced, ihstart⟩ := ih hkeep
    obtain ⟨hne, hfu⟩ := hrun u hu fun t ht => h t (List.mem_append_left _ ht)
    rw [hf.append_cons u b e hb]
    by_cases hnil : u = []
    · subst hnil
      rw [hf.nil, List.nil_append, List.nil_append, isSingleSpaced_cons_iff hb,
        isSingleSpaced_cons_iff hb]
      exact ⟨ihspaced, iff_of_false (trimStart_cons_ne hb _) (trimStart_cons_ne hb _)⟩
    · have hne := hne hnil
      constructor
      · have hwords := hf.words_eq_map hkeep
        by_cases he : words e = []
        · rw [he, List.map_nil] at hwords
          exact iff_of_true (isSingleSpaced_append_blanks hfu hne hb hwords)
            (isSingleSpaced_append_blanks hu hnil hb he)
        · have he' : words (f e) ≠ [] := by
            rw [hwords]
            exact fun h => he (List.map_eq_nil_iff.1 h)
          rw [isSingleSpaced_append_iff hfu hne hb he', isSingleSpaced_append_iff hu hnil hb he,
            ihspaced, ihstart]
      · refine iff_of_true (trimStart_of_head? ?_) (trimStart_of_head? ?_)
        · rw [List.head?_append_of_ne_nil _ hne]
          exact head?_of_run hfu
        · rw [List.head?_append_of_ne_nil _ hnil]
          exact head?_of_run hu

/-! ### Taking a word out -/

theorem erase_sublist {w : List Char} (hne : w ≠ []) (s : List Char) : (erase w s).Sublist s := by
  refine erase_induction (R := fun s s' => s'.Sublist s) hne List.Sublist.slnil ?_ ?_ s
  · intro s s' h
    exact h.trans (List.sublist_append_right w s)
  · intro c s s' _ h
    exact h.cons_cons c

/-- A character that a word does not have divides a text from which the word is taken out. -/
theorem erase_append_cons {w : List Char} (hne : w ≠ []) {b : Char} (hb : b ∉ w)
    (u z : List Char) : erase w (u ++ b :: z) = erase w u ++ b :: erase w z := by
  refine erase_induction (R := fun u u' => erase w (u ++ b :: z) = u' ++ b :: erase w z)
    hne ?_ ?_ ?_ u
  · have hstart := startsWith_append_cons hb [] z
    rw [List.nil_append] at hstart
    refine erase_cons_of_not_startsWith (hstart.trans ?_)
    cases w with
    | nil => exact absurd rfl hne
    | cons a w => rfl
  · intro s s' h
    rw [List.append_assoc, erase_append_self hne, h]
  · intro c s s' hc h
    rw [List.cons_append, erase_cons_of_not_startsWith, h, List.cons_append]
    rw [← List.cons_append, startsWith_append_cons hb, hc]

theorem isWordwise_erase {w : List Char} (hne : w ≠ []) (hw : ∀ c ∈ w, isBlank c = false) :
    IsWordwise (erase w) where
  nil := rfl
  append_cons := by
    intro u b e hb
    refine erase_append_cons hne (fun hmem => ?_) u e
    rw [hw b hmem] at hb
    cases hb

end Text
end SceneMarkup
