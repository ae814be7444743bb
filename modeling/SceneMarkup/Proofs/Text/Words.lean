import Mathlib.Data.List.Infix
import SceneMarkup.Proofs.Text.Filter

/-!
# Laws of words

The words of two texts with a blank between them are those of the one and of the other.  Without a
blank between them, the last word of the one may go on in the other.

## Main results

* `words_append_blank` — **a blank divides the words.**
* `words_trim` — blanks around a text do not change its words.
* `words_append_word` — what is put behind a text goes on with its last word and changes no other.
* `words_joinWith` — words joined by blanks.
* `isInfix_of_mem_words` — a word is a part of its text.
-/

namespace SceneMarkup
namespace Text

theorem words_cons_blank_behind {c d : Char} (hc : isBlank c = false) (hd : isBlank d = true)
    (s : List Char) : words (c :: d :: s) = [c] :: words (d :: s) := by
  rw [words]
  simp [hc, hd]

theorem words_cons_of_not_blank {c d : Char} (hc : isBlank c = false) (hd : isBlank d = false)
    (s : List Char) : words (c :: d :: s) = consWord c (words (d :: s)) := by
  rw [words]
  simp [hc, hd]

theorem words_singleton {c : Char} (hc : isBlank c = false) : words [c] = [[c]] := by
  simp [words, hc]

theorem exists_words_cons {c : Char} (hc : isBlank c = false) (s : List Char) :
    ∃ w ws, words (c :: s) = w :: ws := by
  cases h : words (c :: s) with
  | cons w ws => exact ⟨w, ws, rfl⟩
  | nil =>
    have := flatten_words (c :: s)
    rw [h, List.filter_cons_of_pos (by simp [hc])] at this
    cases this

/-- **A blank divides the words of a text.** -/
theorem words_append_blank {c : Char} (hc : isBlank c = true) (s t : List Char) :
    words (s ++ c :: t) = words s ++ words t := by
  induction s with
  | nil => exact words_cons_of_blank hc t
  | cons a s ih =>
    cases ha : isBlank a with
    | true => rw [List.cons_append, words_cons_of_blank ha, words_cons_of_blank ha, ih]
    | false =>
      cases s with
      | nil =>
        rw [words_singleton ha, List.singleton_append, words_cons_blank_behind ha hc,
          words_cons_of_blank hc]
        rfl
      | cons b s =>
        rw [List.cons_append] at ih
        cases hb : isBlank b with
        | true =>
          rw [List.cons_append, List.cons_append, words_cons_blank_behind ha hb, ih,
            words_cons_blank_behind ha hb, List.cons_append]
        | false =>
          obtain ⟨w, ws, hw⟩ := exists_words_cons hb s
          rw [List.cons_append, List.cons_append, words_cons_of_not_blank ha hb, ih,
            words_cons_of_not_blank ha hb, hw]
          rfl

theorem words_blanks_append {w : List Char} (hw : ∀ c ∈ w, isBlank c = true) (s : List Char) :
    words (w ++ s) = words s := by
  induction w with
  | nil => rfl
  | cons c w ih =>
    rw [List.cons_append, words_cons_of_blank (hw c List.mem_cons_self),
      ih fun d hd => hw d (List.mem_cons_of_mem _ hd)]

theorem words_append_blanks {w : List Char} (hw : ∀ c ∈ w, isBlank c = true) (s : List Char) :
    words (s ++ w) = words s := by
  cases w with
  | nil => rw [List.append_nil]
  | cons c w =>
    have hrest := words_blanks_append (fun d hd => hw d (List.mem_cons_of_mem _ hd)) []
    rw [List.append_nil, words_nil] at hrest
    rw [words_append_blank (hw c List.mem_cons_self), hrest, List.append_nil]

/-- Trimming a text keeps its words. -/
theorem words_trim (s : List Char) : words (trim s) = words s := by
  obtain ⟨w, hw, hs⟩ := exists_blanks_append_trimStart s
  obtain ⟨w', hw', hs'⟩ := exists_trimEnd_append_blanks (trimStart s)
  conv => rhs; rw [hs, words_blanks_append hw, hs', words_append_blanks hw']
  rw [trim]

/-- A text that is empty or starts with a blank. -/
def IsApart (s : List Char) : Prop := ∀ c ∈ s.head?, isBlank c = true

theorem isApart_nil : IsApart [] := by
  intro c hc
  cases hc

theorem isApart_cons {c : Char} (hc : isBlank c = true) (s : List Char) : IsApart (c :: s) := by
  intro d hd
  obtain rfl : c = d := Option.some.inj hd
  exact hc

/-- A run without blanks in front of a blank is a word. -/
theorem words_word_append {z e : List Char} (hz : z ≠ []) (hb : ∀ c ∈ z, isBlank c = false)
    (he : IsApart e) : words (z ++ e) = z :: words e := by
  induction z with
  | nil => exact absurd rfl hz
  | cons c z ih =>
    have hc : isBlank c = false := hb c List.mem_cons_self
    cases z with
    | nil =>
      cases e with
      | nil => rw [List.append_nil, words_singleton hc, words_nil]
      | cons d e =>
        rw [List.singleton_append, words_cons_blank_behind hc (he d rfl)]
    | cons d z =>
      have hd : isBlank d = false := hb d (by simp)
      have ih := ih (List.cons_ne_nil _ _) fun x hx => hb x (List.mem_cons_of_mem _ hx)
      rw [List.cons_append, List.cons_append, words_cons_of_not_blank hc hd, ← List.cons_append, ih]
      rfl

/-- A run without blanks is one word. -/
theorem words_run {u : List Char} (hne : u ≠ []) (hu : ∀ c ∈ u, isBlank c = false) :
    words u = [u] := by
  have := words_word_append hne hu isApart_nil
  rwa [List.append_nil] at this

/-- What is put behind a text goes on with its last word, and no other word depends on it. -/
theorem words_append_word (s : List Char) :
    ∃ ws l, ∀ z e, z ≠ [] → (∀ c ∈ z, isBlank c = false) → IsApart e →
      words (s ++ (z ++ e)) = ws ++ (l ++ z) :: words e := by
  induction s with
  | nil => exact ⟨[], [], fun z e hz hb he => words_word_append hz hb he⟩
  | cons c s ih =>
    obtain ⟨ws, l, ih⟩ := ih
    cases hc : isBlank c with
    | true =>
      refine ⟨ws, l, fun z e hz hb he => ?_⟩
      rw [List.cons_append, words_cons_of_blank hc, ih z e hz hb he]
    | false =>
      cases s with
      | nil =>
        refine ⟨[], [c], fun z e hz hb he => ?_⟩
        have hcz : ∀ x ∈ c :: z, isBlank x = false := by
          rintro x (_ | ⟨_, hx⟩)
          · exact hc
          · exact hb x hx
        exact words_word_append (z := c :: z) (List.cons_ne_nil _ _) hcz he
      | cons d s =>
        cases hd : isBlank d with
        | true =>
          refine ⟨[c] :: ws, l, fun z e hz hb he => ?_⟩
          rw [List.cons_append, List.cons_append, words_cons_blank_behind hc hd,
            ← List.cons_append, ih z e hz hb he]
          rfl
        | false =>
          cases ws with
          | nil =>
            refine ⟨[], c :: l, fun z e hz hb he => ?_⟩
            rw [List.cons_append, List.cons_append, words_cons_of_not_blank hc hd,
              ← List.cons_append, ih z e hz hb he]
            rfl
          | cons w ws =>
            refine ⟨(c :: w) :: ws, l, fun z e hz hb he => ?_⟩
            rw [List.cons_append, List.cons_append, words_cons_of_not_blank hc hd,
              ← List.cons_append, ih z e hz hb he]
            rfl

theorem joinWith_concat (sep : List Char) {ls : List (List Char)} (hls : ls ≠ [])
    (l : List Char) : joinWith sep (ls ++ [l]) = joinWith sep ls ++ (sep ++ l) := by
  induction ls with
  | nil => exact absurd rfl hls
  | cons l₀ ls ih =>
    cases ls with
    | nil => rfl
    | cons l₁ ls =>
      rw [List.cons_append, List.cons_append, joinWith_cons_cons, ← List.cons_append,
        ih (List.cons_ne_nil _ _), joinWith_cons_cons]
      simp only [List.append_assoc]

/-- The words of texts joined by blanks are the words of the texts. -/
theorem words_joinWith (ls : List (List Char)) :
    words (joinWith [' '] ls) = ls.flatMap words := by
  induction ls with
  | nil => rfl
  | cons l ls ih =>
    cases ls with
    | nil => simp
    | cons l' ls =>
      rw [joinWith_cons_cons, List.singleton_append, words_append_blank isBlank_space, ih]
      rfl

/-- The words of words joined by blanks. -/
theorem words_joinWith_words {ws : List (List Char)}
    (h : ∀ w ∈ ws, w ≠ [] ∧ ∀ c ∈ w, isBlank c = false) : words (joinWith [' '] ws) = ws := by
  rw [words_joinWith]
  have hword : ∀ w ∈ ws, words w = [w] := fun w hw => words_run (h w hw).1 (h w hw).2
  rw [List.flatMap_congr hword]
  simp

/-- A word is a part of its text. -/
theorem isInfix_of_mem_words {s w : List Char} (h : w ∈ words s) : w <:+: s := by
  -- a letter in front joins the first word, so that one has to stand in front of the text
  suffices key : (∀ w ∈ words s, w <:+: s) ∧
      ∀ c r, s = c :: r → isBlank c = false → ∃ v vs, words s = v :: vs ∧ v <+: s from key.1 w h
  clear h
  induction s with
  | nil => exact ⟨by simp, by simp⟩
  | cons c s ih =>
    have hbehind : ∀ w ∈ words s, w <:+: c :: s :=
      fun w hw => (ih.1 w hw).trans (List.suffix_cons c s).isInfix
    cases hc : isBlank c with
    | true =>
      rw [words_cons_of_blank hc]
      refine ⟨hbehind, ?_⟩
      rintro d r ⟨⟩ hd
      rw [hc] at hd
      cases hd
    | false =>
      suffices hfirst : ∃ v vs, words (c :: s) = v :: vs ∧ v <+: c :: s ∧
          ∀ w ∈ vs, w ∈ words s by
        obtain ⟨v, vs, hwords, hv, hvs⟩ := hfirst
        rw [hwords, List.forall_mem_cons]
        exact ⟨⟨hv.isInfix, fun w hw => hbehind w (hvs w hw)⟩, fun _ _ _ _ => ⟨v, vs, rfl, hv⟩⟩
      cases s with
      | nil => exact ⟨[c], [], words_singleton hc, List.prefix_rfl, by simp⟩
      | cons d s =>
        cases hd : isBlank d with
        | true =>
          exact ⟨[c], words (d :: s), words_cons_blank_behind hc hd s, List.prefix_append [c] _,
            fun w hw => hw⟩
        | false =>
          obtain ⟨v, vs, hwords, hv⟩ := ih.2 d s rfl hd
          rw [words_cons_of_not_blank hc hd, hwords]
          exact ⟨c :: v, vs, rfl, (List.prefix_cons_inj c).2 hv,
            fun w hw => List.mem_cons_of_mem v hw⟩

end Text
end SceneMarkup
