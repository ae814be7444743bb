import SceneMarkup.Proofs.Stylesheet.Conversion
import SceneMarkup.Proofs.Stylesheet.Remarks

/-!
# Block boundaries are kept

The house rules of stylesheets read texts, not trees: a value may run over several lines, the
argument of a `rem` function may even run over braces and semicolons, and a configured property may
be any string at all.  Still none of the rules adds, drops or moves a brace or a semicolon, so the
blocks and statements of a stylesheet are those of its revision, well formed or not.

## Main definitions

* `isBlockMark`, `blockMarks` — braces and semicolons, and a text reduced to them.

## Main results

* `blockMarks_convert` — a conversion of declarations keeps the block marks.
* `blockMarks_remFunctions`, `blockMarks_inlineColors`, `blockMarks_markDeep` — so do the other
  rules.
* `blockMarks_normalize` — **so does the whole pipeline, whatever its options.**
-/

namespace SceneMarkup
namespace Stylesheet

open Text

/-- Whether a character bounds a block or ends a statement. -/
def isBlockMark (c : Char) : Bool := c == '{' || c == '}' || c == ';'

/-- The block boundaries and statement ends of a text, in order. -/
def blockMarks (s : List Char) : List Char := s.filter isBlockMark

@[simp] theorem blockMarks_nil : blockMarks [] = [] := rfl

@[simp] theorem blockMarks_append (s t : List Char) :
    blockMarks (s ++ t) = blockMarks s ++ blockMarks t :=
  List.filter_append s t

theorem blockMarks_cons (c : Char) (s : List Char) :
    blockMarks (c :: s) = blockMarks [c] ++ blockMarks s :=
  blockMarks_append [c] s

theorem blockMarks_cons_of_not {c : Char} (h : isBlockMark c = false) (s : List Char) :
    blockMarks (c :: s) = blockMarks s :=
  List.filter_cons_of_neg (by simp [h])

theorem blockMarks_eq_nil {s : List Char} (h : ∀ c ∈ s, isBlockMark c = false) :
    blockMarks s = [] :=
  List.filter_eq_nil_iff.2 fun c hc => by simp [h c hc]

theorem isLasting_of_isBlockMark {c : Char} (h : isBlockMark c = true) : isLasting c = true := by
  simp only [isBlockMark, Bool.or_eq_true, beq_iff_eq] at h
  rcases h with (rfl | rfl) | rfl <;> decide

/-- Block marks are lasting, so texts with the same lasting characters have the same block marks. -/
theorem blockMarks_eq_of_lasting {s t : List Char} (h : lasting s = lasting t) :
    blockMarks s = blockMarks t := by
  have key : ∀ u, blockMarks u = blockMarks (lasting u) := by
    intro u
    rw [blockMarks, blockMarks, lasting, List.filter_filter]
    refine List.filter_congr fun c _ => ?_
    cases hc : isBlockMark c with
    | true => simp [isLasting_of_isBlockMark hc]
    | false => simp
  rw [key s, key t, h]

theorem blockMarks_blanks {w : List Char} (h : ∀ c ∈ w, isBlank c = true) : blockMarks w = [] := by
  rw [blockMarks_eq_of_lasting (t := []) (lasting_blanks h), blockMarks_nil]

/-! ### Declarations -/

theorem blockMarks_mixin (property argument : List Char) :
    blockMarks (mixin property argument) =
      blockMarks property ++ (blockMarks argument ++ [';']) := by
  have hopen : blockMarks "@include rem(".toList = [] := by decide
  have hcomma : blockMarks ", ".toList = [] := by decide
  have hclose : blockMarks ");".toList = [';'] := by decide
  unfold mixin
  rw [blockMarks_append, blockMarks_append, blockMarks_append, blockMarks_append]
  simp only [hopen, hcomma, hclose, List.nil_append, List.append_nil, List.append_assoc]

/-- A conversion of declarations whose arguments keep the lasting characters keeps the block
marks. -/
theorem blockMarks_convert (properties : List (List Char)) {f : List Char → Option (List Char)}
    (hf : ∀ v w, f v = some w → lasting w = lasting v) (s : List Char) :
    blockMarks (convert properties f s) = blockMarks s := by
  refine replaceAll_induction (R := fun s s' => blockMarks s' = blockMarks s)
    (consumes_declaration? properties) rfl ?_ ?_ s
  · intro c s s' _ ih
    rw [blockMarks_cons, ih, ← blockMarks_cons]
  · intro t d r r' _ h ih
    split
    · next w hw =>
      obtain ⟨w₁, w₂, hw₁, hw₂, -, rfl⟩ := text_of_declaration? h
      have hsemi : blockMarks [';'] = [';'] := by decide
      rw [blockMarks_append, blockMarks_append, ih, blockMarks_append, blockMarks_mixin,
        blockMarks_eq_of_lasting (hf _ _ hw)]
      simp only [blockMarks_append, blockMarks_cons_of_not (c := ':') (by decide),
        blockMarks_blanks hw₁, blockMarks_blanks hw₂, hsemi, List.nil_append, List.append_assoc]
    · rw [blockMarks_append, blockMarks_append, ih]

/-- The argument of a `rem` function may hold block marks; all of them stand in the argument of the
mixin. -/
theorem blockMarks_remFunctions (s : List Char) :
    blockMarks (remFunctions.revise s) = blockMarks s := by
  refine replaceAll_induction (R := fun s s' => blockMarks s' = blockMarks s)
    consumes_remFunction? rfl ?_ ?_ s
  · intro c s s' _ ih
    rw [blockMarks_cons, ih, ← blockMarks_cons]
  · intro t d r r' _ h ih
    obtain ⟨-, w₁, w₂, w₃, hw₁, hw₂, hw₃, rfl⟩ := text_of_remFunction? h
    have harg : blockMarks (trim (erase "px".toList d.value)) = blockMarks d.value := by
      refine blockMarks_eq_of_lasting ?_
      rw [lasting_trim]
      exact filter_erase (by decide) (by decide) d.value
    have hrem : blockMarks "rem(".toList = [] := by decide
    have hsemi : blockMarks [';'] = [';'] := by decide
    rw [blockMarks_append, blockMarks_append, ih, blockMarks_append, blockMarks_mixin, harg]
    simp only [blockMarks_append, blockMarks_cons_of_not (c := ':') (by decide),
      blockMarks_cons_of_not (c := ')') (by decide), blockMarks_blanks hw₁, blockMarks_blanks hw₂,
      blockMarks_blanks hw₃, hrem, hsemi, List.nil_append, List.append_assoc]

/-! ### Colours and remarks -/

theorem isBlockMark_of_isIdentChar {c : Char} (h : isIdentChar c = true) :
    isBlockMark c = false := by
  cases hc : isBlockMark c with
  | false => rfl
  | true =>
    simp only [isBlockMark, Bool.or_eq_true, beq_iff_eq] at hc
    rcases hc with (rfl | rfl) | rfl <;> exact absurd h (by decide)

/-- The colour of a variable has no block marks unless the fallback has some. -/
theorem blockMarks_resolveColor (name : List Char) {fallback : List Char}
    (h : blockMarks fallback = []) : blockMarks (resolveColor name fallback) = [] := by
  simp only [resolveColor]
  split
  · next color hc =>
    have htable : ∀ e ∈ colorTable, blockMarks e.2.toList = [] := by decide
    obtain ⟨e, he, rfl⟩ := Option.map_eq_some_iff.1 hc
    exact htable e (List.mem_of_find?_eq_some he)
  · split
    · next color hc =>
      have hhints : ∀ e ∈ colorHints, blockMarks e.2.toList = [] := by decide
      obtain ⟨e, he, rfl⟩ := Option.map_eq_some_iff.1 hc
      exact hhints e (List.mem_of_find?_eq_some he)
    · exact h

theorem blockMarks_inlineColors {fallback : List Char} (hfb : blockMarks fallback = [])
    (s : List Char) : blockMarks ((inlineColors fallback).revise s) = blockMarks s := by
  refine replaceAll_induction (R := fun s s' => blockMarks s' = blockMarks s)
    consumes_variableName? rfl ?_ ?_ s
  · intro c s s' _ ih
    rw [blockMarks_cons, ih, ← blockMarks_cons]
  · intro t name r r' _ h ih
    obtain ⟨hs, c, u, hname, hc, hu⟩ := variableName?_eq_some h
    obtain rfl : t = name := List.append_cancel_right hs
    have hvar : blockMarks t = [] := by
      refine blockMarks_eq_nil fun x hx => ?_
      rw [hname] at hx
      rcases List.mem_cons.1 hx with rfl | hx
      · decide
      · rcases List.mem_cons.1 hx with rfl | hx
        · exact isBlockMark_of_isIdentChar (by simp [isIdentChar, Char.isAlphanum, hc])
        · exact isBlockMark_of_isIdentChar (hu x hx)
    rw [blockMarks_append, blockMarks_append, ih, hvar, blockMarks_resolveColor _ hfb]

theorem blockMarks_markDeep (limit : Nat) (s : List Char) :
    blockMarks (markDeep limit s) = blockMarks s := by
  refine filter_markDeep limit (fun c hc => ?_) (by decide) s
  have htext : ∀ x ∈ remarkText, isBlockMark x = false := forall_mem_of_all (by decide)
  rcases mem_remark hc with hc | hc
  · exact isBlockMark_of_isIdentChar (by simp [isIdentChar, Char.isAlphanum, hc])
  · exact htext c hc

/-! ### The pipeline -/

/-- **The house rules keep the block boundaries and statement ends of every stylesheet**, whatever
the nesting limit and the listed properties are, provided that the fallback colour is no block mark
itself. -/
theorem blockMarks_normalize (o : Options)
    (h : ∀ c ∈ o.colorFallback.toList, isBlockMark c = false) (s : List Char) :
    blockMarks (normalize o s) = blockMarks s := by
  rw [normalize_eq, blockMarks_markDeep, blockMarks_inlineColors (blockMarks_eq_nil h),
    blockMarks_convert _ fun _ _ => lasting_shadowArgument?,
    blockMarks_convert _ fun _ _ => lasting_borderArgument?,
    blockMarks_convert _ fun _ _ => lasting_remArgument?, blockMarks_remFunctions]

/-- A brace as a listed property, a `rem` function over braces and a block that is never closed. -/
theorem blockMarks_normalize_unclosed :
    blockMarks (normalize { remProperties := ["\x7b"], nestingLimit := 1 }
      "a\x7bb:rem(2\x7dpx;);\x7b:4;c\x7bd:$e;".toList) = "\x7b\x7d;;\x7b;\x7b;".toList :=
  (blockMarks_normalize { remProperties := ["\x7b"], nestingLimit := 1 }
    (forall_mem_of_all (by decide)) _).trans (by decide)

end Stylesheet
end SceneMarkup
