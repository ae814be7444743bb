import Mathlib.Data.List.Chain
import SceneMarkup.Proofs.Stylesheet.Conversion
import SceneMarkup.Proofs.Stylesheet.Remarks

/-!
# No variable survives

When variables are replaced by colours, the colours meet what stood around the variables: a stray
dollar sign in front of one, a second variable behind it, the letters of another alphabet.  No new
variable comes of it.  A variable is read as far as it goes, so no letter follows it; a colour has
no dollar sign and no letter in front, and so neither begins a variable nor completes one.  The
fallback is free to be any text of that kind, the empty text too.  The remarks made afterwards start
with a blank and have no dollar sign.

## Main definitions

* `IsVariableFree` — no dollar sign has a letter behind it.
* `IsSharp` — a colour as the tables have it, a sharp sign in front and no dollar sign.
* `IsInert` — no dollar sign, and no letter in front.

## Main results

* `isVariableFree_inlineColors` — no variable is left when all are replaced.
* `isVariableFree_markDeep` — remarks make no variable.
* `no_variable_normalize` — **the house rules leave no variable, and replacing variables again
  changes nothing**, for every fallback that is inert.
-/

namespace SceneMarkup
namespace Stylesheet

open Text

/-! ### Texts without variables -/

/-- A text in which no dollar sign has a letter behind it. -/
def IsVariableFree (s : List Char) : Prop :=
  s.IsChain fun a b => a = '$' → b.isAlpha = false

theorem isVariableFree_of_not_mem {s : List Char} (h : '$' ∉ s) : IsVariableFree s := by
  induction s with
  | nil => exact List.IsChain.nil
  | cons c s ih =>
    rw [List.mem_cons, not_or] at h
    exact List.isChain_cons.2 ⟨fun _ _ hc => absurd hc.symm h.1, ih h.2⟩

/-- What stands behind a dollar sign is no letter. -/
theorem IsVariableFree.isAlpha_eq_false {s u v : List Char} {c : Char} (h : IsVariableFree s)
    (hs : s = u ++ '$' :: c :: v) : c.isAlpha = false := by
  subst hs
  exact (List.isChain_cons_cons.1 h.right_of_append).1 rfl

theorem variableName?_cons_cons {c : Char} (hc : c.isAlpha = true) (s : List Char) :
    ∃ found, variableName? ('$' :: c :: s) = some found :=
  ⟨_, if_pos hc⟩

/-- A variable is read as far as it goes: nothing that could go on with it follows. -/
theorem isIdentChar_head_of_variableName? {s name r : List Char}
    (h : variableName? s = some (name, r)) {c : Char} (hc : r.head? = some c) :
    isIdentChar c = false := by
  unfold variableName? at h
  split at h
  · next _ s =>
    split at h
    · obtain ⟨-, rfl⟩ := Prod.mk.inj (Option.some.inj h)
      have := List.head?_dropWhile_not isIdentChar s
      rwa [hc] at this
    · cases h
  · cases h

theorem isAlpha_head_of_variableName? {s name r : List Char}
    (h : variableName? s = some (name, r)) {c : Char} (hc : r.head? = some c) :
    c.isAlpha = false := by
  have hident := isIdentChar_head_of_variableName? h hc
  simp only [isIdentChar, Char.isAlphanum, Bool.or_eq_false_iff] at hident
  exact hident.1.1.1

/-- A text without variables has no occurrence of one. -/
theorem occurrences_variableName?_eq_nil {s : List Char} (h : IsVariableFree s) :
    occurrences variableName? s = [] := by
  refine List.eq_nil_iff_forall_not_mem.2 fun o ho => ?_
  obtain ⟨u, r, hs, -, -, hread⟩ := place_of_mem_occurrences consumes_variableName? ho
  obtain ⟨htext, c, v, hname, hc, -⟩ := variableName?_eq_some hread
  rw [htext, hname] at hs
  have := h.isAlpha_eq_false hs
  rw [hc] at this
  cases this

/-- A text without variables is kept. -/
theorem inlineColors_eq_self {s : List Char} (h : IsVariableFree s) (fallback : List Char) :
    (inlineColors fallback).revise s = s :=
  replaceAll_eq_self fun o ho => by simp [occurrences_variableName?_eq_nil h] at ho

/-! ### Colours -/

/-- A sharp sign and no dollar sign, as all colours are written. -/
def IsSharp (color : List Char) : Prop := color.head? = some '#' ∧ '$' ∉ color

/-- A text that neither has nor completes a variable: no dollar sign, and no letter in front. -/
structure IsInert (color : List Char) : Prop where
  /-- It has no dollar sign. -/
  not_mem : '$' ∉ color
  /-- It does not start with a letter. -/
  isAlpha_head : ∀ c, color.head? = some c → c.isAlpha = false

theorem IsSharp.isInert {color : List Char} (h : IsSharp color) : IsInert color where
  not_mem := h.2
  isAlpha_head := by
    intro c hc
    obtain rfl : '#' = c := Option.some.inj (h.1.symm.trans hc)
    decide

/-- What holds of the colours of the tables and of the fallback holds of the colour of a variable. -/
theorem resolveColor_cases {P : List Char → Prop} (htable : ∀ e ∈ colorTable, P e.2.toList)
    (hhints : ∀ e ∈ colorHints, P e.2.toList) {fallback : List Char} (hfb : P fallback)
    (name : List Char) : P (resolveColor name fallback) := by
  simp only [resolveColor]
  split
  · next color hc =>
    obtain ⟨e, he, rfl⟩ := Option.map_eq_some_iff.1 hc
    exact htable e (List.mem_of_find?_eq_some he)
  · split
    · next color hc =>
      obtain ⟨e, he, rfl⟩ := Option.map_eq_some_iff.1 hc
      exact hhints e (List.mem_of_find?_eq_some he)
    · exact hfb

/-- All colours of the tables are inert, so a variable stands for an inert text if the fallback is
one. -/
theorem isInert_resolveColor (name : List Char) {fallback : List Char} (h : IsInert fallback) :
    IsInert (resolveColor name fallback) := by
  have htable : ∀ e ∈ colorTable, e.2.toList.head? = some '#' ∧ '$' ∉ e.2.toList := by decide
  have hhints : ∀ e ∈ colorHints, e.2.toList.head? = some '#' ∧ '$' ∉ e.2.toList := by decide
  exact resolveColor_cases (fun e he => IsSharp.isInert (htable e he))
    (fun e he => IsSharp.isInert (hhints e he)) h name

/-- No variable is left when all are replaced.  A letter in front of the result was there before, so
a dollar sign left in front of it would have been a variable. -/
theorem isVariableFree_inlineColors {fallback : List Char} (hfb : IsInert fallback)
    (s : List Char) : IsVariableFree ((inlineColors fallback).revise s) := by
  refine (replaceAll_induction (R := fun s s' => IsVariableFree s' ∧
    ∀ c, c.isAlpha = true → s'.head? = some c → s.head? = some c)
    consumes_variableName? ⟨List.IsChain.nil, fun _ _ h => h⟩ ?_ ?_ s).1
  · intro c s s' hn ih
    refine ⟨List.isChain_cons.2 ⟨?_, ih.1⟩, fun _ _ h => h⟩
    rintro d hd rfl
    cases hda : d.isAlpha with
    | false => rfl
    | true =>
      obtain ⟨s, rfl⟩ := List.head?_eq_some_iff.1 (ih.2 d hda hd)
      obtain ⟨found, hfound⟩ := variableName?_cons_cons hda s
      rw [hfound] at hn
      cases hn
  · intro t name r r' _ hread ih
    have hcolor := isInert_resolveColor name hfb
    refine ⟨(isVariableFree_of_not_mem hcolor.not_mem).append ih.1 ?_, ?_⟩
    · rintro a ha b - rfl
      exact absurd (List.mem_of_getLast? ha) hcolor.not_mem
    · -- no letter stands in front of the result: neither the colour nor, where the colour is
      -- empty, the rest behind the variable starts with one
      intro c hc h
      have hnot : c.isAlpha = false := by
        rcases hempty : resolveColor name fallback with _ | ⟨d, u⟩
        · rw [hempty, List.nil_append] at h
          exact isAlpha_head_of_variableName? hread (ih.2 c hc h)
        · rw [hempty] at h
          exact hcolor.isAlpha_head c (by rw [hempty]; exact h)
      rw [hc] at hnot
      cases hnot

/-! ### Remarks -/

/-- A remark starts with a blank, so it makes no variable of what stands in front of it. -/
theorem isVariableFree_markLine {line : List Char} (h : IsVariableFree line) (limit : Nat)
    (depth : Int) : IsVariableFree (markLine limit depth line) := by
  rw [markLine]
  split
  · obtain ⟨u, v, rfl, hr⟩ := remarked_eq limit line
    have hdollar : '$' ∉ remark limit := not_mem_remark (by decide) (by decide)
    have hbehind : IsVariableFree (remark limit ++ v) := by
      refine (isVariableFree_of_not_mem hdollar).append h.right_of_append ?_
      rintro a ha b - rfl
      exact absurd (List.mem_of_getLast? ha) hdollar
    rw [hr]
    refine h.left_of_append.append hbehind ?_
    rintro a - b hb -
    obtain rfl : b = ' ' := by
      have hhead : (remark limit ++ v).head? = some ' ' := rfl
      rw [hhead] at hb
      exact (Option.some.inj hb).symm
    decide
  · exact h

theorem isVariableFree_append_break {l : List Char} {s : List Char} :
    IsVariableFree (l ++ '\n' :: s) ↔ IsVariableFree l ∧ IsVariableFree s := by
  constructor
  · intro h
    exact ⟨h.left_of_append, h.right_of_append.tail⟩
  · rintro ⟨hl, hs⟩
    refine hl.append (List.isChain_cons.2 ⟨?_, hs⟩) ?_
    · intro _ _ hbreak
      exact absurd hbreak (by decide)
    · rintro a - b hb -
      obtain rfl : '\n' = b := Option.some.inj hb
      decide

/-- Variables do not run over lines. -/
theorem isVariableFree_joinLines_iff (ls : List (List Char)) :
    IsVariableFree (joinLines ls) ↔ ∀ l ∈ ls, IsVariableFree l := by
  induction ls with
  | nil => simp [joinLines, IsVariableFree]
  | cons l ls ih =>
    cases ls with
    | nil => simp [joinLines]
    | cons l' ls =>
      rw [joinLines, joinWith_cons_cons, List.singleton_append, isVariableFree_append_break,
        ← joinLines, ih, List.forall_mem_cons (a := l)]

theorem isVariableFree_markDeep {s : List Char} (h : IsVariableFree s) (limit : Nat) :
    IsVariableFree (markDeep limit s) := by
  rw [← joinLines_lines s, isVariableFree_joinLines_iff] at h
  rw [markDeep, isVariableFree_joinLines_iff]
  intro l hl
  obtain ⟨d, l', hl', rfl | rfl⟩ := mem_markLines hl
  · exact h _ hl'
  · exact isVariableFree_markLine (h l' hl') limit d

/-! ### The house rules -/

/-- The house rules leave no variable. -/
theorem isVariableFree_normalize_of_isInert {o : Options} (h : IsInert o.colorFallback.toList)
    (s : List Char) : IsVariableFree (normalize o s) := by
  rw [normalize_eq]
  exact isVariableFree_markDeep (isVariableFree_inlineColors h _) _

/-- They leave none when the fallback is written like the colours of the tables. -/
theorem isVariableFree_normalize {o : Options} (h : IsSharp o.colorFallback.toList)
    (s : List Char) : IsVariableFree (normalize o s) :=
  isVariableFree_normalize_of_isInert h.isInert s

/-- **No variable survives the house rules.**  If the fallback has no dollar sign and does not start
with a letter, then in the result no dollar sign has a letter behind it, no variable is found, and
replacing variables once more changes nothing. -/
theorem no_variable_normalize (o : Options) (s : List Char)
    (hdollar : '$' ∉ o.colorFallback.toList)
    (hletter : ∀ c, o.colorFallback.toList.head? = some c → c.isAlpha = false) :
    (∀ u c v, normalize o s = u ++ '$' :: c :: v → c.isAlpha = false) ∧
      occurrences variableName? (normalize o s) = [] ∧
      (inlineColors o.colorFallback.toList).revise (normalize o s) = normalize o s := by
  have hfree : IsVariableFree (normalize o s) :=
    isVariableFree_normalize_of_isInert ⟨hdollar, hletter⟩ s
  exact ⟨fun u c v hs => hfree.isAlpha_eq_false hs, occurrences_variableName?_eq_nil hfree,
    inlineColors_eq_self hfree _⟩

/-- A stray dollar sign, two variables side by side and a letter of another alphabet, with an empty
fallback. -/
theorem no_variable_normalize_side_by_side :
    normalize { colorFallback := "" } "a \x7b color: $$none$primaryé; \x7d".toList
        = "a \x7b color: $#3b82f6é; \x7d".toList ∧
      occurrences variableName?
        (normalize { colorFallback := "" } "a \x7b color: $$none$primaryé; \x7d".toList) = [] :=
  ⟨by decide +kernel,
    (no_variable_normalize { colorFallback := "" } "a \x7b color: $$none$primaryé; \x7d".toList
      (by decide) (by simp)).2.1⟩

end Stylesheet
end SceneMarkup
