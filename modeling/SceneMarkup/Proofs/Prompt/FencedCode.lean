import SceneMarkup.Prompt.Fence
import SceneMarkup.Proofs.Text.Wordwise

/-!
# Code between fences

A response holds code between two fences when a second fence stands behind the line of the first
one, or behind the first one itself when that is on the last line.  Letters of a fence may stand in
front of the first fence and make it start earlier, and its line may hold anything, another fence as
well: the code begins behind the line, and it ends at the next fence.

## Main definitions

* `IsFenced` — a text with code between two fences.

## Main results

* `fencedCode?_append` — code put between fences is found.
* `fencedCode?_eq_none_iff` — **code is found in the texts with code between two fences, and in no
  others.**
* `isInfix_of_fencedCode?` — what is found is a part of the text and has no fence.
* `extractCode_recovers` — **the code of a response.**
-/

namespace SceneMarkup
namespace Prompt

open Text

/-! ### The line of a fence -/

theorem contains_singleton_eq_false_iff {c : Char} {s : List Char} :
    contains [c] s = false ↔ c ∉ s := by
  rw [Bool.eq_false_iff, Ne, contains_iff_isInfix, List.singleton_infix_iff]

theorem behindHint_append {hint : List Char} (h : '\n' ∉ hint) (r : List Char) :
    behindHint (hint ++ '\n' :: r) = r := by
  have hdivide := divide?_append (w := []) List.not_mem_nil
    (contains_singleton_eq_false_iff.2 h) r
  rw [List.singleton_append] at hdivide
  rw [behindHint, hdivide]

theorem behindHint_of_not_mem {s : List Char} (h : '\n' ∉ s) : behindHint s = s := by
  rw [behindHint, divide?_eq_none_iff.2 (contains_singleton_eq_false_iff.2 h)]

/-- A text is a line and what stands behind it, or it is on one line. -/
theorem behindHint_cases (s : List Char) :
    (∃ hint, '\n' ∉ hint ∧ s = hint ++ '\n' :: behindHint s) ∨ '\n' ∉ s ∧ behindHint s = s := by
  by_cases h : '\n' ∈ s
  · obtain ⟨hint, r, rfl, hhint⟩ := List.eq_append_cons_of_mem h
    exact Or.inl ⟨hint, hhint, by rw [behindHint_append hhint]⟩
  · exact Or.inr ⟨h, behindHint_of_not_mem h⟩

theorem behindHint_isSuffix (s : List Char) : behindHint s <:+ s := by
  rcases behindHint_cases s with ⟨hint, -, hs⟩ | ⟨-, hs⟩
  · exact ⟨hint ++ ['\n'], by rw [List.append_assoc, List.singleton_append, ← hs]⟩
  · rw [hs]

/-- A fence behind the first line of a text is behind the first line of a longer text too. -/
theorem contains_behindHint_append {z : List Char} (h : contains fence (behindHint z) = true)
    (x : List Char) : contains fence (behindHint (x ++ z)) = true := by
  by_cases hx : '\n' ∈ x
  · obtain ⟨hint, x, rfl, hhint⟩ := List.eq_append_cons_of_mem hx
    rw [List.append_assoc, List.cons_append, behindHint_append hhint]
    exact contains_of_isInfix
      ((behindHint_isSuffix z).isInfix.trans (List.suffix_append x z).isInfix) h
  · rcases behindHint_cases z with ⟨hint, hhint, hz⟩ | ⟨hz, hself⟩
    · have hline : '\n' ∉ x ++ hint := by simp [hx, hhint]
      rw [hz, ← List.append_assoc, behindHint_append hline]
      exact h
    · have hline : '\n' ∉ x ++ z := by simp [hx, hz]
      rw [behindHint_of_not_mem hline]
      rw [hself] at h
      exact contains_of_isInfix (List.suffix_append x z).isInfix h

/-! ### Code between two fences -/

/-- A text with a fence, its line, some code and another fence.  A fence on the last line has no line
of its own: the code follows at once. -/
def IsFenced (s : List Char) : Prop :=
  ∃ p hint code rest, s = p ++ (fence ++ (hint ++ (code ++ (fence ++ rest)))) ∧
    ((∃ line, hint = line ++ ['\n'] ∧ '\n' ∉ line) ∨
      hint = [] ∧ '\n' ∉ code ++ (fence ++ rest))

theorem isFenced_iff {s : List Char} :
    IsFenced s ↔ ∃ p z, s = p ++ (fence ++ z) ∧ contains fence (behindHint z) = true := by
  constructor
  · rintro ⟨p, hint, code, rest, rfl, hhint⟩
    refine ⟨p, _, rfl, ?_⟩
    rcases hhint with ⟨line, rfl, hline⟩ | ⟨rfl, hlast⟩
    · rw [List.append_assoc, List.singleton_append, behindHint_append hline]
      exact contains_append code rest
    · rw [List.nil_append, behindHint_of_not_mem hlast]
      exact contains_append code rest
  · rintro ⟨p, z, rfl, hz⟩
    obtain ⟨code, rest, hcode⟩ := contains_iff_isInfix.1 hz
    rw [List.append_assoc] at hcode
    rcases behindHint_cases z with ⟨line, hline, htext⟩ | ⟨hlast, hself⟩
    · refine ⟨p, line ++ ['\n'], code, rest, ?_, Or.inl ⟨line, rfl, hline⟩⟩
      rw [htext, hcode, List.append_assoc line, List.singleton_append]
    · rw [hself] at hcode
      exact ⟨p, [], code, rest, by rw [List.nil_append, hcode], Or.inr ⟨rfl, hcode ▸ hlast⟩⟩

theorem fencedCode?_eq_some_iff {s code : List Char} :
    fencedCode? s = some code ↔ ∃ u r rest, divide? fence s = some (u, r) ∧
      divide? fence (behindHint r) = some (code, rest) := by
  rw [fencedCode?]
  cases divide? fence s with
  | none => simp
  | some found =>
    obtain ⟨u, r⟩ := found
    simp [Option.map_eq_some_iff]

/-- **Code is found in the texts with code between two fences, and in no others.** -/
theorem fencedCode?_eq_none_iff {s : List Char} : fencedCode? s = none ↔ ¬IsFenced s := by
  rw [isFenced_iff]
  constructor
  · rintro hnone ⟨p, z, rfl, hz⟩
    -- the first fence may be another one, in front of this one or over some of its letters
    cases hfirst : divide? fence (p ++ (fence ++ z)) with
    | none =>
      rw [divide?_eq_none_iff, contains_append] at hfirst
      cases hfirst
    | some found =>
      obtain ⟨u, r⟩ := found
      obtain ⟨x, -, rfl⟩ := exists_of_divide? hfirst
      have hsecond := contains_behindHint_append hz x
      cases hcode : divide? fence (behindHint (x ++ z)) with
      | none =>
        rw [divide?_eq_none_iff, hsecond] at hcode
        cases hcode
      | some found =>
        have hsome := fencedCode?_eq_some_iff.2 ⟨u, x ++ z, found.2, hfirst, hcode⟩
        rw [hnone] at hsome
        cases hsome
  · intro hfenced
    by_contra hne
    obtain ⟨code, hcode⟩ := Option.ne_none_iff_exists'.1 hne
    obtain ⟨u, r, rest, hfirst, hsecond⟩ := fencedCode?_eq_some_iff.1 hcode
    refine hfenced ⟨u, r, (append_of_divide? hfirst).symm, ?_⟩
    rw [← append_of_divide? hsecond]
    exact contains_append code rest

/-- **Code put between fences is found**, whatever stands around it.  In front of the first fence is
no other one, and the code does not go on with letters of the second. -/
theorem fencedCode?_append {p hint code : List Char} (hp : contains fence p = false)
    (hhint : '\n' ∉ hint) (hcode : contains fence code = false)
    (hlast : code.getLast? ≠ some '\x60') (rest : List Char) :
    fencedCode? (p ++ (fence ++ (hint ++ '\n' :: (code ++ (fence ++ rest))))) = some code := by
  cases hfirst : divide? fence (p ++ (fence ++ (hint ++ '\n' :: (code ++ (fence ++ rest))))) with
  | none =>
    rw [divide?_eq_none_iff, contains_append] at hfirst
    cases hfirst
  | some found =>
    obtain ⟨u, r⟩ := found
    obtain ⟨x, hx, rfl⟩ := exists_suffix_of_divide? hp hfirst
    -- what is left of the fence joins its line
    have hline : '\n' ∉ x ++ hint := by
      rw [List.mem_append, not_or]
      exact ⟨fun h => absurd (hx.subset h) (by decide), hhint⟩
    refine fencedCode?_eq_some_iff.2 ⟨u, _, rest, hfirst, ?_⟩
    rw [← List.append_assoc, behindHint_append hline]
    refine divide?_append_of_getLast? hcode (fun c hc hmem => hlast ?_) rest
    have hletter : ∀ c ∈ fence, c = '\x60' := forall_mem_of_all (by decide)
    rw [← hletter c hmem]
    exact hc

theorem isInfix_of_fencedCode? {s code : List Char} (h : fencedCode? s = some code) :
    code <:+: s ∧ contains fence code = false := by
  obtain ⟨u, r, rest, hfirst, hsecond⟩ := fencedCode?_eq_some_iff.1 h
  refine ⟨?_, contains_eq_false_of_divide? (by decide) hsecond⟩
  have hcode : code <+: behindHint r := ⟨fence ++ rest, append_of_divide? hsecond⟩
  have hr : r <:+ s := ⟨u ++ fence, by rw [List.append_assoc, append_of_divide? hfirst]⟩
  exact hcode.isInfix.trans ((behindHint_isSuffix r).isInfix.trans hr.isInfix)

/-! ### The code of a response -/

theorem extractCode_of_fencedCode? {r code : List Char} (h : fencedCode? (trim r) = some code) :
    extractCode r = trim code := by
  rw [extractCode, h]

theorem extractCode_of_not_isFenced {r : List Char} (h : ¬IsFenced (trim r)) :
    extractCode r = trim r := by
  rw [extractCode, fencedCode?_eq_none_iff.2 h]

/-- Trimming a response leaves its fences and what stands between them. -/
theorem trim_fenced (p hint code rest : List Char) :
    trim (p ++ (fence ++ (hint ++ '\n' :: (code ++ (fence ++ rest))))) =
      trimStart p ++ (fence ++ (hint ++ '\n' :: (code ++ (fence ++ trimEnd rest)))) := by
  have hends : ∀ c ∈ fence, isBlank c = false := forall_mem_of_all (by decide)
  have hhead : ∀ c ∈ (fence ++ (hint ++ '\n' :: (code ++ fence))).head?, isBlank c = false := by
    rw [List.head?_append_of_ne_nil fence (by decide)]
    exact fun c hc => hends c (List.mem_of_mem_head? hc)
  have hlast : ∀ c ∈ (fence ++ (hint ++ '\n' :: (code ++ fence))).getLast?,
      isBlank c = false := by
    rw [← List.cons_append, ← List.append_assoc, ← List.append_assoc,
      List.getLast?_append_of_ne_nil _ (by decide : fence ≠ [])]
    exact fun c hc => hends c (List.mem_of_getLast? hc)
  have htrim := trim_append_append (List.append_ne_nil_of_left_ne_nil (by decide) _) hhead hlast p
    rest
  simpa using htrim

/-- A text without a fence and without blanks at its ends is its own code. -/
theorem extractCode_of_contains_eq_false {s : List Char} (hs : contains fence s = false)
    (htrim : trim s = s) : extractCode s = s := by
  rw [extractCode, htrim, fencedCode?, divide?_eq_none_iff.2 hs]

/-- The code of a response is trimmed, and it is the response or has no fence. -/
theorem extractCode_cases (r : List Char) :
    (¬IsFenced (trim r) ∧ extractCode r = trim r) ∨
      ∃ code, code <:+: r ∧ contains fence code = false ∧ extractCode r = trim code := by
  cases h : fencedCode? (trim r) with
  | none =>
    have hnone := fencedCode?_eq_none_iff.1 h
    exact Or.inl ⟨hnone, extractCode_of_not_isFenced hnone⟩
  | some code =>
    obtain ⟨hpart, hfence⟩ := isInfix_of_fencedCode? h
    exact Or.inr ⟨code, hpart.trans (trim_isInfix r), hfence, extractCode_of_fencedCode? h⟩

theorem extractCode_isInfix (r : List Char) : extractCode r <:+: r := by
  obtain ⟨-, h⟩ | ⟨code, hpart, -, h⟩ := extractCode_cases r
  · rw [h]
    exact trim_isInfix r
  · rw [h]
    exact (trim_isInfix code).trans hpart

theorem trim_extractCode (r : List Char) : trim (extractCode r) = extractCode r := by
  obtain ⟨-, h⟩ | ⟨code, -, -, h⟩ := extractCode_cases r
  · rw [h, trim_trim]
  · rw [h, trim_trim]

theorem extractCode_extractCode (r : List Char) :
    extractCode (extractCode r) = extractCode r := by
  obtain ⟨hnone, h⟩ | ⟨code, -, hfence, h⟩ := extractCode_cases r
  · rw [h, extractCode_of_not_isFenced (by rwa [trim_trim]), trim_trim]
  · rw [h]
    exact extractCode_of_contains_eq_false
      (contains_eq_false_of_isInfix (trim_isInfix code) hfence) (trim_trim code)

/-- **The code of a response.**  What is put between two fences comes back without the blanks at its
ends, whatever stands around the fences.  The code of any response is a part of it without blanks at
its ends; it is all of the response where there is no code between two fences; and code is its own
code. -/
theorem extractCode_recovers :
    (∀ p hint code rest, contains fence p = false → '\n' ∉ hint → contains fence code = false →
      code.getLast? ≠ some '\x60' →
        extractCode (p ++ (fence ++ (hint ++ '\n' :: (code ++ (fence ++ rest))))) = trim code) ∧
    ∀ r, extractCode r <:+: r ∧ (∀ c ∈ (extractCode r).head?, isBlank c = false) ∧
      (∀ c ∈ (extractCode r).getLast?, isBlank c = false) ∧
      (¬IsFenced (trim r) → extractCode r = trim r) ∧
      extractCode (extractCode r) = extractCode r := by
  refine ⟨fun p hint code rest hp hhint hcode hlast => ?_, fun r => ⟨extractCode_isInfix r, ?_, ?_,
    extractCode_of_not_isFenced, extractCode_extractCode r⟩⟩
  · have hfree : contains fence (trimStart p) = false :=
      contains_eq_false_of_isInfix (List.dropWhile_suffix isBlank).isInfix hp
    refine extractCode_of_fencedCode? ?_
    rw [trim_fenced, fencedCode?_append hfree hhint hcode hlast]
  · rw [← trim_extractCode]
    exact head?_trim _
  · rw [← trim_extractCode]
    exact getLast?_trim _

/-- A backquote in front of the first fence, one on its line and blanks around the code; and a
response with a fence that nothing closes. -/
theorem extractCode_recovers_backquotes :
    (contains fence "Use `".toList = false ∧ '\n' ∉ "html `x```".toList ∧
      contains fence "\n<p>``</p>\n".toList = false ∧
      "\n<p>``</p>\n".toList.getLast? ≠ some '\x60' ∧
      extractCode ("Use `".toList ++ (fence ++ ("html `x```".toList ++ '\n' ::
        ("\n<p>``</p>\n".toList ++ (fence ++ "`` ok".toList))))) = "<p>``</p>".toList) ∧
    ¬IsFenced (trim " ```html\n<p> ".toList) ∧
      extractCode " ```html\n<p> ".toList = "```html\n<p>".toList := by
  have hp : contains fence "Use `".toList = false := by decide +kernel
  have hhint : '\n' ∉ "html `x```".toList := by decide +kernel
  have hcode : contains fence "\n<p>``</p>\n".toList = false := by decide +kernel
  have hlast : "\n<p>``</p>\n".toList.getLast? ≠ some '\x60' := by decide +kernel
  have hopen : ¬IsFenced (trim " ```html\n<p> ".toList) :=
    fencedCode?_eq_none_iff.1 (by decide +kernel)
  refine ⟨⟨hp, hhint, hcode, hlast, ?_⟩, hopen, ?_⟩
  · rw [extractCode_recovers.1 _ _ _ _ hp hhint hcode hlast]
    decide +kernel
  · rw [(extractCode_recovers.2 _).2.2.2.1 hopen]
    decide +kernel

end Prompt
end SceneMarkup
