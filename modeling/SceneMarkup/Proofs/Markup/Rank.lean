import Mathlib.Algebra.Ring.Int.Defs
import Mathlib.Data.List.Basic
import Mathlib.Data.Prod.Lex
import Mathlib.Order.OrderDual
import SceneMarkup.Markup.House
import SceneMarkup.Proofs.Text.Runs
import SceneMarkup.Proofs.Text.Words

/-!
# The rank of a markup

The house rules of markup undo nothing that an earlier one did, but this cannot be seen from any
single count: one rule quotes values, another one drops words, a third one adds a word.  The rank
puts four counts in an order such that every rule which changes something lowers it, with one
exception: spelling class names in kebab case raises it never.

## Main definitions

* `fleeting` — the number of characters that no rule adds: `1`, the letters `v`, single quotes.
* `quotes` — the number of double quotes.
* `pairs` — how often two double quotes stand side by side.
* `weight` — twice the letters `n`, less one for each word `ico-normal`.
* `rank` — the four together; fewer fleeting characters count most, then more quotes, then more
  pairs, then a smaller weight.

## Main results

* `rank_le_of_weight_le`, `rank_lt_of_weight_lt` — how ranks compare.
* `rank_rewritten_le`, `rank_rewritten_lt` — **a class attribute of less weight lowers the rank.**
-/

namespace SceneMarkup
namespace Markup

open Text

/-- Whether a character is one of those that no rule adds. -/
def isFleeting (c : Char) : Bool := c == '1' || c == 'v' || c == 'V' || c == '\''

/-- How many characters of a text no rule adds. -/
def fleeting (s : List Char) : Nat := s.countP isFleeting

/-- How many double quotes a text has. -/
def quotes (s : List Char) : Nat := s.count '"'

/-- Whether a text starts with a double quote. -/
def startsQuote : List Char → Bool
  | [] => false
  | c :: _ => c == '"'

/-- How often two double quotes stand side by side. -/
def pairs : List Char → Nat
  | [] => 0
  | c :: s => (if c == '"' && startsQuote s then 1 else 0) + pairs s

/-- Whether a character is a letter `n` of either case. -/
def isLetterN (c : Char) : Bool := c == 'n' || c == 'N'

/-- A double quote as a blank. -/
def unquote (c : Char) : Char := if c = '"' then ' ' else c

/-- How many words of a text, quotes taken for blanks, are the class that every icon has. -/
def sizes (s : List Char) : Nat := (words (s.map unquote)).count iconSize

/-- Twice the letters `n` of a text, less the icon sizes. -/
def weight (s : List Char) : Int := 2 * s.countP isLetterN - sizes s

/-- The rank of a markup. -/
def rank (s : List Char) : ℕ ×ₗ ℕᵒᵈ ×ₗ ℕᵒᵈ ×ₗ ℤ :=
  toLex (fleeting s, toLex (OrderDual.toDual (quotes s),
    toLex (OrderDual.toDual (pairs s), weight s)))

/-! ### Comparing ranks -/

section Compare

variable {s t : List Char}

theorem rank_lt_iff : rank s < rank t ↔ fleeting s < fleeting t ∨ fleeting s = fleeting t ∧
    (quotes t < quotes s ∨ quotes s = quotes t ∧
      (pairs t < pairs s ∨ pairs s = pairs t ∧ weight s < weight t)) := by
  simp only [rank, Prod.Lex.toLex_lt_toLex, OrderDual.toDual_lt_toDual, OrderDual.toDual_inj]

theorem rank_lt_of_fleeting_lt (h : fleeting s < fleeting t) : rank s < rank t :=
  rank_lt_iff.2 (Or.inl h)

theorem rank_lt_of_quotes_lt (hf : fleeting s ≤ fleeting t) (hq : quotes t < quotes s) :
    rank s < rank t := by
  rw [rank_lt_iff]
  omega

theorem rank_lt_of_pairs_lt (hf : fleeting s ≤ fleeting t) (hq : quotes t ≤ quotes s)
    (hp : pairs t < pairs s) : rank s < rank t := by
  rw [rank_lt_iff]
  omega

theorem rank_lt_of_weight_lt (hf : fleeting s ≤ fleeting t) (hq : quotes t ≤ quotes s)
    (hp : pairs t ≤ pairs s) (hw : weight s < weight t) : rank s < rank t := by
  rw [rank_lt_iff]
  omega

theorem rank_le_of_weight_le (hf : fleeting s ≤ fleeting t) (hq : quotes t ≤ quotes s)
    (hp : pairs t ≤ pairs s) (hw : weight s ≤ weight t) : rank s ≤ rank t := by
  rw [← not_lt, rank_lt_iff]
  omega

end Compare

/-! ### Counts of parts -/

@[simp] theorem fleeting_nil : fleeting [] = 0 := rfl

@[simp] theorem fleeting_append (s t : List Char) : fleeting (s ++ t) = fleeting s + fleeting t :=
  List.countP_append

@[simp] theorem fleeting_cons (c : Char) (s : List Char) :
    fleeting (c :: s) = fleeting s + if isFleeting c then 1 else 0 :=
  List.countP_cons

@[simp] theorem quotes_nil : quotes [] = 0 := rfl

@[simp] theorem quotes_append (s t : List Char) : quotes (s ++ t) = quotes s + quotes t :=
  List.count_append

@[simp] theorem quotes_cons (c : Char) (s : List Char) :
    quotes (c :: s) = quotes s + if c == '"' then 1 else 0 :=
  List.count_cons

theorem quotes_eq_zero {s : List Char} (h : '"' ∉ s) : quotes s = 0 :=
  List.count_eq_zero.2 h

@[simp] theorem pairs_nil : pairs [] = 0 := rfl

theorem pairs_cons (c : Char) (s : List Char) :
    pairs (c :: s) = (if c == '"' && startsQuote s then 1 else 0) + pairs s := rfl

/-- Putting texts together breaks no pair. -/
theorem pairs_append_le (s t : List Char) : pairs s + pairs t ≤ pairs (s ++ t) := by
  induction s with
  | nil => simp
  | cons c s ih =>
    rw [List.cons_append, pairs_cons, pairs_cons]
    have hstart : startsQuote s = true → startsQuote (s ++ t) = true := by
      cases s with
      | nil => intro h; cases h
      | cons d s => exact id
    cases h : c == '"' && startsQuote s with
    | false => simp only [Bool.false_eq_true, if_false]; omega
    | true =>
      rw [Bool.and_eq_true] at h
      simp only [h.1, hstart h.2, Bool.and_self, if_true]
      omega

theorem pairs_append_of_not_mem_left {m : List Char} (hq : '"' ∉ m) (t : List Char) :
    pairs (m ++ t) = pairs t := by
  induction m with
  | nil => rfl
  | cons c m ih =>
    rw [List.mem_cons, not_or] at hq
    have hc : (c == '"') = false := beq_false_of_ne (Ne.symm hq.1)
    rw [List.cons_append, pairs_cons, hc, ih hq.2]
    simp

/-- A text without quotes in between parts the pairs. -/
theorem pairs_append_of_not_mem {m : List Char} (hm : m ≠ []) (hq : '"' ∉ m) (s t : List Char) :
    pairs (s ++ (m ++ t)) = pairs s + pairs t := by
  obtain ⟨d, m', rfl⟩ := List.exists_cons_of_ne_nil hm
  have hd : (d == '"') = false := by
    rw [List.mem_cons, not_or] at hq
    exact beq_false_of_ne (Ne.symm hq.1)
  induction s with
  | nil => rw [List.nil_append, pairs_append_of_not_mem_left hq, pairs_nil, Nat.zero_add]
  | cons c s ih =>
    have hstart : startsQuote (s ++ (d :: m' ++ t)) = startsQuote s := by
      cases s with
      | nil => exact hd
      | cons _ _ => rfl
    rw [List.cons_append, pairs_cons, pairs_cons, hstart, ih]
    omega

/-! ### Weights -/

/-- The letters `n` of a text. -/
theorem countP_unquote (s : List Char) : (s.map unquote).countP isLetterN = s.countP isLetterN := by
  rw [List.countP_map]
  refine List.countP_congr fun c _ => ?_
  by_cases hc : c = '"'
  · subst hc
    decide
  · simp [unquote, hc]

theorem map_unquote_of_not_mem {s : List Char} (h : '"' ∉ s) : s.map unquote = s := by
  induction s with
  | nil => rfl
  | cons c s ih =>
    rw [List.mem_cons, not_or] at h
    rw [List.map_cons, ih h.2, unquote, if_neg (Ne.symm h.1)]

theorem unquote_of_isBlank {c : Char} (h : isBlank c = true) : unquote c = c := by
  rw [unquote, if_neg]
  rintro rfl
  exact absurd h (by decide)

theorem sizes_append_blank {c : Char} (hc : isBlank c = true) (s t : List Char) :
    sizes (s ++ c :: t) = sizes s + sizes t := by
  rw [sizes, List.map_append, List.map_cons, unquote_of_isBlank hc, words_append_blank hc,
    List.count_append, ← sizes, ← sizes]

theorem sizes_append_quote (s t : List Char) : sizes (s ++ '"' :: t) = sizes s + sizes t := by
  have hq : unquote '"' = ' ' := rfl
  rw [sizes, List.map_append, List.map_cons, hq, words_append_blank isBlank_space,
    List.count_append, ← sizes, ← sizes]

/-- Each word `ico-normal` has a letter `n`. -/
theorem count_iconSize_le (ws : List (List Char)) :
    ws.count iconSize ≤ ws.flatten.countP isLetterN := by
  induction ws with
  | nil => exact Nat.le_refl _
  | cons w ws ih =>
    rw [List.count_cons, List.flatten_cons, List.countP_append]
    cases h : w == iconSize with
    | false => simp only [Bool.false_eq_true, if_false]; omega
    | true =>
      rw [eq_of_beq h]
      have hn : iconSize.countP isLetterN = 1 := by decide
      simp only [if_true]
      omega

theorem sizes_le (s : List Char) : sizes s ≤ s.countP isLetterN := by
  calc sizes s ≤ (words (s.map unquote)).flatten.countP isLetterN := count_iconSize_le _
    _ = ((s.map unquote).filter fun c => !isBlank c).countP isLetterN := by rw [flatten_words]
    _ ≤ (s.map unquote).countP isLetterN := List.filter_sublist.countP_le
    _ = s.countP isLetterN := countP_unquote s

theorem weight_nonneg (s : List Char) : 0 ≤ weight s := by
  have := sizes_le s
  rw [weight]
  omega

theorem weight_le (s : List Char) : weight s ≤ 2 * s.countP isLetterN := by
  rw [weight]
  omega

theorem isLetterN_of_isBlank (c : Char) (h : isBlank c = true) : isLetterN c = false := by
  cases hn : isLetterN c with
  | false => rfl
  | true =>
    simp only [isLetterN, Bool.or_eq_true, beq_iff_eq] at hn
    rcases hn with rfl | rfl <;> exact absurd h (by decide)

theorem weight_append_blank {c : Char} (hc : isBlank c = true) (s t : List Char) :
    weight (s ++ c :: t) = weight s + weight t := by
  rw [weight, weight, weight, sizes_append_blank hc, List.countP_append, List.countP_cons,
    isLetterN_of_isBlank c hc]
  simp only [Bool.false_eq_true, if_false]
  omega

theorem weight_joinWith (ls : List (List Char)) :
    weight (joinWith [' '] ls) = (ls.map weight).sum := by
  induction ls with
  | nil => rfl
  | cons l ls ih =>
    cases ls with
    | nil => simp
    | cons l' ls =>
      rw [joinWith_cons_cons, List.singleton_append, weight_append_blank isBlank_space, ih]
      rfl

/-- The weight of a single word. -/
theorem weight_word {w : List Char} (hne : w ≠ []) (hb : ∀ c ∈ w, isBlank c = false)
    (hq : '"' ∉ w) :
    weight w = 2 * w.countP isLetterN - if w = iconSize then 1 else 0 := by
  have hsizes : sizes w = if w = iconSize then 1 else 0 := by
    rw [sizes, map_unquote_of_not_mem hq, words_run hne hb, List.count_singleton]
    by_cases h : w = iconSize
    · simp [h]
    · simp [h]
  rw [weight, hsizes]
  split <;> rfl

/-- The weight of a text without quotes is that of its words. -/
theorem weight_eq_sum {v : List Char} (hq : '"' ∉ v) : weight v = ((words v).map weight).sum := by
  have key : ∀ ws : List (List Char), (∀ w ∈ ws, w ∈ words v) →
      (ws.map weight).sum = 2 * ws.flatten.countP isLetterN - ws.count iconSize := by
    intro ws hws
    induction ws with
    | nil => rfl
    | cons w ws ih =>
      have hw := hws w List.mem_cons_self
      obtain ⟨hne, hb⟩ := not_isBlank_of_mem_words hw
      have hqw : '"' ∉ w := by
        intro h
        have hmem : '"' ∈ (words v).flatten := List.mem_flatten.2 ⟨w, hw, h⟩
        rw [flatten_words] at hmem
        exact hq (List.mem_filter.1 hmem).1
      rw [List.map_cons, List.sum_cons, weight_word hne hb hqw,
        ih fun x hx => hws x (List.mem_cons_of_mem _ hx), List.flatten_cons, List.countP_append,
        List.count_cons]
      by_cases h : w = iconSize
      · simp only [h, if_true, beq_self_eq_true]
        omega
      · simp only [h, if_false, beq_eq_false_iff_ne.2 h, Bool.false_eq_true]
        omega
  have hcount : (words v).flatten.countP isLetterN = v.countP isLetterN := by
    rw [List.countP_eq_length_filter, List.countP_eq_length_filter,
      filter_flatten_words isLetterN_of_isBlank]
  rw [key _ fun _ h => h, hcount, weight, sizes, map_unquote_of_not_mem hq]

/-! ### Attributes -/

/-- What is put behind a text ends no word `ico-normal` that it begins, unless it ends like one. -/
theorem exists_sizes_append (s : List Char) :
    ∃ k, ∀ z e, z ≠ [] → (∀ c ∈ z, isBlank c = false ∧ c ≠ '"') → z.getLast? ≠ some 'l' →
      IsApart e → sizes (s ++ (z ++ e)) = k + sizes e := by
  obtain ⟨ws, l, h⟩ := words_append_word (s.map unquote)
  refine ⟨ws.count iconSize, fun z e hz hc hl he => ?_⟩
  have hq : '"' ∉ z := fun hmem => (hc _ hmem).2 rfl
  have he' : IsApart (e.map unquote) := by
    intro c hmem
    rw [List.head?_map] at hmem
    obtain ⟨d, hd, rfl⟩ := Option.map_eq_some_iff.1 hmem
    rw [unquote_of_isBlank (he d hd)]
    exact he d hd
  have hne : (l ++ z == iconSize) = false := by
    refine beq_false_of_ne fun heq => hl ?_
    rw [← List.getLast?_append_of_ne_nil l hz, heq]
    decide
  rw [sizes, List.map_append, List.map_append, map_unquote_of_not_mem hq,
    h z _ hz (fun c hmem => (hc c hmem).1) he', List.count_append, List.count_cons, hne, ← sizes]
  simp

/-- The name of an attribute as far as the rank can tell it from `class`. -/
structure IsFaint (name : List Char) : Prop where
  /-- There is a name. -/
  ne_nil : name ≠ []
  /-- It is one word without quotes. -/
  solid : ∀ c ∈ name, isBlank c = false ∧ c ≠ '"'
  /-- It has no letter `n`. -/
  light : ∀ c ∈ name, isLetterN c = false
  /-- It does not end like `ico-normal`. -/
  last : name.getLast? ≠ some 'l'

theorem IsFaint.not_mem_quote {name : List Char} (h : IsFaint name) : '"' ∉ name :=
  fun hmem => (h.solid _ hmem).2 rfl

theorem isFaint_class : IsFaint "class".toList :=
  ⟨by decide, forall_mem_of_all (by decide), forall_mem_of_all (by decide), by decide⟩

theorem sizes_eq_zero {s : List Char} (h : ∀ c ∈ s, isLetterN c = false) : sizes s = 0 := by
  have hle := sizes_le s
  rw [List.countP_eq_zero.2 fun c hc => by simp [h c hc]] at hle
  omega

theorem not_quote_of_isBlank {c : Char} (h : isBlank c = true) : c ≠ '"' := by
  rintro rfl
  exact absurd h (by decide)

theorem not_isFleeting_of_isBlank {c : Char} (h : isBlank c = true) : isFleeting c = false := by
  cases hc : isFleeting c with
  | false => rfl
  | true =>
    simp only [isFleeting, Bool.or_eq_true, beq_iff_eq] at hc
    rcases hc with ((rfl | rfl) | rfl) | rfl <;> exact absurd h (by decide)

/-- Up to the equals sign of an assignment there is no double quote. -/
theorem not_mem_assigned {name w₁ w₂ : List Char} (hname : '"' ∉ name)
    (hw₁ : ∀ c ∈ w₁, isBlank c = true) (hw₂ : ∀ c ∈ w₂, isBlank c = true) :
    '"' ∉ name ++ (w₁ ++ '=' :: w₂) := by
  simp [hname, not_mem_of_isBlank hw₁ (c := '"') (by decide),
    not_mem_of_isBlank hw₂ (c := '"') (by decide)]

section Attribute

/-- A text with an attribute as it may be written in a tag: `A` in front, `B` behind, and the blanks
`w₁` and `w₂` around the equals sign. -/
def written (A name w₁ w₂ v B : List Char) : List Char :=
  A ++ (name ++ (w₁ ++ '=' :: (w₂ ++ '"' :: (v ++ '"' :: B))))

/-- A text with a class attribute as the house rules write it. -/
def rewritten (A u B : List Char) : List Char :=
  A ++ ("class=".toList ++ '"' :: (u ++ '"' :: B))

variable {A B name u v w₁ w₂ : List Char} (hname : IsFaint name)
  (hw₁ : ∀ c ∈ w₁, isBlank c = true) (hw₂ : ∀ c ∈ w₂, isBlank c = true)
include hname hw₁ hw₂

theorem pairs_written (hv : v ≠ []) (hq : '"' ∉ v) :
    pairs (written A name w₁ w₂ v B) = pairs A + pairs ('"' :: B) := by
  have hassoc : written A name w₁ w₂ v B
      = A ++ ((name ++ (w₁ ++ '=' :: w₂)) ++ (['"'] ++ (v ++ '"' :: B))) := by simp [written]
  rw [hassoc, pairs_append_of_not_mem (List.append_ne_nil_of_left_ne_nil hname.ne_nil _)
    (not_mem_assigned hname.not_mem_quote hw₁ hw₂), pairs_append_of_not_mem hv hq]
  simp [pairs_cons, startsQuote]

theorem exists_sizes_written (A : List Char) :
    ∃ k, (∀ v B, sizes (written A name w₁ w₂ v B) = k + (sizes v + sizes B)) ∧
      ∀ u B, sizes (rewritten A u B) = k + (sizes u + sizes B) := by
  obtain ⟨k, hk⟩ := exists_sizes_append A
  have hlight : ∀ c ∈ w₁ ++ '=' :: w₂, isLetterN c = false := by
    intro c hc
    rcases List.mem_append.1 hc with hc | hc
    · exact isLetterN_of_isBlank c (hw₁ c hc)
    · rcases List.mem_cons.1 hc with rfl | hc
      · rfl
      · exact isLetterN_of_isBlank c (hw₂ c hc)
  -- the word that the name belongs to ends with the name or with the equals sign
  have hfront : sizes (A ++ (name ++ (w₁ ++ '=' :: w₂))) = k := by
    cases w₁ with
    | nil =>
      have hassoc : name ++ ([] ++ '=' :: w₂) = (name ++ ['=']) ++ w₂ := by simp
      have happ : IsApart w₂ := fun c hc => hw₂ c (List.mem_of_mem_head? hc)
      rw [hassoc, hk _ _ (by simp) ?_ (by simp) happ, sizes_eq_zero, Nat.add_zero]
      · intro c hc
        exact isLetterN_of_isBlank c (hw₂ c hc)
      · intro c hc
        rcases List.mem_append.1 hc with hc | hc
        · exact hname.solid c hc
        · obtain rfl := List.mem_singleton.1 hc
          decide
    | cons b w₁ =>
      have happ : IsApart (b :: w₁ ++ '=' :: w₂) := isApart_cons (hw₁ b List.mem_cons_self) _
      rw [hk name _ hname.ne_nil hname.solid hname.last happ, sizes_eq_zero hlight, Nat.add_zero]
  refine ⟨k, fun v B => ?_, fun u B => ?_⟩
  · have hassoc : written A name w₁ w₂ v B
        = (A ++ (name ++ (w₁ ++ '=' :: w₂))) ++ '"' :: (v ++ '"' :: B) := by simp [written]
    rw [hassoc, sizes_append_quote, sizes_append_quote, hfront]
  · have hassoc : rewritten A u B
        = (A ++ ("class=".toList ++ [])) ++ '"' :: (u ++ '"' :: B) := by simp [rewritten]
    rw [hassoc, sizes_append_quote, sizes_append_quote,
      hk _ [] (by decide) (forall_mem_of_all (by decide)) (by decide) isApart_nil]
    rfl

/-- How the counts of a text change when a class attribute is rewritten. -/
theorem counts_rewritten (hv : v ≠ []) (hq : '"' ∉ v) :
    fleeting (rewritten A u B) + fleeting v ≤ fleeting (written A name w₁ w₂ v B) + fleeting u ∧
      quotes (written A name w₁ w₂ v B) ≤ quotes (rewritten A u B) ∧
      pairs (written A name w₁ w₂ v B) ≤ pairs (rewritten A u B) ∧
      weight (rewritten A u B) - weight (written A name w₁ w₂ v B) = weight u - weight v := by
  have hclass : fleeting "class=".toList = 0 := by decide
  have hfq : isFleeting '"' = false := by decide
  refine ⟨?_, ?_, ?_, ?_⟩
  · simp only [written, rewritten, fleeting_append, fleeting_cons, hclass, hfq, Bool.false_eq_true,
      if_false]
    omega
  · have hassoc : written A name w₁ w₂ v B
        = A ++ ((name ++ (w₁ ++ '=' :: w₂)) ++ '"' :: (v ++ '"' :: B)) := by simp [written]
    simp only [hassoc, rewritten, quotes_append _ _, quotes_cons, quotes_eq_zero hq]
    have := quotes_eq_zero (not_mem_assigned hname.not_mem_quote hw₁ hw₂)
    simp only [quotes_append, quotes_cons] at this
    omega
  · rw [pairs_written hname hw₁ hw₂ hv hq, rewritten]
    have h₁ := pairs_append_le A ("class=".toList ++ '"' :: (u ++ '"' :: B))
    have h₂ := pairs_append_le ("class=".toList ++ '"' :: u) ('"' :: B)
    simp only [List.append_assoc, List.cons_append] at h₂
    omega
  · obtain ⟨k, hwritten, hrewritten⟩ := exists_sizes_written hname hw₁ hw₂ A
    have hzero : ∀ {s : List Char}, (∀ c ∈ s, isLetterN c = false) → s.countP isLetterN = 0 :=
      fun h => List.countP_eq_zero.2 fun c hc => by simp [h c hc]
    have h₁ := hzero hname.light
    have h₂ := hzero fun c hc => isLetterN_of_isBlank c (hw₁ c hc)
    have h₃ := hzero fun c hc => isLetterN_of_isBlank c (hw₂ c hc)
    have h₄ : "class=".toList.countP isLetterN = 0 := by decide
    have h₅ : isLetterN '=' = false := by decide
    have h₆ : isLetterN '"' = false := by decide
    simp only [weight, hwritten, hrewritten]
    simp only [written, rewritten, List.countP_append, List.countP_cons, h₁, h₂, h₃, h₄, h₅, h₆,
      Bool.false_eq_true, if_false]
    omega

/-- A class attribute that is rewritten to a value of no more weight does not raise the rank. -/
theorem rank_rewritten_le (hv : v ≠ []) (hq : '"' ∉ v) (hf : fleeting u ≤ fleeting v)
    (hw : weight u ≤ weight v) :
    rank (rewritten A u B) ≤ rank (written A name w₁ w₂ v B) := by
  obtain ⟨h₁, h₂, h₃, h₄⟩ := counts_rewritten (A := A) (B := B) (u := u) hname hw₁ hw₂ hv hq
  exact rank_le_of_weight_le (by omega) h₂ h₃ (by omega)

/-- A class attribute that is rewritten to a value of less weight lowers the rank. -/
theorem rank_rewritten_lt (hv : v ≠ []) (hq : '"' ∉ v) (hf : fleeting u ≤ fleeting v)
    (hw : weight u < weight v) :
    rank (rewritten A u B) < rank (written A name w₁ w₂ v B) := by
  obtain ⟨h₁, h₂, h₃, h₄⟩ := counts_rewritten (A := A) (B := B) (u := u) hname hw₁ hw₂ hv hq
  exact rank_lt_of_weight_lt (by omega) h₂ h₃ (by omega)

end Attribute

end Markup
end SceneMarkup
