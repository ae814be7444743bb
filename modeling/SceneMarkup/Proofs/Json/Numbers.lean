import Mathlib.Algebra.Ring.Nat
import Mathlib.Tactic.SplitIfs
import SceneMarkup.Json.Printer
import SceneMarkup.Proofs.Json.Blanks

/-!
# Numbers inside a JSON text

A number that a reader finds at the end of a text is also found where the text goes on, unless it
goes on with something that belongs to the number.  What is known about the texts of numbers on
their own is known in this way about the numbers inside a document.  Places do not matter for what
is read, and neither do blanks in front of it.

## Main definitions

* `Json.numbers` — the numbers in a value.
* `EndsNumber` — what may follow a number.
* `Extends` — one reading is another one in front of some text.
* `Number.ReadsBack` — a number is read from its own text.

## Main results

* `readNumber_extends` — numbers are read in front of a text as at the end.
* **`Number.ReadsBack.readValue`** — a number that is read from its own text is read from a document
  that has this text in it.
* `readsBack_ofNat` — a natural number of sixty-four bits is read from its own text.
-/

namespace SceneMarkup
namespace Json

/-! ### The numbers in a value -/

mutual

/-- The numbers in a value. -/
def numbers : Json → List Number
  | .number n => [n]
  | .array vs => numbersOfItems vs
  | .object ms => numbersOfMembers ms
  | .null => []
  | .bool _ => []
  | .string _ => []

/-- The numbers in some values. -/
def numbersOfItems : List Json → List Number
  | [] => []
  | v :: vs => numbers v ++ numbersOfItems vs

/-- The numbers in the values of some members. -/
def numbersOfMembers : List (String × Json) → List Number
  | [] => []
  | (_, v) :: ms => numbers v ++ numbersOfMembers ms

end

/-! ### Readings in front of a text -/

/-- What may follow a number: nothing that could belong to it. -/
def EndsNumber (r : List Char) : Prop :=
  ∀ x ∈ r.head?, x.isDigit = false ∧ x ≠ '.' ∧ x ≠ 'e' ∧ x ≠ 'E'

theorem endsNumber_nil : EndsNumber [] := by
  intro x hx
  cases hx

theorem EndsNumber.cons {x : Char} {r : List Char} (h : EndsNumber (x :: r)) :
    x.isDigit = false ∧ x ≠ '.' ∧ x ≠ 'e' ∧ x ≠ 'E' := h x rfl

theorem EndsNumber.not_exponent {x : Char} {r : List Char} (h : EndsNumber (x :: r)) :
    ¬ (x = 'e' ∨ x = 'E') := by
  rintro (he | he)
  · exact h.cons.2.2.1 he
  · exact h.cons.2.2.2 he

/-- Whatever the reading `x` finds, the reading `y` finds, and `r` remains behind what remains for
`x`. -/
def Extends {α : Type} (r : List Char) (x y : Reading α) : Prop :=
  ∀ a c, x = .ok (a, c) → ∃ q, y = .ok (a, ⟨c.rest ++ r, q⟩)

theorem extends_error {α : Type} {r : List Char} (f : Fault) (y : Reading α) :
    Extends r (.error f) y := by
  intro a c h
  cases h

theorem extends_ok {α : Type} {r : List Char} (a : α) (t : List Char) (p q : Position) :
    Extends r (.ok (a, ⟨t, p⟩)) (.ok (a, ⟨t ++ r, q⟩)) := by
  intro a' c h
  cases h
  exact ⟨q, rfl⟩

/-! ### Digits -/

theorem ne_of_isDigit {x y : Char} (hx : x.isDigit = true) (hy : y.isDigit = false) : x ≠ y := by
  rintro rfl
  rw [hx] at hy
  cases hy

theorem isBlank_of_isDigit {x : Char} (hx : x.isDigit = true) : isBlank x = false := by
  have hne : ∀ y : Char, y.isDigit = false → x ≠ y := fun y hy => ne_of_isDigit hx hy
  simp only [isBlank, beq_eq_false_iff_ne.2 (hne ' ' rfl), beq_eq_false_iff_ne.2 (hne '\t' rfl),
    beq_eq_false_iff_ne.2 (hne '\n' rfl), beq_eq_false_iff_ne.2 (hne '\r' rfl), Bool.or_self]

theorem digitsFrom_append {r : List Char} (hr : EndsNumber r) (t : List Char) (p q : Position) :
    ∃ ds s p' q', digitsFrom p t = (ds, ⟨s, p'⟩) ∧
      digitsFrom q (t ++ r) = (ds, ⟨s ++ r, q'⟩) := by
  induction t generalizing p q with
  | nil =>
    refine ⟨[], [], p, q, rfl, ?_⟩
    cases r with
    | nil => rfl
    | cons x r =>
      rw [List.nil_append, digitsFrom, if_neg (by rw [hr.cons.1]; exact Bool.false_ne_true)]
  | cons x t ih =>
    by_cases hx : x.isDigit = true
    · obtain ⟨ds, s, p', q', h₁, h₂⟩ := ih (p.past x) (q.past x)
      refine ⟨x :: ds, s, p', q', ?_, ?_⟩
      · rw [digitsFrom, if_pos hx, h₁]
      · rw [List.cons_append, digitsFrom, if_pos hx, h₂]
    · refine ⟨[], x :: t, p, q, ?_, ?_⟩
      · rw [digitsFrom, if_neg hx]
      · rw [List.cons_append, digitsFrom, if_neg hx]

theorem digits_append {r : List Char} (hr : EndsNumber r) (t : List Char) (p q : Position) :
    ∃ ds s p' q', (Cursor.mk t p).digits = (ds, ⟨s, p'⟩) ∧
      (Cursor.mk (t ++ r) q).digits = (ds, ⟨s ++ r, q'⟩) := digitsFrom_append hr t p q

/-- Digits are read up to the first character that is none. -/
theorem digitsFrom_append_of_isDigit {ds r : List Char} (hds : ∀ d ∈ ds, d.isDigit = true)
    (hr : EndsNumber r) (p : Position) : ∃ q, digitsFrom p (ds ++ r) = (ds, ⟨r, q⟩) := by
  induction ds generalizing p with
  | nil =>
    obtain ⟨_, _, _, q, h₁, h₂⟩ := digitsFrom_append hr [] p p
    cases h₁
    exact ⟨q, h₂⟩
  | cons d ds ih =>
    have hd : d.isDigit = true := hds d (List.mem_cons_self)
    obtain ⟨q, hq⟩ := ih (fun e he => hds e (List.mem_cons_of_mem d he)) (p.past d)
    refine ⟨q, ?_⟩
    rw [List.cons_append, digitsFrom, if_pos hd, hq]

/-! ### Numbers -/

theorem floatOfParts_extends {r : List Char} (negative : Bool) (whole fraction : List Char)
    (e : Int) (t : List Char) (p q : Position) :
    Extends r (floatOfParts negative whole fraction e ⟨t, p⟩)
      (floatOfParts negative whole fraction e ⟨t ++ r, q⟩) := by
  unfold floatOfParts
  dsimp only
  cases decimalFloat? negative (significand whole fraction).1
    ((significand whole fraction).2 + e) with
  | none => exact extends_error _ _
  | some x => exact extends_ok _ t p q

theorem integerOfParts_extends {r : List Char} (negative : Bool) (whole t : List Char)
    (p q : Position) :
    Extends r (integerOfParts negative whole ⟨t, p⟩)
      (integerOfParts negative whole ⟨t ++ r, q⟩) := by
  unfold integerOfParts
  cases negative with
  | true =>
    by_cases hn : natOfDigits whole = 0 ∨ Nat.pow 2 63 < natOfDigits whole
    · simp only [hn, if_true]
      exact floatOfParts_extends true whole [] 0 t p q
    · simp only [hn, if_true, if_false]
      exact extends_ok _ t p q
  | false =>
    by_cases hn : natOfDigits whole < Nat.pow 2 64
    · simp only [hn, Bool.false_eq_true, if_true, if_false]
      exact extends_ok _ t p q
    · simp only [hn, Bool.false_eq_true, if_false]
      exact floatOfParts_extends false whole [] 0 t p q

/-- The exponent of a number, behind its letter and its sign. -/
def readExponentDigits (negative : Bool) (whole fraction : List Char) (minus : Bool) (c : Cursor) :
    Reading Number :=
  match c.digits with
  | ([], _) =>
    match c.rest with
    | [] => .error (c.fault .eofValue)
    | _ :: _ => .error (c.peekFault .invalidNumber)
  | (ds, behind) =>
    match exponentOverflow? 0 0 ds with
    | some n =>
      if minus || (significand whole fraction).1 == 0 then
        .ok (.real (signedFloat negative 0.0), behind)
      else .error ⟨.numberOutOfRange, positionAfter n c.position c.rest⟩
    | none =>
      let e : Int := natOfDigits ds
      floatOfParts negative whole fraction (if minus then -e else e) behind

theorem readExponent_plus (negative : Bool) (whole fraction t : List Char) (p : Position) :
    readExponent negative whole fraction ⟨'+' :: t, p⟩ =
      readExponentDigits negative whole fraction false ⟨t, p.past '+'⟩ := rfl

theorem readExponent_minus (negative : Bool) (whole fraction t : List Char) (p : Position) :
    readExponent negative whole fraction ⟨'-' :: t, p⟩ =
      readExponentDigits negative whole fraction true ⟨t, p.past '-'⟩ := rfl

theorem readExponent_of_no_sign {x : Char} (h₁ : x ≠ '+') (h₂ : x ≠ '-') (negative : Bool)
    (whole fraction t : List Char) (p : Position) :
    readExponent negative whole fraction ⟨x :: t, p⟩ =
      readExponentDigits negative whole fraction false ⟨x :: t, p⟩ := by
  unfold readExponent
  split
  next minus c h =>
  split at h
  next heq => exact absurd (List.cons.inj heq).1 h₁
  next heq => exact absurd (List.cons.inj heq).1 h₂
  next =>
    cases h
    rfl

theorem readExponentDigits_extends {r : List Char} (hr : EndsNumber r) (negative : Bool)
    (whole fraction : List Char) (minus : Bool) (t : List Char) (p q : Position) :
    Extends r (readExponentDigits negative whole fraction minus ⟨t, p⟩)
      (readExponentDigits negative whole fraction minus ⟨t ++ r, q⟩) := by
  obtain ⟨ds, s, p', q', hp, hq⟩ := digits_append hr t p q
  unfold readExponentDigits
  rw [hp, hq]
  cases ds with
  | nil => cases t <;> exact extends_error _ _
  | cons d ds =>
    simp only
    cases exponentOverflow? 0 0 (d :: ds) with
    | none => exact floatOfParts_extends negative whole fraction _ s p' q'
    | some n =>
      simp only
      by_cases hz : (minus || (significand whole fraction).1 == 0) = true
      · rw [if_pos hz, if_pos hz]
        exact extends_ok _ s p' q'
      · rw [if_neg hz]
        exact extends_error _ _

/-- An exponent is read in front of a text as at the end. -/
theorem readExponent_extends {r : List Char} (hr : EndsNumber r) (negative : Bool)
    (whole fraction t : List Char) (p q : Position) :
    Extends r (readExponent negative whole fraction ⟨t, p⟩)
      (readExponent negative whole fraction ⟨t ++ r, q⟩) := by
  cases t with
  | nil => exact extends_error _ _
  | cons x t =>
    rw [List.cons_append]
    by_cases h₁ : x = '+'
    · rw [h₁, readExponent_plus, readExponent_plus]
      exact readExponentDigits_extends hr negative whole fraction false t _ _
    · by_cases h₂ : x = '-'
      · rw [h₂, readExponent_minus, readExponent_minus]
        exact readExponentDigits_extends hr negative whole fraction true t _ _
      · rw [readExponent_of_no_sign h₁ h₂, readExponent_of_no_sign h₁ h₂]
        exact readExponentDigits_extends hr negative whole fraction false (x :: t) p q

theorem readFraction_extends {r : List Char} (hr : EndsNumber r) (negative : Bool)
    (whole t : List Char) (p q : Position) :
    Extends r (readFraction negative whole ⟨t, p⟩) (readFraction negative whole ⟨t ++ r, q⟩) := by
  obtain ⟨ds, s, p', q', hp, hq⟩ := digits_append hr t p q
  unfold readFraction
  rw [hp, hq]
  cases ds with
  | nil => cases t <;> exact extends_error _ _
  | cons d ds =>
    cases s with
    | nil =>
      cases r with
      | nil => exact floatOfParts_extends negative whole (d :: ds) 0 [] p' q'
      | cons y r =>
        simp only [List.nil_append, hr.not_exponent, if_false]
        exact floatOfParts_extends negative whole (d :: ds) 0 [] p' q'
    | cons y s =>
      simp only [List.cons_append]
      by_cases hy : y = 'e' ∨ y = 'E'
      · rw [if_pos hy, if_pos hy]
        exact readExponent_extends hr negative whole (d :: ds) s _ _
      · rw [if_neg hy, if_neg hy]
        exact floatOfParts_extends negative whole (d :: ds) 0 (y :: s) p' q'

/-- The rest of a number behind the digits that it starts with. -/
def readBehindDigits (negative : Bool) (whole : List Char) (c : Cursor) : Reading Number :=
  match c.rest with
  | [] => integerOfParts negative whole c
  | x :: _ =>
    if x = '.' then readFraction negative whole c.next
    else if x = 'e' ∨ x = 'E' then readExponent negative whole [] c.next
    else integerOfParts negative whole c

theorem readBehindDigits_extends {r : List Char} (hr : EndsNumber r) (negative : Bool)
    (whole t : List Char) (p q : Position) :
    Extends r (readBehindDigits negative whole ⟨t, p⟩)
      (readBehindDigits negative whole ⟨t ++ r, q⟩) := by
  unfold readBehindDigits
  cases t with
  | nil =>
    cases r with
    | nil => exact integerOfParts_extends negative whole [] p q
    | cons y r =>
      simp only [List.nil_append, hr.cons.2.1, hr.not_exponent, if_false]
      exact integerOfParts_extends negative whole [] p q
  | cons y t =>
    simp only [List.cons_append]
    by_cases hdot : y = '.'
    · rw [if_pos hdot, if_pos hdot]
      exact readFraction_extends hr negative whole t _ _
    · rw [if_neg hdot, if_neg hdot]
      by_cases hy : y = 'e' ∨ y = 'E'
      · rw [if_pos hy, if_pos hy]
        exact readExponent_extends hr negative whole [] t _ _
      · rw [if_neg hy, if_neg hy]
        exact integerOfParts_extends negative whole (y :: t) p q

/-- The digits in front of the point of a number: there are some, and a zero is the only one when
it is the first. -/
def IsWhole (ds : List Char) : Prop := ds ≠ [] ∧ ∀ d ds', ds ≠ '0' :: d :: ds'

theorem readNumber_of_isWhole {c c' : Cursor} {ds : List Char} (hds : IsWhole ds)
    (hc : c.digits = (ds, c')) (negative : Bool) :
    readNumber negative c = readBehindDigits negative ds c' := by
  unfold readNumber readBehindDigits
  rw [hc]
  split
  next heq => exact absurd (congrArg Prod.fst heq) hds.1
  next heq => exact absurd (congrArg Prod.fst heq) (hds.2 _ _)
  next heq =>
    cases heq
    rfl

theorem isWhole_of_readNumber {c c' : Cursor} {ds : List Char} {negative : Bool} {n : Number}
    {e : Cursor} (hc : c.digits = (ds, c')) (h : readNumber negative c = .ok (n, e)) :
    IsWhole ds := by
  unfold readNumber at h
  rw [hc] at h
  refine ⟨?_, ?_⟩
  · rintro rfl
    cases hrest : c.rest <;> rw [hrest] at h <;> cases h
  · rintro d ds' rfl
    cases h

/-- Behind its sign, a number is read in front of a text as at the end. -/
theorem readNumber_extends {r : List Char} (hr : EndsNumber r) (negative : Bool)
    (t : List Char) (p q : Position) :
    Extends r (readNumber negative ⟨t, p⟩) (readNumber negative ⟨t ++ r, q⟩) := by
  intro n c h
  obtain ⟨ds, s, p', q', hp, hq⟩ := digits_append hr t p q
  have hds : IsWhole ds := isWhole_of_readNumber hp h
  rw [readNumber_of_isWhole hds hp] at h
  rw [readNumber_of_isWhole hds hq]
  exact readBehindDigits_extends hr negative ds s p' q' n c h

/-! ### Numbers as values -/

theorem readSimple_minus (fuel : Nat) (t : List Char) (p : Position) :
    readSimple fuel ⟨'-' :: t, p⟩ =
      match readNumber true ⟨t, p.past '-'⟩ with
      | .ok (n, c) => .ok (.number n, c)
      | .error e => .error e := rfl

theorem readSimple_of_isDigit {x : Char} (hx : x.isDigit = true) (fuel : Nat) (t : List Char)
    (p : Position) :
    readSimple fuel ⟨x :: t, p⟩ =
      match readNumber false ⟨x :: t, p⟩ with
      | .ok (n, c) => .ok (.number n, c)
      | .error e => .error e := by
  have hne : ∀ y : Char, y.isDigit = false → x ≠ y := fun y hy => ne_of_isDigit hx hy
  unfold readSimple
  refine (if_neg (hne 'n' rfl)).trans ?_
  refine (if_neg (hne 't' rfl)).trans ?_
  refine (if_neg (hne 'f' rfl)).trans ?_
  refine (if_neg (hne '-' rfl)).trans ?_
  exact if_pos hx

/-- A value that starts with neither a sign nor a digit is no number. -/
theorem readSimple_ne_number {x : Char} (hm : x ≠ '-') (hx : x.isDigit = false) (fuel : Nat)
    (t : List Char) (p : Position) (n : Number) (c : Cursor) :
    readSimple fuel ⟨x :: t, p⟩ ≠ .ok (.number n, c) := by
  intro h
  unfold readSimple at h
  simp only [hm, hx, Bool.false_eq_true, if_false] at h
  -- what is left are the words and the strings, and none of them gives a number
  split_ifs at h
  all_goals
    split at h
    · cases h
    · cases h

/-- A number that is the value of a text is read in front of another text, too. -/
theorem readSimple_number_extends {r : List Char} (hr : EndsNumber r) {fuel : Nat} {x : Char}
    {t : List Char} {p : Position} {n : Number} {c : Cursor}
    (h : readSimple fuel ⟨x :: t, p⟩ = .ok (.number n, c)) (fuel' : Nat) (q : Position) :
    ∃ q', readSimple fuel' ⟨x :: t ++ r, q⟩ = .ok (.number n, ⟨c.rest ++ r, q'⟩) := by
  by_cases hm : x = '-'
  · subst hm
    rw [readSimple_minus] at h
    cases hn : readNumber true ⟨t, p.past '-'⟩ with
    | error e => rw [hn] at h; cases h
    | ok a =>
      rw [hn] at h
      cases h
      obtain ⟨q', hq'⟩ := readNumber_extends hr true t _ (q.past '-') _ _ hn
      exact ⟨q', by rw [List.cons_append, readSimple_minus, hq']⟩
  · by_cases hx : x.isDigit = true
    · rw [readSimple_of_isDigit hx] at h
      cases hn : readNumber false ⟨x :: t, p⟩ with
      | error e => rw [hn] at h; cases h
      | ok a =>
        rw [hn] at h
        cases h
        obtain ⟨q', hq'⟩ := readNumber_extends hr false (x :: t) _ q _ _ hn
        exact ⟨q', by rw [List.cons_append, readSimple_of_isDigit hx, ← List.cons_append, hq']⟩
    · exact absurd h (readSimple_ne_number hm (by simpa using hx) fuel t p n c)

/-! ### Numbers in front of a text -/

theorem readValue_of_skipBlanks {c : Cursor} {x : Char} {t : List Char} {p : Position}
    (hc : c.skipBlanks = ⟨x :: t, p⟩) (h₁ : x ≠ '[') (h₂ : x ≠ '\x7b') (fuel : Nat) :
    readValue (fuel + 1) c = readSimple fuel ⟨x :: t, p⟩ := by
  rw [readValue, hc]
  split
  next heq => exact absurd (List.cons.inj heq).1 h₁
  next heq => exact absurd (List.cons.inj heq).1 h₂
  next => rfl

theorem readValue_array (fuel : Nat) {c : Cursor} {t : List Char} {p : Position}
    (hc : c.skipBlanks = ⟨'[' :: t, p⟩) :
    readValue (fuel + 1) c =
      match readItems fuel true ⟨t, p.past '['⟩ with
      | .ok (items, c) => .ok (.array items, c)
      | .error e => .error e := by
  rw [readValue, hc]
  rfl

theorem readValue_object (fuel : Nat) {c : Cursor} {t : List Char} {p : Position}
    (hc : c.skipBlanks = ⟨'\x7b' :: t, p⟩) :
    readValue (fuel + 1) c =
      match readMembers fuel true [] ⟨t, p.past '\x7b'⟩ with
      | .ok (members, c) => .ok (.object members, c)
      | .error e => .error e := by
  rw [readValue, hc]
  rfl

/-- Where a number is read, there is one simple value behind blanks. -/
theorem readSimple_of_readValue {fuel : Nat} {t : List Char} {p : Position} {n : Number}
    {c : Cursor} (h : readValue (fuel + 1) ⟨t, p⟩ = .ok (.number n, c)) :
    ∃ b x s q, AllBlank b ∧ isBlank x = false ∧ x ≠ '[' ∧ x ≠ '\x7b' ∧ t = b ++ x :: s ∧
      readSimple fuel ⟨x :: s, q⟩ = .ok (.number n, c) := by
  rcases skipFrom_cases p t with hall | ⟨b, x, s, q, hb, hx, rfl, hq⟩
  · obtain ⟨q, hq⟩ := skipFrom_of_allBlank hall p
    have hskip : (Cursor.mk t p).skipBlanks = ⟨[], q⟩ := hq
    rw [readValue, hskip] at h
    cases h
  · have hskip : (Cursor.mk (b ++ x :: s) p).skipBlanks = ⟨x :: s, q⟩ := hq
    have h₁ : x ≠ '[' := by
      rintro rfl
      rw [readValue_array fuel hskip] at h
      cases hi : readItems fuel true ⟨s, q.past '['⟩ with
      | error e => rw [hi] at h; cases h
      | ok a => rw [hi] at h; cases h
    have h₂ : x ≠ '\x7b' := by
      rintro rfl
      rw [readValue_object fuel hskip] at h
      cases hi : readMembers fuel true [] ⟨s, q.past '\x7b'⟩ with
      | error e => rw [hi] at h; cases h
      | ok a => rw [hi] at h; cases h
    rw [readValue_of_skipBlanks hskip h₁ h₂] at h
    exact ⟨b, x, s, q, hb, hx, h₁, h₂, rfl, h⟩

/-- A number is read from its own text. -/
def Number.ReadsBack (n : Number) : Prop := read (numberText n) = .ok (.number n)

/-- **Numbers inside a document.**

A number that is read from its own text is read wherever this text stands in front of something that
ends a number.  Blanks may remain, for the reader of a whole text passes over those at its end. -/
theorem Number.ReadsBack.readValue {n : Number} (hn : n.ReadsBack) {r : List Char}
    (hr : EndsNumber r) (fuel : Nat) (q : Position) :
    ∃ b q', AllBlank b ∧
      Json.readValue (fuel + 1) ⟨numberText n ++ r, q⟩ = .ok (.number n, ⟨b ++ r, q'⟩) := by
  have hread : Json.read (numberText n) = .ok (.number n) := hn
  unfold Json.read at hread
  cases hv : Json.readValue (stepsFor (numberText n)) (Cursor.start (numberText n)) with
  | error e => rw [hv] at hread; cases hread
  | ok a =>
    obtain ⟨v, c⟩ := a
    rw [hv] at hread
    simp only at hread
    -- the text is the number between blanks; those behind it are left to the next reader
    cases he : readEnd c with
    | error e => rw [he] at hread; cases hread
    | ok u =>
      rw [he] at hread
      cases hread
      have hblank : AllBlank c.rest := allBlank_of_readEnd he
      obtain ⟨b, x, s, p, hb, hx, h₁, h₂, ht, hs⟩ := readSimple_of_readValue hv
      obtain ⟨q', hq'⟩ := skipFrom_append_of_allBlank hb q (x :: s ++ r)
      rw [List.cons_append, skipFrom_cons_of_not_isBlank hx] at hq'
      have hskip : (Cursor.mk (numberText n ++ r) q).skipBlanks = ⟨x :: (s ++ r), q'⟩ := by
        rw [ht, List.append_assoc]
        exact hq'
      obtain ⟨q'', hq''⟩ := readSimple_number_extends hr hs fuel q'
      refine ⟨c.rest, q'', hblank, ?_⟩
      rw [readValue_of_skipBlanks hskip h₁ h₂]
      exact hq''

/-! ### Natural numbers -/

theorem natOfDigits_eq (ds : List Char) : natOfDigits ds = Nat.ofDigitChars 10 ds 0 := by
  rw [natOfDigits, Nat.ofDigitChars_eq_foldl]
  simp only [Nat.mul_comm]

theorem natOfDigits_toDigits (n : Nat) : natOfDigits (Nat.toDigits 10 n) = n := by
  rw [natOfDigits_eq, Nat.ofDigitChars_ten_toDigits]

/-- Only zero is written with a zero in front. -/
theorem head_toDigits (n : Nat) (hn : 0 < n) : (Nat.toDigits 10 n).head? ≠ some '0' := by
  induction n using Nat.strongRecOn with
  | ind n ih =>
    -- the first digit of a greater number is that of its tenth
    by_cases hlt : n < 10
    · rw [Nat.toDigits_of_lt_base hlt]
      have hall : ∀ k : Nat, k < 10 → 0 < k → k.digitChar ≠ '0' := by decide
      intro h
      exact hall n hlt hn (Option.some.inj h)
    · rw [Nat.toDigits_of_base_le (by decide) (by omega), List.head?_append]
      obtain ⟨d, ds, hds⟩ : ∃ d ds, Nat.toDigits 10 (n / 10) = d :: ds :=
        List.exists_cons_of_ne_nil Nat.toDigits_ne_nil
      have hhead := ih (n / 10) (by omega) (by omega)
      rw [hds] at hhead ⊢
      exact hhead

theorem isWhole_toDigits (n : Nat) : IsWhole (Nat.toDigits 10 n) := by
  refine ⟨Nat.toDigits_ne_nil, ?_⟩
  intro d ds h
  by_cases hn : 0 < n
  · exact head_toDigits n hn (by rw [h]; rfl)
  · obtain rfl : n = 0 := by omega
    rw [Nat.toDigits_zero] at h
    cases h

theorem isDigit_of_mem_toDigits {n : Nat} {c : Char} (h : c ∈ Nat.toDigits 10 n) :
    c.isDigit = true := Nat.isDigit_of_mem_toDigits (by decide) (by decide) h

/-- A natural number of sixty-four bits is read from its own text. -/
theorem readsBack_ofNat {n : Nat} (hn : n < 2 ^ 64) : (Number.integer n).ReadsBack := by
  have htext : numberText (.integer n) = Nat.toDigits 10 n := by
    show (Int.repr (Int.ofNat n)).toList = Nat.toDigits 10 n
    rw [Int.repr, Nat.toList_repr]
  obtain ⟨d, ds, hds⟩ : ∃ d ds, Nat.toDigits 10 n = d :: ds :=
    List.exists_cons_of_ne_nil Nat.toDigits_ne_nil
  have hd : d.isDigit = true := isDigit_of_mem_toDigits (by rw [hds]; exact List.mem_cons_self)
  obtain ⟨q, hq⟩ : ∃ q, (Cursor.mk (Nat.toDigits 10 n ++ []) ⟨1, 0⟩).digits =
      (Nat.toDigits 10 n, ⟨[], q⟩) :=
    digitsFrom_append_of_isDigit (fun c hc => isDigit_of_mem_toDigits hc) endsNumber_nil ⟨1, 0⟩
  rw [List.append_nil] at hq
  have hnumber : readNumber false ⟨d :: ds, ⟨1, 0⟩⟩ = .ok (.integer n, ⟨[], q⟩) := by
    rw [← hds, readNumber_of_isWhole (isWhole_toDigits n) hq]
    show integerOfParts false (Nat.toDigits 10 n) ⟨[], q⟩ = .ok (.integer n, ⟨[], q⟩)
    have hbits : n < Nat.pow 2 64 := hn
    unfold integerOfParts
    simp only [natOfDigits_toDigits, Bool.false_eq_true, if_false, hbits, if_true]
  have hskip : (Cursor.start (d :: ds)).skipBlanks = ⟨d :: ds, ⟨1, 0⟩⟩ :=
    skipFrom_cons_of_not_isBlank (isBlank_of_isDigit hd) ⟨1, 0⟩ ds
  have hvalue : ∀ fuel, readValue (fuel + 1) (Cursor.start (d :: ds)) =
      .ok (.number (.integer n), ⟨[], q⟩) := by
    intro fuel
    rw [readValue_of_skipBlanks hskip (ne_of_isDigit hd rfl) (ne_of_isDigit hd rfl),
      readSimple_of_isDigit hd, hnumber]
  show read (numberText (.integer n)) = .ok (.number (.integer n))
  rw [htext, hds, read, stepsFor, hvalue]
  simp only [readEnd_of_allBlank allBlank_nil q]

end Json
end SceneMarkup
