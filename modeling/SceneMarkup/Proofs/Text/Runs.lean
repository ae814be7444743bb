import Mathlib.Data.List.DropRight
import Mathlib.Data.List.TakeWhile
import SceneMarkup.Text.Blank

/-!
# Runs in front of more text

A run of characters of a kind is as long as it can be.  When more text is put behind, a run that ends
before the seam stays as it is, and one that reaches up to the seam goes on with the text behind.

## Main results

* `append_cons_inj`, `append_cons_inj_of_not_mem` — the first character of a kind divides a text in
  one way only.
* `append_cons_cases` — of two places in a list one stands behind the other, or they are the same.
* `append_cons_cases_of_not_mem` — behind the last place of a letter there is no other one.
* `forall_blank` — what holds of all blank code points holds of all blanks.
* `run_induction` — induction on a text by its characters of a kind.
* `takeWhile_append_of_dropWhile` — a run that ends before the seam.
* `takeWhile_append_of_stops` — a run in front of a text that does not go on with it.
* `blanks_append_inj`, `eq_nil_of_blanks_behind` — blanks in front of a text and behind it.
* `trimStart_append_of_eq_cons`, `trimStart_append_of_eq_nil` — leading blanks in front of more text.
-/

namespace SceneMarkup
namespace Text

variable {P : Char → Bool}

/-- The character behind a run is of another kind. -/
theorem eq_false_of_dropWhile {s r : List Char} {c : Char} (h : s.dropWhile P = c :: r) :
    P c = false := by
  have := List.head?_dropWhile_not P s
  rw [h] at this
  simpa using this

/-- A text is divided in one way only at the first character of a kind. -/
theorem append_cons_inj {u v s t : List Char} {a b : Char}
    (hu : ∀ c ∈ u, P c = false) (hv : ∀ c ∈ v, P c = false) (ha : P a = true) (hb : P b = true)
    (h : u ++ a :: s = v ++ b :: t) : u = v ∧ a = b ∧ s = t := by
  induction u generalizing v with
  | nil =>
    cases v with
    | nil =>
      obtain ⟨rfl, rfl⟩ := List.cons.inj h
      exact ⟨rfl, rfl, rfl⟩
    | cons d v =>
      obtain ⟨rfl, -⟩ := List.cons.inj h
      rw [hv a List.mem_cons_self] at ha
      cases ha
  | cons c u ih =>
    cases v with
    | nil =>
      obtain ⟨rfl, -⟩ := List.cons.inj h
      rw [hu c List.mem_cons_self] at hb
      cases hb
    | cons d v =>
      obtain ⟨rfl, htail⟩ := List.cons.inj h
      obtain ⟨rfl, hab⟩ := ih (fun x hx => hu x (List.mem_cons_of_mem _ hx))
        (fun x hx => hv x (List.mem_cons_of_mem _ hx)) htail
      exact ⟨rfl, hab⟩

/-- The same for the first place of one character. -/
theorem append_cons_inj_of_not_mem {u v s t : List Char} {b : Char} (hu : b ∉ u) (hv : b ∉ v)
    (h : u ++ b :: s = v ++ b :: t) : u = v ∧ s = t := by
  have hfree : ∀ {u : List Char}, b ∉ u → ∀ c ∈ u, (c == b) = false := by
    intro u hu c hc
    refine beq_false_of_ne ?_
    rintro rfl
    exact hu hc
  obtain ⟨hparts, -, hrest⟩ := append_cons_inj (P := (· == b)) (hfree hu) (hfree hv)
    (beq_self_eq_true b) (beq_self_eq_true b) h
  exact ⟨hparts, hrest⟩

/-- Of two places in a list one stands behind the other, or they are the same. -/
theorem append_cons_cases {α : Type} {xs ys xs' ys' : List α} {x y : α}
    (h : xs ++ x :: xs' = ys ++ y :: ys') :
    (∃ ms, xs = ys ++ y :: ms) ∨ (xs = ys ∧ x = y) ∨ ∃ ms, ys = xs ++ x :: ms := by
  rcases List.append_eq_append_iff.1 h with ⟨ms, rfl, hrest⟩ | ⟨ms, rfl, hrest⟩
  · cases ms with
    | nil => exact Or.inr (Or.inl ⟨(List.append_nil xs).symm, (List.cons.inj hrest).1⟩)
    | cons m ms =>
      obtain ⟨rfl, -⟩ := List.cons.inj hrest
      exact Or.inr (Or.inr ⟨ms, rfl⟩)
  · cases ms with
    | nil => exact Or.inr (Or.inl ⟨List.append_nil ys, (List.cons.inj hrest).1.symm⟩)
    | cons m ms =>
      obtain ⟨rfl, -⟩ := List.cons.inj hrest
      exact Or.inl ⟨ms, rfl⟩

/-- Behind the last place of a letter there is no other one. -/
theorem append_cons_cases_of_not_mem {u v s t : List Char} {b : Char} (ht : b ∉ t)
    (h : u ++ b :: s = v ++ b :: t) :
    (u = v ∧ s = t) ∨ ∃ ms, v = u ++ b :: ms ∧ s = ms ++ b :: t := by
  rcases append_cons_cases h with ⟨ms, rfl⟩ | ⟨rfl, -⟩ | ⟨ms, rfl⟩
  · rw [List.append_assoc, List.append_cancel_left_eq] at h
    rw [← (List.cons.inj h).2] at ht
    exact absurd (List.mem_append_right ms List.mem_cons_self) ht
  · rw [List.append_cancel_left_eq] at h
    exact Or.inl ⟨rfl, (List.cons.inj h).2⟩
  · rw [List.append_assoc, List.append_cancel_left_eq] at h
    exact Or.inr ⟨ms, rfl, (List.cons.inj h).2⟩

/-- Induction on a text by its characters of a kind: a run without any, and one in front of one. -/
theorem run_induction (P : Char → Bool) {Q : List Char → Prop}
    (run : ∀ u, (∀ c ∈ u, P c = false) → Q u)
    (cut : ∀ u b e, (∀ c ∈ u, P c = false) → P b = true → Q e → Q (u ++ b :: e))
    (s : List Char) : Q s := by
  -- the rest behind the first such character is shorter: the induction is on the length
  induction hn : s.length using Nat.strongRecOn generalizing s with
  | ind n ih =>
    have hu : ∀ c ∈ s.takeWhile fun c => !P c, P c = false := by
      intro c hc
      simpa using List.mem_takeWhile_imp hc
    cases hdrop : s.dropWhile fun c => !P c with
    | nil =>
      have hs := List.takeWhile_append_dropWhile (p := fun c => !P c) (l := s)
      rw [hdrop, List.append_nil] at hs
      exact hs ▸ run _ hu
    | cons b e =>
      have hb : P b = true := by simpa using eq_false_of_dropWhile hdrop
      have hlen : e.length < n := by
        have hle : (b :: e).length ≤ s.length := by
          rw [← hdrop]
          exact (List.dropWhile_sublist _).length_le
        rw [List.length_cons] at hle
        omega
      rw [← List.takeWhile_append_dropWhile (p := fun c => !P c) (l := s), hdrop]
      exact cut _ b e hu hb (ih e.length hlen e rfl)

theorem takeWhile_append_of_head? {u z : List Char} (hu : ∀ c ∈ u, P c = true)
    (hz : ∀ c ∈ z.head?, P c = false) :
    (u ++ z).takeWhile P = u ∧ (u ++ z).dropWhile P = z := by
  rw [List.takeWhile_append_of_pos hu, List.dropWhile_append_of_pos hu]
  cases z with
  | nil => simp
  | cons c z =>
    have hc : ¬P c = true := by simp [hz c rfl]
    rw [List.takeWhile_cons_of_neg hc, List.dropWhile_cons_of_neg hc]
    simp

/-- A run that ends before the seam ends there whatever follows. -/
theorem takeWhile_append_of_dropWhile {s r : List Char} {c : Char} (h : s.dropWhile P = c :: r)
    (x : List Char) :
    (s ++ x).takeWhile P = s.takeWhile P ∧ (s ++ x).dropWhile P = c :: (r ++ x) := by
  have hs : s = s.takeWhile P ++ c :: r := by rw [← h, List.takeWhile_append_dropWhile]
  have hrun := takeWhile_append_of_head? (u := s.takeWhile P) (z := c :: (r ++ x))
    (fun d hd => List.mem_takeWhile_imp hd) (by simp [eq_false_of_dropWhile h])
  have hassoc : s.takeWhile P ++ c :: (r ++ x) = s ++ x := by
    conv => rhs; rw [hs]
    simp
  rwa [hassoc] at hrun

/-- A run that goes up to the seam ends there when what follows does not go on with it. -/
theorem takeWhile_append_of_stops {s x : List Char} (hx : ∀ c ∈ x.head?, P c = false) :
    (s ++ x).takeWhile P = s.takeWhile P ∧ (s ++ x).dropWhile P = s.dropWhile P ++ x := by
  cases hs : s.dropWhile P with
  | nil =>
    have hall := List.dropWhile_eq_nil_iff.1 hs
    rw [List.takeWhile_eq_self_iff.2 hall]
    exact takeWhile_append_of_head? hall hx
  | cons c r => exact takeWhile_append_of_dropWhile hs x

/-! ### Blanks at the ends -/

theorem not_mem_of_isBlank {w : List Char} (hw : ∀ c ∈ w, isBlank c = true) {c : Char}
    (hc : isBlank c = false) : c ∉ w := by
  intro hmem
  rw [hw c hmem] at hc
  cases hc

/-- The code points of the blanks. -/
def blankCodes : List Nat :=
  [9, 10, 11, 12, 13, 0x20, 0x85, 0xA0, 0x1680, 0x2000, 0x2001, 0x2002, 0x2003, 0x2004, 0x2005,
   0x2006, 0x2007, 0x2008, 0x2009, 0x200A, 0x2028, 0x2029, 0x202F, 0x205F, 0x3000]

/-- What holds of all blank code points holds of all blanks. -/
theorem forall_blank {P : Char → Prop} (h : ∀ n ∈ blankCodes, P (Char.ofNat n)) {c : Char}
    (hc : isBlank c = true) : P c := by
  have hmem : c.toNat ∈ blankCodes := by
    simp only [isBlank, Bool.or_eq_true, Bool.and_eq_true, decide_eq_true_eq, beq_iff_eq] at hc
    simp only [blankCodes, List.mem_cons, List.not_mem_nil, or_false]
    omega
  have := h c.toNat hmem
  rwa [Char.ofNat_toNat] at this

/-- A text is divided in one way only into blanks and what starts with none. -/
theorem blanks_append_inj {w w' s s' : List Char} (hw : ∀ c ∈ w, isBlank c = true)
    (hw' : ∀ c ∈ w', isBlank c = true) (hs : ∀ c ∈ s.head?, isBlank c = false)
    (hs' : ∀ c ∈ s'.head?, isBlank c = false) (h : w ++ s = w' ++ s') : w = w' ∧ s = s' := by
  obtain ⟨htake, hdrop⟩ := takeWhile_append_of_head? hw hs
  obtain ⟨htake', hdrop'⟩ := takeWhile_append_of_head? hw' hs'
  rw [h] at htake hdrop
  exact ⟨htake.symm.trans htake', hdrop.symm.trans hdrop'⟩

/-- No blanks end a text that ends with another character. -/
theorem eq_nil_of_blanks_behind {s w : List Char} (hw : ∀ c ∈ w, isBlank c = true)
    (h : ∀ c ∈ (s ++ w).getLast?, isBlank c = false) : w = [] := by
  rcases List.eq_nil_or_concat' w with rfl | ⟨w, b, rfl⟩
  · rfl
  · have hb : isBlank b = false := h b (by simp)
    rw [hw b (by simp)] at hb
    cases hb

theorem trimStart_trimStart (s : List Char) : trimStart (trimStart s) = trimStart s :=
  List.dropWhile_idempotent isBlank s

/-- A text that is blank up to some character that is not. -/
theorem trimStart_blanks_append {w : List Char} (hw : ∀ c ∈ w, isBlank c = true) {d : Char}
    (hd : isBlank d = false) (s : List Char) : trimStart (w ++ d :: s) = d :: s := by
  rw [trimStart, List.dropWhile_append_of_pos hw, List.dropWhile_cons_of_neg (by simp [hd])]

theorem trimStart_append_of_eq_nil {s : List Char} (h : trimStart s = []) (x : List Char) :
    trimStart (s ++ x) = trimStart x := by
  rw [trimStart] at h
  rw [trimStart, List.dropWhile_append, h]
  rfl

theorem trimStart_append_of_eq_cons {s u : List Char} {c : Char} (h : trimStart s = c :: u)
    (x : List Char) : trimStart (s ++ x) = c :: (u ++ x) := by
  rw [trimStart] at h
  rw [trimStart, List.dropWhile_append, h]
  rfl

end Text
end SceneMarkup
