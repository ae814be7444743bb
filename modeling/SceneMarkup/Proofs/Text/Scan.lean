import Mathlib.Data.List.Basic
import Mathlib.Data.Nat.Basic
import Mathlib.Order.OrderDual
import SceneMarkup.Text.Scan

/-!
# Laws of looking for a form

What a reader takes from a text is a piece in front of what it leaves.  From this one fact about a
reader follow induction principles for the pieces of a text and for the replacement of all
occurrences: it is enough to say what happens at a plain character and at one occurrence.

## Main definitions

* `Recogniser.Consumes` — a reader takes a piece that is not empty and leaves the rest as it is.
* `ComesTo` — what may stand in front of the places that a reader comes to.

## Main results

* `pieces_append_of_some` — an occurrence in front of a text is its first piece.
* `replaceAll_induction` — replacing all occurrences, by induction on the text.
* `replaceAll_eq_or_last` — a rewritten text seen from its end.
* `mem_occurrences_iff` — the occurrences are the found pieces.
* `occurrence_of_mem` — each of them was read in front of some rest of the text.
* `comesTo_of_mem_occurrences`, `place_of_mem_occurrences` — the place of an occurrence.
* `stop_le_of_lt` — occurrences stand one behind the other.
* `pieces_replaceAll` — **the pieces of a rewritten text, piece by piece.**
* `pieces_append_of_stops` — a text is divided where no occurrence reaches over a place.
* `cut_of_mem_occurrences` — the text around an occurrence.
* `exists_occurrence_of_read` — a form that is read at some place lies there or in an occurrence.
* `replaceAll_invariant` — replacing all occurrences keeps what each replacement keeps.
* `replaceAll_le` — a replacement that raises a measure in no context raises that of no text.
* `replaceAll_idle_or_lowers` — **a replacement that lowers a measure in every context has nothing
  to do in a text or lowers the measure of the text.**
* `first?_eq_some` — where the first occurrence of a form was read.
* `first?_append_of_some` — the first occurrence with another one in its place.
-/

namespace SceneMarkup
namespace Text

/-- A reader that takes a piece of the text, never an empty one, and leaves the rest as it is. -/
def Recogniser.Consumes {α : Type} (p : Recogniser α) : Prop :=
  ∀ ⦃s : List Char⦄ ⦃a : α⦄ ⦃r : List Char⦄, p s = some (a, r) → ∃ t, t ≠ [] ∧ s = t ++ r

section Pieces

variable {α : Type} {p : Recogniser α} {f : List Char → α → List Char}

/-- The length of what was read, as `pieces` computes it. -/
private theorem take_drop_of_append {c : Char} {s t r : List Char} (ht : t ≠ [])
    (h : c :: s = t ++ r) :
    c :: s.take (s.length - r.length) = t ∧ s.drop (s.length - r.length) = r := by
  cases t with
  | nil => exact absurd rfl ht
  | cons d t =>
    obtain ⟨rfl, rfl⟩ := List.cons.inj h
    simp

/-- An occurrence in front of a text is its first piece. -/
theorem pieces_append_of_some {t r : List Char} {a : α} (ht : t ≠ [])
    (h : p (t ++ r) = some (a, r)) : pieces p (t ++ r) = .found t a :: pieces p r := by
  obtain ⟨c, s, hcs⟩ := List.exists_cons_of_ne_nil (List.append_ne_nil_of_left_ne_nil ht r)
  obtain ⟨h₁, h₂⟩ := take_drop_of_append ht hcs.symm
  rw [hcs] at h ⊢
  rw [pieces_cons_of_some h, h₁, h₂]

theorem replaceAll_append_of_some {t r : List Char} {a : α} (ht : t ≠ [])
    (h : p (t ++ r) = some (a, r)) : replaceAll p f (t ++ r) = f t a ++ replaceAll p f r := by
  rw [replaceAll, pieces_append_of_some ht h]
  rfl

/-- Induction on a text by its pieces. -/
theorem text_induction (hp : p.Consumes) {P : List Char → Prop} (nil : P [])
    (plain : ∀ c s, p (c :: s) = none → P s → P (c :: s))
    (found : ∀ t a r, t ≠ [] → p (t ++ r) = some (a, r) → P r → P (t ++ r)) :
    ∀ s, P s := by
  intro s
  -- the rest behind an occurrence is shorter, but no tail: the induction is on the length
  induction hn : s.length using Nat.strongRecOn generalizing s with
  | ind n ih =>
    cases s with
    | nil => exact nil
    | cons c s =>
      cases h : p (c :: s) with
      | none => exact plain c s h (ih s.length (by simp [← hn]) s rfl)
      | some ar =>
        obtain ⟨a, r⟩ := ar
        obtain ⟨t, ht, hs⟩ := hp h
        rw [hs] at h ⊢
        refine found t a r ht h (ih r.length ?_ r rfl)
        have hlen := congrArg List.length hs
        rw [hn, List.length_append] at hlen
        have := List.length_pos_iff.2 ht
        omega

/-- Replacing all occurrences, by induction on the text. -/
theorem replaceAll_induction (hp : p.Consumes) {R : List Char → List Char → Prop} (nil : R [] [])
    (plain : ∀ c s s', p (c :: s) = none → R s s' → R (c :: s) (c :: s'))
    (found : ∀ t a r r', t ≠ [] → p (t ++ r) = some (a, r) → R r r' → R (t ++ r) (f t a ++ r'))
    (s : List Char) : R s (replaceAll p f s) := by
  induction s using text_induction hp with
  | nil => exact nil
  | plain c s h ih =>
    rw [replaceAll_cons_of_none h]
    exact plain c s _ h ih
  | found t a r ht h ih =>
    rw [replaceAll_append_of_some ht h]
    exact found t a r _ ht h ih

/-- A rewritten text is the text itself, or it ends with what replaces the last occurrence and with
the text behind that. -/
theorem replaceAll_eq_or_last (hp : p.Consumes) (s : List Char) :
    replaceAll p f s = s ∨ ∃ u t a k y, s = u ++ (t ++ k) ∧ p (t ++ k) = some (a, k) ∧
      replaceAll p f s = y ++ (f t a ++ k) := by
  induction s using text_induction hp with
  | nil => exact Or.inl rfl
  | plain c s h ih =>
    rw [replaceAll_cons_of_none h]
    rcases ih with ih | ⟨u, t, a, k, y, rfl, ha, ih⟩
    · exact Or.inl (by rw [ih])
    · exact Or.inr ⟨c :: u, t, a, k, c :: y, rfl, ha, by rw [ih]; rfl⟩
  | found t a r ht h ih =>
    rw [replaceAll_append_of_some ht h]
    rcases ih with ih | ⟨u, t', a', k, y, rfl, ha, ih⟩
    · exact Or.inr ⟨[], t, a, r, [], rfl, h, by rw [ih]; rfl⟩
    · exact Or.inr ⟨t ++ u, t', a', k, f t a ++ y, by rw [List.append_assoc], ha,
        by rw [ih, List.append_assoc]⟩

/-- Where occurrences start with a character of a kind, before and behind the replacement, a text
without such characters in front of a rewritten text was there before. -/
theorem eq_of_replaceAll_eq_append (hp : p.Consumes) {P : Char → Bool}
    (hstart : ∀ t a r, p (t ++ r) = some (a, r) → t ≠ [] →
      ∃ c ∈ (f t a).head?, P c = true) {w s u : List Char}
    (hw : ∀ c ∈ w, P c = false) (h : replaceAll p f s = w ++ u) :
    ∃ r, s = w ++ r ∧ replaceAll p f r = u := by
  induction w generalizing s with
  | nil => exact ⟨s, rfl, h⟩
  | cons d w ih =>
    have hd := hw d List.mem_cons_self
    cases s using text_induction hp with
    | nil => cases h
    | plain c s hn _ =>
      rw [replaceAll_cons_of_none hn] at h
      obtain ⟨rfl, hrest⟩ := List.cons.inj h
      obtain ⟨r, rfl, hr⟩ := ih (fun c hc => hw c (List.mem_cons_of_mem _ hc)) hrest
      exact ⟨r, rfl, hr⟩
    | found t a r ht ha _ =>
      -- the replacement would start with `d`
      rw [replaceAll_append_of_some ht ha] at h
      obtain ⟨c, hc, hkind⟩ := hstart t a r ha ht
      obtain ⟨z, hz⟩ := List.head?_eq_some_iff.1 hc
      rw [hz] at h
      obtain ⟨rfl, -⟩ := List.cons.inj h
      rw [hd] at hkind
      cases hkind

/-! ### Occurrences -/

theorem mem_placed_iff {n : Nat} {ps : List (Piece α)} {t : List Char} {a : α} :
    (∃ o ∈ placed n ps, o.text = t ∧ o.value = a) ↔ .found t a ∈ ps := by
  induction ps generalizing n with
  | nil => simp [placed]
  | cons x ps ih =>
    cases x with
    | plain c => simp [placed, ih]
    | found u b =>
      simp only [placed, List.mem_cons, exists_eq_or_imp, ih, Piece.found.injEq]
      constructor
      · rintro (⟨rfl, rfl⟩ | h)
        · exact Or.inl ⟨rfl, rfl⟩
        · exact Or.inr h
      · rintro (⟨rfl, rfl⟩ | h)
        · exact Or.inl ⟨rfl, rfl⟩
        · exact Or.inr h

/-- The occurrences of a form are the found pieces of the text. -/
theorem mem_occurrences_iff {s t : List Char} {a : α} :
    (∃ o ∈ occurrences p s, o.text = t ∧ o.value = a) ↔ .found t a ∈ pieces p s :=
  mem_placed_iff

/-- A property of texts and values holds at all occurrences when it does at all found pieces. -/
theorem forall_occurrences_iff {s : List Char} {Q : List Char → α → Prop} :
    (∀ o ∈ occurrences p s, Q o.text o.value) ↔ ∀ t a, .found t a ∈ pieces p s → Q t a := by
  constructor
  · intro h t a hm
    obtain ⟨o, ho, rfl, rfl⟩ := mem_occurrences_iff.2 hm
    exact h o ho
  · intro h o ho
    exact h _ _ (mem_occurrences_iff.1 ⟨o, ho, rfl, rfl⟩)

/-- A found piece was read in front of some rest of the text. -/
theorem occurrence_of_mem (hp : p.Consumes) {s t : List Char} {a : α}
    (h : .found t a ∈ pieces p s) : ∃ r, t ≠ [] ∧ p (t ++ r) = some (a, r) := by
  induction s using text_induction hp with
  | nil => simp at h
  | plain c s hn ih =>
    rw [pieces_cons_of_none hn] at h
    exact ih (by simpa using h)
  | found u b r hu hs ih =>
    rw [pieces_append_of_some hu hs] at h
    rcases List.mem_cons.1 h with h | h
    · obtain ⟨rfl, rfl⟩ := Piece.found.inj h
      exact ⟨r, hu, hs⟩
    · exact ih h

/-- The pieces of a rewritten text, piece by piece, when nothing is read at the characters that stay
and what replaces an occurrence is read by itself. -/
theorem pieces_replaceAll (hp : p.Consumes) {g : Piece α → List (Piece α)}
    (hplain : ∀ c, g (.plain c) = [.plain c])
    (hnone : ∀ c r, p (c :: r) = none → p (c :: replaceAll p f r) = none) {s : List Char}
    (hfound : ∀ t a r, .found t a ∈ pieces p s → p (t ++ r) = some (a, r) →
      pieces p (f t a ++ replaceAll p f r) = g (.found t a) ++ pieces p (replaceAll p f r)) :
    pieces p (replaceAll p f s) = (pieces p s).flatMap g := by
  induction s using text_induction hp with
  | nil => rfl
  | plain c s hn ih =>
    rw [pieces_cons_of_none hn] at hfound ⊢
    rw [replaceAll_cons_of_none hn, pieces_cons_of_none (hnone c s hn), List.flatMap_cons, hplain,
      ih fun t a r hmem => hfound t a r (List.mem_cons_of_mem _ hmem)]
    rfl
  | found t a r ht ha ih =>
    rw [pieces_append_of_some ht ha] at hfound ⊢
    rw [replaceAll_append_of_some ht ha, hfound t a r List.mem_cons_self ha, List.flatMap_cons,
      ih fun t a r hmem => hfound t a r (List.mem_cons_of_mem _ hmem)]

/-- The pieces of a rewritten text are those of the text, one to one, when nothing is read at the
characters that stay and an occurrence is read where one is written. -/
theorem pieces_replaceAll_eq_map (hp : p.Consumes) {g : Piece α → Piece α}
    (hplain : ∀ c, g (.plain c) = .plain c)
    (hnone : ∀ c r, p (c :: r) = none → p (c :: replaceAll p f r) = none) {s : List Char}
    (hfound : ∀ t a r, .found t a ∈ pieces p s → p (t ++ r) = some (a, r) →
      ∃ b, g (.found t a) = .found (f t a) b ∧
        p (f t a ++ replaceAll p f r) = some (b, replaceAll p f r)) :
    pieces p (replaceAll p f s) = (pieces p s).map g := by
  rw [List.map_eq_flatMap]
  refine pieces_replaceAll hp (fun c => by rw [hplain]) hnone fun t a r hmem ha => ?_
  obtain ⟨b, hg, hread⟩ := hfound t a r hmem ha
  obtain ⟨u, hu, htext⟩ := hp hread
  obtain rfl := List.append_cancel_right htext
  rw [hg, pieces_append_of_some hu hread, List.singleton_append]

/-- A reader comes to the text `z` behind `u`: at the start, behind a character at which it reads
nothing, or behind something that it reads. -/
def ComesTo (p : Recogniser α) (u z : List Char) : Prop :=
  u = [] ∨ (∃ y c, u = y ++ [c] ∧ p (c :: z) = none) ∨
    ∃ y t a, u = y ++ t ∧ t ≠ [] ∧ p (t ++ z) = some (a, z)

theorem ComesTo.append {x u z : List Char} (hx : ComesTo p x (u ++ z)) (h : ComesTo p u z) :
    ComesTo p (x ++ u) z := by
  rcases h with rfl | ⟨y, c, rfl, hc⟩ | ⟨y, t, a, rfl, ht, ha⟩
  · simpa using hx
  · exact Or.inr (Or.inl ⟨x ++ y, c, (List.append_assoc x y [c]).symm, hc⟩)
  · exact Or.inr (Or.inr ⟨x ++ y, t, a, (List.append_assoc x y t).symm, ht, ha⟩)

/-- An occurrence was read at its place, where the reader comes to. -/
theorem comesTo_of_mem_occurrences (hp : p.Consumes) {s : List Char} {o : Occurrence α}
    (h : o ∈ occurrences p s) :
    ∃ u r, s = u ++ (o.text ++ r) ∧ u.length = o.start ∧ o.text ≠ [] ∧
      p (o.text ++ r) = some (o.value, r) ∧ ComesTo p u (o.text ++ r) := by
  suffices key : ∀ n, o ∈ placed n (pieces p s) →
      ∃ u r, s = u ++ (o.text ++ r) ∧ n + u.length = o.start ∧ o.text ≠ [] ∧
        p (o.text ++ r) = some (o.value, r) ∧ ComesTo p u (o.text ++ r) by
    simpa using key 0 h
  clear h
  induction s using text_induction hp with
  | nil =>
    intro n h
    simp [placed] at h
  | plain c s hn ih =>
    intro n h
    rw [pieces_cons_of_none hn, placed] at h
    obtain ⟨u, r, rfl, hlen, htext, hread, hu⟩ := ih (n + 1) h
    refine ⟨c :: u, r, rfl, by rw [List.length_cons]; omega, htext, hread, ?_⟩
    exact ComesTo.append (x := [c]) (Or.inr (Or.inl ⟨[], c, rfl, hn⟩)) hu
  | found t a r ht ha ih =>
    intro n h
    rw [pieces_append_of_some ht ha, placed] at h
    rcases List.mem_cons.1 h with rfl | h
    · exact ⟨[], r, rfl, rfl, ht, ha, Or.inl rfl⟩
    · obtain ⟨u, r', rfl, hlen, htext, hread, hu⟩ := ih (n + t.length) h
      refine ⟨t ++ u, r', by simp, by rw [List.length_append]; omega, htext, hread, ?_⟩
      exact ComesTo.append (Or.inr (Or.inr ⟨[], t, a, rfl, ht, ha⟩)) hu

/-- An occurrence was read at its place. -/
theorem place_of_mem_occurrences (hp : p.Consumes) {s : List Char} {o : Occurrence α}
    (h : o ∈ occurrences p s) :
    ∃ u r, s = u ++ (o.text ++ r) ∧ u.length = o.start ∧ o.text ≠ [] ∧
      p (o.text ++ r) = some (o.value, r) := by
  obtain ⟨u, r, hs, hlen, htext, hread, -⟩ := comesTo_of_mem_occurrences hp h
  exact ⟨u, r, hs, hlen, htext, hread⟩

theorem le_start_of_mem_placed {n : Nat} {ps : List (Piece α)} {o : Occurrence α}
    (h : o ∈ placed n ps) : n ≤ o.start := by
  induction ps generalizing n with
  | nil => cases h
  | cons x ps ih =>
    cases x with
    | plain c => exact Nat.le_of_succ_le (ih h)
    | found t a =>
      rcases List.mem_cons.1 h with rfl | h
      · exact Nat.le_refl _
      · exact Nat.le_trans (Nat.le_add_right n t.length) (ih h)

/-- What is read does not depend on what stands in front. -/
theorem map_value_placed (n m : Nat) (ps : List (Piece α)) :
    (placed n ps).map Occurrence.value = (placed m ps).map Occurrence.value := by
  induction ps generalizing n m with
  | nil => rfl
  | cons x ps ih =>
    cases x with
    | plain c => exact ih (n + 1) (m + 1)
    | found t a => exact congrArg (a :: ·) (ih (n + t.length) (m + t.length))

theorem values_cons_of_none {c : Char} {s : List Char} (h : p (c :: s) = none) :
    values p (c :: s) = values p s := by
  rw [values, occurrences, pieces_cons_of_none h, placed]
  exact map_value_placed _ 0 _

theorem values_of_some (hp : p.Consumes) {s r : List Char} {a : α} (h : p s = some (a, r)) :
    values p s = a :: values p r := by
  obtain ⟨t, ht, rfl⟩ := hp h
  rw [values, occurrences, pieces_append_of_some ht h, placed, List.map_cons]
  exact congrArg (a :: ·) (map_value_placed _ 0 _)

/-- Occurrences stand one behind the other. -/
theorem pairwise_placed (n : Nat) (ps : List (Piece α)) :
    (placed n ps).Pairwise fun o o' => o.stop ≤ o'.start := by
  induction ps generalizing n with
  | nil => exact List.Pairwise.nil
  | cons x ps ih =>
    cases x with
    | plain c => exact ih (n + 1)
    | found t a => exact List.Pairwise.cons (fun o ho => le_start_of_mem_placed ho) (ih _)

/-- Of two occurrences the one that starts first ends before the other one starts. -/
theorem stop_le_of_lt {s : List Char} {o o' : Occurrence α} (ho : o ∈ occurrences p s)
    (ho' : o' ∈ occurrences p s) (hlt : o.start < o'.start) : o.stop ≤ o'.start := by
  have hpairs : (occurrences p s).Pairwise fun o o' => o.stop ≤ o'.start :=
    pairwise_placed 0 (pieces p s)
  refine List.Pairwise.forall_of_forall_of_flip (R := fun o o' : Occurrence α =>
    o.start < o'.start → o.stop ≤ o'.start) ?_ ?_ ?_ ho ho' hlt
  · exact fun o _ h => absurd h (Nat.lt_irrefl _)
  · refine hpairs.imp ?_
    intro o o' h _
    exact h
  · refine hpairs.imp ?_
    intro o o' h hback
    have : o.start ≤ o.stop := Nat.le_add_right _ _
    omega

/-- A text in which no occurrence reaches over a place is divided there. -/
theorem pieces_append_of_stops (hp : p.Consumes) {x z : List Char}
    (h : ∀ o ∈ occurrences p (x ++ z), o.start < x.length → o.stop ≤ x.length) :
    ∃ ps, pieces p (x ++ z) = ps ++ pieces p z ∧ ps.flatMap Piece.text = x := by
  suffices key : ∀ y, ∀ n x, y = x ++ z →
      (∀ o ∈ placed n (pieces p y), o.start < n + x.length → o.stop ≤ n + x.length) →
      ∃ ps, pieces p y = ps ++ pieces p z ∧ ps.flatMap Piece.text = x from
    key (x ++ z) 0 x rfl (by rw [Nat.zero_add]; exact h)
  clear h
  intro y
  induction y using text_induction hp with
  | nil =>
    intro n x hy _
    obtain ⟨rfl, rfl⟩ := List.append_eq_nil_iff.1 hy.symm
    exact ⟨[], rfl, rfl⟩
  | plain c y hn ih =>
    intro n x hy h
    cases x with
    | nil => exact ⟨[], by rw [hy]; rfl, rfl⟩
    | cons d x =>
      obtain ⟨rfl, rfl⟩ := List.cons.inj hy
      rw [pieces_cons_of_none hn, placed] at h
      obtain ⟨ps, hps, htext⟩ := ih (n + 1) x rfl
        (by simpa only [List.length_cons, Nat.add_assoc, Nat.add_comm 1] using h)
      refine ⟨.plain c :: ps, by rw [pieces_cons_of_none hn, hps]; rfl, ?_⟩
      rw [List.flatMap_cons, htext]
      rfl
  | found t a r ht ha ih =>
    intro n x hy h
    cases x with
    | nil => exact ⟨[], by rw [hy]; rfl, rfl⟩
    | cons d x =>
      rw [pieces_append_of_some ht ha, placed] at h
      have hlen : t.length ≤ (d :: x).length := by
        have : n + t.length ≤ n + (d :: x).length := h _ List.mem_cons_self (by simp)
        omega
      obtain ⟨y, hx⟩ := List.prefix_of_prefix_length_le (List.prefix_append t r)
        (hy ▸ List.prefix_append (d :: x) z) hlen
      rw [← hx] at hy h ⊢
      rw [List.append_assoc] at hy
      obtain rfl := List.append_cancel_left hy
      obtain ⟨ps, hps, htext⟩ := ih (n + t.length) y rfl fun o ho hlt => by
        have := h o (List.mem_cons_of_mem _ ho)
        rw [List.length_append] at this
        omega
      refine ⟨.found t a :: ps, by rw [pieces_append_of_some ht ha, hps]; rfl, ?_⟩
      rw [List.flatMap_cons, htext]
      rfl

/-- An occurrence at its place divides the text. -/
theorem take_drop_of_place {s u r : List Char} {o : Occurrence α} (hs : s = u ++ (o.text ++ r))
    (hlen : u.length = o.start) : s.take o.start = u ∧ s.drop o.stop = r := by
  rw [Occurrence.stop, hs, ← hlen]
  refine ⟨List.take_left, ?_⟩
  rw [← List.append_assoc, ← List.length_append, List.drop_left]

/-- The text around an occurrence. -/
theorem cut_of_mem_occurrences (hp : p.Consumes) {s : List Char} {o : Occurrence α}
    (h : o ∈ occurrences p s) :
    (s.take o.start).length = o.start ∧ s = s.take o.start ++ (o.text ++ s.drop o.stop) ∧
      o.text ≠ [] ∧ p (o.text ++ s.drop o.stop) = some (o.value, s.drop o.stop) := by
  obtain ⟨u, r, hs, hlen, hread⟩ := place_of_mem_occurrences hp h
  obtain ⟨htake, hdrop⟩ := take_drop_of_place hs hlen
  rw [htake, hdrop]
  exact ⟨hlen, hs, hread⟩

theorem read_of_mem_occurrences (hp : p.Consumes) {s : List Char} {o : Occurrence α}
    (h : o ∈ occurrences p s) : ∃ r, o.text ≠ [] ∧ p (o.text ++ r) = some (o.value, r) := by
  obtain ⟨u, r, -, -, hread⟩ := place_of_mem_occurrences hp h
  exact ⟨r, hread⟩

theorem drop_start_of_mem_occurrences (hp : p.Consumes) {s : List Char} {o : Occurrence α}
    (ho : o ∈ occurrences p s) :
    s.drop o.start = o.text ++ s.drop o.stop := by
  obtain ⟨-, hs, -⟩ := cut_of_mem_occurrences hp ho
  exact List.append_cancel_left ((List.take_append_drop o.start s).trans hs)

/-- A form that is read at some place lies there, or inside an occurrence that starts before. -/
theorem exists_occurrence_of_read (hp : p.Consumes) {y r : List Char} {a : α}
    (h : p y = some (a, r)) (x : List Char) :
    ∃ o ∈ occurrences p (x ++ y), o.start ≤ x.length ∧ x.length < o.stop ∧
      (o.start = x.length → o.value = a) := by
  suffices key : ∀ s n x, s = x ++ y → ∃ o ∈ placed n (pieces p s), o.start ≤ n + x.length ∧
      n + x.length < o.stop ∧ (o.start = n + x.length → o.value = a) by
    simpa [occurrences] using key (x ++ y) 0 x rfl
  intro s
  induction s using text_induction hp with
  | nil =>
    intro n x hs
    obtain ⟨t, ht, rfl⟩ := hp h
    simp [ht] at hs
  | plain c s hn ih =>
    intro n x hs
    cases x with
    | nil =>
      rw [hs, List.nil_append, h] at hn
      cases hn
    | cons d x =>
      obtain ⟨rfl, htail⟩ := List.cons.inj hs
      rw [pieces_cons_of_none hn, placed, List.length_cons, Nat.add_comm x.length,
        ← Nat.add_assoc]
      exact ih (n + 1) x htail
  | found t b z ht ha ih =>
    intro n x hs
    rw [pieces_append_of_some ht ha, placed]
    by_cases hlen : x.length < t.length
    · refine ⟨⟨n, t, b⟩, List.mem_cons_self, Nat.le_add_right _ _, ?_, fun hstart => ?_⟩
      · exact Nat.add_lt_add_left hlen n
      · obtain rfl : x = [] := List.length_eq_zero_iff.1 (by simpa using hstart)
        rw [hs, List.nil_append, h] at ha
        exact (congrArg Prod.fst (Option.some.inj ha)).symm
    · obtain ⟨m, rfl⟩ := List.prefix_of_prefix_length_le (List.prefix_append t z)
        (hs ▸ List.prefix_append x y) (Nat.le_of_not_lt hlen)
      rw [List.append_assoc] at hs
      obtain ⟨o, ho, hplace⟩ := ih (n + t.length) m (List.append_cancel_left hs)
      rw [List.length_append, ← Nat.add_assoc]
      exact ⟨o, List.mem_cons_of_mem _ ho, hplace⟩

/-- A text is kept when each of its occurrences is replaced by itself. -/
theorem replaceAll_eq_self {s : List Char} (h : ∀ o ∈ occurrences p s, f o.text o.value = o.text) :
    replaceAll p f s = s := by
  rw [forall_occurrences_iff (Q := fun t a => f t a = t)] at h
  conv => rhs; rw [← flatMap_text_pieces p s]
  rw [replaceAll]
  refine List.flatMap_congr fun x hx => ?_
  cases x with
  | plain c => rfl
  | found t a => exact h t a hx

/-- A replacement that raises a measure in no context raises the measure of no text. -/
theorem replaceAll_le {β : Type*} [Preorder β] (hp : p.Consumes) {m : List Char → β}
    (h : ∀ t a r, p (t ++ r) = some (a, r) → ∀ x y, m (x ++ f t a ++ y) ≤ m (x ++ t ++ y))
    (s x y : List Char) : m (x ++ replaceAll p f s ++ y) ≤ m (x ++ s ++ y) := by
  refine replaceAll_induction (R := fun s s' => ∀ x y, m (x ++ s' ++ y) ≤ m (x ++ s ++ y))
    hp ?_ ?_ ?_ s x y
  · intro x y
    exact le_rfl
  · intro c s s' _ ih x y
    simpa using ih (x ++ [c]) y
  · intro t a r r' _ ha ih x y
    calc m (x ++ (f t a ++ r') ++ y) = m (x ++ f t a ++ r' ++ y) := by simp
      _ ≤ m (x ++ f t a ++ r ++ y) := ih (x ++ f t a) y
      _ = m (x ++ f t a ++ (r ++ y)) := by simp
      _ ≤ m (x ++ t ++ (r ++ y)) := h t a r ha x (r ++ y)
      _ = m (x ++ (t ++ r) ++ y) := by simp

/-- **A replacement that lowers a measure in every context, wherever it changes anything, leaves all
occurrences of a text as they are or lowers the measure of the text.** -/
theorem replaceAll_fixes_or_lowers {β : Type*} [Preorder β] (hp : p.Consumes)
    {m : List Char → β}
    (h : ∀ t a r, p (t ++ r) = some (a, r) →
      f t a = t ∨ ∀ x y, m (x ++ f t a ++ y) < m (x ++ t ++ y)) (s : List Char) :
    (∀ o ∈ occurrences p s, f o.text o.value = o.text) ∨
      ∀ x y, m (x ++ replaceAll p f s ++ y) < m (x ++ s ++ y) := by
  rw [forall_occurrences_iff (Q := fun t a => f t a = t)]
  induction s using text_induction hp with
  | nil => exact Or.inl (by simp)
  | plain c s hn ih =>
    rw [pieces_cons_of_none hn, replaceAll_cons_of_none hn]
    rcases ih with ih | ih
    · exact Or.inl (by simpa using ih)
    · refine Or.inr fun x y => ?_
      simpa using ih (x ++ [c]) y
  | found t a r ht ha ih =>
    rw [pieces_append_of_some ht ha, replaceAll_append_of_some ht ha]
    have hle : ∀ x y, m (x ++ f t a ++ y) ≤ m (x ++ t ++ y) := by
      intro x y
      rcases h t a r ha with h | h
      · rw [h]
      · exact (h x y).le
    rcases ih with ih | ih
    · -- nothing changes behind the occurrence
      have hr : replaceAll p f r = r := by
        refine replaceAll_eq_self ?_
        rwa [forall_occurrences_iff (Q := fun t a => f t a = t)]
      rw [hr]
      rcases h t a r ha with h | h
      · refine Or.inl fun u b hm => ?_
        rcases List.mem_cons.1 hm with hm | hm
        · obtain ⟨rfl, rfl⟩ := Piece.found.inj hm
          exact h
        · exact ih u b hm
      · refine Or.inr fun x y => ?_
        simpa using h x (r ++ y)
    · refine Or.inr fun x y => ?_
      calc m (x ++ (f t a ++ replaceAll p f r) ++ y)
          = m (x ++ f t a ++ replaceAll p f r ++ y) := by simp
        _ < m (x ++ f t a ++ r ++ y) := ih (x ++ f t a) y
        _ = m (x ++ f t a ++ (r ++ y)) := by simp
        _ ≤ m (x ++ t ++ (r ++ y)) := hle x (r ++ y)
        _ = m (x ++ (t ++ r) ++ y) := by simp

/-- **A replacement that keeps the idle occurrences and lowers a measure at all others finds only
idle ones in a text or lowers the measure of the text.** -/
theorem replaceAll_idle_or_lowers {β : Type*} [Preorder β] (hp : p.Consumes) {m : List Char → β}
    {I : α → Prop}
    (h : ∀ t a r, p (t ++ r) = some (a, r) →
      I a ∧ f t a = t ∨ ∀ x y, m (x ++ f t a ++ y) < m (x ++ t ++ y)) (s : List Char) :
    (∀ o ∈ occurrences p s, I o.value) ∨ m (replaceAll p f s) < m s := by
  have hstep : ∀ t a r, p (t ++ r) = some (a, r) →
      f t a = t ∨ ∀ x y, m (x ++ f t a ++ y) < m (x ++ t ++ y) := by
    intro t a r ha
    rcases h t a r ha with ⟨-, h⟩ | h
    · exact Or.inl h
    · exact Or.inr h
  rcases replaceAll_fixes_or_lowers hp hstep s with hs | hs
  · refine Or.inl fun o ho => ?_
    obtain ⟨r, -, hread⟩ := read_of_mem_occurrences hp ho
    rcases h _ _ r hread with ⟨h, -⟩ | h
    · exact h
    · have := h [] []
      rw [hs o ho] at this
      exact absurd this (lt_irrefl _)
  · exact Or.inr (by simpa using hs [] [])

/-- The same for the number of some character, which goes up. -/
theorem replaceAll_idle_or_adds (hp : p.Consumes) {c : Char} {I : α → Prop}
    (h : ∀ t a r, p (t ++ r) = some (a, r) →
      I a ∧ f t a = t ∨ t.count c < (f t a).count c) (s : List Char) :
    (∀ o ∈ occurrences p s, I o.value) ∨ s.count c < (replaceAll p f s).count c := by
  refine replaceAll_idle_or_lowers hp (m := fun s => OrderDual.toDual (s.count c)) ?_ s
  intro t a r ha
  rcases h t a r ha with h | h
  · exact Or.inl h
  · refine Or.inr fun x y => ?_
    rw [OrderDual.toDual_lt_toDual, List.count_append, List.count_append, List.count_append,
      List.count_append]
    omega

/-- What each replacement keeps in front of the rest of the text, in which the replacements are
already made, replacing all occurrences keeps. -/
theorem replaceAll_invariant (hp : p.Consumes) {s : List Char} {I : List Char → Prop} (start : I s)
    (step : ∀ x t a r, s = x ++ (t ++ r) → ⟨x.length, t, a⟩ ∈ occurrences p s →
      p (t ++ r) = some (a, r) → I (x ++ (t ++ replaceAll p f r)) →
      I (x ++ (f t a ++ replaceAll p f r))) : I (replaceAll p f s) := by
  suffices key : ∀ y x, s = x ++ y → (∀ o ∈ placed x.length (pieces p y), o ∈ occurrences p s) →
      I (x ++ replaceAll p f y) from
    key s [] rfl fun o ho => ho
  intro y
  induction y using text_induction hp with
  | nil =>
    intro x hs _
    rwa [replaceAll_nil, ← hs]
  | plain c y hn ih =>
    intro x hs hall
    rw [replaceAll_cons_of_none hn]
    rw [pieces_cons_of_none hn, placed] at hall
    have := ih (x ++ [c]) (by simpa using hs) (by simpa using hall)
    simpa using this
  | found t a r ht ha ih =>
    intro x hs hall
    rw [replaceAll_append_of_some ht ha]
    rw [pieces_append_of_some ht ha, placed] at hall
    refine step x t a r hs (hall _ List.mem_cons_self) ha ?_
    have := ih (x ++ t) (by simpa using hs) fun o ho =>
      hall o (List.mem_cons_of_mem _ (by simpa using ho))
    rwa [List.append_assoc] at this

end Pieces

/-! ### The first occurrence -/

theorem first?_eq_some {α : Type} {p : Recogniser α} {s u r : List Char} {a : α}
    (h : first? p s = some (u, a, r)) : ∃ t, s = u ++ t ∧ p t = some (a, r) := by
  induction s generalizing u with
  | nil => cases h
  | cons c s ih =>
    rw [first?] at h
    split at h
    · next b rest hb =>
      cases h
      exact ⟨c :: s, rfl, hb⟩
    · split at h
      · next u' b rest hb =>
        cases h
        obtain ⟨t, rfl, ht⟩ := ih hb
        exact ⟨t, rfl, ht⟩
      · cases h

theorem first?_cons_of_none {α : Type} {p : Recogniser α} {c : Char} {s : List Char}
    (h : p (c :: s) = none) :
    first? p (c :: s) = (first? p s).map fun found => (c :: found.1, found.2) := by
  rw [first?, h]
  cases first? p s <;> rfl

/-- The first occurrence of a form is found again where another one is put in its place, when the
text in front does not make a difference. -/
theorem first?_append_of_some {α : Type} {p : Recogniser α} {x t t' r r' : List Char} {a a' : α}
    (h : first? p (x ++ t) = some (x, a, r)) (hread : p t' = some (a', r'))
    (hne : t' ≠ []) (hfront : ∀ v ≠ [], v <:+ x → p (v ++ t) = none → p (v ++ t') = none) :
    first? p (x ++ t') = some (x, a', r') := by
  induction x with
  | nil =>
    obtain ⟨c, s, rfl⟩ := List.exists_cons_of_ne_nil hne
    rw [List.nil_append, first?, hread]
  | cons c x ih =>
    have hnone : p (c :: (x ++ t)) = none := by
      rw [List.cons_append, first?] at h
      split at h
      · cases h
      · assumption
    rw [List.cons_append, first?_cons_of_none hnone, Option.map_eq_some_iff] at h
    obtain ⟨⟨x, a, r⟩, hfirst, heq⟩ := h
    cases heq
    have hnone' := hfront (c :: x) (List.cons_ne_nil c x) List.suffix_rfl hnone
    have hrest := ih hfirst fun v hv hx => hfront v hv (hx.trans (List.suffix_cons c x))
    rw [List.cons_append] at hnone' ⊢
    rw [first?_cons_of_none hnone', hrest]
    rfl

end Text
end SceneMarkup
