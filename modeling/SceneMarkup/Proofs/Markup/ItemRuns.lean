import Mathlib.Data.List.Pairwise
import SceneMarkup.Proofs.Markup.KeptOutline

/-!
# Ranges of items

The rule for lists, told by places.  The flat items of a text are counted from left to right; the
items that belong together are ranges of these numbers, and the rewritten text is the text with a
list in the place of each range.

## Main definitions

* `flatItems` — the items of a text that hold no nested `<div>`, with their places.
* `itemRanges` — the ranges of items that become a list.
* `withLists` — a text with a list in the place of each of some ranges of items.
* `IsGrouping` — ranges of two items and more that join all neighbours with only blanks between
  them.

## Main results

* `flatItems_eq` — the flat items are those of the segments.
* `withLists_rangesFrom` — the text with lists is what the runs are written as.
* `joins_rangesFrom_iff` — neighbours are in one range when only blanks stand between them.
* `itemLists_lists_ranges` — **the maximal ranges of items become lists, and all else is kept.**
-/

namespace SceneMarkup
namespace Markup

open Text

/-! ### Items by number -/

/-- The items of a text that hold no nested `<div>`, with their places. -/
def flatItems (s : List Char) : List (Occurrence Unit) :=
  (occurrences item? s).filter fun o => isFlat o.text

/-- The items of segments in front of which `n` characters stand, with their places. -/
def located : Nat → List Segment → List (Occurrence Unit)
  | _, [] => []
  | n, g :: gs => ⟨n + g.gap.length, g.item, ()⟩ :: located (n + g.text.length) gs

theorem located_prepend (n : Nat) (t : List Char) (p : List Segment × List Char) :
    located n (prepend t p).1 = located (n + t.length) p.1 := by
  obtain ⟨gs, tail⟩ := p
  cases gs with
  | nil => rfl
  | cons g gs =>
    simp only [prepend, located, Segment.text, List.length_append]
    congr 2 <;> omega

/-- The flat items are those of the segments. -/
theorem flatItems_eq (s : List Char) : flatItems s = located 0 (segments s).1 := by
  suffices key : ∀ (ps : List (Piece Unit)) n,
      ((placed n ps).filter fun o => isFlat o.text) = located n (segmentsOf ps).1 from
    key (pieces item? s) 0
  intro ps
  induction ps with
  | nil => exact fun n => rfl
  | cons x ps ih =>
    intro n
    cases x with
    | plain c => rw [placed, ih, segmentsOf, located_prepend, List.length_singleton]
    | found t a =>
      rw [placed, segmentsOf]
      split
      · next hflat =>
        rw [List.filter_cons, if_pos hflat, ih]
        rfl
      · next hflat => rw [List.filter_cons, if_neg hflat, ih, located_prepend]

theorem located_append (n : Nat) (gs hs : List Segment) :
    located n (gs ++ hs) = located n gs ++ located (n + (gs.flatMap Segment.text).length) hs := by
  induction gs generalizing n with
  | nil => rfl
  | cons g gs ih =>
    rw [List.cons_append, located, ih, located, List.cons_append, List.flatMap_cons,
      List.length_append, Nat.add_assoc]

@[simp] theorem length_located (n : Nat) (gs : List Segment) :
    (located n gs).length = gs.length := by
  induction gs generalizing n with
  | nil => rfl
  | cons g gs ih => rw [located, List.length_cons, ih, List.length_cons]

theorem map_text_located (n : Nat) (gs : List Segment) :
    (located n gs).map Occurrence.text = gs.map Segment.item := by
  induction gs generalizing n with
  | nil => rfl
  | cons g gs ih => rw [located, List.map_cons, ih, List.map_cons]

/-- The items of a text, from a place on that no item reaches over. -/
theorem flatItems_append {p z : List Char}
    (h : ∀ o ∈ occurrences item? (p ++ z), o.start < p.length → o.stop ≤ p.length) :
    ∃ gs gap, (segments (p ++ z)).1 = gs ++ (prepend gap (segments z)).1 ∧
      flatItems (p ++ z) = located 0 gs ++ located p.length (segments z).1 := by
  obtain ⟨ps, hps, htext⟩ := pieces_append_of_stops consumes_item? h
  have hsegments : (segments (p ++ z)).1 =
      (segmentsOf ps).1 ++ (prepend (segmentsOf ps).2 (segments z)).1 := by
    rw [segments, hps, segmentsOf_append]
    rfl
  have hlen : ((segmentsOf ps).1.flatMap Segment.text).length + (segmentsOf ps).2.length =
      p.length := by
    rw [← List.length_append, text_segmentsOf, htext]
  refine ⟨_, _, hsegments, ?_⟩
  rw [flatItems_eq, hsegments, located_append, located_prepend, Nat.zero_add, hlen]

/-- An item stands behind the segments in front of it and its own gap. -/
theorem getElem?_located (n : Nat) (front : List Segment) (g : Segment) (back : List Segment) :
    (located n (front ++ g :: back))[front.length]? =
      some ⟨n + (front.flatMap Segment.text).length + g.gap.length, g.item, ()⟩ := by
  rw [located_append, List.getElem?_append_right (length_located n front).le, length_located,
    Nat.sub_self]
  rfl

/-- Where item `i` starts. -/
def startAt (items : List (Occurrence Unit)) (i : Nat) : Nat := items[i]?.elim 0 Occurrence.start

/-- Where item `i` stops. -/
def stopAt (items : List (Occurrence Unit)) (i : Nat) : Nat := items[i]?.elim 0 Occurrence.stop

theorem startAt_located (front : List Segment) (g : Segment) (back : List Segment) :
    startAt (located 0 (front ++ g :: back)) front.length =
      (front.flatMap Segment.text).length + g.gap.length := by
  rw [startAt, getElem?_located, Option.elim_some, Nat.zero_add]

theorem stopAt_located (front : List Segment) (g : Segment) (back : List Segment) :
    stopAt (located 0 (front ++ g :: back)) front.length =
      (front.flatMap Segment.text).length + g.text.length := by
  rw [stopAt, getElem?_located, Option.elim_some, Occurrence.stop, Segment.text,
    List.length_append, Nat.zero_add, Nat.add_assoc]

/-! ### Ranges -/

/-- The ranges of items that make up the runs with at least two of them; the first item is number
`n`. -/
def rangesFrom : Nat → List Run → List (Nat × Nat)
  | _, [] => []
  | n, r :: rs =>
    let rest := rangesFrom (n + r.segments.length) rs
    if r.others.isEmpty then rest else (n, n + r.segments.length) :: rest

/-- The ranges of items that become a list. -/
def itemRanges (s : List Char) : List (Nat × Nat) := rangesFrom 0 (runs (segments s).1)

theorem rangesFrom_cons_of_alone {r : Run} (h : r.others = []) (n : Nat) (rs : List Run) :
    rangesFrom n (r :: rs) = rangesFrom (n + r.segments.length) rs := by
  rw [rangesFrom, h]
  rfl

theorem rangesFrom_cons_of_joined {r : Run} (h : r.others ≠ []) (n : Nat) (rs : List Run) :
    rangesFrom n (r :: rs) =
      (n, n + r.segments.length) :: rangesFrom (n + r.segments.length) rs := by
  have hempty : r.others.isEmpty = false := by simpa using h
  rw [rangesFrom, hempty, if_neg Bool.false_ne_true]

theorem mem_rangesFrom_cons {n : Nat} {r : Run} {rs : List Run} {q : Nat × Nat} :
    q ∈ rangesFrom n (r :: rs) ↔ r.others ≠ [] ∧ q = (n, n + r.segments.length) ∨
      q ∈ rangesFrom (n + r.segments.length) rs := by
  by_cases h : r.others = []
  · simp [rangesFrom_cons_of_alone h, h]
  · simp [rangesFrom_cons_of_joined h, h]

/-- A range holds the items of some run. -/
theorem exists_run_of_mem_rangesFrom {n : Nat} {rs : List Run} {q : Nat × Nat}
    (hq : q ∈ rangesFrom n rs) :
    ∃ front r back, rs = front ++ r :: back ∧ r.others ≠ [] ∧
      q.1 = n + (front.flatMap Run.segments).length ∧ q.2 = q.1 + r.segments.length := by
  induction rs generalizing n with
  | nil => cases hq
  | cons r rs ih =>
    rcases mem_rangesFrom_cons.1 hq with ⟨h, rfl⟩ | hq
    · exact ⟨[], r, rs, rfl, h, rfl, rfl⟩
    · obtain ⟨front, r', back, rfl, hothers, hfst, hsnd⟩ := ih hq
      refine ⟨r :: front, r', back, rfl, hothers, ?_, hsnd⟩
      rw [hfst, List.flatMap_cons, List.length_append, Nat.add_assoc]

theorem le_of_mem_rangesFrom {n : Nat} {rs : List Run} {q : Nat × Nat}
    (hq : q ∈ rangesFrom n rs) : n ≤ q.1 := by
  obtain ⟨front, r, back, -, -, hfst, -⟩ := exists_run_of_mem_rangesFrom hq
  omega

/-- Ranges stand one behind the other. -/
theorem pairwise_rangesFrom (n : Nat) (rs : List Run) :
    (rangesFrom n rs).Pairwise fun a b => a.2 ≤ b.1 := by
  induction rs generalizing n with
  | nil => exact List.Pairwise.nil
  | cons r rs ih =>
    by_cases h : r.others = []
    · rw [rangesFrom_cons_of_alone h]
      exact ih _
    · rw [rangesFrom_cons_of_joined h]
      exact List.Pairwise.cons (fun q hq => le_of_mem_rangesFrom hq) (ih _)

/-- Something that is not blank stands between neighbouring runs. -/
theorem not_allBlank_of_mem_tail {gs : List Segment} {r : Run} (hr : r ∈ (runs gs).tail) :
    allBlank r.gap = false := by
  induction gs with
  | nil => cases hr
  | cons g gs ih =>
    rw [runs] at hr
    split at hr
    · cases hr
    · next r' rs h =>
      rw [h] at ih
      split at hr
      · exact ih hr
      · next hgap =>
        rcases List.mem_cons.1 hr with rfl | hr
        · simpa using hgap
        · exact ih hr

/-- Whether some range holds both item `k` and the item behind it. -/
def Joins (ranges : List (Nat × Nat)) (k : Nat) : Prop := ∃ q ∈ ranges, q.1 ≤ k ∧ k + 1 < q.2

theorem not_joins_of_lt {n k : Nat} {rs : List Run} (h : k < n) : ¬ Joins (rangesFrom n rs) k := by
  rintro ⟨q, hq, hstart, -⟩
  have := le_of_mem_rangesFrom hq
  omega

/-- The first run joins its own items. -/
theorem joins_of_lt {n k : Nat} {r : Run} {rs : List Run} (hn : n ≤ k)
    (hk : k + 1 < n + r.segments.length) : Joins (rangesFrom n (r :: rs)) k := by
  have hothers : r.others ≠ [] := by
    intro h
    rw [Run.segments, h, List.length_singleton] at hk
    omega
  exact ⟨_, mem_rangesFrom_cons.2 (Or.inl ⟨hothers, rfl⟩), hn, hk⟩

/-- The first run joins nothing to the item behind it. -/
theorem joins_iff_of_le {n k : Nat} {r : Run} {rs : List Run}
    (hk : n + r.segments.length ≤ k + 1) :
    Joins (rangesFrom n (r :: rs)) k ↔ Joins (rangesFrom (n + r.segments.length) rs) k := by
  constructor
  · rintro ⟨q, hq, hstart, hstop⟩
    rcases mem_rangesFrom_cons.1 hq with ⟨-, rfl⟩ | hq
    · exact absurd hstop (Nat.not_lt.2 hk)
    · exact ⟨q, hq, hstart, hstop⟩
  · rintro ⟨q, hq, hplace⟩
    exact ⟨q, mem_rangesFrom_cons.2 (Or.inr hq), hplace⟩

/-- **Neighbours are in one range when only blanks stand between them.** -/
theorem joins_rangesFrom_iff {rs : List Run}
    (hothers : ∀ r ∈ rs, ∀ g ∈ r.others, allBlank g.gap = true)
    (htail : ∀ r ∈ rs.tail, allBlank r.gap = false) {n k : Nat} {g : Segment}
    (h : (rs.flatMap Run.segments)[k + 1]? = some g) :
    Joins (rangesFrom n rs) (n + k) ↔ allBlank g.gap = true := by
  induction rs generalizing n k with
  | nil => cases h
  | cons r rs ih =>
    rw [List.flatMap_cons, List.getElem?_append] at h
    split at h
    · next hk =>
      -- the second item is one of the first run
      have hmem : g ∈ r.others := List.mem_of_getElem? (i := k) h
      exact iff_of_true (joins_of_lt (by omega) (by omega)) (hothers r List.mem_cons_self g hmem)
    · next hk =>
      rw [joins_iff_of_le (by omega)]
      by_cases hend : k + 1 = r.segments.length
      · -- it is the first item of the next run
        cases rs with
        | nil => cases h
        | cons r' rs =>
          rw [hend, Nat.sub_self] at h
          have hgap : g.gap = r'.gap := congrArg Segment.gap (Option.some.inj h).symm
          have hparted := htail r' List.mem_cons_self
          rw [← hgap] at hparted
          exact iff_of_false (not_joins_of_lt (by omega)) (Bool.not_eq_true _ ▸ hparted)
      · obtain ⟨j, rfl⟩ : ∃ j, k = r.segments.length + j := ⟨k - r.segments.length, by omega⟩
        rw [Nat.add_assoc, Nat.add_sub_cancel_left] at h
        rw [← Nat.add_assoc]
        exact ih (fun r hr => hothers r (List.mem_cons_of_mem _ hr))
          (fun r hr => htail r (List.mem_of_mem_tail hr)) h

/-- The text between two neighbours is the gap of the second one. -/
theorem gap_located (front : List Segment) (g g' : Segment) (back : List Segment)
    (tail : List Char) :
    let gs := front ++ g :: g' :: back
    (gs.flatMap Segment.text ++ tail).extract (stopAt (located 0 gs) front.length)
      (startAt (located 0 gs) (front.length + 1)) = g'.gap := by
  have hstart := startAt_located (front ++ [g]) g' back
  rw [List.length_append, List.length_singleton, List.append_assoc, List.singleton_append,
    List.flatMap_append, List.length_append, List.flatMap_singleton] at hstart
  have htext : (front ++ g :: g' :: back).flatMap Segment.text ++ tail =
      (front.flatMap Segment.text ++ g.text) ++ (g'.gap ++ (g'.item ++
        (back.flatMap Segment.text ++ tail))) := by
    simp [Segment.text]
  dsimp only
  rw [hstart, stopAt_located, htext, List.extract_eq_take_drop, ← List.length_append,
    List.drop_left, Nat.add_sub_cancel_left, List.take_left]

/-- Ranges of two items and more, one behind the other, that join all neighbours with only blanks
between them and no others. -/
structure IsGrouping (s : List Char) (items : List (Occurrence Unit)) (ranges : List (Nat × Nat)) :
    Prop where
  /-- The ranges are in order and have no item in common. -/
  ordered : ranges.Pairwise fun a b => a.2 ≤ b.1
  /-- Each range has two items at least, and only items that there are. -/
  sizes : ∀ q ∈ ranges, q.1 + 2 ≤ q.2 ∧ q.2 ≤ items.length
  /-- Neighbours are in one range when only blanks stand between them. -/
  joins : ∀ k, k + 1 < items.length →
    (Joins ranges k ↔ allBlank (s.extract (stopAt items k) (startAt items (k + 1))) = true)

/-- Two items of a text are in one range when the gap of the second one is blank. -/
theorem joins_itemRanges_iff {s : List Char} {k : Nat} {g : Segment}
    (h : (segments s).1[k + 1]? = some g) :
    Joins (itemRanges s) k ↔ allBlank g.gap = true := by
  have hcount : Joins (itemRanges s) (0 + k) ↔ allBlank g.gap = true :=
    joins_rangesFrom_iff (fun r hr => allBlank_of_mem_runs hr)
      (fun r hr => not_allBlank_of_mem_tail hr) (by rw [segments_runs, h])
  rwa [Nat.zero_add] at hcount

/-- The ranges of a text are the maximal ones. -/
theorem isGrouping_itemRanges (s : List Char) : IsGrouping s (flatItems s) (itemRanges s) where
  ordered := pairwise_rangesFrom 0 _
  sizes := by
    intro q hq
    obtain ⟨front, r, back, hruns, hothers, hfst, hsnd⟩ := exists_run_of_mem_rangesFrom hq
    have hlen := congrArg List.length (segments_runs (segments s).1)
    rw [hruns, List.flatMap_append, List.flatMap_cons, List.length_append,
      List.length_append] at hlen
    have hsize : r.segments.length = r.others.length + 1 := rfl
    have hpos := List.length_pos_iff.2 hothers
    rw [flatItems_eq, length_located]
    omega
  joins := by
    intro k hk
    rw [flatItems_eq, length_located] at hk
    have hcut : (segments s).1 = (segments s).1.take k ++
        (segments s).1[k] :: (segments s).1[k + 1] :: (segments s).1.drop (k + 2) := by
      rw [← List.drop_eq_getElem_cons, ← List.drop_eq_getElem_cons, List.take_append_drop]
    have hgap := gap_located ((segments s).1.take k) (segments s).1[k] (segments s).1[k + 1]
      ((segments s).1.drop (k + 2)) (segments s).2
    have htake : ((segments s).1.take k).length = k := by
      rw [List.length_take]
      omega
    dsimp only at hgap
    rw [← hcut, text_segments, htake, ← flatItems_eq] at hgap
    rw [hgap]
    exact joins_itemRanges_iff (List.getElem?_eq_getElem hk)

/-- Ranges in order that join some items in a row have a range that holds them all. -/
theorem exists_range_of_joins {ranges : List (Nat × Nat)}
    (hordered : ranges.Pairwise fun a b => a.2 ≤ b.1) {i m : Nat}
    (h : ∀ j ≤ m, Joins ranges (i + j)) : ∃ q ∈ ranges, q.1 ≤ i ∧ i + m + 1 < q.2 := by
  induction m with
  | zero => exact h 0 (Nat.le_refl 0)
  | succ m ih =>
    obtain ⟨q, hq, hstart, hstop⟩ := ih fun j hj => h j (Nat.le_succ_of_le hj)
    obtain ⟨q', hq', hstart', hstop'⟩ := h (m + 1) (Nat.le_refl _)
    -- both hold the same item
    obtain rfl : q = q' := by
      by_contra hne
      have hapart : ranges.Pairwise fun a b => a.2 ≤ b.1 ∨ b.2 ≤ a.1 := hordered.imp Or.inl
      have : Std.Symm fun a b : Nat × Nat => a.2 ≤ b.1 ∨ b.2 ≤ a.1 := ⟨fun _ _ h => h.symm⟩
      have := hapart.forall hq hq' hne
      omega
    exact ⟨q, hq, hstart, hstop'⟩

/-! ### The text with lists -/

/-- Items as a list. -/
def listText (ts : List (List Char)) : List Char :=
  "<ul>".toList ++ ts.flatMap (fun t => "\n    ".toList ++ listItem t) ++ "\n</ul>".toList

/-- A text from the place `last` on, with a list in the place of each of some ranges of items. -/
def withLists (s : List Char) (items : List (Occurrence Unit)) :
    Nat → List (Nat × Nat) → List Char
  | last, [] => s.drop last
  | last, (i, j) :: ranges =>
    s.extract last (startAt items i) ++
      (listText ((items.extract i j).map Occurrence.text) ++
        withLists s items (stopAt items (j - 1)) ranges)

theorem extract_middle {α : Type} (u v w : List α) :
    (u ++ (v ++ w)).extract u.length (u.length + v.length) = v := by
  rw [List.extract_eq_take_drop, List.drop_left, Nat.add_sub_cancel_left, List.take_left]

theorem exists_extract_append {α : Type} (l : List α) {i j k n : Nat} (hi : i ≤ j)
    (hk : j + n ≤ k) :
    ∃ u v, l.extract i k = u ++ (l.extract j (j + n) ++ v) := by
  have hlen : k - i = (j - i) + (n + (k - (j + n))) := by omega
  refine ⟨(l.drop i).take (j - i), (l.drop (j + n)).take (k - (j + n)), ?_⟩
  rw [List.extract_eq_take_drop, List.extract_eq_take_drop, hlen, List.take_add, List.take_add,
    List.drop_drop, List.drop_drop, Nat.add_sub_cancel' hi, Nat.add_sub_cancel_left]

section Range

variable (front : List Segment) (r : Run) (back : List Segment)

/-- The items in the range of a run are those of the run. -/
theorem map_text_extract_located :
    ((located 0 (front ++ (r.segments ++ back))).extract front.length
      (front.length + r.segments.length)).map Occurrence.text = r.items := by
  have hitems := extract_middle (located 0 front)
    (located (0 + (front.flatMap Segment.text).length) r.segments)
    (located (0 + (front.flatMap Segment.text).length + (r.segments.flatMap Segment.text).length)
      back)
  rw [← located_append, ← located_append, length_located, length_located] at hitems
  rw [hitems, map_text_located]
  rfl

theorem startAt_run : startAt (located 0 (front ++ (r.segments ++ back))) front.length =
    (front.flatMap Segment.text ++ r.gap).length := by
  rw [Run.segments, List.cons_append, startAt_located, List.length_append]

theorem stopAt_run : stopAt (located 0 (front ++ (r.segments ++ back)))
    (front.length + r.segments.length - 1) = (front.flatMap Segment.text ++ r.text).length := by
  -- the last segment of the run
  obtain ⟨init, g, hlast⟩ : ∃ init g, r.segments = init ++ [g] :=
    ⟨_, _, (List.dropLast_append_getLast (List.cons_ne_nil _ r.others)).symm⟩
  have hstop := stopAt_located (front ++ init) g back
  rw [r.text_eq, hlast]
  simp only [List.append_assoc, List.singleton_append, List.length_append, List.flatMap_append,
    List.flatMap_singleton, List.length_singleton] at hstop ⊢
  exact hstop.trans (Nat.add_assoc _ _ _)

end Range

/-- What stands between a place in a text and a place behind the text. -/
theorem extract_append {u v : List Char} {last : Nat} (h : last ≤ u.length) (w : List Char) :
    (u ++ (v ++ w)).extract last (u ++ v).length = u.drop last ++ v := by
  have hlen : (u.drop last ++ v).length = (u ++ v).length - last := by
    rw [List.length_append, List.length_append, List.length_drop]
    omega
  rw [List.extract_eq_take_drop, List.drop_append_of_le_length h, ← List.append_assoc, ← hlen,
    List.take_left]

/-- **The text with lists is what the runs are written as.** -/
theorem withLists_rangesFrom {s tail : List Char} (front : List Segment) (rs : List Run)
    (last : Nat) (hlast : last ≤ (front.flatMap Segment.text).length)
    (hs : s = front.flatMap Segment.text ++ (rs.flatMap Run.text ++ tail)) :
    withLists s (located 0 (front ++ rs.flatMap Run.segments)) last (rangesFrom front.length rs) =
      (front.flatMap Segment.text).drop last ++ (rs.flatMap Run.render ++ tail) := by
  induction rs generalizing front last with
  | nil =>
    rw [rangesFrom, withLists, hs, List.drop_append_of_le_length hlast]
    rfl
  | cons r rs ih =>
    have hfront : front ++ (r :: rs).flatMap Run.segments =
        (front ++ r.segments) ++ rs.flatMap Run.segments := by
      rw [List.flatMap_cons, List.append_assoc]
    have htext : (front ++ r.segments).flatMap Segment.text =
        front.flatMap Segment.text ++ r.text := by
      rw [List.flatMap_append, r.text_eq]
    have hs' : s = (front ++ r.segments).flatMap Segment.text ++ (rs.flatMap Run.text ++ tail) := by
      rw [hs, htext, List.flatMap_cons, List.append_assoc, List.append_assoc]
    by_cases hothers : r.others = []
    · have := ih (front ++ r.segments) last
        (by rw [htext, List.length_append]; omega) hs'
      rw [rangesFrom_cons_of_alone hothers, hfront, ← List.length_append, this, htext,
        List.drop_append_of_le_length hlast, List.flatMap_cons, render_eq_text hothers]
      simp only [List.append_assoc]
    · have hrest := ih (front ++ r.segments) (front.flatMap Segment.text ++ r.text).length
        (by rw [htext]) hs'
      have hgap : s.extract last (front.flatMap Segment.text ++ r.gap).length =
          (front.flatMap Segment.text).drop last ++ r.gap := by
        rw [hs, List.flatMap_cons, Run.text, List.append_assoc, List.append_assoc,
          extract_append hlast]
      have hlist : listText r.items = if r.others.isEmpty then r.first else r.list := by
        have hempty : r.others.isEmpty = false := by simpa using hothers
        rw [hempty, if_neg Bool.false_ne_true]
        rfl
      rw [rangesFrom_cons_of_joined hothers, withLists, List.flatMap_cons, startAt_run,
        map_text_extract_located, stopAt_run, ← List.length_append, ← List.append_assoc front,
        hrest, hgap, htext, List.drop_length, List.nil_append, List.flatMap_cons, Run.render, hlist]
      simp only [List.append_assoc]

/-- Every range of items is replaced by a list, and all else is kept. -/
theorem groupItems_eq_withLists (s : List Char) :
    groupItems s = withLists s (flatItems s) 0 (itemRanges s) := by
  have hs : s = (runs (segments s).1).flatMap Run.text ++ (segments s).2 := by
    rw [text_runs, text_segments]
  have := withLists_rangesFrom [] (runs (segments s).1) 0 (Nat.le_refl 0) hs
  rw [List.nil_append, segments_runs, ← flatItems_eq] at this
  exact this.symm

/-- The list that a range becomes stands in the rewritten text. -/
theorem exists_listText_of_mem (s : List Char) (items : List (Occurrence Unit)) (last : Nat)
    {ranges : List (Nat × Nat)} {q : Nat × Nat} (hq : q ∈ ranges) :
    ∃ x z, withLists s items last ranges =
      x ++ (listText ((items.extract q.1 q.2).map Occurrence.text) ++ z) := by
  induction ranges generalizing last with
  | nil => cases hq
  | cons r ranges ih =>
    rcases List.mem_cons.1 hq with rfl | hq
    · exact ⟨_, _, rfl⟩
    · obtain ⟨x, z, hxz⟩ := ih (stopAt items (r.2 - 1)) hq
      refine ⟨s.extract last (startAt items r.1) ++
        (listText ((items.extract r.1 r.2).map Occurrence.text) ++ x), z, ?_⟩
      rw [withLists, hxz]
      simp only [List.append_assoc]

/-- The text of a range of items is the items with blanks between them. -/
def BlanksBetween (s : List Char) (items : List (Occurrence Unit)) (q : Nat × Nat) : Prop :=
  ∃ (first : List Char) (others : List Segment), (∀ g ∈ others, allBlank g.gap = true) ∧
    (items.extract q.1 q.2).map Occurrence.text = first :: others.map Segment.item ∧
    s.extract (startAt items q.1) (stopAt items (q.2 - 1)) =
      first ++ others.flatMap Segment.text

theorem blanksBetween_of_mem_itemRanges {s : List Char} {q : Nat × Nat} (hq : q ∈ itemRanges s) :
    BlanksBetween s (flatItems s) q := by
  obtain ⟨front, r, back, hruns, -, hfst, hsnd⟩ := exists_run_of_mem_rangesFrom hq
  have hr : r ∈ runs (segments s).1 := by
    rw [hruns]
    exact List.mem_append_right _ List.mem_cons_self
  have hsegments : (segments s).1 =
      front.flatMap Run.segments ++ (r.segments ++ back.flatMap Run.segments) := by
    rw [← segments_runs (segments s).1, hruns, List.flatMap_append, List.flatMap_cons]
  refine ⟨r.first, r.others, allBlank_of_mem_runs hr, ?_, ?_⟩
  · rw [flatItems_eq, hsegments, hsnd, hfst, Nat.zero_add, map_text_extract_located]
    rfl
  · have htext : s = ((front.flatMap Run.segments).flatMap Segment.text ++ r.gap) ++
        ((r.first ++ r.others.flatMap Segment.text) ++
          ((back.flatMap Run.segments).flatMap Segment.text ++ (segments s).2)) := by
      conv => lhs; rw [← text_segments s, hsegments, List.flatMap_append, List.flatMap_append,
        ← r.text_eq, Run.text]
      simp only [List.append_assoc]
    rw [flatItems_eq, hsegments, hsnd, hfst, Nat.zero_add, startAt_run, stopAt_run, Run.text,
      ← List.append_assoc (List.flatMap _ _) r.gap, htext, extract_append (Nat.le_refl _),
      List.drop_length, List.nil_append]

/-- An item from `<div` to `</div>` is listed from `<li` to `</li>`. -/
theorem exists_listItem_of_mem_flatItems {s : List Char} {o : Occurrence Unit}
    (ho : o ∈ flatItems s) : ∃ u, o.text = "<div".toList ++ (u ++ "</div>".toList) ∧
      listItem o.text = "<li".toList ++ (u ++ "</li>".toList) := by
  obtain ⟨r, -, hread⟩ := read_of_mem_occurrences consumes_item? (List.mem_of_mem_filter ho)
  obtain ⟨u, hu⟩ := item?_eq_some hread
  have htext : o.text = "<div".toList ++ (u ++ "</div>".toList) :=
    List.append_cancel_right (hu.trans (by simp))
  refine ⟨u, htext, ?_⟩
  rw [htext, listItem, itemBody_of_isItem, List.append_assoc]

/-- **The maximal ranges of items become lists, and all else is kept**: the ranges join exactly the
neighbours with nothing but blanks between them; the rewritten text is the text with a list in the
place of each range; an item from `<div` to `</div>` is listed from `<li` to `</li>`; and what a
range loses is blanks. -/
theorem itemLists_lists_ranges (s : List Char) :
    IsGrouping s (flatItems s) (itemRanges s) ∧
      itemLists.revise s = withLists s (flatItems s) 0 (itemRanges s) ∧
      (∀ o ∈ flatItems s, ∃ u, o.text = "<div".toList ++ (u ++ "</div>".toList) ∧
        listItem o.text = "<li".toList ++ (u ++ "</li>".toList)) ∧
      ∀ q ∈ itemRanges s, BlanksBetween s (flatItems s) q :=
  ⟨isGrouping_itemRanges s, groupItems_eq_withLists s,
    fun _ ho => exists_listItem_of_mem_flatItems ho,
    fun _ hq => blanksBetween_of_mem_itemRanges hq⟩

/-- Two runs with a rule between them are two ranges. -/
example : itemRanges ("<div class='item'>1</div><div class='item'>2</div><hr>".toList ++
    "<div class='item'>3</div> <div class='item'>4</div>".toList) = [(0, 2), (2, 4)] := by
  decide +kernel

end Markup
end SceneMarkup
