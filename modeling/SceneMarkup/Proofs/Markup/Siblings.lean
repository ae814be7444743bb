import SceneMarkup.Proofs.Markup.ItemClasses

/-!
# Sibling items

Neighbouring `<div>`s with a class that mentions `item` and no `<div>` inside become the items of
one list, wherever they stand, unless an item that starts in front of them reaches into them.  This
happens when they stand in a `<div>` that is an item itself: it ends at the first `</div>`, which is
that of the first sibling, and is left as written.

## Main definitions

* `ItemDiv` — a `<div>` with a class that mentions `item`.
* `Siblings` — two of them or more with blanks between them.
* `ListedTogether` — in a text around them, siblings are items of one range.

## Main results

* `item?_itemDiv` — such a `<div>` is read as an item, whatever follows it.
* `isFlat_itemDiv` — it is flat.
* `segments_siblings` — the segments of siblings.
* `listed_together_iff` — **siblings are listed together exactly when no item that starts in front
  of them reaches into them.**
* `listedTogether_of_not_mentioned` — this is so when no `<div` in front of them is followed by a
  mention of `item` there.
-/

namespace SceneMarkup
namespace Markup

open Text

/-! ### Single items -/

/-- Whether a text ends in `class` and an equals sign, with blanks around the sign or not. -/
def endsInSign (s : List Char) : Bool :=
  match trimStart s.reverse with
  | '=' :: r => startsWith "class".toList.reverse (trimStart r)
  | _ => false

theorem endsInSign_append (u : List Char) {w₁ w₂ : List Char} (hw₁ : ∀ c ∈ w₁, isBlank c = true)
    (hw₂ : ∀ c ∈ w₂, isBlank c = true) :
    endsInSign (u ++ ("class".toList ++ (w₁ ++ '=' :: w₂))) = true := by
  have hrev : (u ++ ("class".toList ++ (w₁ ++ '=' :: w₂))).reverse =
      w₂.reverse ++ '=' :: (w₁.reverse ++ ("class".toList.reverse ++ u.reverse)) := by
    simp
  have hword : "class".toList.reverse = 's' :: "salc".toList := by decide
  have hsign : trimStart (w₁.reverse ++ ("class".toList.reverse ++ u.reverse)) =
      "class".toList.reverse ++ u.reverse := by
    rw [hword]
    exact trimStart_blanks_append (fun c hc => hw₁ c (List.mem_reverse.1 hc)) (by decide) _
  rw [endsInSign, hrev, trimStart_blanks_append (fun c hc => hw₂ c (List.mem_reverse.1 hc))
    (by decide)]
  simp only [hsign, startsWith, after?_append, Option.isSome_some]

/-- A `<div>` with a class that mentions `item`, and no `<div>` inside. -/
structure ItemDiv where
  /-- The class. -/
  cls : List Char
  /-- What stands between the tags. -/
  body : List Char
  /-- The class mentions `item`. -/
  mentions : contains "item".toList cls = true
  /-- The class has no quote. -/
  unquoted : ∀ c ∈ cls, isQuote c = false
  /-- The class does not look like an assignment to `class` that the quote behind it goes on. -/
  settled : endsInSign cls = false
  /-- No `<div` follows a `>` in the class. -/
  untagged : contains "<div".toList (cls.dropWhile fun c => c != '>') = false
  /-- No `<div` stands between the tags. -/
  flat : contains "<div".toList body = false
  /-- No `</div>` stands between the tags. -/
  closed : contains "</div>".toList body = false

/-- An item as written. -/
def ItemDiv.text (d : ItemDiv) : List Char :=
  "<div class=\"".toList ++ (d.cls ++ ("\">".toList ++ (d.body ++ "</div>".toList)))

theorem ItemDiv.text_eq (d : ItemDiv) : d.text = "<div".toList ++ (' ' :: 'c' ::
    ("lass=\"".toList ++ (d.cls ++ '"' :: '>' :: (d.body ++ "</div>".toList)))) := by
  have hopening : "<div class=\"".toList = "<div".toList ++ ' ' :: 'c' :: "lass=\"".toList := by
    decide
  have hclose : "\">".toList = ['"', '>'] := by decide
  unfold ItemDiv.text
  rw [hopening, hclose]
  simp only [List.append_assoc, List.cons_append, List.nil_append]

/-- An item as a list item. -/
def ItemDiv.listed (d : ItemDiv) : List Char :=
  "<li class=\"".toList ++ (d.cls ++ ("\">".toList ++ (d.body ++ "</li>".toList)))

/-- An item with the class `item`. -/
def plainItem (body : List Char) (flat : contains "<div".toList body = false)
    (closed : contains "</div>".toList body = false) : ItemDiv where
  cls := "item".toList
  body := body
  mentions := by decide
  unquoted := forall_mem_of_all (by decide)
  settled := by decide
  untagged := by decide
  flat := flat
  closed := closed

/-! ### The last assignment of a tag -/

theorem exists_cons_of_isAssignment {a : Assignment} {t : List Char}
    (h : IsAssignment "class".toList a t) : ∃ z, t = 'c' :: z := by
  obtain ⟨-, -, w₁, w₂, q, -, -, -, rfl⟩ := h
  have hword : "class".toList = 'c' :: "lass".toList := by decide
  rw [hword]
  exact ⟨_, rfl⟩

theorem not_isQuote_of_isBlank {c : Char} (h : isBlank c = true) : isQuote c = false := by
  by_contra hn
  have := not_isBlank_of_isQuote (Bool.eq_true_of_not_eq_false hn)
  rw [h] at this
  cases this

/-- No quote stands in front of the value of an assignment to `class`. -/
theorem not_isQuote_of_mem_sign {w₁ w₂ : List Char} (hw₁ : ∀ c ∈ w₁, isBlank c = true)
    (hw₂ : ∀ c ∈ w₂, isBlank c = true) :
    ∀ c ∈ "class".toList ++ (w₁ ++ '=' :: w₂), isQuote c = false := by
  have hword : ∀ c ∈ "class".toList, isQuote c = false := forall_mem_of_all (by decide)
  intro c hc
  rcases List.mem_append.1 hc with hc | hc
  · exact hword c hc
  · rcases List.mem_append.1 hc with hc | hc
    · exact not_isQuote_of_isBlank (hw₁ c hc)
    · rcases List.mem_cons.1 hc with rfl | hc
      · decide
      · exact not_isQuote_of_isBlank (hw₂ c hc)

/-- An assignment to `class` in a text with a quote starts behind the quote, or the text up to the
quote ends in the word and an equals sign. -/
theorem sign_or_behind {x y u t r : List Char} {a : Assignment}
    (hx : ∀ c ∈ x, isQuote c = false) (ht : IsAssignment "class".toList a t)
    (h : x ++ '"' :: y = u ++ (t ++ r)) :
    (∃ w₁ w₂, (∀ c ∈ w₁, isBlank c = true) ∧ (∀ c ∈ w₂, isBlank c = true) ∧
      x = u ++ ("class".toList ++ (w₁ ++ '=' :: w₂))) ∨
    ∃ v, u = x ++ '"' :: v ∧ y = v ++ (t ++ r) := by
  rcases List.append_eq_append_iff.1 h with ⟨b, hu, hb⟩ | ⟨b, rfl, hb⟩
  · cases b with
    | nil =>
      obtain ⟨z, rfl⟩ := exists_cons_of_isAssignment ht
      exact absurd (List.cons.inj hb).1 (by decide)
    | cons d b =>
      obtain ⟨rfl, hy⟩ := List.cons.inj hb
      exact Or.inr ⟨b, hu, hy⟩
  · obtain ⟨hquote, -, w₁, w₂, q, hw₁, hw₂, -, rfl⟩ := ht
    have hcut : ("class".toList ++ (w₁ ++ '=' :: w₂)) ++ a.quote :: (a.value ++ q :: r) =
        b ++ '"' :: y := by
      rw [← hb]
      simp
    obtain ⟨rfl, -, -⟩ := append_cons_inj (not_isQuote_of_mem_sign hw₁ hw₂)
      (fun c hc => hx c (List.mem_append_right u hc)) hquote (by decide) hcut
    exact Or.inl ⟨w₁, w₂, hw₁, hw₂, rfl⟩

section Last

variable {α : Type} {p : List Char → Option α} {c : Char} {s : List Char} (hc : c ≠ '>')

include hc

theorem lastInTag?_cons_of_none (h : lastInTag? p s = none) :
    lastInTag? p (c :: s) = p (c :: s) := by
  rw [lastInTag?, if_neg hc, h]

theorem lastInTag?_cons_of_some {a : α} (h : lastInTag? p s = some a) :
    lastInTag? p (c :: s) = some a := by
  rw [lastInTag?, if_neg hc, h]

end Last

/-- The class attribute is the last assignment in the tag of an item. -/
theorem lastInTag?_behind (d : ItemDiv) (z : List Char) :
    lastInTag? itemFromClass? ("lass=\"".toList ++ (d.cls ++ '"' :: '>' :: z)) = none := by
  rw [Option.eq_none_iff_forall_ne_some]
  intro r hr
  obtain ⟨u, y, hu, hy, hs⟩ := lastInTag?_eq_some hr
  obtain ⟨a, t, v, body, -, ht, rfl⟩ := itemFromClass?_eq_some hy
  have hopening : "lass=\"".toList = "lass=".toList ++ ['"'] := by decide
  rw [hopening, List.append_assoc, List.singleton_append] at hs
  have hword : ∀ c ∈ "lass=".toList, isQuote c = false := forall_mem_of_all (by decide)
  rcases sign_or_behind hword ht hs with ⟨w₁, w₂, -, -, hsign⟩ | ⟨v₁, rfl, hclass⟩
  · -- the word is longer
    have := congrArg List.length hsign
    simp at this
    omega
  · rcases sign_or_behind d.unquoted ht hclass with ⟨w₁, w₂, hw₁, hw₂, hsign⟩ | ⟨v₂, rfl, hend⟩
    · have hsettled := d.settled
      rw [hsign, endsInSign_append v₁ hw₁ hw₂] at hsettled
      cases hsettled
    · -- only the end of the tag is left
      cases v₂ with
      | nil =>
        obtain ⟨x, rfl⟩ := exists_cons_of_isAssignment ht
        exact absurd (List.cons.inj hend).1 (by decide)
      | cons c v₂ =>
        obtain ⟨rfl, -⟩ := List.cons.inj hend
        simp at hu

/-- The item reaches to the first `</div>`. -/
theorem itemFromClass?_itemDiv (d : ItemDiv) (z : List Char) :
    itemFromClass? ("class=\"".toList ++
      (d.cls ++ '"' :: '>' :: (d.body ++ ("</div>".toList ++ z)))) = some z := by
  have hassigned : IsAssignment "class".toList ⟨'"', d.cls⟩
      ("class=\"".toList ++ (d.cls ++ ['"'])) :=
    ⟨rfl, d.unquoted, [], [], '"', by simp, by simp, rfl, by simp⟩
  have hread := assignment?_append hassigned ('>' :: (d.body ++ ("</div>".toList ++ z)))
  have htext : "class=\"".toList ++ (d.cls ++ '"' :: '>' :: (d.body ++ ("</div>".toList ++ z))) =
      "class=\"".toList ++ (d.cls ++ ['"']) ++ '>' :: (d.body ++ ("</div>".toList ++ z)) := by simp
  have hclosing : "</div>".toList = '<' :: "/div>".toList := by decide
  have hclosed := d.closed
  rw [hclosing] at hclosed
  have hdivide := divide?_append (by decide) hclosed z
  rw [← hclosing] at hdivide
  rw [htext, itemFromClass?, throughTag?, assignmentWhere?, hread]
  simp only [d.mentions, if_true, tagBody?, hdivide, Option.map_some]

/-- **A `<div>` with a class that mentions `item` is read as an item, whatever follows it.** -/
theorem item?_itemDiv (d : ItemDiv) (z : List Char) : item? (d.text ++ z) = some ((), z) := by
  have htext : d.text ++ z = "<div".toList ++ (' ' :: 'c' :: ("lass=\"".toList ++
      (d.cls ++ '"' :: '>' :: (d.body ++ ("</div>".toList ++ z))))) := by
    rw [d.text_eq]
    simp only [List.append_assoc, List.cons_append]
  have hlast := lastInTag?_behind d (d.body ++ ("</div>".toList ++ z))
  have hclass := itemFromClass?_itemDiv d z
  have hword : "class=\"".toList = 'c' :: "lass=\"".toList := by decide
  rw [hword, List.cons_append] at hclass
  have hspace : isWord ' ' = false := by decide +kernel
  rw [← lastInTag?_cons_of_none (by decide) hlast] at hclass
  have hread := lastInTag?_cons_of_some (c := ' ') (by decide) hclass
  rw [htext, item?, after?_append]
  simp only [startsWord_cons, hspace, Bool.false_eq_true, if_false, hread, Option.map_some]

/-- No `<div` stands behind the first `>` of an item. -/
theorem exists_cut_itemDiv (d : ItemDiv) :
    ∃ u x, '>' ∉ u ∧ d.text = u ++ '>' :: x ∧ contains "<div".toList x = false := by
  have hbody : contains "<div".toList (d.body ++ "</div>".toList) = false := by
    have hclosing : "</div>".toList = '<' :: "/div>".toList := by decide
    have hend : contains "<div".toList ('<' :: "/div>".toList) = false := by decide
    have hflat := d.flat
    rw [divOpening_eq] at hflat hend ⊢
    rw [hclosing, contains_first_append_cons (by decide), hflat, hend]
    rfl
  have hfront : ∀ {c}, '>' ∉ c →
      '>' ∉ "<div".toList ++ (' ' :: 'c' :: ("lass=\"".toList ++ c)) := by
    intro c hc
    simp [hc]
  by_cases hclose : '>' ∈ d.cls
  · -- the first `>` is one of the class
    obtain ⟨c, x, hc, hcls⟩ := exists_cut_of_mem hclose
    refine ⟨_, x ++ '"' :: '>' :: (d.body ++ "</div>".toList), hfront hc, ?_, ?_⟩
    · rw [d.text_eq, hcls]
      simp only [List.append_assoc, List.cons_append]
    · have hne : ∀ e ∈ c, (e != '>') = true := fun e he => by
        rw [bne_iff_ne]
        rintro rfl
        exact hc he
      have hbehind := d.untagged
      rw [hcls, List.dropWhile_append_of_pos hne, List.dropWhile_cons_of_neg (by decide),
        contains_cons, Bool.or_eq_false_iff] at hbehind
      have hend := contains_append_cons (w := "<div".toList) (c := '>') (by decide) []
        (d.body ++ "</div>".toList)
      rw [hbody] at hend
      rw [contains_append_cons (by decide), hbehind.2, ← List.nil_append ('>' :: _), hend]
      rfl
  · refine ⟨_, d.body ++ "</div>".toList, hfront (c := d.cls ++ ['"']) (by simpa using hclose), ?_,
      hbody⟩
    rw [d.text_eq]
    simp only [List.append_assoc, List.cons_append, List.nil_append]

/-- **Such an item is flat.** -/
theorem isFlat_itemDiv (d : ItemDiv) : isFlat d.text = true := by
  obtain ⟨u, x, hu, hcut, hx⟩ := exists_cut_itemDiv d
  rw [isFlat, hcut, tagBody?_append hu]
  simp only [hx, Bool.not_false]

/-! ### Siblings -/

/-- An item and the blanks in front of it. -/
structure Sibling where
  /-- The blanks. -/
  gap : List Char
  /-- The gap is blank. -/
  blank : allBlank gap = true
  /-- The item. -/
  div : ItemDiv

/-- The segment of a sibling. -/
def Sibling.segment (d : Sibling) : Segment := ⟨d.gap, d.div.text⟩

/-- Two items or more with nothing but blanks between them. -/
structure Siblings where
  /-- The first item. -/
  first : ItemDiv
  /-- The other items. -/
  others : List Sibling
  /-- There is another item. -/
  several : others ≠ []

/-- The segments of siblings. -/
def Siblings.segments (d : Siblings) : List Segment :=
  ⟨[], d.first.text⟩ :: d.others.map Sibling.segment

/-- Siblings as written. -/
def Siblings.text (d : Siblings) : List Char := d.segments.flatMap Segment.text

/-- How many siblings there are. -/
def Siblings.count (d : Siblings) : Nat := d.segments.length

/-- Every item of siblings. -/
def Siblings.divs (d : Siblings) : List ItemDiv := d.first :: d.others.map Sibling.div

/-- The segments of a text behind an item. -/
theorem segments_itemDiv (d : ItemDiv) (s : List Char) :
    segments (d.text ++ s) = (⟨[], d.text⟩ :: (segments s).1, (segments s).2) := by
  refine segments_append_of_isFlat ?_ (item?_itemDiv d s) (isFlat_itemDiv d)
  rw [d.text_eq]
  simp

/-- **The segments of a text behind siblings are theirs and those of the text.** -/
theorem segments_siblings (d : Siblings) (s : List Char) :
    segments (d.text ++ s) = (d.segments ++ (segments s).1, (segments s).2) := by
  have hothers : ∀ os : List Sibling,
      segments ((os.map Sibling.segment).flatMap Segment.text ++ s) =
        (os.map Sibling.segment ++ (segments s).1, (segments s).2) := by
    intro os
    induction os with
    | nil => rfl
    | cons o os ih =>
      rw [List.map_cons, List.flatMap_cons, Segment.text, Sibling.segment, List.append_assoc,
        List.append_assoc, segments_blanks_append (allBlank_iff.1 o.blank), segments_itemDiv, ih]
      simp [prepend]
  rw [Siblings.text, Siblings.segments, List.flatMap_cons, Segment.text, List.nil_append,
    List.append_assoc, segments_itemDiv, hothers]
  rfl

/-- Behind `p` and in front of `s`, siblings are items of one range. -/
def ListedTogether (p : List Char) (d : Siblings) (s : List Char) : Prop :=
  ∃ q ∈ itemRanges (p ++ (d.text ++ s)), ∃ i, q.1 ≤ i ∧ i + d.count ≤ q.2 ∧
    (flatItems (p ++ (d.text ++ s))).extract i (i + d.count) = located p.length d.segments

theorem listedTogether_of_stops {p s : List Char} {d : Siblings}
    (h : ∀ o ∈ occurrences item? (p ++ (d.text ++ s)), o.start < p.length → o.stop ≤ p.length) :
    ListedTogether p d s := by
  obtain ⟨gs, gap, hsegments, hitems⟩ := flatItems_append h
  rw [segments_siblings] at hsegments hitems
  have hpos : 0 < d.others.length := List.length_pos_iff.2 d.several
  have hcount : d.count = d.others.length + 1 := by simp [Siblings.count, Siblings.segments]
  -- from the first one on, each is joined to the next one
  have hjoins : ∀ j ≤ d.others.length - 1,
      Joins (itemRanges (p ++ (d.text ++ s))) (gs.length + j) := by
    intro j hj
    have hlt : j < (d.others.map Sibling.segment).length := by
      rw [List.length_map]
      omega
    have hnext : (segments (p ++ (d.text ++ s))).1[gs.length + j + 1]? =
        some ((d.others.map Sibling.segment)[j]) := by
      rw [hsegments, List.getElem?_append_right (by omega), Nat.add_assoc, Nat.add_sub_cancel_left]
      exact (List.getElem?_append_left hlt).trans (List.getElem?_eq_getElem hlt)
    rw [joins_itemRanges_iff hnext, List.getElem_map]
    exact (d.others.get ⟨j, by simpa using hlt⟩).blank
  obtain ⟨q, hq, hstart, hstop⟩ := exists_range_of_joins (pairwise_rangesFrom 0 _) hjoins
  refine ⟨q, hq, gs.length, hstart, by omega, ?_⟩
  have hplaces := extract_middle (located 0 gs) (located p.length d.segments)
    (located (p.length + (d.segments.flatMap Segment.text).length) (segments s).1)
  rwa [← located_append, ← hitems, length_located, length_located] at hplaces

theorem stops_of_listedTogether {p s : List Char} {d : Siblings} (h : ListedTogether p d s) :
    ∀ o ∈ occurrences item? (p ++ (d.text ++ s)), o.start < p.length → o.stop ≤ p.length := by
  obtain ⟨q, -, i, -, -, hitems⟩ := h
  have hfirst : (⟨p.length, d.first.text, ()⟩ : Occurrence Unit) ∈
      flatItems (p ++ (d.text ++ s)) := by
    have hmem : (⟨p.length, d.first.text, ()⟩ : Occurrence Unit) ∈ located p.length d.segments :=
      List.mem_cons_self
    rw [← hitems] at hmem
    exact List.mem_of_mem_drop (List.mem_of_mem_take hmem)
  intro o ho hlt
  exact stop_le_of_lt ho (List.mem_of_mem_filter hfirst) hlt

/-- The text of a list item. -/
theorem listItem_itemDiv (d : ItemDiv) : listItem d.text = d.listed := by
  have hdiv : "<div class=\"".toList = "<div".toList ++ " class=\"".toList := by decide
  have hli : "<li class=\"".toList = "<li".toList ++ " class=\"".toList := by decide
  have htext : d.text = "<div".toList ++
      ((" class=\"".toList ++ (d.cls ++ ("\">".toList ++ d.body))) ++ "</div>".toList) := by
    unfold ItemDiv.text
    rw [hdiv]
    simp only [List.append_assoc]
  unfold ItemDiv.listed
  rw [htext, listItem, itemBody_of_isItem, hli]
  simp only [List.append_assoc]

/-- Siblings that are listed together are items of one list in the rewritten text. -/
theorem exists_listText_of_listedTogether {p s : List Char} {d : Siblings}
    (h : ListedTogether p d s) :
    ∃ x before after z, itemLists.revise (p ++ (d.text ++ s)) =
      x ++ (listText (before ++ (d.divs.map ItemDiv.text ++ after)) ++ z) := by
  obtain ⟨q, hq, i, hstart, hstop, hitems⟩ := h
  obtain ⟨x, z, hxz⟩ := exists_listText_of_mem (p ++ (d.text ++ s))
    (flatItems (p ++ (d.text ++ s))) 0 hq
  obtain ⟨u, v, huv⟩ := exists_extract_append (flatItems (p ++ (d.text ++ s))) hstart hstop
  have hdivs : d.segments.map Segment.item = d.divs.map ItemDiv.text := by
    simp [Siblings.segments, Siblings.divs, Sibling.segment]
  refine ⟨x, u.map Occurrence.text, v.map Occurrence.text, z, ?_⟩
  rw [huv, hitems, List.map_append, List.map_append, map_text_located, hdivs] at hxz
  exact (groupItems_eq_withLists _).trans hxz

/-- **Siblings are listed together exactly when no item that starts in front of them reaches into
them**: in the rewritten text each range of items is a list, a list has `<li` for `<div` and `</li>`
for `</div>`, and the siblings, at their places, are items of one range and so of one list. -/
theorem listed_together_iff (p : List Char) (d : Siblings) (s : List Char) :
    itemLists.revise (p ++ (d.text ++ s)) =
        withLists (p ++ (d.text ++ s)) (flatItems (p ++ (d.text ++ s))) 0
          (itemRanges (p ++ (d.text ++ s))) ∧
      (∀ e ∈ d.divs, listItem e.text = e.listed) ∧
      (ListedTogether p d s → ∃ x before after z, itemLists.revise (p ++ (d.text ++ s)) =
        x ++ (listText (before ++ (d.divs.map ItemDiv.text ++ after)) ++ z)) ∧
      (ListedTogether p d s ↔ ∀ o ∈ occurrences item? (p ++ (d.text ++ s)),
        o.start < p.length → o.stop ≤ p.length) :=
  ⟨groupItems_eq_withLists _, fun e _ => listItem_itemDiv e, exists_listText_of_listedTogether,
    stops_of_listedTogether, listedTogether_of_stops⟩

/-- In a container that is an item itself, two items are not listed together: the container ends at
the `</div>` of the first one, and is not flat. -/
theorem listed_apart_in_item :
    ∃ d : Siblings, d.text = "<div class=\"item\">A</div><div class=\"item\">B</div>".toList ∧
      itemLists.revise ("<div class=\"items\">".toList ++ (d.text ++ "</div>".toList)) =
        "<div class=\"items\">".toList ++ (d.text ++ "</div>".toList) ∧
      ¬ ListedTogether "<div class=\"items\">".toList d "</div>".toList := by
  obtain ⟨d, hd⟩ : ∃ d : Siblings,
      d.text = "<div class=\"item\">A</div><div class=\"item\">B</div>".toList :=
    ⟨⟨plainItem "A".toList (by decide) (by decide),
      [⟨[], rfl, plainItem "B".toList (by decide) (by decide)⟩], List.cons_ne_nil _ _⟩, rfl⟩
  have hranges : itemRanges ("<div class=\"items\">".toList ++
      ("<div class=\"item\">A</div><div class=\"item\">B</div>".toList ++ "</div>".toList)) =
      [] := by decide +kernel
  refine ⟨d, hd, ?_, ?_⟩
  · rw [hd]
    decide +kernel
  · rintro ⟨q, hq, -⟩
    rw [hd, hranges] at hq
    cases hq

/-! ### What stands in front -/

/-- No `>` stands in front of the value that makes an item. -/
theorem not_mem_in_front {u w₁ w₂ : List Char} {q : Char} (hu : '>' ∉ u)
    (hw₁ : ∀ c ∈ w₁, isBlank c = true) (hw₂ : ∀ c ∈ w₂, isBlank c = true)
    (hq : isQuote q = true) :
    '>' ∉ "<div".toList ++ (u ++ ("class".toList ++ (w₁ ++ '=' :: (w₂ ++ [q])))) := by
  have hblank : ∀ {w : List Char}, (∀ c ∈ w, isBlank c = true) → '>' ∉ w :=
    fun hw hmem => absurd (hw _ hmem) (by decide)
  have hne : '>' ≠ q := by
    rintro rfl
    exact absurd hq (by decide)
  simp [hu, hblank hw₁, hblank hw₂, hne]

/-- An item whose tag is closed in front of the tag of another one mentions `item` in front of it:
its value ends at the first quote of that tag at the latest. -/
theorem contains_item_of_item? {y z r : List Char} (hclose : '>' ∈ y)
    (h : item? (y ++ ("<div class=\"".toList ++ z)) = some ((), r)) :
    contains "item".toList y = true := by
  obtain ⟨u, a, t, v, body, hu, hitem, ⟨hquote, hvalue, w₁, w₂, q, hw₁, hw₂, -, rfl⟩, hs⟩ :=
    item?_eq_some_class h
  obtain ⟨c, x, -, rfl⟩ := exists_cut_of_mem hclose
  -- up to the quote in front of the value all stands in the tag
  obtain ⟨b, rfl, hb⟩ := eq_append_of_not_mem (u := c)
    (y := x ++ ("<div class=\"".toList ++ z))
    (z := a.value ++ q :: (v ++ '>' :: (body ++ ("</div>".toList ++ r))))
    (not_mem_in_front hu hw₁ hw₂ hquote) (by simpa using hs)
  have htag : "<div class=\"".toList = '<' :: "div class=".toList ++ ['"'] := by decide
  have hmem : '"' ∉ a.value := fun hmem => absurd (hvalue _ hmem) (by decide)
  obtain ⟨e, he, -⟩ := eq_append_of_not_mem (u := b ++ '>' :: (x ++ '<' :: "div class=".toList))
    (y := z) hmem (by rw [hb, htag]; simp)
  have hcontains : contains "item".toList (b ++ '>' :: x ++ '<' :: "div class=".toList) = true := by
    refine contains_of_isInfix (List.IsPrefix.isInfix ⟨e, ?_⟩) hitem
    rw [← he]
    simp
  have hrest : contains "item".toList "div class=".toList = false := by decide
  rw [contains_append_cons (by decide), hrest, Bool.or_false] at hcontains
  rw [List.append_assoc]
  exact contains_of_isInfix (List.suffix_append _ _).isInfix hcontains

/-- Siblings start with a tag. -/
theorem exists_text_append (d : Siblings) (s : List Char) :
    ∃ z, d.text ++ s = "<div class=\"".toList ++ z := by
  rw [Siblings.text, Siblings.segments, List.flatMap_cons, Segment.text, List.nil_append,
    List.append_assoc]
  unfold ItemDiv.text
  rw [List.append_assoc]
  exact ⟨_, rfl⟩

/-- **Siblings are listed together when each `<div` in front of them is closed and no mention of
`item` follows it there.** -/
theorem listedTogether_of_not_mentioned {p : List Char}
    (hp : ∀ y ∈ p.tails, startsWith "<div".toList y = true →
      '>' ∈ y ∧ contains "item".toList y = false) (d : Siblings) (s : List Char) :
    ListedTogether p d s := by
  refine listedTogether_of_stops fun o ho hlt => ?_
  exfalso
  obtain ⟨u, r, hs, hu, -, hread⟩ := place_of_mem_occurrences consumes_item? ho
  -- an item that starts in `p` starts with a `<div` of `p`
  obtain ⟨y, rfl⟩ : u <+: p := List.prefix_of_prefix_length_le ⟨_, hs.symm⟩
    (List.prefix_append p _) (by omega)
  rw [List.append_assoc, List.append_cancel_left_eq] at hs
  cases y with
  | nil => simp [hu] at hlt
  | cons c y =>
    obtain ⟨z, hz⟩ := exists_text_append d s
    rw [hz] at hs
    rw [← hs] at hread
    have hstart : startsWith "<div".toList (c :: y) = true := by
      have htag : "<div class=\"".toList = '<' :: "div class=\"".toList := by decide
      obtain ⟨u', a, t, v, body, -, -, -, hdiv⟩ := item?_eq_some_class hread
      rw [htag, divOpening_eq, List.cons_append (a := '<')] at hdiv
      rw [divOpening_eq, ← startsWith_first_append_cons (by decide), ← List.cons_append, hdiv,
        startsWith, after?_append]
      rfl
    have hsuffix : c :: y ∈ (u ++ c :: y).tails := (List.mem_tails _ _).2 (List.suffix_append _ _)
    obtain ⟨hclose, hnone⟩ := hp (c :: y) hsuffix hstart
    rw [contains_item_of_item? hclose hread] at hnone
    cases hnone

/-- In a container of another class and behind a paragraph that mentions an item, all siblings are
listed together. -/
example (d : Siblings) (s : List Char) :
    ListedTogether "<p>An item</p><div class=\"grid\">".toList d s :=
  listedTogether_of_not_mentioned (by decide) d s

end Markup
end SceneMarkup
