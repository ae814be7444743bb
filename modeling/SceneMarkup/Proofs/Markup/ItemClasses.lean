import SceneMarkup.Proofs.Markup.ItemRuns
import SceneMarkup.Proofs.Markup.Mentions
import SceneMarkup.Proofs.Text.Search

/-!
# Classes of items

Two readers look at the tag of an item.  The reader of items takes the last place of the tag at
which `class`, an equals sign and a value in quotes that mentions `item` stand, wherever this is;
the scanner of attributes reads the tag from left to right and takes quoted values whole.  They
agree on tags in which only the class attribute looks like such an assignment.

## Main definitions

* `IsOpening` — an assignment up to its opening quote.
* `IsInitial` — the first letter of a name that stands nowhere else in an assignment to the name.
* `assignsItem` — a text starts with an assignment to `class` that mentions `item`.
* `mentionsItem` — the class attribute of a tag mentions `item`.
* `ReadsAlike` — the scanner finds the class attribute wherever a tag assigns a class that mentions
  `item`.

## Main results

* `assignment?_append` — an assignment is read from its text, whatever follows.
* `isSome_assignment?_iff` — an assignment is read where one is opened and a quote follows.
* `IsInitial.assignment?_eq_none` — what is read in front of an assignment does not depend on the
  value assigned.
* `exists_tag_of_item?` — the tag of an item.
* `contains_item_of_found` — where the scanner finds the assignment, it reads `item` too.
* `listed_tags` — **an item that is listed assigns a class that mentions `item` in its tag, and has
  a class attribute that does so when both readers read the tag alike.**
-/

namespace SceneMarkup
namespace Markup

open Text

/-! ### Assignments -/

/-- An assignment is read from its text, whatever follows. -/
theorem assignment?_append {name t : List Char} {a : Assignment} (h : IsAssignment name a t)
    (r : List Char) : assignment? name (t ++ r) = some (a, r) := by
  obtain ⟨hquote, hvalue, w₁, w₂, q, hw₁, hw₂, hq, rfl⟩ := h
  have hplain : ∀ c ∈ a.value, (!isQuote c) = true := fun c hc => by simp [hvalue c hc]
  have hread : quotedValue? (a.quote :: (a.value ++ q :: r)) = some (a, r) := by
    rw [quotedValue?, if_pos hquote, List.dropWhile_append_of_pos hplain,
      List.takeWhile_append_of_pos hplain]
    simp [hq]
  refine assignment?_eq_some_iff.2 ⟨w₁ ++ '=' :: (w₂ ++ a.quote :: (a.value ++ q :: r)),
    w₂ ++ a.quote :: (a.value ++ q :: r), ?_, ?_, ?_⟩
  · rw [after?_eq_some_iff]
    simp
  · exact trimStart_blanks_append hw₁ (by decide) _
  · rw [trimStart_blanks_append hw₂ (not_isBlank_of_isQuote hquote), hread]

/-- A text of a name, an equals sign and a quote, with blanks around the sign or not. -/
def IsOpening (name t : List Char) : Prop :=
  ∃ w₁ w₂ q, (∀ c ∈ w₁, isBlank c = true) ∧ (∀ c ∈ w₂, isBlank c = true) ∧ isQuote q = true ∧
    t = name ++ (w₁ ++ '=' :: (w₂ ++ [q]))

/-- An assignment is read where one is opened and a quote follows. -/
theorem isSome_assignment?_iff {name s : List Char} : (assignment? name s).isSome = true ↔
    ∃ t y, IsOpening name t ∧ s = t ++ y ∧ ∃ c ∈ y, isQuote c = true := by
  rw [Option.isSome_iff_exists]
  constructor
  · rintro ⟨⟨a, r⟩, h⟩
    obtain ⟨t, ⟨hquote, -, w₁, w₂, q, hw₁, hw₂, hq, rfl⟩, rfl⟩ := assignment?_eq_some h
    exact ⟨_, a.value ++ q :: r, ⟨w₁, w₂, a.quote, hw₁, hw₂, hquote, rfl⟩, by simp, q, by simp, hq⟩
  · rintro ⟨-, y, ⟨w₁, w₂, quote, hw₁, hw₂, hquote, rfl⟩, rfl, c, hc, hq⟩
    have hcut := (List.takeWhile_append_dropWhile (p := fun c => !isQuote c) (l := y)).symm
    cases hdrop : y.dropWhile (fun c => !isQuote c) with
    | nil =>
      have := List.dropWhile_eq_nil_iff.1 hdrop c hc
      simp [hq] at this
    | cons q r =>
      have hq : isQuote q = true := by simpa using eq_false_of_dropWhile hdrop
      rw [hdrop] at hcut
      have hassigned : IsAssignment name ⟨quote, y.takeWhile fun c => !isQuote c⟩ _ :=
        ⟨hquote, fun c hc => by simpa using List.mem_takeWhile_imp hc, w₁, w₂, q, hw₁, hw₂, hq, rfl⟩
      refine ⟨(⟨quote, y.takeWhile fun c => !isQuote c⟩, r), ?_⟩
      rw [← assignment?_append hassigned r]
      conv => lhs; rw [hcut]
      simp

theorem exists_opening_of_isAssignment {name t : List Char} {a : Assignment}
    (h : IsAssignment name a t) :
    ∃ u q, IsOpening name u ∧ isQuote q = true ∧ t = u ++ (a.value ++ [q]) := by
  obtain ⟨hquote, -, w₁, w₂, q, hw₁, hw₂, hq, rfl⟩ := h
  exact ⟨_, q, ⟨w₁, w₂, a.quote, hw₁, hw₂, hquote, rfl⟩, hq, by simp⟩

theorem IsOpening.exists_cons {k : Char} {w t : List Char} (h : IsOpening (k :: w) t) :
    ∃ u, t = k :: u ∧ IsOpening w u := by
  obtain ⟨w₁, w₂, q, hw₁, hw₂, hq, rfl⟩ := h
  exact ⟨_, rfl, w₁, w₂, q, hw₁, hw₂, hq, rfl⟩

theorem IsOpening.not_mem {w t : List Char} {c : Char} (h : IsOpening w t) (hword : c ∉ w)
    (hblank : isBlank c = false) (hquote : isQuote c = false) (hequals : c ≠ '=') : c ∉ t := by
  obtain ⟨w₁, w₂, q, hw₁, hw₂, hq, rfl⟩ := h
  intro hmem
  simp only [List.mem_append, List.mem_cons, List.not_mem_nil, or_false] at hmem
  rcases hmem with hmem | hmem | hmem | hmem | rfl
  · exact hword hmem
  · exact not_mem_of_isBlank hw₁ hblank hmem
  · exact hequals hmem
  · exact not_mem_of_isBlank hw₂ hblank hmem
  · simp [hquote] at hq

theorem IsAssignment.not_mem {name t : List Char} {a : Assignment} {c : Char}
    (h : IsAssignment name a t) (hname : c ∉ name) (hvalue : c ∉ a.value)
    (hblank : isBlank c = false) (hquote : isQuote c = false) (hequals : c ≠ '=') : c ∉ t := by
  obtain ⟨u, q, hu, hq, rfl⟩ := exists_opening_of_isAssignment h
  have hopening := hu.not_mem hname hblank hquote hequals
  have hlast : c ≠ q := by
    rintro rfl
    simp [hquote] at hq
  simp [hopening, hvalue, hlast]

/-- The first letter of a name, when the name has it once and it can be no other part of an
assignment. -/
structure IsInitial (k : Char) (w : List Char) : Prop where
  once : k ∉ w
  not_blank : isBlank k = false
  not_quote : isQuote k = false
  not_equals : k ≠ '='

/-- In front of an assignment to a name another one is read whatever is assigned. -/
theorem IsInitial.assignment?_eq_none {k : Char} {w u t r t' r' : List Char} {a a' : Assignment}
    (hk : IsInitial k w) (hu : u ≠ []) (ht : IsAssignment (k :: w) a t)
    (ht' : IsAssignment (k :: w) a' t') (h : assignment? (k :: w) (u ++ (t ++ r)) = none) :
    assignment? (k :: w) (u ++ (t' ++ r')) = none := by
  rw [← Option.not_isSome_iff_eq_none] at h ⊢
  refine fun hsome => h ?_
  rw [isSome_assignment?_iff] at hsome ⊢
  obtain ⟨o, y, ho, hs, -⟩ := hsome
  suffices hopens : ∃ m, u = o ++ m by
    obtain ⟨m, rfl⟩ := hopens
    obtain ⟨-, q, -, hq, rfl⟩ := exists_opening_of_isAssignment ht
    exact ⟨o, _, ho, List.append_assoc _ _ _, q, by simp, hq⟩
  rcases List.append_eq_append_iff.1 hs with ⟨m, rfl, hm⟩ | ⟨m, hu, -⟩
  · -- it would be opened over the first letter of the assignment
    obtain ⟨v, hv, hopening⟩ := ho.exists_cons
    have hno := hopening.not_mem hk.once hk.not_blank hk.not_quote hk.not_equals
    obtain ⟨-, -, w₁, w₂, q', -, -, -, rfl⟩ := ht'
    obtain ⟨c, u, rfl⟩ := List.exists_cons_of_ne_nil hu
    cases m with
    | nil => exact ⟨[], by simp⟩
    | cons d m =>
      obtain ⟨rfl, -⟩ := List.cons.inj hm
      obtain ⟨-, rfl⟩ := List.cons.inj hv
      exact absurd (List.mem_append_right u List.mem_cons_self) hno
  · exact ⟨m, hu⟩

/-- Whether a text starts with an assignment to `class` of a value that mentions `item`. -/
def assignsItem (s : List Char) : Bool :=
  (assignmentWhere? "class".toList (contains "item".toList) s).isSome

theorem assignsItem_iff {s : List Char} : assignsItem s = true ↔
    ∃ a t r, IsAssignment "class".toList a t ∧ contains "item".toList a.value = true ∧
      s = t ++ r := by
  rw [assignsItem, Option.isSome_iff_exists]
  constructor
  · rintro ⟨⟨a, r⟩, h⟩
    obtain ⟨hitem, t, ht, rfl⟩ := assignmentWhere?_eq_some h
    exact ⟨a, t, r, ht, hitem, rfl⟩
  · rintro ⟨a, t, r, ht, hitem, rfl⟩
    exact ⟨(a, r), by simp only [assignmentWhere?, assignment?_append ht, hitem, if_true]⟩

/-! ### Two readers -/

/-- Whether the class attribute of a tag mentions `item`. -/
def mentionsItem (attrs : List Char) : Bool :=
  (findAttribute? "class".toList attrs).any fun o => o.value.value.any (contains "item".toList)

/-- Wherever a tag with the attribute text `attrs`, in front of `rest`, assigns a class that
mentions `item`, the scanner of attributes finds its class attribute, with a value. -/
def ReadsAlike (attrs rest : List Char) : Prop :=
  ∀ i < attrs.length, assignsItem ((attrs ++ '>' :: rest).drop i) = true →
    (findAttribute? "class".toList attrs).any
      (fun o => o.start == i && o.value.value.isSome) = true

instance (attrs rest : List Char) : Decidable (ReadsAlike attrs rest) :=
  inferInstanceAs (Decidable (∀ i < attrs.length,
    assignsItem ((attrs ++ '>' :: rest).drop i) = true →
      (findAttribute? "class".toList attrs).any
        (fun o => o.start == i && o.value.value.isSome) = true))

/-- Both readers find the equals sign of an assignment. -/
theorem eq_of_equals {word name w₁ w₂ x y : List Char} (hword : ∀ c ∈ word, isNameChar c = true)
    (hname : ∀ c ∈ name, isNameChar c = true)
    (hw₁ : ∀ c ∈ w₁, isBlank c = true) (hw₂ : ∀ c ∈ w₂, isBlank c = true)
    (h : word ++ (w₁ ++ '=' :: x) = name ++ (w₂ ++ '=' :: y)) : x = y := by
  have hsign : ∀ {n w : List Char}, (∀ c ∈ n, isNameChar c = true) → (∀ c ∈ w, isBlank c = true) →
      ∀ c ∈ n ++ w, (c == '=') = false := by
    intro n w hn hw c hc
    rw [beq_eq_false_iff_ne]
    rintro rfl
    rcases List.mem_append.1 hc with hc | hc
    · exact absurd (hn _ hc) (by decide)
    · exact absurd (hw _ hc) (by decide)
  rw [← List.append_assoc, ← List.append_assoc] at h
  exact (append_cons_inj (hsign hword hw₁) (hsign hname hw₂) rfl rfl h).2.2

/-- A value that starts at a quote stands between two of these quotes. -/
theorem eq_quoted_of_isValueText {v t w₁ w₂ y z : List Char} {q : Char} (ht : IsValueText v t)
    (hw₁ : ∀ c ∈ w₁, isBlank c = true) (hw₂ : ∀ c ∈ w₂, isBlank c = true) (hq : isQuote q = true)
    (h : w₁ ++ (t ++ y) = w₂ ++ q :: z) : t = q :: (v ++ [q]) ∧ v ++ q :: y = z := by
  have hblanks : ∀ {w : List Char}, (∀ c ∈ w, isBlank c = true) → ∀ c ∈ w, (!isBlank c) = false :=
    fun hw c hc => by simp [hw c hc]
  have hquote : ∀ {q}, isQuote q = true → (!isBlank q) = true :=
    fun hq => by simp [not_isBlank_of_isQuote hq]
  rcases ht with ⟨q₀, hq₀, -, rfl⟩ | ⟨hne, hbare, rfl⟩
  · obtain ⟨-, rfl, hrest⟩ := append_cons_inj (P := fun c => !isBlank c) (hblanks hw₁)
      (hblanks hw₂) (hquote hq₀) (hquote hq) h
    exact ⟨rfl, by simpa using hrest⟩
  · -- a bare value does not start with a quote
    obtain ⟨c, s, rfl⟩ := List.exists_cons_of_ne_nil hne
    have hc := hbare c List.mem_cons_self
    obtain ⟨-, rfl, -⟩ := append_cons_inj (P := fun c => !isBlank c) (hblanks hw₁)
      (hblanks hw₂) (by simp [not_isBlank_of_isBareChar hc]) (hquote hq) h
    rw [not_isQuote_of_isBareChar hc] at hq
    cases hq

/-- The value that the scanner reads goes on where the value up to the first quote ends. -/
theorem eq_append_of_isValueText {v t w₁ w₂ x y z : List Char} {q q' : Char}
    (ht : IsValueText v t) (hw₁ : ∀ c ∈ w₁, isBlank c = true) (hw₂ : ∀ c ∈ w₂, isBlank c = true)
    (hq : isQuote q = true) (hx : ∀ c ∈ x, isQuote c = false)
    (h : w₁ ++ (t ++ y) = w₂ ++ q :: (x ++ q' :: z)) : ∃ u, v = x ++ u := by
  -- the value ends at a quote, and `x` holds none
  obtain ⟨-, hrest⟩ := eq_quoted_of_isValueText ht hw₁ hw₂ hq h
  have hmem : q ∉ x := fun hmem => by
    rw [hx q hmem] at hq
    cases hq
  obtain ⟨u, hu, -⟩ := eq_append_of_not_mem hmem hrest
  exact ⟨u, hu⟩

/-- An attribute with a value at the place of an assignment to `class` has the assigned value up to
the first quote. -/
theorem eq_append_of_attribute? {s r w₁ w₂ x y z : List Char} {a : Attribute} {b : Assignment}
    {q : Char} {v : List Char} (hread : attribute? s = some (a, r)) (hv : a.value = some v)
    (hquote : isQuote b.quote = true) (hvalue : ∀ c ∈ b.value, isQuote c = false)
    (hw₁ : ∀ c ∈ w₁, isBlank c = true) (hw₂ : ∀ c ∈ w₂, isBlank c = true)
    (hs : s = "class".toList ++ (w₁ ++ '=' :: x))
    (hx : x ++ y = w₂ ++ b.quote :: (b.value ++ q :: z)) : ∃ u, v = b.value ++ u := by
  obtain ⟨-, hname, ⟨hnone, -⟩ | ⟨v', u₁, u₂, t, hv', hu₁, hu₂, ht, htext⟩⟩ :=
    attribute?_eq_some hread
  · rw [hnone] at hv
    cases hv
  · obtain rfl : v = v' := Option.some.inj (hv.symm.trans hv')
    obtain rfl := eq_of_equals (forall_mem_of_all (by decide)) hname hw₁ hu₁ (hs.symm.trans htext)
    rw [List.append_assoc, List.append_assoc] at hx
    exact eq_append_of_isValueText ht hu₂ hw₂ hquote hvalue hx

/-- **Where the scanner finds the assignment, it reads a value that mentions `item` too.** -/
theorem contains_item_of_found {attrs rest v : List Char} {o : Occurrence Attribute}
    (hitem : assignsItem ((attrs ++ '>' :: rest).drop o.start) = true)
    (ho : findAttribute? "class".toList attrs = some o) (hv : o.value.value = some v) :
    contains "item".toList v = true := by
  obtain ⟨a, t, z, ht, hcontains, hassigned⟩ := assignsItem_iff.1 hitem
  obtain ⟨hquote, hvalue, w₁, w₂, q, hw₁, hw₂, -, rfl⟩ := ht
  obtain ⟨u, r, hplace, hu, -, hread⟩ :=
    place_of_mem_occurrences consumes_attribute? (List.mem_of_find?_eq_some ho)
  rw [hplace, List.append_assoc, ← hu, List.drop_left] at hassigned
  -- up to its equals sign the assignment stands in the tag
  have hfront : '>' ∉ "class".toList ++ (w₁ ++ ['=']) := by
    have hblank : '>' ∉ w₁ := fun hmem => absurd (hw₁ _ hmem) (by decide)
    simp [hblank]
  obtain ⟨x, htext, hx⟩ := eq_append_of_not_mem (u := o.text ++ r)
    (z := w₂ ++ a.quote :: (a.value ++ q :: z)) hfront (by rw [hassigned]; simp)
  obtain ⟨y, rfl⟩ :=
    eq_append_of_attribute? hread hv hquote hvalue hw₁ hw₂ (by rw [htext]; simp) hx.symm
  exact contains_of_isInfix (List.prefix_append a.value y).isInfix hcontains

theorem mentionsItem_of_readsAlike {attrs rest : List Char} {i : Nat} (hi : i < attrs.length)
    (hitem : assignsItem ((attrs ++ '>' :: rest).drop i) = true) (h : ReadsAlike attrs rest) :
    mentionsItem attrs = true := by
  have hfound := h i hi hitem
  rw [mentionsItem]
  cases ho : findAttribute? "class".toList attrs with
  | none =>
    rw [ho] at hfound
    cases hfound
  | some o =>
    rw [ho, Option.any_some, Bool.and_eq_true, beq_iff_eq] at hfound
    obtain ⟨rfl, hsome⟩ := hfound
    obtain ⟨v, hv⟩ := Option.isSome_iff_exists.1 hsome
    rw [Option.any_some, hv, Option.any_some]
    exact contains_item_of_found hitem ho hv

/-! ### Items -/

/-- The tag of an item, and the place in it that makes it one. -/
theorem exists_tag_of_item? {t r : List Char} (h : item? (t ++ r) = some ((), r)) :
    ∃ attrs body, '>' ∉ attrs ∧ t = "<div".toList ++ (attrs ++ '>' :: (body ++ "</div>".toList)) ∧
      ∃ i < attrs.length, assignsItem ((attrs ++ '>' :: body).drop i) = true := by
  obtain ⟨u, a, w, v, body', hu, hitem, hw, hs⟩ := item?_eq_some_class h
  obtain ⟨attrs, body, hattrs, hcut⟩ := exists_cut_of_mem (s := u ++ (w ++ (v ++ '>' :: body')))
    (by simp)
  refine ⟨attrs, body, hattrs, ?_, u.length, ?_, ?_⟩
  · have htext : t = "<div".toList ++ (u ++ (w ++ (v ++ '>' :: body')) ++ "</div>".toList) :=
      List.append_cancel_right (hs.trans (by simp))
    rw [htext, hcut, List.append_assoc, List.cons_append]
  · -- the word `class` is in the tag
    obtain ⟨-, -, w₁, w₂, q, -, -, -, rfl⟩ := id hw
    have hword : '>' ∉ u ++ "class".toList := by simp [hu]
    have hcut' : attrs ++ '>' :: body = (u ++ "class".toList) ++
        (w₁ ++ '=' :: (w₂ ++ a.quote :: (a.value ++ [q])) ++ (v ++ '>' :: body')) := by
      rw [← hcut]
      simp only [List.append_assoc]
    obtain ⟨x, rfl, -⟩ := eq_append_of_not_mem hword hcut'
    simp
  · rw [← hcut, List.drop_left, assignsItem_iff]
    exact ⟨a, w, _, hw, hitem, rfl⟩

/-- **An item that is listed assigns a class that mentions `item` in its tag, and the class
attribute of its tag mentions `item` when both readers read the tag alike.** -/
theorem listed_tags (s : List Char) :
    itemLists.revise s = withLists s (flatItems s) 0 (itemRanges s) ∧
      ∀ o ∈ flatItems s, ∃ attrs body, '>' ∉ attrs ∧
        o.text = "<div".toList ++ (attrs ++ '>' :: (body ++ "</div>".toList)) ∧
        listItem o.text = "<li".toList ++ (attrs ++ '>' :: (body ++ "</li>".toList)) ∧
        (∃ i < attrs.length, assignsItem ((attrs ++ '>' :: body).drop i) = true) ∧
        (ReadsAlike attrs body → mentionsItem attrs = true) := by
  refine ⟨groupItems_eq_withLists s, fun o ho => ?_⟩
  obtain ⟨r, -, hread⟩ := read_of_mem_occurrences consumes_item? (List.mem_of_mem_filter ho)
  obtain ⟨attrs, body, hattrs, htext, i, hi, hitem⟩ := exists_tag_of_item? hread
  refine ⟨attrs, body, hattrs, htext, ?_, ⟨i, hi, hitem⟩, mentionsItem_of_readsAlike hi hitem⟩
  have hbody : attrs ++ '>' :: (body ++ "</div>".toList) =
      (attrs ++ '>' :: body) ++ "</div>".toList := by simp
  rw [htext, hbody, listItem, itemBody_of_isItem]
  simp

/-- An attribute whose name ends in `class` makes an item, which has no class at all. -/
theorem listed_tags_lookalike :
    itemLists.revise "<div data-class=\"item\">A</div><div data-class=\"item\">B</div>".toList =
        ("<ul>\n    <li data-class=\"item\">A</li>".toList ++
          "\n    <li data-class=\"item\">B</li>\n</ul>".toList) ∧
      mentionsItem " data-class=\"item\"".toList = false := by
  decide +kernel

/-- Other assignments do not matter as long as they do not mention `item`. -/
example : ReadsAlike " class='card item' data-class=\"wide\"".toList "A".toList := by
  decide +kernel

end Markup
end SceneMarkup
