import SceneMarkup.Markup.House
import SceneMarkup.Proofs.Text.Filter
import SceneMarkup.Proofs.Text.Runs
import SceneMarkup.Proofs.Text.Scan

/-!
# What the readers of markup read

For each reader of the markup rules the shape of the text that it takes.

## Main definitions

* `IsAssignment` — a text that assigns a quoted value to a name.

## Main results

* `classAttribute?_eq_some`, `anchor?_eq_some`, `tag?_eq_some`, `attribute?_eq_some`,
  `item?_eq_some` — the shapes.
* `consumes_classAttribute?`, … — each reader takes a piece of the text and leaves the rest.
-/

namespace SceneMarkup
namespace Markup

open Text

/-! ### Quoted assignments -/

/-- A text of a name, an equals sign and a value between quotes, with blanks around the sign or
not. -/
def IsAssignment (name : List Char) (a : Assignment) (t : List Char) : Prop :=
  isQuote a.quote = true ∧ (∀ c ∈ a.value, isQuote c = false) ∧
    ∃ w₁ w₂ q, (∀ c ∈ w₁, isBlank c = true) ∧ (∀ c ∈ w₂, isBlank c = true) ∧ isQuote q = true ∧
      t = name ++ (w₁ ++ '=' :: (w₂ ++ a.quote :: (a.value ++ [q])))

theorem quotedValue?_eq_some {s r : List Char} {a : Assignment}
    (h : quotedValue? s = some (a, r)) :
    isQuote a.quote = true ∧ (∀ c ∈ a.value, isQuote c = false) ∧
      ∃ q, isQuote q = true ∧ s = a.quote :: (a.value ++ q :: r) := by
  unfold quotedValue? at h
  split at h
  · cases h
  · next q s =>
    split at h
    · next hq =>
      split at h
      · cases h
      · next q' rest hrest =>
        obtain ⟨rfl, rfl⟩ := Prod.mk.inj (Option.some.inj h)
        have hq' : isQuote q' = true := by simpa using eq_false_of_dropWhile hrest
        refine ⟨hq, fun c hc => by simpa using List.mem_takeWhile_imp hc, q', hq', ?_⟩
        dsimp only
        rw [← hrest, List.takeWhile_append_dropWhile]
    · cases h

/-- An assignment is read up to its closing quote. -/
theorem assignment?_eq_some {name s r : List Char} {a : Assignment}
    (h : assignment? name s = some (a, r)) : ∃ t, IsAssignment name a t ∧ s = t ++ r := by
  rw [assignment?] at h
  split at h
  · next r₁ hr₁ =>
    rw [after?_eq_some_iff] at hr₁
    obtain ⟨w₁, hw₁, h₁⟩ := exists_blanks_append_trimStart r₁
    unfold equalsQuoted? at h
    split at h
    · next r₂ hr₂ =>
      obtain ⟨w₂, hw₂, h₂⟩ := exists_blanks_append_trimStart r₂
      obtain ⟨hquote, hvalue, q, hq, h₃⟩ := quotedValue?_eq_some h
      refine ⟨_, ⟨hquote, hvalue, w₁, w₂, q, hw₁, hw₂, hq, rfl⟩, ?_⟩
      rw [hr₁, h₁, hr₂, h₂, h₃]
      simp
    · cases h
  · cases h

theorem assignmentWhere?_eq_some {name s r : List Char} {ok : List Char → Bool} {a : Assignment}
    (h : assignmentWhere? name ok s = some (a, r)) :
    ok a.value = true ∧ ∃ t, IsAssignment name a t ∧ s = t ++ r := by
  rw [assignmentWhere?] at h
  split at h
  · next b rest hb =>
    split at h
    · next hok =>
      cases h
      exact ⟨hok, assignment?_eq_some hb⟩
    · cases h
  · cases h

/-! ### Class attributes -/

/-- A class attribute is a blank and an assignment of a value that is not empty. -/
theorem classAttribute?_eq_some {s r : List Char} {a : ClassAttribute}
    (h : classAttribute? s = some (a, r)) :
    isBlank a.lead = true ∧ a.value ≠ [] ∧
      ∃ quote t, IsAssignment "class".toList ⟨quote, a.value⟩ t ∧ s = a.lead :: (t ++ r) := by
  unfold classAttribute? at h
  split at h
  · cases h
  · next c s =>
    split at h
    · next hc =>
      split at h
      · next b rest hb =>
        obtain ⟨rfl, rfl⟩ := Prod.mk.inj (Option.some.inj h)
        obtain ⟨hok, t, ht, hs⟩ := assignmentWhere?_eq_some hb
        exact ⟨hc, by simpa using hok, b.quote, t, ht, by rw [hs]⟩
      · cases h
    · cases h

theorem consumes_classAttribute? : classAttribute?.Consumes := by
  intro s a r h
  obtain ⟨-, -, quote, t, -, hs⟩ := classAttribute?_eq_some h
  exact ⟨a.lead :: t, List.cons_ne_nil _ _, hs⟩

/-! ### Anchors -/

/-- What is skipped is the text of the tag up to a blank. -/
theorem spaced?_eq_some {α : Type} {p : Recogniser α} {s u r : List Char} {a : α}
    (h : spaced? p s = some (u, a, r)) :
    ∃ w b t, u = w ++ [b] ∧ '>' ∉ w ∧ isBlank b = true ∧ p t = some (a, r) ∧ s = u ++ t := by
  induction s generalizing u with
  | nil =>
    unfold spaced? at h
    cases h
  | cons c s ih =>
    unfold spaced? at h
    split at h
    · next hread =>
      cases h
      split at hread
      · next hc => exact ⟨[], c, s, rfl, List.not_mem_nil, hc, hread, rfl⟩
      · cases hread
    · split at h
      · cases h
      · next hc =>
        split at h
        · next u' d rest hread =>
          cases h
          obtain ⟨w, b, t, rfl, hw, hb, ht, rfl⟩ := ih hread
          refine ⟨c :: w, b, t, rfl, ?_, hb, ht, rfl⟩
          rw [List.mem_cons, not_or]
          exact ⟨Ne.symm hc, hw⟩
        · cases h

theorem spacedOrHere?_eq_some_iff {α : Type} {p : Recogniser α} {s u r : List Char} {a : α} :
    spacedOrHere? p s = some (u, a, r) ↔
      spaced? p s = some (u, a, r) ∨ spaced? p s = none ∧ u = [] ∧ p s = some (a, r) := by
  rw [spacedOrHere?]
  cases spaced? p s with
  | some found => simp
  | none =>
    cases p s with
    | none => simp
    | some found => simp [Prod.ext_iff, eq_comm]

/-- What is skipped is nothing, or the text of the tag up to a blank. -/
theorem spacedOrHere?_eq_some {α : Type} {p : Recogniser α} {s u r : List Char} {a : α}
    (h : spacedOrHere? p s = some (u, a, r)) :
    ∃ t, '>' ∉ u ∧ (u = [] ∨ ∃ b ∈ u.getLast?, isBlank b = true) ∧ p t = some (a, r) ∧
      s = u ++ t := by
  rcases spacedOrHere?_eq_some_iff.1 h with h | ⟨-, rfl, hread⟩
  · obtain ⟨w, b, t, rfl, hw, hb, ht, hs⟩ := spaced?_eq_some h
    refine ⟨t, ?_, Or.inr ⟨b, List.getLast?_concat, hb⟩, ht, hs⟩
    rw [List.mem_append, List.mem_singleton, not_or]
    refine ⟨hw, ?_⟩
    rintro rfl
    exact absurd hb (by decide)
  · exact ⟨s, List.not_mem_nil, Or.inl rfl, hread, rfl⟩

/-- Some blanks are trimmed from a text that starts with one. -/
theorem trimStart_ne_of_startsBlank {s : List Char} (h : startsBlank s = true) :
    trimStart s ≠ s := by
  cases s with
  | nil => cases h
  | cons c s =>
    intro heq
    have hc : isBlank c = true := h
    rw [trimStart, List.dropWhile_cons_of_pos hc] at heq
    have := (List.dropWhile_suffix (l := s) isBlank).length_le
    rw [heq, List.length_cons] at this
    omega

/-- An anchor is the start of a tag, blanks, and some text of the tag up to the assignment to
`href`. -/
theorem anchor?_eq_some {s r : List Char} {a : Anchor} (h : anchor? s = some (a, r)) :
    ∃ w quote t, (∀ c ∈ w, isBlank c = true) ∧ w ≠ [] ∧ '>' ∉ a.lead ∧
      IsAssignment "href".toList ⟨quote, a.target⟩ t ∧
      s = "<a".toList ++ (w ++ (a.lead ++ (t ++ r))) := by
  rw [anchor?] at h
  split at h
  · cases h
  · next r₁ hr₁ =>
    rw [after?_eq_some_iff] at hr₁
    split at h
    · next hstart =>
      split at h
      · next lead b rest hb =>
        obtain ⟨rfl, rfl⟩ := Prod.mk.inj (Option.some.inj h)
        obtain ⟨w, hw, h₁⟩ := exists_blanks_append_trimStart r₁
        have hne : w ≠ [] := by
          rintro rfl
          exact trimStart_ne_of_startsBlank hstart h₁.symm
        obtain ⟨t', hlead, -, ht', h₂⟩ := spacedOrHere?_eq_some hb
        obtain ⟨t, ht, h₃⟩ := assignment?_eq_some ht'
        refine ⟨w, b.quote, t, hw, hne, hlead, ht, ?_⟩
        dsimp only
        rw [hr₁, h₁, h₂, h₃]
      · cases h
    · cases h

/-- What stands in front of the `href` ends with a blank, if it is not empty. -/
theorem getLast?_lead_of_anchor? {s r : List Char} {a : Anchor} (h : anchor? s = some (a, r)) :
    a.lead = [] ∨ ∃ b ∈ a.lead.getLast?, isBlank b = true := by
  rw [anchor?] at h
  split at h
  · cases h
  · split at h
    · split at h
      · next lead b rest hb =>
        cases h
        obtain ⟨-, -, hlast, -⟩ := spacedOrHere?_eq_some hb
        exact hlast
      · cases h
    · cases h

theorem consumes_anchor? : anchor?.Consumes := by
  intro s a r h
  obtain ⟨w, quote, t, -, -, -, -, hs⟩ := anchor?_eq_some h
  refine ⟨"<a".toList ++ (w ++ (a.lead ++ t)), by simp, ?_⟩
  simpa using hs

/-! ### Tags -/

/-- A tag is its opening word, nothing or an attribute text that starts with a blank, and `>`. -/
theorem tag?_eq_some {opening s r attrs : List Char} (h : tag? opening s = some (attrs, r)) :
    (attrs = [] ∨ startsBlank attrs = true) ∧ s = opening ++ (attrs ++ '>' :: r) := by
  rw [tag?] at h
  split at h
  · cases h
  · next r₁ hr₁ =>
    rw [after?_eq_some_iff] at hr₁
    split at h
    · next attrs' rest hbody =>
      split at h
      · next hblank =>
        cases h
        refine ⟨by simpa using hblank, ?_⟩
        rw [hr₁, append_of_tagBody? hbody]
      · cases h
    · cases h

theorem consumes_tag? {opening : List Char} (ho : opening ≠ []) : (tag? opening).Consumes := by
  intro s attrs r h
  obtain ⟨-, hs⟩ := tag?_eq_some h
  exact ⟨opening ++ (attrs ++ ['>']), List.append_ne_nil_of_left_ne_nil ho _, by simpa using hs⟩

theorem icon?_eq_some {s r attrs : List Char} (h : icon? s = some (attrs, r)) :
    tag? "<i".toList s = some (attrs, r) := by
  rw [icon?] at h
  split at h
  · next attrs' rest ht =>
    split at h
    · cases h
    · cases h
      exact ht
  · cases h

theorem consumes_icon? : icon?.Consumes :=
  fun _ _ _ h => consumes_tag? (by decide) (icon?_eq_some h)

theorem consumes_button? : button?.Consumes :=
  consumes_tag? (by decide)

/-- A heading tag is an opening or a closing tag of level one. -/
theorem headingTag?_eq_some {s r : List Char} {tag : HeadingTag}
    (h : headingTag? s = some (tag, r)) :
    (∃ attrs, tag = .opening attrs ∧ s = "<h1".toList ++ (attrs ++ '>' :: r)) ∨
      (tag = .closing ∧ ∃ u, s = "</h1".toList ++ (u ++ '>' :: r)) := by
  rw [headingTag?] at h
  split at h
  · next attrs rest ht =>
    cases h
    exact Or.inl ⟨attrs, rfl, (tag?_eq_some ht).2⟩
  · split at h
    · next u rest ht =>
      cases h
      exact Or.inr ⟨rfl, u, (tag?_eq_some ht).2⟩
    · cases h

theorem consumes_headingTag? : headingTag?.Consumes := by
  intro s tag r h
  rcases headingTag?_eq_some h with ⟨attrs, -, hs⟩ | ⟨-, u, hs⟩
  · exact ⟨"<h1".toList ++ (attrs ++ ['>']), by simp, by simpa using hs⟩
  · exact ⟨"</h1".toList ++ (u ++ ['>']), by simp, by simpa using hs⟩

/-! ### Attributes -/

/-- The text of a value: between two equal quotes that do not occur in it, or bare. -/
def IsValueText (v t : List Char) : Prop :=
  (∃ q, isQuote q = true ∧ q ∉ v ∧ t = q :: (v ++ [q])) ∨
    (v ≠ [] ∧ (∀ c ∈ v, isBareChar c = true) ∧ t = v)

theorem not_isBlank_of_isBareChar {c : Char} (h : isBareChar c = true) : isBlank c = false := by
  simp only [isBareChar, Bool.not_eq_true', Bool.or_eq_false_iff] at h
  exact h.1.1.1.1.1

theorem not_isQuote_of_isBareChar {c : Char} (h : isBareChar c = true) : isQuote c = false := by
  simp only [isBareChar, Bool.not_eq_true', Bool.or_eq_false_iff] at h
  exact h.1.1.1.1.2

/-- A text is read up to the first character `q`. -/
theorem upTo?_eq_some_iff {q : Char} {s v r : List Char} :
    upTo? q s = some (v, r) ↔ q ∉ v ∧ s = v ++ q :: r := by
  rw [upTo?]
  constructor
  · intro h
    split at h
    · cases h
    · next c rest hrest =>
      cases h
      obtain rfl : c = q := by simpa using eq_false_of_dropWhile hrest
      refine ⟨fun hmem => by simpa using List.mem_takeWhile_imp hmem, ?_⟩
      rw [← hrest, List.takeWhile_append_dropWhile]
  · rintro ⟨hq, rfl⟩
    have hplain : ∀ c ∈ v, (c != q) = true := by
      intro c hc
      rw [bne_iff_ne]
      rintro rfl
      exact hq hc
    obtain ⟨htake, hdrop⟩ := takeWhile_append_of_head? (z := q :: r) hplain (by simp)
    rw [hdrop, htake]

/-- A value stands between two equal quotes, or it is all that needs no quotes. -/
theorem attributeValue?_cases {s v r : List Char} (h : attributeValue? s = some (v, r)) :
    (∃ q, isQuote q = true ∧ q ∉ v ∧ s = q :: (v ++ q :: r)) ∨
      v ≠ [] ∧ v = s.takeWhile isBareChar ∧ r = s.dropWhile isBareChar := by
  unfold attributeValue? at h
  split at h
  · cases h
  · next c s =>
    split at h
    · next hq =>
      obtain ⟨hmem, rfl⟩ := upTo?_eq_some_iff.1 h
      exact Or.inl ⟨c, hq, hmem, rfl⟩
    · split at h
      · next hb =>
        cases h
        rw [List.takeWhile_cons_of_pos hb, List.dropWhile_cons_of_pos hb]
        exact Or.inr ⟨List.cons_ne_nil _ _, rfl, rfl⟩
      · cases h

theorem attributeValue?_eq_some {s v r : List Char} (h : attributeValue? s = some (v, r)) :
    ∃ t, IsValueText v t ∧ s = t ++ r := by
  rcases attributeValue?_cases h with ⟨q, hq, hmem, rfl⟩ | ⟨hne, rfl, rfl⟩
  · exact ⟨_, Or.inl ⟨q, hq, hmem, rfl⟩, by simp⟩
  · exact ⟨_, Or.inr ⟨hne, fun c hc => List.mem_takeWhile_imp hc, rfl⟩,
      List.takeWhile_append_dropWhile.symm⟩

/-- A value behind an equals sign is read where the blanks around the sign end. -/
theorem attributeValue?_of_equalsValue? {s v r : List Char} (h : equalsValue? s = some (v, r)) :
    ∃ w₁ w₂ e, (∀ c ∈ w₁, isBlank c = true) ∧ (∀ c ∈ w₂, isBlank c = true) ∧
      (∀ c ∈ e.head?, isBlank c = false) ∧ attributeValue? e = some (v, r) ∧
      s = w₁ ++ '=' :: (w₂ ++ e) := by
  obtain ⟨w₁, hw₁, h₁⟩ := exists_blanks_append_trimStart s
  unfold equalsValue? at h
  split at h
  · next r₁ hr₁ =>
    obtain ⟨w₂, hw₂, h₂⟩ := exists_blanks_append_trimStart r₁
    refine ⟨w₁, w₂, _, hw₁, hw₂, fun c hc => ?_, h, ?_⟩
    · obtain ⟨u, hu⟩ := List.head?_eq_some_iff.1 hc
      exact eq_false_of_dropWhile hu
    · rw [← h₂, ← hr₁, ← h₁]
  · cases h

theorem equalsValue?_eq_some {s v r : List Char} (h : equalsValue? s = some (v, r)) :
    ∃ w₁ w₂ t, (∀ c ∈ w₁, isBlank c = true) ∧ (∀ c ∈ w₂, isBlank c = true) ∧ IsValueText v t ∧
      s = w₁ ++ '=' :: (w₂ ++ (t ++ r)) := by
  obtain ⟨w₁, w₂, e, hw₁, hw₂, -, hvalue, rfl⟩ := attributeValue?_of_equalsValue? h
  obtain ⟨t, ht, rfl⟩ := attributeValue?_eq_some hvalue
  exact ⟨w₁, w₂, t, hw₁, hw₂, ht, rfl⟩

/-- An attribute is the name in front of a text, with the value if one is read behind it. -/
theorem attribute?_cases {s r : List Char} {a : Attribute} (h : attribute? s = some (a, r)) :
    a.name = s.takeWhile isNameChar ∧ a.name ≠ [] ∧
      ((a.value = none ∧ r = s.dropWhile isNameChar) ∨
        ∃ v, a.value = some v ∧ equalsValue? (s.dropWhile isNameChar) = some (v, r)) := by
  rw [attribute?] at h
  split at h
  · cases h
  · next name hname =>
    split at h
    · next v rest hv =>
      cases h
      exact ⟨rfl, hname, Or.inr ⟨v, rfl, hv⟩⟩
    · cases h
      exact ⟨rfl, hname, Or.inl ⟨rfl, rfl⟩⟩

/-- An attribute is a name, with an equals sign and a value behind it or not. -/
theorem attribute?_eq_some {s r : List Char} {a : Attribute} (h : attribute? s = some (a, r)) :
    a.name ≠ [] ∧ (∀ c ∈ a.name, isNameChar c = true) ∧
      ((a.value = none ∧ s = a.name ++ r) ∨
        ∃ v w₁ w₂ t, a.value = some v ∧ (∀ c ∈ w₁, isBlank c = true) ∧
          (∀ c ∈ w₂, isBlank c = true) ∧ IsValueText v t ∧
          s = a.name ++ (w₁ ++ '=' :: (w₂ ++ (t ++ r)))) := by
  obtain ⟨hname, hne, hvalue⟩ := attribute?_cases h
  have hcut : a.name ++ s.dropWhile isNameChar = s := by
    rw [hname, List.takeWhile_append_dropWhile]
  refine ⟨hne, fun c hc => List.mem_takeWhile_imp (hname ▸ hc), ?_⟩
  rcases hvalue with ⟨hnone, rfl⟩ | ⟨v, hv, hequals⟩
  · exact Or.inl ⟨hnone, hcut.symm⟩
  · obtain ⟨w₁, w₂, t, hw₁, hw₂, ht, hs⟩ := equalsValue?_eq_some hequals
    exact Or.inr ⟨v, w₁, w₂, t, hv, hw₁, hw₂, ht, by rw [← hs, hcut]⟩

theorem consumes_attribute? : attribute?.Consumes := by
  intro s a r h
  obtain ⟨hname, -, ⟨-, hs⟩ | ⟨v, w₁, w₂, t, -, -, -, -, hs⟩⟩ := attribute?_eq_some h
  · exact ⟨a.name, hname, hs⟩
  · refine ⟨a.name ++ (w₁ ++ '=' :: (w₂ ++ t)), List.append_ne_nil_of_left_ne_nil hname _, ?_⟩
    simpa using hs

/-- The attribute of a name is one of the attributes, and has that name. -/
theorem mem_of_findAttribute? {name attrs : List Char} {o : Occurrence Attribute}
    (h : findAttribute? name attrs = some o) :
    o ∈ attributes attrs ∧ sameAscii o.value.name name = true :=
  ⟨List.mem_of_find?_eq_some h,
    List.find?_some (p := fun o : Occurrence Attribute => sameAscii o.value.name name) h⟩

/-! ### Items -/

theorem throughTag?_eq_some {α : Type} {p : Recogniser α} {s r : List Char} {a : α}
    (h : throughTag? p s = some (a, r)) :
    ∃ u r', p s = some (a, r') ∧ r' = u ++ '>' :: r := by
  rw [throughTag?] at h
  split at h
  · cases h
  · next b r' hb =>
    split at h
    · next u rest hu =>
      cases h
      exact ⟨u, r', hb, (append_of_tagBody? hu).symm⟩
    · cases h

/-- The last place of a tag is in front of its `>`. -/
theorem lastInTag?_eq_some {α : Type} {p : List Char → Option α} {s : List Char} {a : α}
    (h : lastInTag? p s = some a) : ∃ u t, '>' ∉ u ∧ p t = some a ∧ s = u ++ t := by
  induction s with
  | nil => exact ⟨[], [], List.not_mem_nil, h, rfl⟩
  | cons c s ih =>
    rw [lastInTag?] at h
    split at h
    · exact ⟨[], c :: s, List.not_mem_nil, h, rfl⟩
    · next hc =>
      split at h
      · next b hb =>
        cases h
        obtain ⟨u, t, hu, ht, rfl⟩ := ih hb
        refine ⟨c :: u, t, ?_, ht, rfl⟩
        rw [List.mem_cons, not_or]
        exact ⟨Ne.symm hc, hu⟩
      · exact ⟨[], c :: s, List.not_mem_nil, h, rfl⟩

/-- From a class that mentions `item` an item reaches to the end of the tag and on to `</div>`. -/
theorem itemFromClass?_eq_some {s r : List Char} (h : itemFromClass? s = some r) :
    ∃ a t v body, contains "item".toList a.value = true ∧ IsAssignment "class".toList a t ∧
      s = t ++ (v ++ '>' :: (body ++ ("</div>".toList ++ r))) := by
  rw [itemFromClass?] at h
  split at h
  · cases h
  · next a r₁ ha =>
    obtain ⟨⟨body, rest⟩, hdiv, rfl⟩ := Option.map_eq_some_iff.1 h
    obtain ⟨v, r₂, hr₂, rfl⟩ := throughTag?_eq_some ha
    obtain ⟨hitem, t, ht, rfl⟩ := assignmentWhere?_eq_some hr₂
    exact ⟨a, t, v, body, hitem, ht, by rw [append_of_divide? hdiv]⟩

/-- An item is a `<div>` with a class that mentions `item` assigned in the tag, up to `</div>`. -/
theorem item?_eq_some_class {s r : List Char} (h : item? s = some ((), r)) :
    ∃ u a t v body, '>' ∉ u ∧ contains "item".toList a.value = true ∧
      IsAssignment "class".toList a t ∧
      s = "<div".toList ++ (u ++ (t ++ (v ++ '>' :: (body ++ ("</div>".toList ++ r))))) := by
  rw [item?] at h
  split at h
  · cases h
  · next r₁ hr₁ =>
    rw [after?_eq_some_iff] at hr₁
    split at h
    · cases h
    · obtain ⟨rest, hrest, heq⟩ := Option.map_eq_some_iff.1 h
      obtain ⟨-, rfl⟩ := Prod.mk.inj heq
      obtain ⟨u, y, hu, hy, rfl⟩ := lastInTag?_eq_some hrest
      obtain ⟨a, t, v, body, hitem, ht, rfl⟩ := itemFromClass?_eq_some hy
      exact ⟨u, a, t, v, body, hu, hitem, ht, hr₁⟩

/-- An item reaches from `<div` to `</div>`. -/
theorem item?_eq_some {s r : List Char} (h : item? s = some ((), r)) :
    ∃ u, s = "<div".toList ++ (u ++ ("</div>".toList ++ r)) := by
  obtain ⟨u, a, t, v, body, -, -, -, rfl⟩ := item?_eq_some_class h
  exact ⟨u ++ (t ++ (v ++ '>' :: body)), by simp⟩

theorem consumes_item? : item?.Consumes := by
  intro s a r h
  obtain ⟨u, hs⟩ := item?_eq_some h
  exact ⟨"<div".toList ++ (u ++ "</div>".toList), by simp, by simpa using hs⟩

theorem divOpening_eq : "<div".toList = '<' :: "div".toList := by
  decide

/-- An item starts with `<`. -/
theorem item?_cons_of_ne {c : Char} (hc : c ≠ '<') (s : List Char) : item? (c :: s) = none := by
  rw [Option.eq_none_iff_forall_ne_some]
  rintro ⟨⟨⟩, r⟩ h
  obtain ⟨u, hu⟩ := item?_eq_some h
  rw [divOpening_eq] at hu
  exact hc (List.cons.inj hu).1

end Markup
end SceneMarkup
