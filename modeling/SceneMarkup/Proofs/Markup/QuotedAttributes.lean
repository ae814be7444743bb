import SceneMarkup.Proofs.Markup.Readers

/-!
# Attributes in double quotes

The attribute text of a tag in which every attribute has a value in double quotes.  Such an
attribute reads the same whatever follows it, so one of them can be written anew, or one more put in
front or at the end, and the others stay as they are.

## Main definitions

* `quotedAttributes?` — the attributes of such a text.
* `quotedText` — the text of one of them.

## Main results

* `attribute?_quoted` — an attribute in double quotes in front of any text.
* `standardAttributes?_eq_quotedText` — the standard form puts one in place of the class attribute.
* `pieces_append_of_standsAlone` — what stands in front of a text is read by itself.
* `quotedAttributes?_replace`, `quotedAttributes?_cons`, `quotedAttributes?_concat` — **an
  attribute written anew, in front, at the end.**
-/

namespace SceneMarkup
namespace Markup

open Text

/-! ### Single attributes -/

theorem not_isNameChar_of_isBlank {c : Char} (h : isBlank c = true) : isNameChar c = false := by
  simp [isNameChar, h]

theorem isBlank_of_isNameChar {c : Char} (h : isNameChar c = true) : isBlank c = false := by
  simp only [isNameChar, Bool.not_eq_true', Bool.or_eq_false_iff] at h
  exact h.1.1.1.1.1

theorem attribute?_cons_eq_none_iff {c : Char} {s : List Char} :
    attribute? (c :: s) = none ↔ isNameChar c = false := by
  rw [attribute?]
  cases hc : isNameChar c with
  | false => simp [hc]
  | true =>
    rw [List.takeWhile_cons_of_pos hc]
    split
    · next h => cases h
    · split <;> simp

/-- No attribute starts with a blank. -/
theorem startsBlank_of_attribute? {s r : List Char} {a : Attribute}
    (h : attribute? s = some (a, r)) : startsBlank s = false := by
  cases s with
  | nil => rfl
  | cons c s =>
    cases hc : isBlank c with
    | false => exact hc
    | true =>
      rw [attribute?_cons_eq_none_iff.2 (not_isNameChar_of_isBlank hc)] at h
      cases h

/-- The text of an attribute with its value in double quotes. -/
def quotedText (name w₁ w₂ v : List Char) : List Char :=
  name ++ (w₁ ++ '=' :: (w₂ ++ '"' :: (v ++ ['"'])))

/-- The attribute text in the standard form has its class attribute written anew, one that mentions
an icon and is not in the standard form. -/
theorem standardAttributes?_eq_quotedText {attrs attrs' : List Char}
    (h : standardAttributes? attrs = some attrs') :
    ∃ o v, findAttribute? "class".toList attrs = some o ∧ o.value.value = some v ∧
      (words v).any mentionsIcon = true ∧ isStandardIcon (words v) = false ∧
      attrs' = attrs.take o.start ++ (quotedText "class".toList [] []
        (joinWith [' '] (standardWords (words v))) ++ attrs.drop o.stop) := by
  have hlit : "class=\"".toList = "class".toList ++ ['=', '"'] := by decide
  rw [standardAttributes?] at h
  split at h
  · cases h
  · next o ho =>
    split at h
    · cases h
    · next v hv =>
      simp only at h
      split at h
      · cases h
      · next hcond =>
        cases h
        simp only [Bool.or_eq_true, Bool.not_eq_true', not_or, Bool.not_eq_false,
          Bool.not_eq_true] at hcond
        refine ⟨o, v, ho, hv, hcond.1, hcond.2, ?_⟩
        rw [hlit]
        simp [quotedText]

/-- What is read of an attribute by what stands behind its name. -/
def behindName (name s : List Char) : Attribute × List Char :=
  match equalsValue? s with
  | some (v, r) => (⟨name, some v⟩, r)
  | none => (⟨name, none⟩, s)

theorem name_behindName (name s : List Char) : (behindName name s).1.name = name := by
  rw [behindName]
  split <;> rfl

theorem behindName_eq_value_iff {name s v r : List Char} :
    behindName name s = (⟨name, some v⟩, r) ↔ equalsValue? s = some (v, r) := by
  rw [behindName]
  cases equalsValue? s with
  | none => simp
  | some found => simp [Prod.ext_iff]

theorem behindName_eq_bare_iff {name s r : List Char} :
    behindName name s = (⟨name, none⟩, r) ↔ equalsValue? s = none ∧ s = r := by
  rw [behindName]
  cases equalsValue? s with
  | none => simp
  | some found => simp

theorem attribute?_of_name {name s r : List Char} (hname : name ≠ [])
    (h : s.takeWhile isNameChar = name ∧ s.dropWhile isNameChar = r) :
    attribute? s = some (behindName name r) := by
  obtain ⟨c, name, rfl⟩ := List.exists_cons_of_ne_nil hname
  cases hr : equalsValue? r with
  | none => simp only [attribute?, h.1, h.2, hr, behindName_eq_bare_iff.2 ⟨hr, rfl⟩]
  | some found => simp only [attribute?, h.1, h.2, hr, behindName_eq_value_iff.2 hr]

/-- A name ends in front of the blanks and the equals sign behind it. -/
theorem not_isNameChar_of_equals {w : List Char} (hw : ∀ c ∈ w, isBlank c = true) (z : List Char) :
    ∀ c ∈ (w ++ '=' :: z).head?, isNameChar c = false := by
  cases w with
  | nil => simp [isNameChar]
  | cons c w => simp [not_isNameChar_of_isBlank (hw c List.mem_cons_self)]

theorem attribute?_quoted {name w₁ w₂ v : List Char} (hname : name ≠ [])
    (hchars : ∀ c ∈ name, isNameChar c = true) (hw₁ : ∀ c ∈ w₁, isBlank c = true)
    (hw₂ : ∀ c ∈ w₂, isBlank c = true) (hv : '"' ∉ v) (r : List Char) :
    attribute? (quotedText name w₁ w₂ v ++ r) = some (⟨name, some v⟩, r) := by
  have htext : quotedText name w₁ w₂ v ++ r
      = name ++ (w₁ ++ '=' :: (w₂ ++ '"' :: (v ++ '"' :: r))) := by
    simp [quotedText]
  have hvalue : attributeValue? ('"' :: (v ++ '"' :: r)) = some (v, r) := by
    have hq : isQuote '"' = true := by decide
    rw [attributeValue?, if_pos hq]
    exact upTo?_eq_some_iff.2 ⟨hv, rfl⟩
  have hequals : equalsValue? (w₁ ++ '=' :: (w₂ ++ '"' :: (v ++ '"' :: r))) = some (v, r) := by
    simp only [equalsValue?, trimStart_blanks_append hw₁ (d := '=') (by decide),
      trimStart_blanks_append hw₂ (d := '"') (by decide), hvalue]
  rw [htext, attribute?_of_name hname
    (takeWhile_append_of_head? hchars (not_isNameChar_of_equals hw₁ _)),
    behindName_eq_value_iff.2 hequals]

/-- An attribute whose text ends in a double quote has its value in double quotes. -/
theorem eq_quotedText_of_getLast? {t r : List Char} {a : Attribute}
    (h : attribute? (t ++ r) = some (a, r)) (hlast : t.getLast? = some '"') :
    a.name ≠ [] ∧ (∀ c ∈ a.name, isNameChar c = true) ∧ ∃ v w₁ w₂, a.value = some v ∧
      (∀ c ∈ w₁, isBlank c = true) ∧ (∀ c ∈ w₂, isBlank c = true) ∧ '"' ∉ v ∧
      t = quotedText a.name w₁ w₂ v := by
  obtain ⟨hname, hchars, ⟨-, hs⟩ | ⟨v, w₁, w₂, t', hv, hw₁, hw₂, ht', hs⟩⟩ := attribute?_eq_some h
  · obtain rfl : t = a.name := List.append_cancel_right hs
    exact absurd (hchars _ (List.mem_of_getLast? hlast)) (by decide)
  · obtain rfl : t = a.name ++ (w₁ ++ '=' :: (w₂ ++ t')) :=
      List.append_cancel_right (hs.trans (by simp))
    refine ⟨hname, hchars, v, w₁, w₂, hv, hw₁, hw₂, ?_⟩
    have hassoc : a.name ++ (w₁ ++ '=' :: (w₂ ++ t')) = (a.name ++ (w₁ ++ '=' :: w₂)) ++ t' := by
      simp
    rcases ht' with ⟨q, -, hqv, rfl⟩ | ⟨hne, hbare, rfl⟩
    · have hq : (a.name ++ (w₁ ++ '=' :: (w₂ ++ q :: (v ++ [q])))).getLast? = some q := by
        rw [hassoc, List.getLast?_append_of_ne_nil _ (by simp), ← List.cons_append,
          List.getLast?_concat]
      obtain rfl : q = '"' := Option.some.inj (hq.symm.trans hlast)
      exact ⟨hqv, rfl⟩
    · rw [hassoc, List.getLast?_append_of_ne_nil _ hne] at hlast
      exact absurd (hbare _ (List.mem_of_getLast? hlast)) (by decide)

/-- Such an attribute reads the same in front of any text. -/
theorem attribute?_append_of_getLast? {t r : List Char} {a : Attribute}
    (h : attribute? (t ++ r) = some (a, r)) (hlast : t.getLast? = some '"') (z : List Char) :
    attribute? (t ++ z) = some (a, z) := by
  obtain ⟨hname, hchars, v, w₁, w₂, hv, hw₁, hw₂, hqv, htext⟩ := eq_quotedText_of_getLast? h hlast
  have hread := attribute?_quoted hname hchars hw₁ hw₂ hqv z
  rwa [← htext, ← hv] at hread

/-! ### Pieces that stand alone -/

section Pieces

variable {α : Type} {p : Recogniser α}

/-- The pieces behind some pieces of a text are those of what stands there. -/
theorem pieces_flatMap_text_right (hp : p.Consumes) {s : List Char} {ps qs : List (Piece α)}
    (h : pieces p s = ps ++ qs) : pieces p (qs.flatMap Piece.text) = qs := by
  induction ps generalizing s with
  | nil =>
    have := flatMap_text_pieces p s
    rw [h, List.nil_append] at this
    rw [this, h, List.nil_append]
  | cons x ps ih =>
    cases s using text_induction hp with
    | nil => cases h
    | plain c s hn _ =>
      rw [pieces_cons_of_none hn] at h
      exact ih (List.cons.inj h).2
    | found t a r ht ha _ =>
      rw [pieces_append_of_some ht ha] at h
      exact ih (List.cons.inj h).2

/-- An occurrence parts the pieces. -/
theorem exists_pieces_of_mem_placed {n : Nat} {ps : List (Piece α)} {o : Occurrence α}
    (h : o ∈ placed n ps) :
    ∃ before after, ps = before ++ .found o.text o.value :: after ∧
      n + (before.flatMap Piece.text).length = o.start := by
  induction ps generalizing n with
  | nil => cases h
  | cons x ps ih =>
    cases x with
    | plain c =>
      obtain ⟨before, after, rfl, hlen⟩ := ih h
      refine ⟨.plain c :: before, after, rfl, ?_⟩
      rw [List.flatMap_cons, Piece.text_plain, List.length_append, List.length_singleton]
      omega
    | found t a =>
      rw [placed] at h
      rcases List.mem_cons.1 h with rfl | h
      · exact ⟨[], ps, rfl, rfl⟩
      · obtain ⟨before, after, rfl, hlen⟩ := ih h
        refine ⟨.found t a :: before, after, rfl, ?_⟩
        rw [List.flatMap_cons, Piece.text_found, List.length_append]
        omega

/-- The pieces around an occurrence are those of the text around it. -/
theorem pieces_of_mem_occurrences {s : List Char} {o : Occurrence α} (h : o ∈ occurrences p s) :
    ∃ before after, pieces p s = before ++ .found o.text o.value :: after ∧
      before.flatMap Piece.text = s.take o.start ∧ after.flatMap Piece.text = s.drop o.stop := by
  obtain ⟨before, after, hpieces, hlen⟩ := exists_pieces_of_mem_placed h
  have hs : s = before.flatMap Piece.text ++ (o.text ++ after.flatMap Piece.text) := by
    conv => lhs; rw [← flatMap_text_pieces p s, hpieces]
    simp
  rw [Nat.zero_add] at hlen
  obtain ⟨htake, hdrop⟩ := take_drop_of_place hs hlen
  exact ⟨before, after, hpieces, htake.symm, hdrop.symm⟩

theorem mem_placed_append (n : Nat) (before : List (Piece α)) (t : List Char) (a : α)
    (after : List (Piece α)) :
    ⟨n + (before.flatMap Piece.text).length, t, a⟩ ∈ placed n (before ++ .found t a :: after) := by
  induction before generalizing n with
  | nil => exact List.mem_cons_self
  | cons x before ih =>
    cases x with
    | plain c =>
      have := ih (n + 1)
      rw [Nat.add_assoc, Nat.add_comm 1] at this
      simpa [placed] using this
    | found u b =>
      have := ih (n + u.length)
      rw [Nat.add_assoc] at this
      exact List.mem_cons_of_mem _ (by simpa using this)

end Pieces

/-- Whether a piece of an attribute text reads the same whatever follows it. -/
def standsAlone : Piece Attribute → Bool
  | .plain c => !isNameChar c
  | .found t _ => t.getLast? == some '"'

/-- What stands in front of a text is read by itself. -/
theorem pieces_append_of_standsAlone {s : List Char} {ps qs : List (Piece Attribute)}
    (h : pieces attribute? s = ps ++ qs) (hps : ∀ x ∈ ps, standsAlone x = true)
    (z : List Char) :
    pieces attribute? (ps.flatMap Piece.text ++ z) = ps ++ pieces attribute? z := by
  induction ps generalizing s with
  | nil => rfl
  | cons x ps ih =>
    have hx := hps x List.mem_cons_self
    have hrest : ∀ y ∈ ps, standsAlone y = true := fun y hy => hps y (List.mem_cons_of_mem _ hy)
    cases s using text_induction consumes_attribute? with
    | nil => cases h
    | plain c s hn _ =>
      rw [pieces_cons_of_none hn] at h
      obtain ⟨rfl, hrest'⟩ := List.cons.inj h
      have hc : isNameChar c = false := attribute?_cons_eq_none_iff.1 hn
      rw [List.flatMap_cons, Piece.text_plain, List.append_assoc, List.singleton_append,
        pieces_cons_of_none (attribute?_cons_eq_none_iff.2 hc), ih hrest' hrest, List.cons_append]
    | found t a r ht ha _ =>
      rw [pieces_append_of_some ht ha] at h
      obtain ⟨rfl, hrest'⟩ := List.cons.inj h
      have hread := attribute?_append_of_getLast? ha (by simpa [standsAlone] using hx)
        (ps.flatMap Piece.text ++ z)
      rw [List.flatMap_cons, Piece.text_found, List.append_assoc, pieces_append_of_some ht hread,
        ih hrest' hrest, List.cons_append]

/-- A text that ends in none of the double quotes does not reach into the last attribute. -/
theorem pieces_append_of_not_mem {s z : List Char} (hz : '"' ∉ z)
    (h : ∀ x ∈ pieces attribute? (s ++ z), standsAlone x = true) :
    pieces attribute? (s ++ z) = pieces attribute? s ++ pieces attribute? z := by
  induction hu : s ++ z using text_induction consumes_attribute? generalizing s with
  | nil =>
    obtain ⟨rfl, rfl⟩ := List.append_eq_nil_iff.1 hu
    rfl
  | plain c u hn ih =>
    cases s with
    | nil => rw [← hu]; rfl
    | cons d s =>
      obtain ⟨rfl, hs⟩ := List.cons.inj hu
      have hd : isNameChar d = false := attribute?_cons_eq_none_iff.1 hn
      rw [pieces_cons_of_none hn, pieces_cons_of_none (attribute?_cons_eq_none_iff.2 hd)]
      rw [hu, pieces_cons_of_none hn] at h
      rw [ih (fun x hx => h x (List.mem_cons_of_mem _ (by rwa [← hs]))) hs, List.cons_append]
  | found t a r ht ha ih =>
    rw [hu, pieces_append_of_some ht ha] at h
    have hlast : t.getLast? = some '"' := by simpa [standsAlone] using h _ List.mem_cons_self
    obtain ⟨m, rfl, rfl⟩ : ∃ m, s = t ++ m ∧ r = m ++ z := by
      rcases List.append_eq_append_iff.1 hu with ⟨m, rfl, hm⟩ | ⟨m, hs, hr⟩
      · cases m with
        | nil => exact ⟨[], by simp, by simpa using hm.symm⟩
        | cons d m =>
          -- the attribute would end inside `z`
          rw [List.getLast?_append_of_ne_nil _ (List.cons_ne_nil d m)] at hlast
          exact absurd (hm ▸ List.mem_append_left r (List.mem_of_getLast? hlast)) hz
      · exact ⟨m, hs, hr⟩
    rw [pieces_append_of_some ht ha,
      pieces_append_of_some ht (attribute?_append_of_getLast? ha hlast m),
      ih (fun x hx => h x (List.mem_cons_of_mem _ hx)) rfl, List.cons_append]

/-! ### Attributes in double quotes -/

/-- The attributes among pieces when each is in double quotes and behind a blank, with nothing else
around them but blanks and a slash at the end.  `blank` says whether a blank stands in front. -/
def quotedFrom : Bool → List (Piece Attribute) → Option (List Attribute)
  | _, [] => some []
  | _, .plain c :: ps =>
    if isBlank c then quotedFrom true ps
    else if c == '/' && ps.isEmpty then some [] else none
  | false, .found _ _ :: _ => none
  | true, .found t a :: ps =>
    if t.getLast? == some '"' then (quotedFrom false ps).map (a :: ·) else none

/-- The attributes of an attribute text in which they are all in double quotes. -/
def quotedAttributes? (attrs : List Char) : Option (List Attribute) :=
  quotedFrom false (pieces attribute? attrs)

variable {b : Bool} {ps qs : List (Piece Attribute)} {as : List Attribute}

theorem quotedFrom_blank {c : Char} (h : isBlank c = true) (ps : List (Piece Attribute)) :
    quotedFrom b (.plain c :: ps) = quotedFrom true ps := by
  rw [quotedFrom, if_pos h]

theorem quotedFrom_found {t : List Char} (h : t.getLast? = some '"') (a : Attribute)
    (ps : List (Piece Attribute)) :
    quotedFrom true (.found t a :: ps) = (quotedFrom false ps).map (a :: ·) := by
  rw [quotedFrom, if_pos (by simpa using h)]

/-- What a piece in front of others can be. -/
theorem quotedFrom_cons {x : Piece Attribute} (h : quotedFrom b (x :: ps) = some as) :
    (∃ c, x = .plain c ∧ isBlank c = true ∧ quotedFrom true ps = some as) ∨
      (x = .plain '/' ∧ ps = [] ∧ as = []) ∨
      ∃ t a as', x = .found t a ∧ b = true ∧ t.getLast? = some '"' ∧
        quotedFrom false ps = some as' ∧ as = a :: as' := by
  cases x with
  | plain c =>
    rw [quotedFrom] at h
    split at h
    · next hc => exact Or.inl ⟨c, rfl, hc, h⟩
    · split at h
      · next hslash =>
        simp only [Bool.and_eq_true, beq_iff_eq, List.isEmpty_iff] at hslash
        exact Or.inr (Or.inl ⟨by rw [hslash.1], hslash.2, (Option.some.inj h).symm⟩)
      · cases h
  | found t a =>
    cases b with
    | false => cases h
    | true =>
      rw [quotedFrom] at h
      split at h
      · next hlast =>
        obtain ⟨as', has', rfl⟩ := Option.map_eq_some_iff.1 h
        exact Or.inr (Or.inr ⟨t, a, as', rfl, rfl, by simpa using hlast, has', rfl⟩)
      · cases h

theorem standsAlone_of_quotedFrom (h : quotedFrom b ps = some as) :
    ∀ x ∈ ps, standsAlone x = true := by
  induction ps generalizing b as with
  | nil => simp
  | cons x ps ih =>
    rw [List.forall_mem_cons]
    rcases quotedFrom_cons h with ⟨c, rfl, hc, h⟩ | ⟨rfl, rfl, -⟩ | ⟨t, a, as', rfl, -, ht, h, -⟩
    · exact ⟨by simp [standsAlone, not_isNameChar_of_isBlank hc], ih h⟩
    · exact ⟨by decide, by simp⟩
    · exact ⟨by simp [standsAlone, ht], ih h⟩

/-- What stands in front of a piece counts by itself. -/
theorem quotedFrom_append {x : Piece Attribute} (h : quotedFrom b (ps ++ x :: qs) = some as) :
    ∃ b' as', ∀ y qs, quotedFrom b (ps ++ y :: qs) = (quotedFrom b' (y :: qs)).map (as' ++ ·) := by
  induction ps generalizing b as with
  | nil => exact ⟨b, [], fun y qs => by simp⟩
  | cons z ps ih =>
    rcases quotedFrom_cons h with ⟨c, rfl, hc, h⟩ | ⟨-, hnil, -⟩ | ⟨t, a, as', rfl, rfl, ht, h, -⟩
    · obtain ⟨b', as', heq⟩ := ih h
      refine ⟨b', as', fun y qs => ?_⟩
      rw [List.cons_append, quotedFrom_blank hc, heq]
    · simp at hnil
    · obtain ⟨b', as', heq⟩ := ih h
      refine ⟨b', a :: as', fun y qs => ?_⟩
      rw [List.cons_append, quotedFrom_found ht, heq, Option.map_map]
      rfl

/-! ### An attribute written anew -/

theorem getLast?_quotedText (name w₁ w₂ v : List Char) :
    (quotedText name w₁ w₂ v).getLast? = some '"' := by
  have hassoc : quotedText name w₁ w₂ v = (name ++ (w₁ ++ '=' :: (w₂ ++ '"' :: v))) ++ ['"'] := by
    simp [quotedText]
  rw [hassoc, List.getLast?_concat]

/-- The pieces of an attribute text that starts with an attribute in double quotes. -/
theorem pieces_quotedText {name v : List Char} (hname : name ≠ [])
    (hchars : ∀ c ∈ name, isNameChar c = true) (hv : '"' ∉ v) (z : List Char) :
    pieces attribute? (quotedText name [] [] v ++ z) =
      .found (quotedText name [] [] v) ⟨name, some v⟩ :: pieces attribute? z := by
  have hne : quotedText name [] [] v ≠ [] := List.append_ne_nil_of_left_ne_nil hname _
  exact pieces_append_of_some hne (attribute?_quoted hname hchars (by simp) (by simp) hv z)

/-- **Writing an attribute anew**, with another name or value, keeps the other attributes. -/
theorem quotedAttributes?_replace {attrs name v : List Char} {o : Occurrence Attribute}
    (h : quotedAttributes? attrs = some as) (ho : o ∈ attributes attrs) (hname : name ≠ [])
    (hchars : ∀ c ∈ name, isNameChar c = true) (hv : '"' ∉ v) :
    ∃ as₁ as₂, as = as₁ ++ o.value :: as₂ ∧
      quotedAttributes? (attrs.take o.start ++ (quotedText name [] [] v ++ attrs.drop o.stop)) =
        some (as₁ ++ ⟨name, some v⟩ :: as₂) := by
  obtain ⟨before, after, hpieces, htake, hdrop⟩ := pieces_of_mem_occurrences ho
  rw [quotedAttributes?, hpieces] at h
  have hafter : pieces attribute? (after.flatMap Piece.text) = after := by
    have hcut : pieces attribute? attrs = (before ++ [.found o.text o.value]) ++ after := by
      rw [hpieces, List.append_assoc, List.singleton_append]
    exact pieces_flatMap_text_right consumes_attribute? hcut
  have halone := standsAlone_of_quotedFrom h
  obtain ⟨b', as₁, heq⟩ := quotedFrom_append h
  rw [heq] at h
  obtain ⟨as', has', rfl⟩ := Option.map_eq_some_iff.1 h
  rcases quotedFrom_cons has' with ⟨c, hx, -⟩ | ⟨hx, -⟩ | ⟨t, a, as₂, hx, rfl, ht, hrest, rfl⟩
  · cases hx
  · cases hx
  · obtain ⟨-, rfl⟩ := Piece.found.inj hx
    refine ⟨as₁, as₂, rfl, ?_⟩
    rw [← htake, ← hdrop, quotedAttributes?, pieces_append_of_standsAlone hpieces
      (fun x hx => halone x (List.mem_append_left _ hx)), pieces_quotedText hname hchars hv, hafter,
      heq, quotedFrom_found (getLast?_quotedText _ _ _ _), hrest]
    rfl

/-! ### One attribute more -/

/-- **An attribute more in front.** -/
theorem quotedAttributes?_cons {name v : List Char} (hname : name ≠ [])
    (hchars : ∀ c ∈ name, isNameChar c = true) (hv : '"' ∉ v) (attrs : List Char) :
    quotedAttributes? (' ' :: (quotedText name [] [] v ++ attrs)) =
      (quotedAttributes? attrs).map (⟨name, some v⟩ :: ·) := by
  have hspace : isNameChar ' ' = false := by decide
  rw [quotedAttributes?, pieces_cons_of_none (attribute?_cons_eq_none_iff.2 hspace),
    pieces_quotedText hname hchars hv, quotedFrom_blank isBlank_space,
    quotedFrom_found (getLast?_quotedText _ _ _ _)]
  rfl

theorem pieces_blanks_append {w : List Char} (hw : ∀ c ∈ w, isBlank c = true) (z : List Char) :
    pieces attribute? (w ++ z) = w.map .plain ++ pieces attribute? z := by
  induction w with
  | nil => rfl
  | cons c w ih =>
    have hc := not_isNameChar_of_isBlank (hw c List.mem_cons_self)
    rw [List.cons_append, pieces_cons_of_none (attribute?_cons_eq_none_iff.2 hc),
      ih fun d hd => hw d (List.mem_cons_of_mem _ hd), List.map_cons, List.cons_append]

/-- How many blanks stand in front does not matter. -/
theorem quotedAttributes?_blanks {w : List Char} (hw : ∀ c ∈ w, isBlank c = true) (hne : w ≠ [])
    (z : List Char) : quotedAttributes? (w ++ z) = quotedAttributes? (' ' :: z) := by
  -- a blank is behind an attribute or in front of one, so it does not matter where the blanks start
  have key : ∀ {b}, b = true ∨ w ≠ [] →
      quotedFrom b (w.map .plain ++ pieces attribute? z) = quotedFrom true (pieces attribute? z) := by
    clear hne
    induction w with
    | nil =>
      rintro b (rfl | h)
      · rfl
      · exact absurd rfl h
    | cons c w ih =>
      intro b _
      rw [List.map_cons, List.cons_append, quotedFrom_blank (hw c List.mem_cons_self)]
      exact ih (fun d hd => hw d (List.mem_cons_of_mem _ hd)) (Or.inl rfl)
  have hspace : ∀ c ∈ [' '], isBlank c = true := forall_mem_of_all (by decide)
  rw [quotedAttributes?, pieces_blanks_append hw, key (Or.inr hne), quotedAttributes?,
    ← List.singleton_append, pieces_blanks_append hspace]
  exact (quotedFrom_blank isBlank_space _).symm

/-- Whether nothing but blanks stands around the attributes among pieces. -/
def IsBare (ps : List (Piece Attribute)) : Prop := ∀ c, .plain c ∈ ps → isBlank c = true

theorem isBare_nil : IsBare [] := by
  intro c hc
  cases hc

theorem isBare_cons {x : Piece Attribute} :
    IsBare (x :: ps) ↔ (∀ c, x = .plain c → isBlank c = true) ∧ IsBare ps := by
  simp only [IsBare, List.mem_cons, or_imp, forall_and, eq_comm]

/-- What stands around attributes in double quotes are blanks, and a slash at the end or not. -/
theorem isBare_or_slash (h : quotedFrom b ps = some as) :
    IsBare ps ∨ ∃ ps', ps = ps' ++ [.plain '/'] ∧ IsBare ps' ∧ quotedFrom b ps' = some as := by
  induction ps generalizing b as with
  | nil => exact Or.inl isBare_nil
  | cons x ps ih =>
    rcases quotedFrom_cons h with ⟨c, rfl, hc, hrest⟩ | ⟨rfl, rfl, rfl⟩ |
      ⟨t, a, as', rfl, rfl, ht, hrest, rfl⟩
    · have hx : ∀ d, (.plain c : Piece Attribute) = .plain d → isBlank d = true := by
        rintro d ⟨⟩
        exact hc
      rcases ih hrest with hps | ⟨ps', rfl, hps', hrest'⟩
      · exact Or.inl (isBare_cons.2 ⟨hx, hps⟩)
      · exact Or.inr ⟨.plain c :: ps', rfl, isBare_cons.2 ⟨hx, hps'⟩,
          (quotedFrom_blank hc _).trans hrest'⟩
    · exact Or.inr ⟨[], rfl, isBare_nil, rfl⟩
    · have hx : ∀ d, (.found t a : Piece Attribute) = .plain d → isBlank d = true := by
        rintro d ⟨⟩
      rcases ih hrest with hps | ⟨ps', rfl, hps', hrest'⟩
      · exact Or.inl (isBare_cons.2 ⟨hx, hps⟩)
      · refine Or.inr ⟨.found t a :: ps', rfl, isBare_cons.2 ⟨hx, hps'⟩, ?_⟩
        rw [quotedFrom_found ht, hrest']
        rfl

theorem quotedFrom_of_blanks_behind {w : List Char}
    (h : quotedFrom b (ps ++ w.map .plain) = some as) : quotedFrom b ps = some as := by
  induction ps generalizing b as with
  | nil =>
    induction w generalizing b with
    | nil => exact h
    | cons c w ih =>
      rcases quotedFrom_cons h with ⟨-, -, -, hrest⟩ | ⟨-, -, rfl⟩ | ⟨t, a, as', hx, -⟩
      · exact (ih hrest : quotedFrom true [] = some as)
      · rfl
      · cases hx
  | cons x ps ih =>
    rcases quotedFrom_cons h with ⟨c, rfl, hc, hrest⟩ | ⟨rfl, hnil, rfl⟩ |
      ⟨t, a, as', rfl, rfl, ht, hrest, rfl⟩
    · rw [quotedFrom_blank hc, ih hrest]
    · rw [(List.append_eq_nil_iff.1 hnil).1]
      rfl
    · rw [quotedFrom_found ht, ih hrest]
      rfl

/-- Behind attributes with nothing but blanks around them. -/
theorem quotedFrom_append_blank (hbare : IsBare ps) (h : quotedFrom b ps = some as) :
    quotedFrom b (ps ++ .plain ' ' :: qs) = (quotedFrom true qs).map (as ++ ·) := by
  induction ps generalizing b as with
  | nil =>
    obtain rfl : [] = as := Option.some.inj h
    rw [List.nil_append, quotedFrom_blank isBlank_space]
    simp
  | cons x ps ih =>
    have hps := (isBare_cons.1 hbare).2
    rcases quotedFrom_cons h with ⟨c, rfl, hc, hrest⟩ | ⟨rfl, -, -⟩ |
      ⟨t, a, as', rfl, rfl, ht, hrest, rfl⟩
    · rw [List.cons_append, quotedFrom_blank hc, ih hps hrest]
    · exact absurd (hbare '/' List.mem_cons_self) (by decide)
    · rw [List.cons_append, quotedFrom_found ht, ih hps hrest, Option.map_map]
      rfl

/-- The blanks at the end of an attribute text are pieces of their own. -/
theorem pieces_trimEnd {attrs : List Char} (h : quotedAttributes? attrs = some as) :
    ∃ w : List Char, (∀ c ∈ w, isBlank c = true) ∧
      pieces attribute? attrs = pieces attribute? (trimEnd attrs) ++ w.map .plain := by
  obtain ⟨w, hw, hattrs⟩ := exists_trimEnd_append_blanks attrs
  refine ⟨w, hw, ?_⟩
  have hquote : '"' ∉ w := fun hmem => absurd (hw _ hmem) (by decide)
  have halone := standsAlone_of_quotedFrom h
  have hpieces := pieces_blanks_append hw []
  rw [List.append_nil, pieces_nil, List.append_nil] at hpieces
  rw [hattrs] at halone
  conv => lhs; rw [hattrs]
  rw [pieces_append_of_not_mem hquote halone, hpieces]

theorem quotedAttributes?_trimEnd {attrs : List Char} (h : quotedAttributes? attrs = some as) :
    quotedAttributes? (trimEnd attrs) = some as := by
  obtain ⟨w, -, hpieces⟩ := pieces_trimEnd h
  rw [quotedAttributes?, hpieces] at h
  exact quotedFrom_of_blanks_behind h

theorem isBare_trimEnd {attrs : List Char} (h : quotedAttributes? attrs = some as)
    (hbare : IsBare (pieces attribute? attrs)) : IsBare (pieces attribute? (trimEnd attrs)) := by
  obtain ⟨w, -, hpieces⟩ := pieces_trimEnd h
  intro c hc
  exact hbare c (by rw [hpieces]; exact List.mem_append_left _ hc)

/-- Attributes in double quotes up to a final slash. -/
theorem quotedAttributes?_of_slash {attrs : List Char}
    (h : quotedAttributes? (attrs ++ ['/']) = some as) :
    quotedAttributes? attrs = some as ∧ IsBare (pieces attribute? attrs) := by
  have hslash : pieces attribute? ['/'] = [.plain '/'] := rfl
  have hquote : '"' ∉ ['/'] := by decide
  have hpieces := pieces_append_of_not_mem hquote (standsAlone_of_quotedFrom h)
  rw [hslash] at hpieces
  rw [quotedAttributes?, hpieces] at h
  rcases isBare_or_slash h with hbare | ⟨ps', heq, hbare, hrest⟩
  · exact absurd (hbare '/' (by simp)) (by decide)
  · rw [← List.append_cancel_right heq] at hbare hrest
    exact ⟨hrest, hbare⟩

/-- Without a final slash nothing but blanks stands around the attributes. -/
theorem isBare_of_not_slash {attrs : List Char} (h : quotedAttributes? attrs = some as)
    (hslash : attrs.getLast? ≠ some '/') : IsBare (pieces attribute? attrs) := by
  rcases isBare_or_slash h with hbare | ⟨ps', heq, -⟩
  · exact hbare
  · have htext := flatMap_text_pieces attribute? attrs
    rw [heq, List.flatMap_append, List.flatMap_singleton, Piece.text_plain] at htext
    rw [← htext, List.getLast?_concat] at hslash
    exact absurd rfl hslash

/-- **An attribute more at the end.** -/
theorem quotedAttributes?_concat {attrs name v : List Char} (h : quotedAttributes? attrs = some as)
    (hbare : IsBare (pieces attribute? attrs)) (hname : name ≠ [])
    (hchars : ∀ c ∈ name, isNameChar c = true) (hv : '"' ∉ v) (z : List Char) :
    quotedAttributes? (attrs ++ ' ' :: (quotedText name [] [] v ++ z)) =
      (quotedAttributes? z).map (as ++ ⟨name, some v⟩ :: ·) := by
  have hspace : isNameChar ' ' = false := by decide
  have hpieces := pieces_append_of_standsAlone (List.append_nil _).symm
    (standsAlone_of_quotedFrom h) (' ' :: (quotedText name [] [] v ++ z))
  rw [flatMap_text_pieces, pieces_cons_of_none (attribute?_cons_eq_none_iff.2 hspace),
    pieces_quotedText hname hchars hv] at hpieces
  rw [quotedAttributes?, hpieces, quotedFrom_append_blank hbare h,
    quotedFrom_found (getLast?_quotedText _ _ _ _), Option.map_map]
  rfl

end Markup
end SceneMarkup
