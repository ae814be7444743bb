import SceneMarkup.Proofs.Markup.AttributeTexts
import SceneMarkup.Proofs.Markup.Outline

/-!
# Attributes in front of more text

What the scanner of attributes reads in a text when more text is put behind it.  A value between
quotes is read as before.  A value without quotes that reaches up to the seam goes on behind it, and
so does an attribute whose value is missing when the text ends: behind its equals sign, or between
its quotes.

## Main definitions

* `leavesOpen` — whether the text behind a name ends before a value that it announces does.
* `openAttribute?` — the first attribute that is left open.

## Main results

* `equalsValue?_append_of_none` — where no value is read, one can only be completed.
* `attribute?_append_of_value`, `attribute?_append_of_bare` — **what is read of an attribute when more
  text follows.**
-/

namespace SceneMarkup
namespace Markup

open Text

/-! ### Values in front of more text -/

theorem upTo?_append_of_some {q : Char} {s v r : List Char} (h : upTo? q s = some (v, r))
    (x : List Char) : upTo? q (s ++ x) = some (v, r ++ x) := by
  obtain ⟨hmem, rfl⟩ := upTo?_eq_some_iff.1 h
  exact upTo?_eq_some_iff.2 ⟨hmem, by simp⟩

theorem upTo?_append_of_not_mem {q : Char} {v : List Char} (h : q ∉ v) (x : List Char) :
    upTo? q (v ++ x) = (upTo? q x).map fun found => (v ++ found.1, found.2) := by
  have hplain : ∀ c ∈ v, (c != q) = true := by
    intro c hc
    rw [bne_iff_ne]
    rintro rfl
    exact h hc
  rw [upTo?, upTo?, List.dropWhile_append_of_pos hplain, List.takeWhile_append_of_pos hplain]
  cases x.dropWhile (fun c => c != q) <;> rfl

theorem upTo?_eq_none_iff {q : Char} {v : List Char} : upTo? q v = none ↔ q ∉ v := by
  have hdrop : v.dropWhile (fun c => c != q) = [] ↔ q ∉ v := by
    rw [List.dropWhile_eq_nil_iff]
    constructor
    · intro h hmem
      simpa using h q hmem
    · intro h c hc
      rw [bne_iff_ne]
      rintro rfl
      exact h hc
  rw [← hdrop, upTo?]
  cases v.dropWhile (fun c => c != q) <;> simp

/-- A value that is read stays, but one without quotes goes on when it reaches up to the seam. -/
theorem attributeValue?_append_of_some {s v r : List Char} (h : attributeValue? s = some (v, r)) :
    (∀ x, attributeValue? (s ++ x) = some (v, r ++ x)) ∨
      r = [] ∧ v ≠ [] ∧ (∀ c ∈ v, isBareChar c = true) ∧
        ∀ x, attributeValue? (s ++ x) =
          some (v ++ x.takeWhile isBareChar, x.dropWhile isBareChar) := by
  cases s with
  | nil => cases h
  | cons c s =>
    rw [attributeValue?] at h
    by_cases hq : isQuote c = true
    · rw [if_pos hq] at h
      refine Or.inl fun x => ?_
      rw [List.cons_append, attributeValue?, if_pos hq, upTo?_append_of_some h]
    · rw [if_neg hq] at h
      split at h
      · next hb =>
        cases h
        cases hrest : s.dropWhile isBareChar with
        | nil =>
          have hall := List.dropWhile_eq_nil_iff.1 hrest
          have htake : s.takeWhile isBareChar = s := List.takeWhile_eq_self_iff.2 hall
          rw [htake]
          refine Or.inr ⟨rfl, List.cons_ne_nil _ _, List.forall_mem_cons.2 ⟨hb, hall⟩, fun x => ?_⟩
          rw [List.cons_append, attributeValue?, if_neg hq, if_pos hb,
            List.takeWhile_append_of_pos hall, List.dropWhile_append_of_pos hall]
          rfl
        | cons d rest =>
          refine Or.inl fun x => ?_
          obtain ⟨htake, hdrop⟩ := takeWhile_append_of_dropWhile hrest x
          rw [List.cons_append, attributeValue?, if_neg hq, if_pos hb, htake, hdrop]
          rfl
      · cases h

/-- A value that is read behind a name stays, but one without quotes goes on when it reaches up to
the seam. -/
theorem equalsValue?_append_of_some {s v r : List Char} (h : equalsValue? s = some (v, r)) :
    (∀ x, equalsValue? (s ++ x) = some (v, r ++ x)) ∨
      r = [] ∧ v ≠ [] ∧ (∀ c ∈ v, isBareChar c = true) ∧
        ∀ x, equalsValue? (s ++ x) =
          some (v ++ x.takeWhile isBareChar, x.dropWhile isBareChar) := by
  rw [equalsValue?] at h
  split at h
  · next e he =>
    have hseam : ∀ x, equalsValue? (s ++ x) = attributeValue? (trimStart e ++ x) := by
      intro x
      cases htrim : trimStart e with
      | nil =>
        rw [htrim] at h
        cases h
      | cons c u =>
        simp only [equalsValue?, trimStart_append_of_eq_cons he, trimStart_append_of_eq_cons htrim]
        rfl
    simp only [hseam]
    exact attributeValue?_append_of_some h
  · cases h

/-- Whether the text behind a name ends before a value that it announces does: behind the equals
sign, or behind a double quote. -/
def leavesOpen (s : List Char) : Bool :=
  match trimStart s with
  | '=' :: e =>
    match trimStart e with
    | [] => true
    | c :: v => c == '"' && !v.contains '"'
  | _ => false

/-- Where no value is read one can only be completed: none is announced yet, or it is missing behind
the equals sign, or its closing quote is missing.  Otherwise there is no value, whatever follows. -/
theorem equalsValue?_append_of_none {s : List Char} (h : equalsValue? s = none) :
    (trimStart s = [] ∧ ∀ x, equalsValue? (s ++ x) = equalsValue? x) ∨
      (∃ e, trimStart s = '=' :: e ∧ trimStart e = [] ∧
        ∀ x, equalsValue? (s ++ x) = attributeValue? (trimStart x)) ∨
      (∃ e q v, trimStart s = '=' :: e ∧ trimStart e = q :: v ∧ isQuote q = true ∧ q ∉ v ∧
        ∀ x, equalsValue? (s ++ x) = (upTo? q x).map fun found => (v ++ found.1, found.2)) ∨
      leavesOpen s = false ∧ ∀ x, equalsValue? (s ++ x) = none := by
  cases hs : trimStart s with
  | nil => exact Or.inl ⟨rfl, fun x => by rw [equalsValue?, trimStart_append_of_eq_nil hs]; rfl⟩
  | cons d e =>
    by_cases hd : d = '='
    · subst hd
      simp only [equalsValue?, hs] at h
      cases he : trimStart e with
      | nil =>
        refine Or.inr (Or.inl ⟨e, rfl, he, fun x => ?_⟩)
        simp only [equalsValue?, trimStart_append_of_eq_cons hs, trimStart_append_of_eq_nil he]
      | cons q v =>
        have hseam : ∀ x, equalsValue? (s ++ x) = attributeValue? (q :: (v ++ x)) := fun x => by
          simp only [equalsValue?, trimStart_append_of_eq_cons hs, trimStart_append_of_eq_cons he]
        rw [he, attributeValue?] at h
        by_cases hq : isQuote q = true
        · rw [if_pos hq] at h
          have hmem := upTo?_eq_none_iff.1 h
          refine Or.inr (Or.inr (Or.inl ⟨e, q, v, rfl, he, hq, hmem, fun x => ?_⟩))
          rw [hseam, attributeValue?, if_pos hq, upTo?_append_of_not_mem hmem]
        · rw [if_neg hq] at h
          have hb : ¬isBareChar q = true := by
            intro hb
            rw [if_pos hb] at h
            cases h
          have hne : (q == '"') = false := by
            rw [beq_eq_false_iff_ne]
            rintro rfl
            exact hq rfl
          refine Or.inr (Or.inr (Or.inr ⟨?_, fun x => ?_⟩))
          · simp only [leavesOpen, hs, he, hne, Bool.false_and]
          · rw [hseam, attributeValue?, if_neg hq, if_neg hb]
    · have hother : ∀ x, equalsValue? (s ++ x) = none := by
        intro x
        rw [equalsValue?, trimStart_append_of_eq_cons hs]
        split
        · next heq => exact absurd (List.cons.inj heq).1 hd
        · rfl
      refine Or.inr (Or.inr (Or.inr ⟨?_, hother⟩))
      rw [leavesOpen, hs]
      split
      · next heq => exact absurd (List.cons.inj heq).1 hd
      · rfl

/-! ### Attributes in front of more text -/

/-- What is read of an attribute when more text follows is what is read behind its name. -/
theorem attribute?_append_of_some {s r : List Char} {a : Attribute}
    (h : attribute? s = some (a, r)) :
    ∃ d, behindName a.name d = (a, r) ∧
      ∀ x, StopsName x → attribute? (s ++ x) = some (behindName a.name (d ++ x)) := by
  have hne : s.takeWhile isNameChar ≠ [] := by
    intro hnil
    rw [attribute?, hnil] at h
    cases h
  have hread := attribute?_of_name hne ⟨rfl, rfl⟩
  rw [h, Option.some.injEq] at hread
  have hname : a.name = s.takeWhile isNameChar := by
    rw [← name_behindName (s.takeWhile isNameChar) (s.dropWhile isNameChar), ← hread]
  rw [hname]
  exact ⟨s.dropWhile isNameChar, hread.symm,
    fun x hx => attribute?_of_name hne (takeWhile_append_of_stops hx)⟩

/-- An attribute with a value stays, but a value without quotes goes on when it reaches up to the
seam. -/
theorem attribute?_append_of_value {s r v : List Char} {name : List Char}
    (h : attribute? s = some (⟨name, some v⟩, r)) :
    (∀ x, StopsName x → attribute? (s ++ x) = some (⟨name, some v⟩, r ++ x)) ∨
      r = [] ∧ v ≠ [] ∧ (∀ c ∈ v, isBareChar c = true) ∧ ∀ x, StopsName x → attribute? (s ++ x) =
        some (⟨name, some (v ++ x.takeWhile isBareChar)⟩, x.dropWhile isBareChar) := by
  obtain ⟨d, hd, hseam⟩ := attribute?_append_of_some h
  rcases equalsValue?_append_of_some (behindName_eq_value_iff.1 hd) with
    hstays | ⟨hr, hne, hbare, hgrows⟩
  · refine Or.inl fun x hx => ?_
    rw [hseam x hx, behindName_eq_value_iff.2 (hstays x)]
  · refine Or.inr ⟨hr, hne, hbare, fun x hx => ?_⟩
    rw [hseam x hx, behindName_eq_value_iff.2 (hgrows x)]

/-- An attribute without a value gets the value that more text completes. -/
theorem attribute?_append_of_bare {s r : List Char} {name : List Char}
    (h : attribute? s = some (⟨name, none⟩, r)) :
    equalsValue? r = none ∧
      ∀ x, StopsName x → attribute? (s ++ x) = some (behindName name (r ++ x)) := by
  obtain ⟨d, hd, hseam⟩ := attribute?_append_of_some h
  obtain ⟨hnone, rfl⟩ := behindName_eq_bare_iff.1 hd
  exact ⟨hnone, hseam⟩

/-- The first attribute among pieces that is left open: one without a value, behind whose name a
value is announced.  `n` characters stand in front of the pieces. -/
def firstOpen? : Nat → List (Piece Attribute) → Option (Occurrence Attribute)
  | _, [] => none
  | n, .plain _ :: ps => firstOpen? (n + 1) ps
  | n, .found t a :: ps =>
    if a.value.isNone && leavesOpen (ps.flatMap Piece.text) then some ⟨n, t, a⟩
    else firstOpen? (n + t.length) ps

/-- The first attribute of a text that is left open. -/
def openAttribute? (s : List Char) : Option (Occurrence Attribute) :=
  firstOpen? 0 (pieces attribute? s)

theorem firstOpen?_cons_of_none {c : Char} {s : List Char} (h : attribute? (c :: s) = none)
    (n : Nat) :
    firstOpen? n (pieces attribute? (c :: s)) = firstOpen? (n + 1) (pieces attribute? s) := by
  rw [pieces_cons_of_none h, firstOpen?]

theorem firstOpen?_append_of_some {t r : List Char} {a : Attribute} (ht : t ≠ [])
    (h : attribute? (t ++ r) = some (a, r)) (n : Nat) :
    firstOpen? n (pieces attribute? (t ++ r)) =
      if a.value.isNone && leavesOpen r then some ⟨n, t, a⟩
      else firstOpen? (n + t.length) (pieces attribute? r) := by
  rw [pieces_append_of_some ht h, firstOpen?, flatMap_text_pieces]

end Markup
end SceneMarkup
