import Mathlib.Data.List.Destutter
import Mathlib.Data.List.Sort
import SceneMarkup.Proofs.Stylesheet.Statements

/-!
# The order in which properties are tried

A list of properties is written by hand: in any order, with blanks around the names, with empty
entries, and with some of the names more than once.  What counts are the names in it.  They are
tried in an order that is strict, so it depends on which names there are and on nothing else.

The order puts longer names first because one name may be the start of another, and both may be
read at one place of a stylesheet.  Of the names that are read there, the longest is taken.

## Main definitions

* `listedNames` — the names that a list configures.

## Main results

* `propertyOrder_eq_destutter` — the order is the names sorted, with equal neighbours made one.
* `propertyOrder_eq_iff` — **two lists have one order exactly when they configure the same names.**
* `declaration?_propertyOrder_iff` — **of the names that can be read at a place, the longest is
  read.**
-/

namespace SceneMarkup
namespace Stylesheet

open Text

/-! ### The names of a list -/

/-- The names that a list configures: its entries without the blanks around them, the empty ones
left out. -/
def listedNames (names : List String) : List String :=
  (names.map fun p => String.ofList (trim p.toList)).filter fun p => p ≠ ""

theorem mem_propertyOrder {p : String} {names : List String} :
    p ∈ propertyOrder names ↔ p ∈ listedNames names := by
  have hempty : p.toList ≠ [] ↔ p ≠ "" := not_congr String.toList_eq_nil_iff
  have hname : ∀ q : String, trim q.toList = p.toList ↔ String.ofList (trim q.toList) = p := by
    intro q
    rw [← String.toList_inj, String.toList_ofList]
  rw [mem_propertyOrder_iff, listedNames, List.mem_filter, List.mem_map, decide_eq_true_iff,
    hempty, and_comm]
  simp only [hname]

/-! ### A strict order -/

theorem goesBefore_iff {a b : String} :
    goesBefore a b = true ↔
      b.utf8ByteSize < a.utf8ByteSize ∨ a.utf8ByteSize = b.utf8ByteSize ∧ a < b := by
  simp [goesBefore]

theorem size_le_of_goesBefore {a b : String} (h : goesBefore a b = true) :
    b.utf8ByteSize ≤ a.utf8ByteSize := by
  rcases goesBefore_iff.1 h with h | ⟨h, -⟩
  · exact h.le
  · exact h.ge

theorem goesBefore_irrefl (a : String) : ¬ goesBefore a a = true := by
  rw [goesBefore_iff]
  rintro (h | ⟨-, h⟩)
  · exact Nat.lt_irrefl _ h
  · exact String.lt_irrefl a h

theorem goesBefore_trans {a b c : String} (hab : goesBefore a b = true)
    (hbc : goesBefore b c = true) : goesBefore a c = true := by
  rw [goesBefore_iff] at hab hbc ⊢
  rcases hab with hab | ⟨hab, hlt⟩
  · left
    rcases hbc with hbc | ⟨hbc, -⟩ <;> omega
  · rcases hbc with hbc | ⟨hbc, hlt'⟩
    · left
      omega
    · exact Or.inr ⟨hab.trans hbc, String.lt_trans hlt hlt'⟩

theorem goesBefore_asymm {a b : String} (h : goesBefore a b = true) : ¬ goesBefore b a = true :=
  fun h' => goesBefore_irrefl a (goesBefore_trans h h')

/-- Of two different names one goes before the other. -/
theorem goesBefore_of_ne {a b : String} (hne : a ≠ b) (h : ¬ goesBefore b a = true) :
    goesBefore a b = true := by
  rw [goesBefore_iff] at h ⊢
  rw [not_or, not_and] at h
  obtain ⟨hsize, hlt⟩ := h
  rcases Nat.eq_or_lt_of_le (Nat.le_of_not_lt hsize) with heq | hsize
  · refine Or.inr ⟨heq.symm, ?_⟩
    by_contra hnot
    exact hne (String.le_antisymm (String.not_lt.1 (hlt heq)) (String.not_lt.1 hnot))
  · exact Or.inl hsize

instance : Std.Irrefl (goesBefore · ·) := ⟨goesBefore_irrefl⟩

instance : Std.Antisymm (goesBefore · ·) := ⟨fun _ _ h h' => absurd h' (goesBefore_asymm h)⟩

instance : Trans (goesBefore · ·) (goesBefore · ·) (goesBefore · ·) := ⟨goesBefore_trans⟩

/-! ### The order of a list -/

/-- One more name leaves the order strict. -/
theorem pairwise_insertProperty {p : String} {qs : List String}
    (h : qs.Pairwise (goesBefore · ·)) : (insertProperty p qs).Pairwise (goesBefore · ·) := by
  induction qs with
  | nil => exact List.pairwise_singleton _ p
  | cons q qs ih =>
    obtain ⟨hq, hqs⟩ := List.pairwise_cons.1 h
    rw [insertProperty]
    split
    · exact h
    · next hne =>
      split
      · next hpq =>
        refine List.pairwise_cons.2 ⟨fun r hr => ?_, h⟩
        rcases List.mem_cons.1 hr with rfl | hr
        · exact hpq
        · exact goesBefore_trans hpq (hq r hr)
      · next hpq =>
        refine List.pairwise_cons.2 ⟨fun r hr => ?_, ih hqs⟩
        rcases mem_insertProperty_iff.1 hr with rfl | hr
        · exact goesBefore_of_ne (Ne.symm hne) hpq
        · exact hq r hr

theorem pairwise_propertyOrder (names : List String) :
    (propertyOrder names).Pairwise (goesBefore · ·) := by
  induction names with
  | nil => exact List.Pairwise.nil
  | cons p names ih =>
    rw [propertyOrder]
    split
    · exact ih
    · exact pairwise_insertProperty ih

/-- **Two lists have one order exactly when they configure the same names.** -/
theorem propertyOrder_eq_iff {names names' : List String} :
    propertyOrder names = propertyOrder names' ↔
      ∀ p, p ∈ listedNames names ↔ p ∈ listedNames names' := by
  simp only [← mem_propertyOrder]
  constructor
  · intro h p
    rw [h]
  · exact (pairwise_propertyOrder names).eq_of_mem_iff (pairwise_propertyOrder names')

/-! ### Sorting and leaving out equal neighbours -/

/-- Making equal neighbours one loses no entry. -/
theorem mem_destutter_ne {α : Type} [DecidableEq α] {a : α} {l : List α} :
    a ∈ l.destutter (· ≠ ·) ↔ a ∈ l := by
  refine ⟨fun h => (List.destutter_sublist (· ≠ ·) l).subset h, fun h => ?_⟩
  cases l with
  | nil => exact h
  | cons b l =>
    rw [List.destutter_cons']
    induction l generalizing b with
    | nil => exact h
    | cons c l ih =>
      rw [List.destutter'_cons]
      split
      · next hbc =>
        rcases List.mem_cons.1 h with rfl | h
        · exact List.mem_cons_self
        · exact List.mem_cons_of_mem b (ih c h)
      · next hbc =>
        -- the neighbour left out is the one in front of it
        obtain rfl : b = c := not_not.1 hbc
        refine ih b ?_
        rcases List.mem_cons.1 h with rfl | h
        · exact List.mem_cons_self
        · exact h

/-- Sorted names without equal neighbours are in strict order. -/
theorem pairwise_of_isChain_ne {l : List String}
    (hle : l.Pairwise fun a b => ¬ goesBefore b a = true) (hne : l.IsChain (· ≠ ·)) :
    l.Pairwise (goesBefore · ·) := by
  refine List.IsChain.pairwise ?_
  rw [List.isChain_iff_forall_rel_of_append_cons_cons] at hne ⊢
  intro a b l₁ l₂ hl
  have hle := hle.isChain
  rw [List.isChain_iff_forall_rel_of_append_cons_cons] at hle
  exact goesBefore_of_ne (hne hl) (hle hl)

/-- **The order of a list is its names sorted, with equal neighbours made one.** -/
theorem propertyOrder_eq_destutter (names : List String) :
    propertyOrder names
      = ((listedNames names).mergeSort fun a b => !goesBefore b a).destutter (· ≠ ·) := by
  have hsort : ((listedNames names).mergeSort fun a b => !goesBefore b a).Pairwise
      fun a b => ¬ goesBefore b a = true := by
    refine (List.pairwise_mergeSort ?_ ?_ _).imp fun h => by simpa using h
    · intro a b c hab hbc
      simp only [Bool.not_eq_true', ← Bool.not_eq_true] at hab hbc ⊢
      intro hca
      by_cases heq : a = b
      · exact hbc (heq ▸ hca)
      · exact hbc (goesBefore_trans hca (goesBefore_of_ne heq hab))
    · intro a b
      by_cases h : goesBefore b a = true
      · simpa using Or.inr (goesBefore_asymm h)
      · simpa using Or.inl h
  have hpairs := pairwise_of_isChain_ne (hsort.sublist (List.destutter_sublist (· ≠ ·) _))
    (List.isChain_destutter (· ≠ ·) _)
  refine (pairwise_propertyOrder names).eq_of_mem_iff hpairs fun p => ?_
  rw [mem_destutter_ne, List.mem_mergeSort, mem_propertyOrder]

example : propertyOrder ["gap", " top", "", "margin-top", "gap ", "margin"]
    = ["margin-top", "margin", "gap", "top"] := by
  decide +kernel

/-! ### The longest name -/

theorem exists_append_of_prefix {p q : String} (h : q.toList <+: p.toList) : ∃ z, p = q ++ z := by
  obtain ⟨z, hz⟩ := h
  refine ⟨String.ofList z, ?_⟩
  rw [← String.toList_inj, String.toList_append, String.toList_ofList, hz]

theorem size_le_of_prefix {p q : String} (h : q.toList <+: p.toList) :
    q.utf8ByteSize ≤ p.utf8ByteSize := by
  obtain ⟨z, rfl⟩ := exists_append_of_prefix h
  rw [String.utf8ByteSize_append]
  exact Nat.le_add_right _ _

theorem eq_of_prefix_of_size_le {p q : String} (h : q.toList <+: p.toList)
    (hsize : p.utf8ByteSize ≤ q.utf8ByteSize) : q = p := by
  obtain ⟨z, rfl⟩ := exists_append_of_prefix h
  rw [String.utf8ByteSize_append] at hsize
  have hzero : z.utf8ByteSize = 0 := by omega
  rw [String.utf8ByteSize_eq_zero_iff.1 hzero, String.append_empty]

/-- A name that is read stands at the start of the text. -/
theorem isPrefix_of_propertyValue? {q s : List Char} (h : (propertyValue? q s).isSome) :
    q <+: s := by
  obtain ⟨⟨v, r⟩, h⟩ := Option.isSome_iff_exists.1 h
  obtain ⟨w₁, w₂, -, -, -, hs⟩ := propertyValue?_eq_some h
  exact ⟨_, hs.symm⟩

/-- Two names of one length that are both read at a place are the same. -/
theorem eq_of_read_of_size_eq {p q : String} {s : List Char}
    (hp : (propertyValue? p.toList s).isSome) (hq : (propertyValue? q.toList s).isSome)
    (hsize : p.utf8ByteSize = q.utf8ByteSize) : p = q := by
  rcases List.prefix_or_prefix_of_prefix (isPrefix_of_propertyValue? hp)
    (isPrefix_of_propertyValue? hq) with h | h
  · exact eq_of_prefix_of_size_le h hsize.ge
  · exact (eq_of_prefix_of_size_le h hsize.le).symm

theorem declaration?_append_of_lead (ps : List (List Char)) {lead s : List Char} (hne : lead ≠ [])
    (hlead : ∀ c ∈ lead, isBlank c = true) (hs : ∀ c ∈ s.head?, isBlank c = false) :
    declaration? ps (lead ++ s)
      = ps.findSome? fun q => (propertyValue? q s).map fun x => (⟨lead, q, x.1⟩, x.2) := by
  obtain ⟨htake, hdrop⟩ := takeWhile_append_of_head? hlead hs
  rw [declaration?, htake, hdrop]
  split
  · exact absurd rfl hne
  · refine findSome?_congr fun q _ => ?_
    cases propertyValue? q s <;> rfl

/-- **Of the listed names that can be read at a place, the longest is read.** -/
theorem declaration?_propertyOrder_iff {names : List String} {lead s : List Char} (hne : lead ≠ [])
    (hlead : ∀ c ∈ lead, isBlank c = true) (hs : ∀ c ∈ s.head?, isBlank c = false) {p : String}
    {v r : List Char} :
    declaration? ((propertyOrder names).map String.toList) (lead ++ s)
        = some (⟨lead, p.toList, v⟩, r) ↔
      p ∈ listedNames names ∧ propertyValue? p.toList s = some (v, r) ∧
        ∀ q ∈ listedNames names, (propertyValue? q.toList s).isSome →
          q.utf8ByteSize ≤ p.utf8ByteSize := by
  have hpairs := pairwise_propertyOrder names
  simp only [← mem_propertyOrder]
  rw [declaration?_append_of_lead _ hne hlead hs, List.findSome?_map, List.findSome?_eq_some_iff]
  constructor
  · rintro ⟨l₁, p', l₂, horder, hfound, hnone⟩
    obtain ⟨⟨v', r'⟩, hread, heq⟩ := Option.map_eq_some_iff.1 hfound
    obtain ⟨hd, rfl⟩ := Prod.mk.inj heq
    obtain ⟨-, hname, rfl⟩ := Declaration.mk.inj hd
    obtain rfl := String.toList_inj.1 hname
    rw [horder] at hpairs ⊢
    refine ⟨List.mem_append_right _ List.mem_cons_self, hread, fun q hq hsome => ?_⟩
    rcases List.mem_append.1 hq with hq | hq
    · -- what is tried before is not read
      have hqnone := Option.map_eq_none_iff.1 (hnone q hq)
      rw [hqnone] at hsome
      cases hsome
    · rcases List.mem_cons.1 hq with rfl | hq
      · exact Nat.le_refl _
      · have hbehind := (List.pairwise_cons.1 (List.pairwise_append.1 hpairs).2.1).1 q hq
        exact size_le_of_goesBefore hbehind
  · rintro ⟨hp, hread, hlongest⟩
    obtain ⟨l₁, l₂, horder⟩ := List.append_of_mem hp
    refine ⟨l₁, p, l₂, horder, by rw [Function.comp_apply, hread]; rfl, fun q hq => ?_⟩
    rw [Function.comp_apply, Option.map_eq_none_iff]
    by_contra hsome
    rw [← ne_eq, Option.ne_none_iff_isSome] at hsome
    rw [horder] at hpairs
    have hbefore := (List.pairwise_append.1 hpairs).2.2 q hq p List.mem_cons_self
    have hsize : q.utf8ByteSize ≤ p.utf8ByteSize :=
      hlongest q (horder ▸ List.mem_append_left _ hq) hsome
    have hsame : q = p := eq_of_read_of_size_eq hsome (by rw [hread]; rfl)
      (Nat.le_antisymm hsize (size_le_of_goesBefore hbefore))
    exact goesBefore_irrefl p (hsame ▸ hbefore)

/-- In another order a shorter name would be read. -/
example :
    (declaration? ((propertyOrder ["a", "a:b"]).map String.toList) " a:b: 7;".toList).map
        (fun x => x.1.property) = some "a:b".toList ∧
      (declaration? (["a", "a:b"].map String.toList) " a:b: 7;".toList).map
        (fun x => x.1.property) = some "a".toList := by
  decide +kernel

end Stylesheet
end SceneMarkup
