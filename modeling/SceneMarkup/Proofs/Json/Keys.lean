import Mathlib.Data.List.Basic
import SceneMarkup.Proofs.Json.Reading

/-!
# Objects that are read have every key once

The reader puts each member of an object into its place among those that it has read, and lets it
take the place of one with the same key.  So in every object of a value that it reads the keys grow,
and none comes twice.

## Main definitions

* `IsOrdered` — values in which the keys of every object grow.

## Main results

* `isOrdered_of_read` — **the value of a text is ordered.**
* `nodup_keys` — the keys of an ordered object are distinct.
* `exists_cut_of_lookup?` — what is found under a key is the value of the first member with it.
-/

namespace SceneMarkup
namespace Json

mutual

/-- A value in which the keys of every object grow. -/
def IsOrdered : Json → Prop
  | .null | .bool _ | .number _ | .string _ => True
  | .array vs => AllOrdered vs
  | .object ms => (ms.map Prod.fst).Pairwise (· < ·) ∧ OrderedMembers ms

/-- Values in which the keys of every object grow. -/
def AllOrdered : List Json → Prop
  | [] => True
  | v :: vs => IsOrdered v ∧ AllOrdered vs

/-- Members whose values are such. -/
def OrderedMembers : List (String × Json) → Prop
  | [] => True
  | (_, v) :: ms => IsOrdered v ∧ OrderedMembers ms

end

theorem allOrdered_iff {vs : List Json} : AllOrdered vs ↔ ∀ v ∈ vs, IsOrdered v := by
  induction vs with
  | nil => simp [AllOrdered]
  | cons v vs ih => rw [AllOrdered, ih, List.forall_mem_cons]

theorem orderedMembers_iff {ms : List (String × Json)} :
    OrderedMembers ms ↔ ∀ m ∈ ms, IsOrdered m.2 := by
  induction ms with
  | nil => simp [OrderedMembers]
  | cons m ms ih => rw [OrderedMembers, ih, List.forall_mem_cons]

/-- The keys of an ordered object are distinct. -/
theorem nodup_keys {ms : List (String × Json)} (h : IsOrdered (.object ms)) :
    (ms.map Prod.fst).Nodup := by
  rw [IsOrdered] at h
  exact h.1.imp fun hlt => String.ne_of_lt hlt

/-! ### Lookups -/

/-- What is found under a key is the value of the first member with that key. -/
theorem exists_cut_of_lookup? {key : String} {ms : List (String × Json)} {w : Json}
    (h : lookup? key ms = some w) :
    ∃ front back, ms = front ++ (key, w) :: back ∧ key ∉ front.map Prod.fst := by
  induction ms with
  | nil => cases h
  | cons m ms ih =>
    obtain ⟨k, v⟩ := m
    rw [lookup?] at h
    split at h
    · next hk =>
      cases h
      exact ⟨[], ms, by rw [hk]; rfl, by simp⟩
    · next hk =>
      obtain ⟨front, back, rfl, hfront⟩ := ih h
      refine ⟨(k, v) :: front, back, rfl, ?_⟩
      rw [List.map_cons, List.mem_cons, not_or]
      exact ⟨Ne.symm hk, hfront⟩

theorem lookup?_append_of_not_mem {key : String} {front : List (String × Json)}
    (h : key ∉ front.map Prod.fst) (ms : List (String × Json)) :
    lookup? key (front ++ ms) = lookup? key ms := by
  induction front with
  | nil => rfl
  | cons m front ih =>
    obtain ⟨k, v⟩ := m
    rw [List.map_cons, List.mem_cons, not_or] at h
    rw [List.cons_append, lookup?, if_neg (Ne.symm h.1), ih h.2]

theorem lookup?_eq_none_of_not_mem {key : String} {ms : List (String × Json)}
    (h : key ∉ ms.map Prod.fst) : lookup? key ms = none := by
  rw [← List.append_nil ms, lookup?_append_of_not_mem h]
  rfl

theorem mem_of_lookup?_eq_some {key : String} {ms : List (String × Json)} {w : Json}
    (h : lookup? key ms = some w) : (key, w) ∈ ms := by
  obtain ⟨front, back, rfl, -⟩ := exists_cut_of_lookup? h
  simp

theorem sizeOf_lookup? {key : String} {ms : List (String × Json)} {w : Json}
    (h : lookup? key ms = some w) : sizeOf w < sizeOf ms := by
  have hlt := List.sizeOf_lt_of_mem (mem_of_lookup?_eq_some h)
  rw [Prod.mk.sizeOf_spec] at hlt
  omega

/-! ### One more member -/

theorem mem_insertMember {key : String} {value : Json} {ms : List (String × Json)}
    {m : String × Json} (h : m ∈ insertMember key value ms) : m = (key, value) ∨ m ∈ ms := by
  induction ms with
  | nil => exact Or.inl (List.mem_singleton.1 h)
  | cons m' ms ih =>
    obtain ⟨k, v⟩ := m'
    rw [insertMember] at h
    split_ifs at h
    · exact (List.mem_cons.1 h)
    · exact (List.mem_cons.1 h).imp_right (List.mem_cons_of_mem _)
    · rcases List.mem_cons.1 h with rfl | h
      · exact Or.inr List.mem_cons_self
      · exact (ih h).imp_right (List.mem_cons_of_mem _)

/-- One more member leaves the keys growing. -/
theorem pairwise_insertMember {key : String} (value : Json) {ms : List (String × Json)}
    (h : (ms.map Prod.fst).Pairwise (· < ·)) :
    ((insertMember key value ms).map Prod.fst).Pairwise (· < ·) := by
  induction ms with
  | nil => exact List.pairwise_singleton _ _
  | cons m ms ih =>
    obtain ⟨k, v⟩ := m
    obtain ⟨hk, hms⟩ := List.pairwise_cons.1 h
    rw [insertMember]
    split_ifs with hlt heq
    · refine List.pairwise_cons.2 ⟨fun k' hk' => ?_, h⟩
      rcases List.mem_cons.1 hk' with rfl | hk'
      · exact hlt
      · exact String.lt_trans hlt (hk k' hk')
    · subst heq
      exact h
    · refine List.pairwise_cons.2 ⟨fun k' hk' => ?_, ih hms⟩
      obtain ⟨m', hm', rfl⟩ := List.mem_map.1 hk'
      rcases mem_insertMember hm' with rfl | hm'
      · exact String.not_le.1 fun hle => heq (String.le_antisymm hle (String.not_lt.1 hlt))
      · exact hk _ (List.mem_map_of_mem hm')

/-- One more ordered member leaves an object ordered. -/
theorem isOrdered_insertMember {key : String} {value : Json} {ms : List (String × Json)}
    (hv : IsOrdered value) (h : IsOrdered (.object ms)) :
    IsOrdered (.object (insertMember key value ms)) := by
  rw [IsOrdered, orderedMembers_iff] at h ⊢
  refine ⟨pairwise_insertMember value h.1, fun m hm => ?_⟩
  rcases mem_insertMember hm with rfl | hm
  · exact hv
  · exact h.2 m hm

/-! ### Reading -/

theorem isOrdered_of_readSimple {fuel : Nat} {c c' : Cursor} {v : Json}
    (h : readSimple fuel c = .ok (v, c')) : IsOrdered v := by
  unfold readSimple at h
  split at h
  next => cases h
  next =>
    split_ifs at h
    all_goals
      split at h
      · cases h
        rw [IsOrdered]
        trivial
      · cases h

/-- Orderedness is kept by every step of the reader. -/
theorem readClosed_isOrdered : ReadClosed IsOrdered where
  simple := isOrdered_of_readSimple
  nil := by
    rw [IsOrdered, AllOrdered]
    trivial
  cons hv hvs := by
    rw [IsOrdered] at hvs
    rw [IsOrdered, AllOrdered]
    exact ⟨hv, hvs⟩
  empty := by
    rw [IsOrdered, OrderedMembers]
    exact ⟨List.Pairwise.nil, trivial⟩
  insert := isOrdered_insertMember

/-- **The value of a text is ordered.** -/
theorem isOrdered_of_read {text : List Char} {v : Json} (h : read text = .ok v) :
    IsOrdered v :=
  readClosed_isOrdered.of_read h

end Json
end SceneMarkup
