import SceneMarkup.Json.Value

/-!
# Sorted objects

A reader of JSON sorts the members of an object by key.  A record with optional fields is written as
an object that has members for some of its fields only.  Which of them there are does not matter for
the order: the members that are there are sorted as if all of them were there.

## Main definitions

* `Json.sorted` — a value with the members of its objects sorted.
* `present` — the members of the fields that are there.
* `sortedEntries` — the fields sorted by key, whether they are there or not.

## Main results

* **`sortedMembers_present`** — to sort the members that are there is to sort all fields.
-/

namespace SceneMarkup
namespace Json

/-! ### Sorted values -/

mutual

/-- A value with the members of its objects sorted by key. -/
def sorted : Json → Json
  | .array vs => .array (sortedItems vs)
  | .object ms => .object (sortedMembers [] ms)
  | .null => .null
  | .bool b => .bool b
  | .number n => .number n
  | .string s => .string s

/-- Values with the members of their objects sorted by key. -/
def sortedItems : List Json → List Json
  | [] => []
  | v :: vs => sorted v :: sortedItems vs

/-- The members `seen`, and behind them some others, sorted by key. -/
def sortedMembers (seen : List (String × Json)) : List (String × Json) → List (String × Json)
  | [] => seen
  | (k, v) :: ms => sortedMembers (insertMember k (sorted v) seen) ms

end

/-! ### Fields that may be missing -/

/-- The members of the fields that are there. -/
def present : List (String × Option Json) → List (String × Json)
  | [] => []
  | (_, none) :: es => present es
  | (k, some v) :: es => (k, v) :: present es

@[simp] theorem present_nil : present [] = [] := rfl

@[simp] theorem present_none (k : String) (es : List (String × Option Json)) :
    present ((k, none) :: es) = present es := rfl

@[simp] theorem present_some (k : String) (v : Json) (es : List (String × Option Json)) :
    present ((k, some v) :: es) = (k, v) :: present es := rfl

theorem mem_keys_of_mem_present {es : List (String × Option Json)} {m : String × Json}
    (h : m ∈ present es) : m.1 ∈ es.map Prod.fst := by
  induction es with
  | nil => cases h
  | cons e es ih =>
    obtain ⟨k, o⟩ := e
    cases o with
    | none => exact List.mem_cons_of_mem k (ih h)
    | some v =>
      rcases List.mem_cons.1 h with rfl | h
      · exact List.mem_cons_self
      · exact List.mem_cons_of_mem k (ih h)

/-- Fields sorted by key, with one more of them. -/
def insertEntry (key : String) (o : Option Json) :
    List (String × Option Json) → List (String × Option Json)
  | [] => [(key, o)]
  | (k, o') :: es =>
    if key < k then (key, o) :: (k, o') :: es else (k, o') :: insertEntry key o es

/-- The fields `seen`, and behind them some others, sorted by key. -/
def sortedEntries (seen : List (String × Option Json)) :
    List (String × Option Json) → List (String × Option Json)
  | [] => seen
  | (k, o) :: es => sortedEntries (insertEntry k (o.map sorted) seen) es

/-- The keys of some fields grow. -/
def SortedKeys (es : List (String × Option Json)) : Prop :=
  (es.map Prod.fst).Pairwise (· < ·)

theorem insertMember_of_lt {key : String} (value : Json) {ms : List (String × Json)}
    (h : ∀ m ∈ ms, key < m.1) : insertMember key value ms = (key, value) :: ms := by
  cases ms with
  | nil => rfl
  | cons m ms =>
    obtain ⟨k, v⟩ := m
    rw [insertMember, if_pos (h (k, v) List.mem_cons_self)]

theorem present_insertEntry_none (key : String) (es : List (String × Option Json)) :
    present (insertEntry key none es) = present es := by
  induction es with
  | nil => rfl
  | cons e es ih =>
    obtain ⟨k, o⟩ := e
    rw [insertEntry]
    by_cases hlt : key < k
    · rw [if_pos hlt, present_none]
    · rw [if_neg hlt]
      cases o with
      | none => rw [present_none, present_none, ih]
      | some v => rw [present_some, present_some, ih]

/-- To insert a member is to insert the field that it is of. -/
theorem present_insertEntry_some {key : String} (value : Json) {es : List (String × Option Json)}
    (hs : SortedKeys es) (hkey : key ∉ es.map Prod.fst) :
    present (insertEntry key (some value) es) = insertMember key value (present es) := by
  induction es with
  | nil => rfl
  | cons e es ih =>
    obtain ⟨k, o⟩ := e
    obtain ⟨hk, hs'⟩ := List.pairwise_cons.1 hs
    have hne : key ≠ k := fun h => hkey (h ▸ List.mem_cons_self)
    have ih := ih hs' (fun h => hkey (List.mem_cons_of_mem k h))
    rw [insertEntry]
    by_cases hlt : key < k
    · rw [if_pos hlt, present_some]
      have hall : ∀ m ∈ present ((k, o) :: es), key < m.1 := by
        intro m hm
        rcases List.mem_cons.1 (mem_keys_of_mem_present hm) with h | h
        · exact h ▸ hlt
        · exact String.lt_trans hlt (hk _ h)
      rw [insertMember_of_lt value hall]
    · rw [if_neg hlt]
      cases o with
      | none => rw [present_none, present_none, ih]
      | some v => rw [present_some, present_some, insertMember, if_neg hlt, if_neg hne, ih]

theorem mem_keys_insertEntry {key k : String} {o : Option Json} {es : List (String × Option Json)} :
    k ∈ (insertEntry key o es).map Prod.fst ↔ k = key ∨ k ∈ es.map Prod.fst := by
  induction es with
  | nil => simp [insertEntry]
  | cons e es ih =>
    obtain ⟨k', o'⟩ := e
    rw [insertEntry]
    by_cases hlt : key < k'
    · rw [if_pos hlt, List.map_cons, List.mem_cons]
    · rw [if_neg hlt, List.map_cons, List.mem_cons, ih, List.map_cons, List.mem_cons]
      exact or_left_comm

theorem sortedKeys_insertEntry {key : String} (o : Option Json) {es : List (String × Option Json)}
    (hs : SortedKeys es) (hkey : key ∉ es.map Prod.fst) : SortedKeys (insertEntry key o es) := by
  induction es with
  | nil => exact List.pairwise_singleton _ _
  | cons e es ih =>
    obtain ⟨k, o'⟩ := e
    obtain ⟨hk, hs'⟩ := List.pairwise_cons.1 hs
    have hne : key ≠ k := fun h => hkey (h ▸ List.mem_cons_self)
    rw [insertEntry]
    by_cases hlt : key < k
    · rw [if_pos hlt]
      refine List.pairwise_cons.2 ⟨?_, hs⟩
      intro k' hk'
      rcases List.mem_cons.1 hk' with rfl | hk'
      · exact hlt
      · exact String.lt_trans hlt (hk k' hk')
    · rw [if_neg hlt]
      refine List.pairwise_cons.2 ⟨?_, ih hs' (fun h => hkey (List.mem_cons_of_mem k h))⟩
      intro k' hk'
      rcases mem_keys_insertEntry.1 hk' with rfl | hk'
      · exact String.not_le.1 fun hle => hne (String.le_antisymm hle (String.not_lt.1 hlt))
      · exact hk k' hk'

/-- **Sorting the members that are there.**

The members that are there are sorted as all fields are, for fields with different keys. -/
theorem sortedMembers_present (es : List (String × Option Json))
    {seen : List (String × Option Json)} (hs : SortedKeys seen)
    (hnew : ∀ k ∈ es.map Prod.fst, k ∉ seen.map Prod.fst) (hes : (es.map Prod.fst).Nodup) :
    sortedMembers (present seen) (present es) = present (sortedEntries seen es) := by
  induction es generalizing seen with
  | nil =>
    rw [sortedEntries, present_nil, sortedMembers]
  | cons e es ih =>
    obtain ⟨k, o⟩ := e
    obtain ⟨hk, hes'⟩ := List.nodup_cons.1 hes
    have hkseen : k ∉ seen.map Prod.fst := hnew k List.mem_cons_self
    have ih := ih (sortedKeys_insertEntry (o.map sorted) hs hkseen) (fun k' hk' h => by
      rcases mem_keys_insertEntry.1 h with rfl | h
      · exact hk hk'
      · exact hnew k' (List.mem_cons_of_mem k hk') h) hes'
    rw [sortedEntries, ← ih]
    cases o with
    | none => rw [Option.map_none, present_insertEntry_none, present_none]
    | some v =>
      rw [Option.map_some, present_insertEntry_some v.sorted hs hkseen, present_some,
        sortedMembers]

end Json
end SceneMarkup
