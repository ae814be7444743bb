import SceneMarkup.Json.Reader

/-!
# Properties of the values that are read

The reader builds a value of simple values, an array item by item from the right and an object
member by member.  A property that these steps keep holds of every value that is read.  So what is
proved about the reader step by step need not follow its recursion again.

## Main definitions

* `ReadClosed` — properties that the steps of the reader keep.

## Main results

* `ReadClosed.of_read` — **such a property holds of the value of every text.**
-/

namespace SceneMarkup
namespace Json

/-- A property of values that the steps of the reader keep. -/
structure ReadClosed (P : Json → Prop) : Prop where
  /-- The simple values that are read have it. -/
  simple : ∀ {fuel : Nat} {c c' : Cursor} {v : Json}, readSimple fuel c = .ok (v, c') → P v
  /-- An array without items has it. -/
  nil : P (.array [])
  /-- An array has it with one more item in front. -/
  cons : ∀ {v : Json} {vs : List Json}, P v → P (.array vs) → P (.array (v :: vs))
  /-- An object without members has it. -/
  empty : P (.object [])
  /-- An object has it with one more member. -/
  insert : ∀ {k : String} {v : Json} {ms : List (String × Json)}, P v → P (.object ms) →
    P (.object (insertMember k v ms))

namespace ReadClosed

variable {P : Json → Prop}

mutual

theorem of_readValue (h : ReadClosed P) : ∀ (fuel : Nat) (c c' : Cursor) (v : Json),
    readValue fuel c = .ok (v, c') → P v
  | 0, c, c', v, hread => by cases hread
  | fuel + 1, c, c', v, hread => by
    rw [readValue] at hread
    split at hread
    next =>
      split at hread
      next items c₁ hitems =>
        cases hread
        exact of_readItems h fuel _ _ _ _ hitems
      next => cases hread
    next =>
      split at hread
      next members c₁ hmembers =>
        cases hread
        exact of_readMembers h fuel _ _ _ _ _ h.empty hmembers
      next => cases hread
    next => exact h.simple hread

theorem of_readItems (h : ReadClosed P) : ∀ (fuel : Nat) (first : Bool) (c c' : Cursor)
    (vs : List Json), readItems fuel first c = .ok (vs, c') → P (.array vs)
  | 0, first, c, c', vs, hread => by cases hread
  | fuel + 1, first, c, c', vs, hread => by
    rw [readItems] at hread
    split at hread
    next => cases hread
    next =>
      cases hread
      exact h.nil
    next c₁ hnext =>
      split at hread
      next => cases hread
      next v c₂ hv =>
        split at hread
        next => cases hread
        next vs' c₃ hvs =>
          cases hread
          exact h.cons (of_readValue h fuel _ _ _ hv) (of_readItems h fuel _ _ _ _ hvs)

/-- The members that were read before are among those that come out. -/
theorem of_readMembers (h : ReadClosed P) : ∀ (fuel : Nat) (first : Bool)
    (seen : List (String × Json)) (c c' : Cursor) (ms : List (String × Json)), P (.object seen) →
    readMembers fuel first seen c = .ok (ms, c') → P (.object ms)
  | 0, first, seen, c, c', ms, hseen, hread => by cases hread
  | fuel + 1, first, seen, c, c', ms, hseen, hread => by
    rw [readMembers] at hread
    split at hread
    next => cases hread
    next =>
      cases hread
      exact hseen
    next c₁ hnext =>
      split at hread
      next => cases hread
      next key c₂ hkey =>
        split at hread
        next => cases hread
        next c₃ hcolon =>
          split at hread
          next => cases hread
          next v c₄ hv =>
            exact of_readMembers h fuel _ _ _ _ _
              (h.insert (of_readValue h fuel _ _ _ hv) hseen) hread

end

/-- **A property that the steps of the reader keep holds of the value of every text.** -/
theorem of_read (h : ReadClosed P) {text : List Char} {v : Json} (hread : read text = .ok v) :
    P v := by
  unfold read at hread
  split at hread
  next => cases hread
  next w c hw =>
    split at hread
    next => cases hread
    next =>
      cases hread
      exact of_readValue h _ _ _ _ hw

end ReadClosed

end Json
end SceneMarkup
