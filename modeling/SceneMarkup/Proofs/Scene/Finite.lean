import SceneMarkup.Proofs.Json.Finite
import SceneMarkup.Proofs.Scene.Canonical

/-!
# Records that are decoded hold finite numbers

The numbers of a record are those of the value that it is decoded from, and some fixed ones that
stand for missing fields.  So a record is finite when its value is, and so is its node.

## Main definitions

* `NodeFields.numbers`, `NodeRecord.numbers` — the numbers of a record.

## Main results

* `decodeRecord_invariant` — what the fields of a record preserve holds of the record.
* **`NodeRecord.areFinite_of_decode`** — a record with finite numbers.
* `NodeRecord.areFinite_toNode` — a node with finite numbers.
-/

namespace SceneMarkup

open Json

/-- Numbers that are all finite. -/
def AreFinite (xs : List Float) : Prop := ∀ x ∈ xs, x.isFinite = true

theorem areFinite_nil : AreFinite [] := by
  intro x hx
  cases hx

theorem areFinite_cons {x : Float} {xs : List Float} :
    AreFinite (x :: xs) ↔ x.isFinite = true ∧ AreFinite xs := List.forall_mem_cons

theorem areFinite_append {xs ys : List Float} :
    AreFinite (xs ++ ys) ↔ AreFinite xs ∧ AreFinite ys := List.forall_mem_append

/-! ### Decoders -/

theorem exists_of_map_eq_ok {ε α β : Type} {e : Except ε α} {f : α → β} {b : β}
    (h : e.map f = .ok b) : ∃ a, e = .ok a ∧ f a = b := by
  cases e with
  | error e => cases h
  | ok a => exact ⟨a, rfl, Except.ok.inj h⟩

theorem isFinite_of_decodeFloat {v : Json} {x : Float} (hv : AllFinite v)
    (h : decodeFloat v = .ok x) : x.isFinite = true := by
  cases v with
  | number n =>
    cases h
    exact hv n (List.mem_singleton.2 rfl)
  | _ => cases h

/-- Numbers that are decoded from a value that may be `null`. -/
theorem areFinite_of_decodeOption {α : Type} {d : Decoder α} {numbers : α → List Float}
    (hd : ∀ {v a}, AllFinite v → d v = .ok a → AreFinite (numbers a)) {v : Json} {o : Option α}
    (hv : AllFinite v) (h : decodeOption d v = .ok o) : AreFinite (o.elim [] numbers) := by
  unfold decodeOption at h
  split at h
  next =>
    cases h
    exact areFinite_nil
  next =>
    split at h
    next a ha =>
      cases h
      exact hd hv ha
    next => cases h

theorem areFinite_of_decodeOption_float {v : Json} {o : Option Float} (hv : AllFinite v)
    (h : decodeOption decodeFloat v = .ok o) : AreFinite o.toList := by
  have helim : o.toList = o.elim [] fun x => [x] := by
    cases o <;> rfl
  rw [helim]
  exact areFinite_of_decodeOption
    (fun hv h => areFinite_cons.2 ⟨isFinite_of_decodeFloat hv h, areFinite_nil⟩) hv h

theorem decodeMembers_invariant {α : Type} {I : α → Prop} {step : FieldStep α}
    (hstep : ∀ {a k v a'}, I a → AllFinite v → step a k v = .ok a' → I a')
    {ms : List (String × Json)} {a a' : α} (ha : I a) (hms : AllFiniteMembers ms)
    (h : Json.decodeMembers step a ms = .ok a') : I a' := by
  induction ms generalizing a with
  | nil =>
    cases h
    exact ha
  | cons m ms ih =>
    obtain ⟨k, v⟩ := m
    obtain ⟨hv, hms'⟩ := allFiniteMembers_cons.1 hms
    unfold Json.decodeMembers at h
    split at h
    next b hb => exact ih (hstep ha hv hb) hms' h
    next => cases h

theorem allFinite_array_cons {v : Json} {vs : List Json} :
    AllFinite (.array (v :: vs)) ↔ AllFinite v ∧ AllFinite (.array vs) := List.forall_mem_append

theorem decodeFields_invariant {α : Type} {I : α → Prop} {step : FieldStep α}
    (hstep : ∀ {a k v a'}, I a → AllFinite v → step a k v = .ok a' → I a')
    {ks : List String} {vs : List Json} {a a' : α} (ha : I a) (hvs : AllFinite (.array vs))
    (h : Json.decodeFields step a ks vs = .ok a') : I a' := by
  induction ks generalizing a vs with
  | nil =>
    cases h
    exact ha
  | cons k ks ih =>
    cases vs with
    | nil =>
      cases h
      exact ha
    | cons v vs =>
      obtain ⟨hv, hvs'⟩ := allFinite_array_cons.1 hvs
      unfold Json.decodeFields at h
      split at h
      next b hb => exact ih (hstep ha hv hb) hvs' h
      next => cases h

/-- **Invariants of records.**

What holds of the empty record and is preserved by each field holds of the record. -/
theorem decodeRecord_invariant {α : Type} {I : α → Prop} {shape : Shape} {step : FieldStep α}
    {empty : α} (hempty : I empty)
    (hstep : ∀ {a k v a'}, I a → AllFinite v → step a k v = .ok a' → I a')
    {v : Json} {a : α} (hv : AllFinite v) (h : decodeRecord shape step empty v = .ok a) : I a := by
  unfold decodeRecord at h
  split at h
  next =>
    split at h
    next => cases h
    next b hb =>
      split at h
      next => cases h
      next =>
        cases h
        exact decodeMembers_invariant hstep hempty hv hb
  next =>
    split at h
    next => cases h
    next b hb =>
      split at h
      next => cases h
      next =>
        cases h
        exact decodeFields_invariant hstep hempty hv hb
  next => cases h

/-! ### Geometry and colour -/

theorem Position.areFinite_numbers {p : Position} :
    AreFinite p.numbers ↔ p.x.isFinite = true ∧ p.y.isFinite = true := by
  rw [Position.numbers, areFinite_cons, areFinite_cons]
  exact and_congr_right fun _ => and_iff_left areFinite_nil

theorem Size.areFinite_numbers {s : Size} :
    AreFinite s.numbers ↔ s.width.isFinite = true ∧ s.height.isFinite = true := by
  rw [Size.numbers, areFinite_cons, areFinite_cons]
  exact and_congr_right fun _ => and_iff_left areFinite_nil

theorem Rgba.areFinite_numbers {c : Rgba} :
    AreFinite c.numbers ↔
      c.r.isFinite = true ∧ c.g.isFinite = true ∧ c.b.isFinite = true ∧ c.a.isFinite = true := by
  rw [Rgba.numbers, areFinite_cons, areFinite_cons, areFinite_cons, areFinite_cons]
  exact and_congr_right fun _ => and_congr_right fun _ => and_congr_right fun _ =>
    and_iff_left areFinite_nil

theorem Position.areFinite_of_decode {v : Json} {p : Position} (hv : AllFinite v)
    (h : Position.decode v = .ok p) : AreFinite p.numbers := by
  refine decodeRecord_invariant (I := fun p => AreFinite p.numbers) ?_ ?_ hv h
  · exact Position.areFinite_numbers.2 ⟨by decide +kernel, by decide +kernel⟩
  · intro p k v p' hp hv h
    obtain ⟨hx, hy⟩ := Position.areFinite_numbers.1 hp
    unfold Position.withField at h
    split at h
    next =>
      obtain ⟨x, hd, rfl⟩ := exists_of_map_eq_ok h
      exact Position.areFinite_numbers.2 ⟨isFinite_of_decodeFloat hv hd, hy⟩
    next =>
      split at h
      next =>
        obtain ⟨y, hd, rfl⟩ := exists_of_map_eq_ok h
        exact Position.areFinite_numbers.2 ⟨hx, isFinite_of_decodeFloat hv hd⟩
      next =>
        cases h
        exact hp

theorem Size.areFinite_of_decode {v : Json} {s : Size} (hv : AllFinite v)
    (h : Size.decode v = .ok s) : AreFinite s.numbers := by
  refine decodeRecord_invariant (I := fun s => AreFinite s.numbers) ?_ ?_ hv h
  · exact Size.areFinite_numbers.2 ⟨by decide +kernel, by decide +kernel⟩
  · intro s k v s' hs hv h
    obtain ⟨hw, hh⟩ := Size.areFinite_numbers.1 hs
    unfold Size.withField at h
    split at h
    next =>
      obtain ⟨x, hd, rfl⟩ := exists_of_map_eq_ok h
      exact Size.areFinite_numbers.2 ⟨isFinite_of_decodeFloat hv hd, hh⟩
    next =>
      split at h
      next =>
        obtain ⟨y, hd, rfl⟩ := exists_of_map_eq_ok h
        exact Size.areFinite_numbers.2 ⟨hw, isFinite_of_decodeFloat hv hd⟩
      next =>
        cases h
        exact hs

theorem Rgba.areFinite_of_decode {v : Json} {c : Rgba} (hv : AllFinite v)
    (h : Rgba.decode v = .ok c) : AreFinite c.numbers := by
  refine decodeRecord_invariant (I := fun c => AreFinite c.numbers) ?_ ?_ hv h
  · exact Rgba.areFinite_numbers.2
      ⟨by decide +kernel, by decide +kernel, by decide +kernel, by decide +kernel⟩
  · intro c k v c' hc hv h
    obtain ⟨hr, hg, hb, ha⟩ := Rgba.areFinite_numbers.1 hc
    unfold Rgba.withField at h
    split_ifs at h
    · obtain ⟨x, hd, rfl⟩ := exists_of_map_eq_ok h
      exact Rgba.areFinite_numbers.2 ⟨isFinite_of_decodeFloat hv hd, hg, hb, ha⟩
    · obtain ⟨x, hd, rfl⟩ := exists_of_map_eq_ok h
      exact Rgba.areFinite_numbers.2 ⟨hr, isFinite_of_decodeFloat hv hd, hb, ha⟩
    · obtain ⟨x, hd, rfl⟩ := exists_of_map_eq_ok h
      exact Rgba.areFinite_numbers.2 ⟨hr, hg, isFinite_of_decodeFloat hv hd, ha⟩
    · obtain ⟨x, hd, rfl⟩ := exists_of_map_eq_ok h
      exact Rgba.areFinite_numbers.2 ⟨hr, hg, hb, isFinite_of_decodeFloat hv hd⟩
    · cases h
      exact hc

/-! ### Records of nodes -/

/-- The numbers of the fields of a record. -/
def NodeFields.numbers (f : NodeFields) : List Float :=
  f.position.elim [] Position.numbers ++ (f.size.elim [] Size.numbers ++ (f.fontSize.toList ++
    (f.backgroundColor.elim [] Rgba.numbers ++ (f.borderColor.elim [] Rgba.numbers ++
      (f.borderWidth.toList ++ f.borderRadius.toList)))))

theorem NodeFields.areFinite_numbers {f : NodeFields} :
    AreFinite f.numbers ↔
      AreFinite (f.position.elim [] Position.numbers) ∧
      AreFinite (f.size.elim [] Size.numbers) ∧
      AreFinite f.fontSize.toList ∧
      AreFinite (f.backgroundColor.elim [] Rgba.numbers) ∧
      AreFinite (f.borderColor.elim [] Rgba.numbers) ∧
      AreFinite f.borderWidth.toList ∧
      AreFinite f.borderRadius.toList := by
  rw [NodeFields.numbers, areFinite_append, areFinite_append, areFinite_append, areFinite_append,
    areFinite_append, areFinite_append]

/-- A field brings its own numbers only. -/
theorem NodeFields.areFinite_of_withField {f f' : NodeFields} {k : String} {v : Json}
    (hf : AreFinite f.numbers) (hv : AllFinite v) (h : f.withField k v = .ok f') :
    AreFinite f'.numbers := by
  obtain ⟨hp, hs, hfs, hbg, hbc, hbw, hbr⟩ := NodeFields.areFinite_numbers.1 hf
  unfold NodeFields.withField at h
  split at h
  next => obtain ⟨a, hd, rfl⟩ := exists_of_map_eq_ok h; exact hf
  next => obtain ⟨a, hd, rfl⟩ := exists_of_map_eq_ok h; exact hf
  next => obtain ⟨a, hd, rfl⟩ := exists_of_map_eq_ok h; exact hf
  next => obtain ⟨a, hd, rfl⟩ := exists_of_map_eq_ok h; exact hf
  next => obtain ⟨a, hd, rfl⟩ := exists_of_map_eq_ok h; exact hf
  next =>
    obtain ⟨a, hd, rfl⟩ := exists_of_map_eq_ok h
    have ha := areFinite_of_decodeOption Position.areFinite_of_decode hv hd
    exact NodeFields.areFinite_numbers.2 ⟨ha, hs, hfs, hbg, hbc, hbw, hbr⟩
  next =>
    obtain ⟨a, hd, rfl⟩ := exists_of_map_eq_ok h
    have ha := areFinite_of_decodeOption Size.areFinite_of_decode hv hd
    exact NodeFields.areFinite_numbers.2 ⟨hp, ha, hfs, hbg, hbc, hbw, hbr⟩
  next => obtain ⟨a, hd, rfl⟩ := exists_of_map_eq_ok h; exact hf
  next =>
    obtain ⟨a, hd, rfl⟩ := exists_of_map_eq_ok h
    have ha := areFinite_of_decodeOption_float hv hd
    exact NodeFields.areFinite_numbers.2 ⟨hp, hs, ha, hbg, hbc, hbw, hbr⟩
  next => obtain ⟨a, hd, rfl⟩ := exists_of_map_eq_ok h; exact hf
  next => obtain ⟨a, hd, rfl⟩ := exists_of_map_eq_ok h; exact hf
  next =>
    obtain ⟨a, hd, rfl⟩ := exists_of_map_eq_ok h
    have ha := areFinite_of_decodeOption Rgba.areFinite_of_decode hv hd
    exact NodeFields.areFinite_numbers.2 ⟨hp, hs, hfs, ha, hbc, hbw, hbr⟩
  next =>
    obtain ⟨a, hd, rfl⟩ := exists_of_map_eq_ok h
    have ha := areFinite_of_decodeOption Rgba.areFinite_of_decode hv hd
    exact NodeFields.areFinite_numbers.2 ⟨hp, hs, hfs, hbg, ha, hbw, hbr⟩
  next =>
    obtain ⟨a, hd, rfl⟩ := exists_of_map_eq_ok h
    have ha := areFinite_of_decodeOption_float hv hd
    exact NodeFields.areFinite_numbers.2 ⟨hp, hs, hfs, hbg, hbc, ha, hbr⟩
  next =>
    obtain ⟨a, hd, rfl⟩ := exists_of_map_eq_ok h
    have ha := areFinite_of_decodeOption_float hv hd
    exact NodeFields.areFinite_numbers.2 ⟨hp, hs, hfs, hbg, hbc, hbw, ha⟩
  next =>
    cases h
    exact hf

namespace NodeRecord

mutual

/-- The numbers of a record, those of the records inside it included. -/
def numbers : NodeRecord → List Float
  | .mk f cs => f.numbers ++ numbersAll cs

/-- The numbers of some records. -/
def numbersAll : List NodeRecord → List Float
  | [] => []
  | r :: rs => numbers r ++ numbersAll rs

end

theorem areFinite_numbers {f : NodeFields} {cs : List NodeRecord} :
    AreFinite (numbers (.mk f cs)) ↔ AreFinite f.numbers ∧ AreFinite (numbersAll cs) := by
  rw [numbers, areFinite_append]

theorem areFinite_empty : AreFinite empty.numbers :=
  areFinite_numbers.2 ⟨areFinite_nil, areFinite_nil⟩

theorem areFinite_withField {r r' : NodeRecord} {k : String} {v : Json}
    (hr : AreFinite r.numbers) (hv : AllFinite v) (h : r.withField k v = .ok r') :
    AreFinite r'.numbers := by
  obtain ⟨f, cs⟩ := r
  obtain ⟨hf, hcs⟩ := areFinite_numbers.1 hr
  obtain ⟨f', hfield, rfl⟩ := exists_of_map_eq_ok h
  exact areFinite_numbers.2 ⟨NodeFields.areFinite_of_withField hf hv hfield, hcs⟩

theorem areFinite_withChildren {r : NodeRecord} {cs : List NodeRecord}
    (hr : AreFinite r.numbers) (hcs : AreFinite (numbersAll cs)) :
    AreFinite (r.withChildren cs).numbers := by
  obtain ⟨f, cs'⟩ := r
  exact areFinite_numbers.2 ⟨(areFinite_numbers.1 hr).1, hcs⟩

mutual

/-- A record is finite when the value is that it is decoded from. -/
theorem areFinite_of_decode : ∀ (v : Json) (r : NodeRecord), AllFinite v → decode v = .ok r →
    AreFinite r.numbers
  | .object ms, r, hv, h => by
    rw [decode] at h
    exact areFinite_of_decodeMembers ms empty r areFinite_empty hv h
  | .array vs, r, hv, h => by
    rw [decode] at h
    split at h
    next => cases h
    next r' hr' =>
      split at h
      next => cases h
      next =>
        cases h
        exact areFinite_of_decodeFields vs empty fieldNames r areFinite_empty hv hr'
  | .null, r, hv, h => by cases h
  | .bool b, r, hv, h => by cases h
  | .number n, r, hv, h => by cases h
  | .string s, r, hv, h => by cases h

theorem areFinite_of_decodeMembers : ∀ (ms : List (String × Json)) (r r' : NodeRecord),
    AreFinite r.numbers → AllFiniteMembers ms → decodeMembers r ms = .ok r' →
    AreFinite r'.numbers
  | [], r, r', hr, hms, h => by
    cases h
    exact hr
  | (k, v) :: ms, r, r', hr, hms, h => by
    obtain ⟨hv, hms'⟩ := allFiniteMembers_cons.1 hms
    rw [decodeMembers] at h
    split at h
    next =>
      split at h
      next => cases h
      next cs hcs =>
        have hchildren := areFinite_of_decodeChildren v cs hv hcs
        exact areFinite_of_decodeMembers ms _ r' (areFinite_withChildren hr hchildren) hms' h
    next =>
      split at h
      next => cases h
      next r₁ hr₁ =>
        exact areFinite_of_decodeMembers ms r₁ r' (areFinite_withField hr hv hr₁) hms' h

theorem areFinite_of_decodeFields : ∀ (vs : List Json) (r : NodeRecord) (names : List String)
    (r' : NodeRecord), AreFinite r.numbers → AllFinite (.array vs) →
    decodeFields r names vs = .ok r' → AreFinite r'.numbers
  | [], r, names, r', hr, hvs, h => by
    cases h
    exact hr
  | v :: vs, r, [], r', hr, hvs, h => by
    cases h
    exact hr
  | v :: vs, r, k :: ks, r', hr, hvs, h => by
    obtain ⟨hv, hvs'⟩ := allFinite_array_cons.1 hvs
    rw [decodeFields] at h
    split at h
    next =>
      split at h
      next => cases h
      next cs hcs =>
        have hchildren := areFinite_of_decodeChildren v cs hv hcs
        exact areFinite_of_decodeFields vs _ ks r' (areFinite_withChildren hr hchildren) hvs' h
    next =>
      split at h
      next => cases h
      next r₁ hr₁ =>
        exact areFinite_of_decodeFields vs r₁ ks r' (areFinite_withField hr hv hr₁) hvs' h

theorem areFinite_of_decodeChildren : ∀ (v : Json) (cs : List NodeRecord), AllFinite v →
    decodeChildren v = .ok cs → AreFinite (numbersAll cs)
  | .null, cs, hv, h => by
    cases h
    exact areFinite_nil
  | .array vs, cs, hv, h => by
    rw [decodeChildren] at h
    exact areFinite_of_decodeAll vs cs hv h
  | .bool b, cs, hv, h => by cases h
  | .number n, cs, hv, h => by cases h
  | .string s, cs, hv, h => by cases h
  | .object ms, cs, hv, h => by cases h

theorem areFinite_of_decodeAll : ∀ (vs : List Json) (rs : List NodeRecord),
    AllFinite (.array vs) → decodeAll vs = .ok rs → AreFinite (numbersAll rs)
  | [], rs, hvs, h => by
    cases h
    exact areFinite_nil
  | v :: vs, rs, hvs, h => by
    obtain ⟨hv, hvs'⟩ := allFinite_array_cons.1 hvs
    rw [decodeAll] at h
    split at h
    next => cases h
    next r hr =>
      split at h
      next => cases h
      next rs' hrs' =>
        cases h
        exact areFinite_append.2
          ⟨areFinite_of_decode v r hv hr, areFinite_of_decodeAll vs rs' hvs' hrs'⟩

end

/-! ### Nodes -/

mutual

/-- **The numbers of nodes.**

The node of a record has its numbers from the record. -/
theorem areFinite_toNode : ∀ (r : NodeRecord) (depth : Nat), AreFinite r.numbers →
    AreFinite (r.toNode depth).numbers
  | .mk f cs, depth, hr => by
    obtain ⟨hf, hcs⟩ := areFinite_numbers.1 hr
    obtain ⟨hp, hs, hfs, hbg, hbc, hbw, hbr⟩ := NodeFields.areFinite_numbers.1 hf
    have hinfo : AreFinite (f.info depth).numbers := areFinite_append.2 ⟨hp, hs⟩
    have htypography : AreFinite f.typography.numbers := areFinite_append.2 ⟨hfs, hbg⟩
    have hpaint : AreFinite f.paint.numbers :=
      areFinite_append.2 ⟨areFinite_append.2 ⟨areFinite_append.2 ⟨hbg, hbc⟩, hbw⟩, hbr⟩
    rw [toNode]
    split
    next => exact areFinite_append.2 ⟨hinfo, htypography⟩
    next =>
      split
      next =>
        exact areFinite_append.2
          ⟨areFinite_append.2 ⟨hinfo, hpaint⟩, areFinite_toNodes cs (depth + 1) hcs⟩
      next => exact areFinite_append.2 ⟨hinfo, hpaint⟩

theorem areFinite_toNodes : ∀ (rs : List NodeRecord) (depth : Nat), AreFinite (numbersAll rs) →
    AreFinite (SceneNode.numbersAll (toNodes depth rs))
  | [], _, _ => areFinite_nil
  | r :: rs, depth, hrs => by
    obtain ⟨hr, hrs'⟩ := areFinite_append.1 hrs
    exact areFinite_append.2 ⟨areFinite_toNode r depth hr, areFinite_toNodes rs depth hrs'⟩

end

end NodeRecord
end SceneMarkup
