import SceneMarkup.Proofs.Json.RoundTrip
import SceneMarkup.Proofs.Scene.InputOrder

/-!
# Depths that are stated anew

The depth that a node of a document states is not used, but it is decoded.  So a selection does not
depend on it as long as it is a natural number; otherwise the whole document is refused, unless
something is refused before it.

## Main definitions

* `InputNode.depthAt?` — the depth that the node at a place of a document states.
* `InputNode.editDepth` — a document with another depth at a place, or with none.
* `depthMisfit?` — what is wrong with a stated depth.
* `Reports` — results that depend on something only through what is reported about it.
* `NodeRecord.withoutDepths` — a record with all depths at zero.

## Main results

* `NodeRecord.toNode_withoutDepths` — a node is made of its record without the depths.
* `NodeRecord.decodeMembers_congr` — a depth that was decoded has no effect on what is decoded behind
  it.
* `reports_decode`, `reports_rootsFrom` — what becomes of a tree, and of several trees, when the
  depth of one of their nodes is stated anew.
* `Selection.parse_editDepth` — **what becomes of a selection when a depth is stated anew.**
-/

namespace SceneMarkup

open Json

/-! ### Stating a depth anew -/

namespace InputNode

/-- Members with another value for a key, or with none, where it comes first. -/
def changeFirst (key : String) (g : Json → Option Json) :
    List (String × Json) → List (String × Json)
  | [] => []
  | (k, v) :: ms =>
    if k = key then ((g v).map (k, ·)).toList ++ ms else (k, v) :: changeFirst key g ms

/-- A node with another value in a field, or with none.  An array cannot leave a field out, for the
others would move; there the number 0 takes its place. -/
def changeField (key : String) (g : Json → Option Json) : Json → Json
  | .object ms => .object (changeFirst key g ms)
  | .array vs =>
    .array (vs.modify (NodeRecord.fieldNames.idxOf key) fun v => (g v).getD (.ofNat 0))
  | v => v

/-- A list with another item at a position. -/
def changeItem (k : Nat) (g : Json → Json) : Json → Json
  | .array vs => .array (vs.modify k g)
  | v => v

/-- A node with another depth, or with none, stated by the node at a place inside it. -/
def editNode (e : Option Json) : List Nat → Json → Json
  | [], v => changeField "depth" (fun _ => e) v
  | k :: p, v => changeField "children" (fun w => some (changeItem k (editNode e p) w)) v

/-- A document with another depth, or with none, stated by the node at a place. -/
def editDepth (e : Option Json) : List Nat → Json → Json
  | k :: p, .array vs => .array (vs.modify k (editNode e p))
  | k :: p, .object ms =>
    match lookup? "selection" ms with
    | some _ =>
      .object (changeFirst "selection" (fun w => some (changeItem k (editNode e p) w)) ms)
    | none => editNode e p (.object ms)
  | _, v => v

/-- The depth that is stated by the node at a place inside a node. -/
def statedDepth? : List Nat → Json → Option Json
  | [], v => field? "depth" v
  | k :: p, v => (children v)[k]?.bind (statedDepth? p)

/-- The depth that is stated by the node at a place of a document. -/
def depthAt? : List Nat → Json → Option Json
  | [], _ => none
  | k :: p, v => (roots v)[k]?.bind (statedDepth? p)

end InputNode

/-- What is wrong with a stated depth. -/
def depthMisfit? (w : Json) : Option Misfit :=
  match decodeNat w with
  | .ok _ => none
  | .error m => some m

/-- Nothing is wrong with natural numbers, and with them only. -/
theorem depthMisfit?_eq_none_iff {w : Json} : depthMisfit? w = none ↔ ∃ n, w = .ofNat n := by
  constructor
  · intro h
    unfold depthMisfit? decodeNat at h
    split at h
    · next heq =>
      split at heq
      · next i =>
        split_ifs at heq with hi
        exact ⟨i.toNat, by rw [ofNat, Int.toNat_of_nonneg (Int.not_lt.1 hi)]⟩
      · cases heq
    · cases h
  · rintro ⟨n, rfl⟩
    rfl

theorem bind_depthMisfit?_eq_none_iff {e : Option Json} :
    e.bind depthMisfit? = none ↔ ∀ w ∈ e, ∃ n, w = .ofNat n := by
  rw [Option.bind_eq_none_iff]
  exact forall₂_congr fun w _ => depthMisfit?_eq_none_iff

/-! ### Records without depths -/

/-- The fields of a record with the depth at zero. -/
def NodeFields.withoutDepth (f : NodeFields) : NodeFields := { f with depth := 0 }

namespace NodeRecord

mutual

/-- A record with all depths at zero. -/
def withoutDepths : NodeRecord → NodeRecord
  | .mk f cs => .mk f.withoutDepth (withoutDepthsAll cs)

/-- Records with all depths at zero. -/
def withoutDepthsAll : List NodeRecord → List NodeRecord
  | [] => []
  | r :: rs => withoutDepths r :: withoutDepthsAll rs

end

mutual

@[simp] theorem withoutDepths_withoutDepths :
    ∀ r : NodeRecord, r.withoutDepths.withoutDepths = r.withoutDepths
  | .mk f cs => by
    rw [withoutDepths, withoutDepths, withoutDepthsAll_withoutDepthsAll cs]
    rfl

@[simp] theorem withoutDepthsAll_withoutDepthsAll :
    ∀ rs : List NodeRecord, withoutDepthsAll (withoutDepthsAll rs) = withoutDepthsAll rs
  | [] => rfl
  | r :: rs => by
    rw [withoutDepthsAll, withoutDepthsAll, withoutDepths_withoutDepths r,
      withoutDepthsAll_withoutDepthsAll rs]

end

mutual

/-- A node is made of its record without the depths. -/
theorem toNode_withoutDepths (depth : Nat) :
    ∀ r : NodeRecord, r.withoutDepths.toNode depth = r.toNode depth
  | .mk f cs => by
    have hempty : (withoutDepthsAll cs).isEmpty = cs.isEmpty := by
      cases cs <;> rfl
    rw [withoutDepths, toNode, toNode, hempty, toNodes_withoutDepthsAll (depth + 1) cs]
    rfl

theorem toNodes_withoutDepthsAll (depth : Nat) :
    ∀ rs : List NodeRecord, toNodes depth (withoutDepthsAll rs) = toNodes depth rs
  | [] => rfl
  | r :: rs => by
    rw [withoutDepthsAll, toNodes, toNodes, toNode_withoutDepths depth r,
      toNodes_withoutDepthsAll depth rs]

end

end NodeRecord

section Congruence

variable {ε α β γ δ : Type} {x y : Except ε α} {p : α → δ} {q : β → γ}

/-- What follows equal answers is equal, where answers are compared by a part of them. -/
theorem map_bind_congr (h : x.map p = y.map p) {g g' : α → Except ε β}
    (hg : ∀ a b, p a = p b → (g a).map q = (g' b).map q) : (x.bind g).map q = (y.bind g').map q := by
  cases x with
  | error e =>
    cases y with
    | error e' =>
      cases Except.error.inj h
      rfl
    | ok b => cases h
  | ok a =>
    cases y with
    | error e' => cases h
    | ok b => exact hg a b (Except.ok.inj h)

theorem map_map_congr (x : Except ε α) {g g' : α → β} (hg : ∀ a, q (g a) = q (g' a)) :
    (x.map g).map q = (x.map g').map q := by
  cases x with
  | error e => rfl
  | ok a => exact congrArg Except.ok (hg a)

theorem map_bind (x : Except ε α) (g : α → Except ε β) (q : β → γ) :
    (x.bind g).map q = x.bind fun a => (g a).map q := by
  cases x <;> rfl

theorem map_eq_bind (x : Except ε α) (g : α → β) : x.map g = x.bind fun a => .ok (g a) := by
  cases x <;> rfl

end Congruence

namespace NodeFields

theorem withoutDepth_withField (f : NodeFields) (d : Nat) (k : String) (v : Json) :
    (({ f with depth := d } : NodeFields).withField k v).map withoutDepth =
      (f.withField k v).map withoutDepth := by
  unfold withField
  split
  case h_16 => rfl
  all_goals exact map_map_congr _ fun _ => rfl

/-- A field is decoded in the same way whatever depth was stated before. -/
theorem withField_congr {f f' : NodeFields} (h : f.withoutDepth = f'.withoutDepth) (k : String)
    (v : Json) : (f.withField k v).map withoutDepth = (f'.withField k v).map withoutDepth := by
  have hf := withoutDepth_withField f 0 k v
  have hf' := withoutDepth_withField f' 0 k v
  rw [← hf, ← hf']
  exact congrArg (fun f => (withField f k v).map withoutDepth) h

end NodeFields

namespace NodeRecord

/-- A record with the value of one of its fields put into it. -/
def step (r : NodeRecord) (k : String) (v : Json) : Except Misfit NodeRecord :=
  if k = "children" then (decodeChildren v).map r.withChildren else r.withField k v

theorem decodeMembers_cons (r : NodeRecord) (k : String) (v : Json) (ms : List (String × Json)) :
    decodeMembers r ((k, v) :: ms) = (r.step k v).bind fun r => decodeMembers r ms := by
  rw [decodeMembers, step]
  split_ifs
  · cases decodeChildren v <;> rfl
  · cases r.withField k v <;> rfl

theorem decodeMembers_append (r : NodeRecord) (ms ns : List (String × Json)) :
    decodeMembers r (ms ++ ns) = (decodeMembers r ms).bind fun r => decodeMembers r ns := by
  induction ms generalizing r with
  | nil => rw [List.nil_append, decodeMembers]; rfl
  | cons m ms ih =>
    obtain ⟨k, v⟩ := m
    rw [List.cons_append, decodeMembers_cons, decodeMembers_cons]
    cases r.step k v with
    | error e => rfl
    | ok r => exact ih r

variable {r r' : NodeRecord}

theorem step_congr (h : r.withoutDepths = r'.withoutDepths) (k : String) (v : Json) :
    (r.step k v).map withoutDepths = (r'.step k v).map withoutDepths := by
  obtain ⟨f, cs⟩ := r
  obtain ⟨f', cs'⟩ := r'
  obtain ⟨hf, hcs⟩ := NodeRecord.mk.inj h
  unfold step
  split_ifs
  · refine map_map_congr _ fun ds => ?_
    show mk f.withoutDepth (withoutDepthsAll ds) = mk f'.withoutDepth (withoutDepthsAll ds)
    rw [hf]
  · rw [withField, withField, map_eq_bind, map_eq_bind]
    refine map_bind_congr (NodeFields.withField_congr hf k v) fun g g' hg => congrArg Except.ok ?_
    show mk g.withoutDepth (withoutDepthsAll cs) = mk g'.withoutDepth (withoutDepthsAll cs')
    rw [hg, hcs]

/-- A depth that was decoded has no effect on what is decoded behind it. -/
theorem decodeMembers_congr (h : r.withoutDepths = r'.withoutDepths) (ms : List (String × Json)) :
    (decodeMembers r ms).map withoutDepths = (decodeMembers r' ms).map withoutDepths := by
  induction ms generalizing r r' with
  | nil =>
    rw [decodeMembers, decodeMembers]
    exact congrArg Except.ok h
  | cons m ms ih =>
    obtain ⟨k, v⟩ := m
    rw [decodeMembers_cons, decodeMembers_cons]
    exact map_bind_congr (step_congr h k v) fun s s' hs => ih hs

end NodeRecord

/-! ### Results that depend on what is reported -/

/-- Results that depend on something only through what is reported about it: something else may be
reported before it, and where nothing is reported at all, the result is the same. -/
def Reports {ι ε α : Type} (report : ι → Option ε) (F : ι → Except ε α) : Prop :=
  ∃ (before : Option ε) (result : Except ε α),
    ∀ i, F i = (before.or (report i)).elim result Except.error

theorem elim_error_eq_ok_iff {ε α : Type} {o : Option ε} {result : Except ε α} {a : α} :
    o.elim result Except.error = .ok a ↔ o = none ∧ result = .ok a := by
  cases o <;> simp

namespace Reports

variable {ι ε α β : Type} {report : ι → Option ε}

theorem of_elim {F : ι → Except ε α} (result : Except ε α)
    (h : ∀ i, F i = (report i).elim result Except.error) : Reports report F :=
  ⟨none, result, h⟩

/-- What is done with the result does not look at what is reported. -/
theorem bind {F : ι → Except ε α} (h : Reports report F) (g : α → Except ε β) :
    Reports report fun i => (F i).bind g := by
  obtain ⟨before, result, h⟩ := h
  refine ⟨before, result.bind g, fun i => ?_⟩
  simp only [h]
  cases before.or (report i) <;> rfl

/-- What is done before comes first. -/
theorem after {F : α → ι → Except ε β} (x : Except ε α)
    (h : ∀ a, x = .ok a → Reports report (F a)) : Reports report fun i => x.bind fun a => F a i := by
  cases x with
  | error e => exact ⟨some e, .error e, fun i => rfl⟩
  | ok a => exact h a rfl

/-- The same reports in other words. -/
theorem mapError {ε' : Type} {F : ι → Except ε α} (h : Reports report F) (g : ε → ε') :
    Reports (fun i => (report i).map g) fun i => (F i).mapError g := by
  obtain ⟨before, result, h⟩ := h
  refine ⟨before.map g, result.mapError g, fun i => ?_⟩
  simp only [h]
  cases before <;> cases report i <;> rfl

end Reports

/-! ### Members and fields that are changed -/

namespace InputNode

/-- The first member with a key is the one that is changed. -/
theorem changeFirst_append {key : String} {front : List (String × Json)}
    (h : key ∉ front.map Prod.fst) (w : Json) (back : List (String × Json))
    (g : Json → Option Json) : changeFirst key g (front ++ (key, w) :: back) =
      front ++ (((g w).map (key, ·)).toList ++ back) := by
  induction front with
  | nil => exact if_pos rfl
  | cons m front ih =>
    obtain ⟨k, v⟩ := m
    rw [List.map_cons, List.mem_cons, not_or] at h
    rw [List.cons_append, changeFirst, if_neg (Ne.symm h.1), ih h.2]
    rfl

theorem exists_changeFirst {key : String} {ms : List (String × Json)} {w : Json}
    (h : lookup? key ms = some w) : ∃ front back,
      ∀ g, changeFirst key g ms = front ++ (((g w).map (key, ·)).toList ++ back) := by
  obtain ⟨front, back, rfl, hfront⟩ := exists_cut_of_lookup? h
  exact ⟨front, back, changeFirst_append hfront w back⟩

theorem changeFirst_eq_self {key : String} {ms : List (String × Json)} {w : Json}
    (h : lookup? key ms = some w) {g : Json → Option Json} (hg : g w = some w) :
    changeFirst key g ms = ms := by
  obtain ⟨front, back, rfl, hfront⟩ := exists_cut_of_lookup? h
  rw [changeFirst_append hfront, hg]
  rfl

theorem lookup?_changeFirst_of_ne {key other : String} (hne : key ≠ other)
    (g : Json → Option Json) (ms : List (String × Json)) :
    lookup? other (changeFirst key g ms) = lookup? other ms := by
  induction ms with
  | nil => rfl
  | cons m ms ih =>
    obtain ⟨k, v⟩ := m
    rw [changeFirst]
    split_ifs with hk
    · subst hk
      rw [lookup?, if_neg hne]
      cases g v with
      | none => rfl
      | some u => exact if_neg hne
    · rw [lookup?, lookup?, ih]

theorem lookup?_changeFirst {key : String} {ms : List (String × Json)} {w : Json}
    (h : lookup? key ms = some w) (g : Json → Json) :
    lookup? key (changeFirst key (fun v => some (g v)) ms) = some (g w) := by
  obtain ⟨front, back, rfl, hfront⟩ := exists_cut_of_lookup? h
  rw [changeFirst_append hfront, lookup?_append_of_not_mem hfront]
  exact if_pos rfl

theorem field?_of_children {v u : Json} {k : Nat} (h : (children v)[k]? = some u) :
    field? "children" v = some (.array (children v)) := by
  unfold children at h ⊢
  split at h
  · next heq => rw [heq]
  · cases h

/-- The items of an array as fields, with one of them changed. -/
theorem exists_zip_modify {key : String} {ks : List String} {vs : List Json} {w : Json}
    (h : lookup? key (ks.zip vs) = some w) : ∃ front back,
      ∀ g, ks.zip (vs.modify (ks.idxOf key) g) = front ++ ((key, g w) :: back) := by
  induction ks generalizing vs with
  | nil => cases h
  | cons k ks ih =>
    cases vs with
    | nil => cases h
    | cons v vs =>
      rw [List.zip_cons_cons, lookup?] at h
      split_ifs at h with hk
      · cases h
        subst hk
        exact ⟨[], ks.zip vs, fun g => by rw [List.idxOf_cons_self]; rfl⟩
      · obtain ⟨front, back, hsplit⟩ := ih h
        refine ⟨(k, v) :: front, back, fun g => ?_⟩
        rw [List.idxOf_cons_ne _ hk, List.modify_succ_cons, List.zip_cons_cons, hsplit]
        rfl

end InputNode

/-! ### Stating the same depth -/

namespace InputNode

theorem modify_eq_self {g : Json → Json} {vs : List Json} {k : Nat} {u : Json}
    (hu : vs[k]? = some u) (hg : g u = u) : vs.modify k g = vs := by
  induction vs generalizing k with
  | nil => cases hu
  | cons v vs ih =>
    cases k with
    | zero =>
      cases hu
      rw [List.modify_zero_cons, hg]
    | succ k => rw [List.modify_succ_cons, ih hu]

theorem getElem?_idxOf_of_lookup? {key : String} {ks : List String} {vs : List Json} {w : Json}
    (h : lookup? key (ks.zip vs) = some w) : vs[ks.idxOf key]? = some w := by
  induction ks generalizing vs with
  | nil => cases h
  | cons k ks ih =>
    cases vs with
    | nil => cases h
    | cons v vs =>
      rw [List.zip_cons_cons, lookup?] at h
      split_ifs at h with hk
      · cases h
        rw [hk, List.idxOf_cons_self]
        rfl
      · rw [List.idxOf_cons_ne _ hk, List.getElem?_cons_succ]
        exact ih h

theorem changeField_eq_self {key : String} {v w : Json} (h : field? key v = some w)
    {g : Json → Option Json} (hg : g w = some w) : changeField key g v = v := by
  cases v with
  | object ms =>
    rw [changeField]
    exact congrArg Json.object (changeFirst_eq_self h hg)
  | array vs =>
    rw [changeField]
    exact congrArg Json.array (modify_eq_self (getElem?_idxOf_of_lookup? h) (by rw [hg]; rfl))
  | _ => rfl

theorem editNode_eq_self {p : List Nat} {v w : Json} (h : statedDepth? p v = some w) :
    editNode (some w) p v = v := by
  induction p generalizing v with
  | nil => exact changeField_eq_self h rfl
  | cons k p ih =>
    obtain ⟨u, hu, hdepth⟩ := Option.bind_eq_some_iff.1 h
    refine changeField_eq_self (field?_of_children hu) ?_
    rw [changeItem, modify_eq_self hu (ih hdepth)]

/-- Stating the same depth again changes nothing. -/
theorem editDepth_eq_self {place : List Nat} {doc w : Json} (h : depthAt? place doc = some w) :
    editDepth (some w) place doc = doc := by
  cases place with
  | nil => cases h
  | cons k p =>
    obtain ⟨u, hu, hdepth⟩ := Option.bind_eq_some_iff.1 h
    unfold roots at hu
    split at hu
    · rw [editDepth, modify_eq_self hu (editNode_eq_self hdepth)]
    · next ms =>
      split at hu
      · next vs hsel =>
        rw [editDepth, hsel]
        refine congrArg Json.object (changeFirst_eq_self hsel ?_)
        rw [changeItem, modify_eq_self hu (editNode_eq_self hdepth)]
      · cases hu
      · next hsel =>
        cases k with
        | zero =>
          cases hu
          rw [editDepth, hsel]
          exact editNode_eq_self hdepth
        | succ k => cases hu
    · cases hu

end InputNode

namespace NodeRecord

open InputNode

/-- A node with a field is decoded in front of it, then there, then behind it; what comes last
depends only on how many items an array has. -/
theorem exists_decode_changeField {key : String} {v w : Json} (h : field? key v = some w) :
    ∃ (front back : List (String × Json)) (late : Option Misfit), ∀ g, ∃ ms,
      (ms = ((g w).map (key, ·)).toList ∨ g w = none ∧ ms = [(key, .ofNat 0)]) ∧
        decode (changeField key g v) =
          (decodeMembers empty (front ++ (ms ++ back))).bind fun r =>
            late.elim (.ok r) Except.error := by
  cases v with
  | object ms =>
    rw [field?, members] at h
    obtain ⟨front, back, hsplit⟩ := exists_changeFirst h
    refine ⟨front, back, none, fun g => ⟨_, .inl rfl, ?_⟩⟩
    rw [changeField, hsplit, decode]
    cases decodeMembers empty (front ++ (((g w).map (key, ·)).toList ++ back)) <;> rfl
  | array vs =>
    obtain ⟨front, back, hsplit⟩ := exists_zip_modify h
    refine ⟨front, back, jsonShape.lengthMisfit? vs.length, fun g =>
      ⟨[(key, (g w).getD (.ofNat 0))], ?_, ?_⟩⟩
    · cases g w with
      | none => exact .inr ⟨rfl, rfl⟩
      | some u => exact .inl rfl
    · rw [changeField, decode, decodeFields_eq, hsplit, List.length_modify, List.singleton_append]
      cases decodeMembers empty (front ++ ((key, (g w).getD (.ofNat 0)) :: back)) with
      | error e => rfl
      | ok r => cases jsonShape.lengthMisfit? vs.length <;> rfl
  | _ => cases h

/-- A depth is decoded, and then it has no effect. -/
theorem decodeMembers_depth (r : NodeRecord) (w : Json) (ms : List (String × Json)) :
    (decodeMembers r (("depth", w) :: ms)).map withoutDepths =
      (depthMisfit? w).elim ((decodeMembers r ms).map withoutDepths) Except.error := by
  have hstep : r.step "depth" w =
      (decodeNat w).map fun n => mk { r.fields with depth := n } r.children := by
    unfold step withField NodeFields.withField
    cases decodeNat w <;> rfl
  rw [decodeMembers_cons, hstep, depthMisfit?]
  cases decodeNat w with
  | error m => rfl
  | ok n => exact decodeMembers_congr (by cases r; rfl) ms

/-- Of the records inside a record the depths have no effect. -/
theorem decodeMembers_inside (r : NodeRecord) (w : Json) (ms : List (String × Json)) :
    (decodeMembers r (("children", w) :: ms)).map withoutDepths =
      ((decodeChildren w).map withoutDepthsAll).bind fun cs =>
        (decodeMembers (r.withChildren cs) ms).map withoutDepths := by
  rw [decodeMembers_cons, step, if_pos rfl]
  cases decodeChildren w with
  | error m => rfl
  | ok cs =>
    refine decodeMembers_congr ?_ ms
    show mk r.fields.withoutDepth (withoutDepthsAll cs) =
      mk r.fields.withoutDepth (withoutDepthsAll (withoutDepthsAll cs))
    rw [withoutDepthsAll_withoutDepthsAll]

/-- One of some records is read in another way. -/
theorem reports_decodeAll {ι : Type} {report : ι → Option Misfit} {G : ι → Json → Json}
    {vs : List Json} {k : Nat} {u : Json} (hu : vs[k]? = some u)
    (h : Reports report fun i => (decode (G i u)).map withoutDepths) :
    Reports report fun i => (decodeAll (vs.modify k (G i))).map withoutDepthsAll := by
  have hcons : ∀ v vs, (decodeAll (v :: vs)).map withoutDepthsAll =
      ((decode v).map withoutDepths).bind fun r =>
        ((decodeAll vs).map withoutDepthsAll).bind fun rs => .ok (r :: rs) := by
    intro v vs
    rw [decodeAll]
    cases decode v with
    | error m => rfl
    | ok r => cases decodeAll vs <;> rfl
  induction vs generalizing k with
  | nil => cases hu
  | cons v vs ih =>
    cases k with
    | zero =>
      cases hu
      simp only [List.modify_zero_cons, hcons]
      exact h.bind _
    | succ k =>
      simp only [List.modify_succ_cons, hcons]
      exact .after _ fun r _ => (ih hu).bind _

/-- A node with a field that is changed: it is enough to look at the members from there on. -/
theorem reports_changeField {ι : Type} {report : ι → Option Misfit} {key : String} {v w : Json}
    (h : field? key v = some w) {g : ι → Json → Option Json}
    (hg : ∀ (r : NodeRecord) (ms : ι → List (String × Json)) (back : List (String × Json)),
      (∀ i, ms i = ((g i w).map (key, ·)).toList ∨
        g i w = none ∧ ms i = [(key, .ofNat 0)]) →
      Reports report fun i => (decodeMembers r (ms i ++ back)).map withoutDepths) :
    Reports report fun i => (decode (changeField key (g i) v)).map withoutDepths := by
  obtain ⟨front, back, late, hdecode⟩ := exists_decode_changeField h
  choose ms hms hdecode using hdecode
  have hlate : ∀ x : Except Misfit NodeRecord,
      (x.bind fun r => late.elim (.ok r) Except.error).map withoutDepths =
        (x.map withoutDepths).bind fun r => late.elim (.ok r) Except.error := by
    intro x
    cases x <;> cases late <;> rfl
  simp only [hdecode, hlate, decodeMembers_append empty front, map_bind]
  exact (Reports.after _ fun r _ => hg r _ back fun i => hms (g i)).bind _

/-- **What becomes of a tree when the depth of one of its nodes is stated anew.** -/
theorem reports_decode {p : List Nat} {v w : Json} (h : statedDepth? p v = some w) :
    Reports (fun e : Option Json => e.bind depthMisfit?) fun e =>
      (decode (editNode e p v)).map withoutDepths := by
  -- from the tree down the place
  induction p generalizing v with
  | nil =>
    refine reports_changeField h fun r ms back hms => ?_
    refine .of_elim ((decodeMembers r back).map withoutDepths) fun e => ?_
    obtain hms | ⟨he, hms⟩ := hms e
    · rw [hms]
      cases e with
      | none => rfl
      | some u => exact decodeMembers_depth r u back
    · rw [hms, show e = none from he]
      exact decodeMembers_depth r (.ofNat 0) back
  | cons k p ih =>
    obtain ⟨u, hu, hdepth⟩ := Option.bind_eq_some_iff.1 h
    refine reports_changeField (field?_of_children hu) fun r ms back hms => ?_
    have hinside : ∀ e, ms e =
        [("children", .array ((InputNode.children v).modify k (editNode e p)))] := by
      intro e
      obtain hms | ⟨he, -⟩ := hms e
      · exact hms
      · cases he
    simp only [hinside, List.singleton_append, decodeMembers_inside]
    exact (reports_decodeAll hu (ih hdepth)).bind _

end NodeRecord

/-! ### Documents -/

theorem rootsFrom_cons (index : Nat) (v : Json) (vs : List Json) :
    rootsFrom index (v :: vs) =
      (((NodeRecord.decode v).map NodeRecord.withoutDepths).mapError (.invalidNode index)).bind
        fun r => (rootsFrom (index + 1) vs).bind fun ns => .ok (r.toNode 0 :: ns) := by
  rw [rootsFrom]
  cases NodeRecord.decode v with
  | error m => rfl
  | ok r =>
    show _ = (rootsFrom (index + 1) vs).bind fun ns => .ok (r.withoutDepths.toNode 0 :: ns)
    rw [NodeRecord.toNode_withoutDepths]
    cases rootsFrom (index + 1) vs <;> rfl

/-- **What becomes of several trees when the depth of one of their nodes is stated anew.** -/
theorem reports_rootsFrom {ι : Type} {report : ι → Option Misfit} {G : ι → Json → Json}
    {vs : List Json} {k : Nat} {u : Json} (hu : vs[k]? = some u)
    (h : Reports report fun i => (NodeRecord.decode (G i u)).map NodeRecord.withoutDepths)
    (index : Nat) :
    Reports (fun i => (report i).map (.invalidNode (index + k))) fun i =>
      rootsFrom index (vs.modify k (G i)) := by
  induction vs generalizing k index with
  | nil => cases hu
  | cons v vs ih =>
    cases k with
    | zero =>
      cases hu
      simp only [List.modify_zero_cons, rootsFrom_cons]
      exact (h.mapError _).bind _
    | succ k =>
      have hindex : index + (k + 1) = index + 1 + k := by omega
      simp only [List.modify_succ_cons, rootsFrom_cons, hindex]
      exact .after _ fun r _ => (ih hu (index + 1)).bind _

namespace Selection

open InputNode

theorem ofItems_eq (fileName : Option String) (vs : List Json) :
    ofItems fileName vs = (rootsFrom 0 vs).bind fun roots => .ok ⟨fileName, roots⟩ := by
  rw [ofItems]
  cases rootsFrom 0 vs <;> rfl

theorem reports_ofItems (fileName : Option String) {vs : List Json} {k : Nat} {u : Json}
    {p : List Nat} {w : Json} (hu : vs[k]? = some u) (h : statedDepth? p u = some w) :
    Reports (fun e : Option Json => (e.bind depthMisfit?).map (.invalidNode k)) fun e =>
      ofItems fileName (vs.modify k (editNode e p)) := by
  simp only [ofItems_eq]
  have hroots := reports_rootsFrom hu (NodeRecord.reports_decode h) 0
  rw [Nat.zero_add] at hroots
  exact hroots.bind _

theorem fileNameOf_changeFirst (g : Json → Option Json) (ms : List (String × Json)) :
    fileNameOf (changeFirst "selection" g ms) = fileNameOf ms := by
  rw [fileNameOf, lookup?_changeFirst_of_ne (by decide), lookup?_changeFirst_of_ne (by decide),
    fileNameOf]

/-- A document that is a single node stays one. -/
theorem exists_editNode_object (e : Option Json) (p : List Nat) {ms : List (String × Json)}
    (h : lookup? "selection" ms = none) :
    ∃ ms', editNode e p (.object ms) = .object ms' ∧ lookup? "selection" ms' = none := by
  cases p with
  | nil => exact ⟨_, rfl, (lookup?_changeFirst_of_ne (by decide) _ ms).trans h⟩
  | cons k p => exact ⟨_, rfl, (lookup?_changeFirst_of_ne (by decide) _ ms).trans h⟩

theorem reports_ofJson? {k : Nat} {p : List Nat} {doc w : Json}
    (h : depthAt? (k :: p) doc = some w) :
    Reports (fun e : Option Json => (e.bind depthMisfit?).map (.invalidNode k)) fun e =>
      ofJson? (editDepth e (k :: p) doc) := by
  obtain ⟨u, hu, hdepth⟩ := Option.bind_eq_some_iff.1 h
  unfold InputNode.roots at hu
  split at hu
  · next vs => exact reports_ofItems none hu hdepth
  · next ms =>
    split at hu
    · next vs hsel =>
      have hdoc : ∀ e, ofJson? (editDepth e (k :: p) (.object ms)) =
          ofItems (fileNameOf ms) (vs.modify k (editNode e p)) := by
        intro e
        rw [editDepth, hsel]
        simp only [ofJson?, lookup?_changeFirst hsel, changeItem, fileNameOf_changeFirst]
      simp only [hdoc]
      exact reports_ofItems _ hu hdepth
    · cases hu
    · next hsel =>
      have hdoc : ∀ e, ofJson? (editDepth e (k :: p) (.object ms)) =
          ofItems none ([.object ms].modify 0 (editNode e p)) := by
        intro e
        obtain ⟨ms', hedit, hsel'⟩ := exists_editNode_object e p hsel
        rw [editDepth, hsel]
        simp only [hedit, ofJson?, hsel', List.modify_zero_cons]
      cases k with
      | zero =>
        simp only [hdoc]
        exact reports_ofItems none hu hdepth
      | succ k => cases hu
  · cases hu

/-- **What becomes of a selection when a depth is stated anew.**  Let a document state a depth at a
place.  Whatever is stated there instead, or nothing, what comes out is the misfit of the depth if it
has one, unless an error is reported before it, and otherwise always the same.  So, as far as both
depths are natural numbers or missing, the result is unchanged; and if the document gives a
selection, then it does so with another depth exactly when that is a natural number or missing. -/
theorem parse_editDepth {text : List Char} {doc w : Json} (hread : read text = .ok doc) {k : Nat}
    {p : List Nat} (hdepth : depthAt? (k :: p) doc = some w) :
    (∃ (before : Option DocumentError) (result : Except DocumentError Selection),
      parse text =
          (before.or ((depthMisfit? w).map (.invalidNode k))).elim result Except.error ∧
        ∀ e text', read text' = .ok (editDepth e (k :: p) doc) → parse text' =
          (before.or ((e.bind depthMisfit?).map (.invalidNode k))).elim result Except.error) ∧
      ∀ e text', read text' = .ok (editDepth e (k :: p) doc) →
        ((∃ n, w = .ofNat n) → (∀ u ∈ e, ∃ n, u = .ofNat n) → parse text' = parse text) ∧
        ∀ s, parse text = .ok s → (parse text' = .ok s ↔ ∀ u ∈ e, ∃ n, u = .ofNat n) ∧
          ∀ m, e.bind depthMisfit? = some m → parse text' = .error (.invalidNode k m) := by
  obtain ⟨before, result, hreports⟩ := reports_ofJson? hdepth
  have hparse : ∀ {text doc}, read text = .ok doc → parse text = ofJson? doc := by
    intro text doc h
    rw [parse, h]
  have hold : parse text =
      (before.or ((depthMisfit? w).map (.invalidNode k))).elim result Except.error := by
    rw [hparse hread]
    exact (congrArg ofJson? (editDepth_eq_self hdepth)).symm.trans (hreports (some w))
  have hnew : ∀ e text', read text' = .ok (editDepth e (k :: p) doc) → parse text' =
      (before.or ((e.bind depthMisfit?).map (.invalidNode k))).elim result Except.error :=
    fun e text' h => (hparse h).trans (hreports e)
  refine ⟨⟨before, result, hold, hnew⟩, fun e text' h => ⟨fun hw he => ?_, fun s hs => ?_⟩⟩
  · rw [hold, hnew e text' h, depthMisfit?_eq_none_iff.2 hw, bind_depthMisfit?_eq_none_iff.2 he]
  · -- nothing is reported of the document, neither before the depth nor about it
    rw [hold, elim_error_eq_ok_iff, Option.or_eq_none_iff] at hs
    obtain ⟨⟨rfl, -⟩, rfl⟩ := hs
    rw [hnew e text' h, Option.none_or, elim_error_eq_ok_iff, Option.map_eq_none_iff,
      bind_depthMisfit?_eq_none_iff]
    refine ⟨and_iff_left rfl, fun m hm => ?_⟩
    rw [hm]
    rfl

/-- A depth of a node inside another is replaced by `null`. -/
theorem parse_editDepth_inside :
    let doc : Json := .array [.object [("children", .array [.object [("depth", .ofNat 7)]])]]
    let doc' : Json := .array [.object [("children", .array [.object [("depth", .null)]])]]
    read (pretty doc) = .ok doc ∧ depthAt? [0, 0] doc = some (.ofNat 7) ∧
      read (pretty doc') = .ok (editDepth (some .null) [0, 0] doc) ∧
      (∃ s, parse (pretty doc) = .ok s) ∧
      parse (pretty doc') = .error (.invalidNode 0 (.wrongKind .null "usize")) := by
  intro doc doc'
  have hread : read (pretty doc) = .ok doc := by
    refine read_pretty doc fun n hn => ?_
    obtain rfl := List.mem_singleton.1 hn
    exact readsBack_ofNat (by decide)
  have hread' : read (pretty doc') = .ok (editDepth (some .null) [0, 0] doc) :=
    read_pretty doc' fun n hn => nomatch hn
  obtain ⟨s, hs⟩ : ∃ s, parse (pretty doc) = .ok s := ⟨_, by rw [parse, hread]; rfl⟩
  have hrefused := ((parse_editDepth hread rfl).2 (some .null) _ hread').2 s hs
  exact ⟨hread, rfl, hread', ⟨s, hs⟩, hrefused.2 _ rfl⟩

/-- A depth cannot be replaced by any value: `null` is refused. -/
theorem parse_ne_of_null_depth :
    let doc : Json := .array [.object [("depth", .ofNat 0)]]
    let text := "[\n  \x7b\n    \"depth\": 0\n  \x7d\n]".toList
    let text' := "[\n  \x7b\n    \"depth\": null\n  \x7d\n]".toList
    read text = .ok doc ∧ read text' = .ok (editDepth (some .null) [0] doc) ∧
      parse text' = .error (.invalidNode 0 (.wrongKind .null "usize")) ∧
      ∃ s, parse text = .ok s := by
  intro doc text text'
  have htext : text = pretty doc := by decide +kernel
  have htext' : text' = pretty (editDepth (some .null) [0] doc) := by decide +kernel
  have hread : read text = .ok doc := by
    rw [htext]
    refine read_pretty doc fun n hn => ?_
    obtain rfl := List.mem_singleton.1 hn
    exact readsBack_ofNat (by decide)
  have hread' : read text' = .ok (editDepth (some .null) [0] doc) := by
    rw [htext']
    exact read_pretty _ fun n hn => nomatch hn
  exact ⟨hread, hread', by rw [parse, hread']; rfl, _, by rw [parse, hread]; rfl⟩

end Selection

end SceneMarkup
