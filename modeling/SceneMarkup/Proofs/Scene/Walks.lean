import Mathlib.Data.List.Infix
import SceneMarkup.Scene.Walk

/-!
# Walks through a scene, place by place

A place in a forest says which tree to take, then which of the nodes inside its root, and so on.
Listed in lexicographic order the places of all nodes give the preorder, and the containers around a
node are at the shorter places that begin its place.

A visitor that goes into a container only where a predicate holds comes to a node if the predicate
holds of all the containers around it.  What it does on entering and on leaving containers is nested
like the containers themselves.

## Main definitions

* `nodeAt?`, `ancestors` — the node at a place, and the containers around it.
* `places` — the places of all nodes, in order.
* `Visitor.guided`, `stations` — a visitor that goes on where a predicate holds, and its way.
* `Nested` — the stations of a way with the containers that are open at each of its nodes.

## Main results

* `places_pairwise`, `mem_places` — the places are in order, and they are those with a node.
* `filterMap_places` — the nodes at all places are the preorder.
* `walkAll_guided`, `walkAll_atTexts` — a guided walk passes its stations one by one, and where
  something is done only at texts, the way goes over the texts of the preorder.
* `nested_stations` — **a guided walk comes to the nodes whose ancestors it may enter**, each while
  just these are open.
* `walks_of_selection` — **what visitors come to in a selection.**
* `walkEvents_eq` — what `walkEvents` notes are the stations of a guided walk.
-/

namespace SceneMarkup

open SceneNode

/-- Induction over forests: a forest has a first tree, the nodes inside its root and the trees
behind it. -/
theorem forest_induction {P : List SceneNode → Prop} (nil : P [])
    (cons : ∀ n ns, P n.children → P ns → P (n :: ns)) : ∀ ns, P ns
  | [] => nil
  | .text i t :: ns => cons (.text i t) ns nil (forest_induction nil cons ns)
  | .shape i p :: ns => cons (.shape i p) ns nil (forest_induction nil cons ns)
  | .container i p cs :: ns =>
    cons (.container i p cs) ns (forest_induction nil cons cs) (forest_induction nil cons ns)

/-! ### Places -/

/-- The node at a place. -/
def nodeAt? : List SceneNode → List Nat → Option SceneNode
  | _, [] => none
  | ns, [k] => ns[k]?
  | ns, k :: l :: p => ns[k]?.bind fun n => nodeAt? n.children (l :: p)

/-- The containers around the node at a place, the innermost first. -/
def ancestors (ns : List SceneNode) (p : List Nat) : List SceneNode :=
  (p.inits.dropLast.filterMap (nodeAt? ns)).reverse

/-- Whether a predicate holds of all containers around the node at a place. -/
def reached (d : SceneNode → Bool) (ns : List SceneNode) (p : List Nat) : Bool :=
  (ancestors ns p).all d

/-- A place behind one more tree. -/
def behind : List Nat → List Nat
  | [] => []
  | k :: p => (k + 1) :: p

mutual

/-- The places of the nodes inside a node. -/
def placesIn : SceneNode → List (List Nat)
  | .text _ _ => []
  | .shape _ _ => []
  | .container _ _ cs => places cs

/-- The places of the nodes of a forest. -/
def places : List SceneNode → List (List Nat)
  | [] => []
  | n :: ns => [0] :: (placesIn n).map (0 :: ·) ++ (places ns).map behind

end

theorem places_cons (n : SceneNode) (ns : List SceneNode) :
    places (n :: ns) = [0] :: (places n.children).map (0 :: ·) ++ (places ns).map behind := by
  have hn : placesIn n = places n.children := by
    cases n <;> rfl
  rw [places, hn]

theorem ne_nil_of_mem_places {ns : List SceneNode} {p : List Nat} (h : p ∈ places ns) : p ≠ [] := by
  induction ns generalizing p with
  | nil => simp [places] at h
  | cons n ns ih =>
    rw [places_cons, List.cons_append, List.mem_cons, List.mem_append, List.mem_map,
      List.mem_map] at h
    obtain rfl | ⟨q, -, rfl⟩ | ⟨q, hq, rfl⟩ := h
    · exact List.cons_ne_nil 0 []
    · exact List.cons_ne_nil 0 q
    · obtain ⟨k, r, rfl⟩ := List.exists_cons_of_ne_nil (ih hq)
      exact List.cons_ne_nil (k + 1) r

theorem behind_lt_behind : ∀ {p q : List Nat}, p < q → behind p < behind q
  | _, _, .nil => .nil
  | _, _, .cons h => .cons h
  | _, _, .rel h => .rel (Nat.succ_lt_succ h)

theorem zero_cons_lt_behind (p : List Nat) {q : List Nat} (hq : q ≠ []) : 0 :: p < behind q := by
  obtain ⟨k, r, rfl⟩ := List.exists_cons_of_ne_nil hq
  exact .rel (Nat.succ_pos k)

/-- The places are in lexicographic order, and no two are equal. -/
theorem places_pairwise (ns : List SceneNode) : (places ns).Pairwise (· < ·) := by
  induction ns using forest_induction with
  | nil => exact List.Pairwise.nil
  | cons n ns ihn ihs =>
    rw [places_cons, List.cons_append, List.pairwise_cons, List.pairwise_append]
    refine ⟨?first, List.pairwise_map.2 (ihn.imp .cons), List.pairwise_map.2 (ihs.imp behind_lt_behind),
      ?across⟩
    case first =>
      intro p hp
      obtain hp | hp := List.mem_append.1 hp
      · obtain ⟨q, hq, rfl⟩ := List.mem_map.1 hp
        obtain ⟨l, r, rfl⟩ := List.exists_cons_of_ne_nil (ne_nil_of_mem_places hq)
        exact .cons .nil
      · obtain ⟨q, hq, rfl⟩ := List.mem_map.1 hp
        exact zero_cons_lt_behind [] (ne_nil_of_mem_places hq)
    case across =>
      intro p hp q hq
      obtain ⟨p, -, rfl⟩ := List.mem_map.1 hp
      obtain ⟨q, hmem, rfl⟩ := List.mem_map.1 hq
      exact zero_cons_lt_behind p (ne_nil_of_mem_places hmem)

/-! ### The nodes at places -/

variable (n : SceneNode) (ns : List SceneNode) (p : List Nat)

@[simp] theorem nodeAt?_nil_right : nodeAt? ns [] = none := rfl

@[simp] theorem nodeAt?_singleton (k : Nat) : nodeAt? ns [k] = ns[k]? := rfl

theorem nodeAt?_nil (p : List Nat) : nodeAt? [] p = none := by
  rcases p with _ | ⟨k, _ | ⟨l, p⟩⟩ <;> rfl

variable {p} in
theorem nodeAt?_zero_cons (hp : p ≠ []) : nodeAt? (n :: ns) (0 :: p) = nodeAt? n.children p := by
  obtain ⟨l, q, rfl⟩ := List.exists_cons_of_ne_nil hp
  rfl

theorem nodeAt?_behind : nodeAt? (n :: ns) (behind p) = nodeAt? ns p := by
  rcases p with _ | ⟨k, _ | ⟨l, p⟩⟩ <;> rfl

/-- The places are those with a node. -/
theorem mem_places {p : List Nat} : p ∈ places ns ↔ (nodeAt? ns p).isSome := by
  induction ns using forest_induction generalizing p with
  | nil => simp [places, nodeAt?_nil]
  | cons n ns ihn ihs =>
    rw [places_cons, List.cons_append, List.mem_cons, List.mem_append, List.mem_map, List.mem_map]
    rcases p with _ | ⟨_ | k, p⟩
    · have hbehind : ∀ q, behind q = [] → q ∉ places ns := by
        rintro (_ | ⟨k, q⟩) hq hmem
        · exact ne_nil_of_mem_places hmem rfl
        · exact List.cons_ne_nil _ _ hq
      simpa using fun q hmem hq => hbehind q hq hmem
    · -- the first tree: its root, or a node inside it
      have hbehind : ∀ q, behind q ≠ 0 :: p := by
        rintro (_ | ⟨k, q⟩) hq <;> simp [behind] at hq
      by_cases hp : p = []
      · simp [hp]
      · rw [nodeAt?_zero_cons n ns hp, ← ihn]
        simp [hp, hbehind]
    · rw [show (k + 1) :: p = behind (k :: p) from rfl, nodeAt?_behind, ← ihs]
      have hinj : ∀ q ∈ places ns, behind q = behind (k :: p) → q = k :: p := by
        rintro (_ | ⟨l, q⟩) - hq <;> simp_all [behind]
      constructor
      · rintro (h | ⟨q, -, h⟩ | ⟨q, hmem, h⟩)
        · simp [behind] at h
        · simp [behind] at h
        · exact hinj q hmem h ▸ hmem
      · exact fun h => .inr (.inr ⟨k :: p, h, rfl⟩)

/-- The nodes at all places are the preorder. -/
theorem filterMap_places : (places ns).filterMap (nodeAt? ns) = preorderAll ns := by
  induction ns using forest_induction with
  | nil => rfl
  | cons n ns ihn ihs =>
    have hinside : ((places n.children).map (0 :: ·)).filterMap (nodeAt? (n :: ns)) =
        preorderAll n.children := by
      rw [List.filterMap_map, ← ihn]
      exact List.filterMap_congr fun p hp => nodeAt?_zero_cons n ns (ne_nil_of_mem_places hp)
    have hbehind : ((places ns).map behind).filterMap (nodeAt? (n :: ns)) = preorderAll ns := by
      rw [List.filterMap_map, ← ihs]
      exact List.filterMap_congr fun p _ => nodeAt?_behind n ns p
    have hn : n.preorder = n :: preorderAll n.children := by
      cases n <;> rfl
    rw [places_cons, List.cons_append, List.filterMap_cons, List.filterMap_append, hinside, hbehind,
      preorderAll, hn]
    rfl

/-! ### The containers around a node -/

theorem dropLast_inits_cons (k : Nat) (p : List Nat) :
    (k :: p).inits.dropLast = [] :: p.inits.dropLast.map (k :: ·) := by
  rw [List.inits_cons, List.map_dropLast, List.dropLast_cons_of_ne_nil]
  cases p <;> simp

variable {p} in
theorem ancestors_zero_cons (hp : p ≠ []) :
    ancestors (n :: ns) (0 :: p) = ancestors n.children p ++ [n] := by
  obtain ⟨l, q, rfl⟩ := List.exists_cons_of_ne_nil hp
  have hinside : ((q.inits.dropLast.map (l :: ·)).map (0 :: ·)).filterMap (nodeAt? (n :: ns)) =
      (q.inits.dropLast.map (l :: ·)).filterMap (nodeAt? n.children) := by
    rw [List.map_map, List.filterMap_map, List.filterMap_map]
    rfl
  simp only [ancestors, dropLast_inits_cons, List.map_cons, List.filterMap_cons, hinside,
    nodeAt?_nil_right, nodeAt?_singleton, List.getElem?_cons_zero, List.reverse_cons]

theorem ancestors_behind : ancestors (n :: ns) (behind p) = ancestors ns p := by
  cases p with
  | nil => rfl
  | cons k q =>
    have hbehind : nodeAt? (n :: ns) ∘ ((k + 1) :: ·) = nodeAt? ns ∘ (k :: ·) :=
      funext fun r => nodeAt?_behind n ns (k :: r)
    rw [ancestors, ancestors, behind, dropLast_inits_cons, dropLast_inits_cons, List.filterMap_cons,
      List.filterMap_cons, List.filterMap_map, List.filterMap_map, hbehind]
    rfl

/-! ### Guided walks -/

/-- What a guided visitor passes. -/
inductive Station where
  /-- Any node. -/
  | node (n : SceneNode)
  /-- A text. -/
  | text (i : NodeInfo) (t : Typography)
  /-- A shape. -/
  | shape (i : NodeInfo) (p : Paint)
  /-- A container, before the nodes inside it. -/
  | enter (n : SceneNode)
  /-- A container, after the nodes inside it. -/
  | leave (n : SceneNode)

namespace Visitor

/-- A visitor that does something at each of its stations, and that goes into a container where a
predicate holds. -/
def guided {σ : Type} (d : SceneNode → Bool) (step : Station → σ → σ) : Visitor σ where
  node n walkOn s := walkOn (step (.node n) s)
  text i t := step (.text i t)
  shape i p := step (.shape i p)
  container i p cs walkOn s :=
    let n := SceneNode.container i p cs
    let inside := step (.enter n) s
    step (.leave n) (if d n then walkOn inside else inside)

end Visitor

mutual

/-- The way of a guided visitor through a tree. -/
def stationsOf (d : SceneNode → Bool) : SceneNode → List Station
  | .text i t => [.node (.text i t), .text i t]
  | .shape i p => [.node (.shape i p), .shape i p]
  | .container i p cs =>
    let n := SceneNode.container i p cs
    .node n :: .enter n :: (if d n then stations d cs else []) ++ [.leave n]

/-- The way of a guided visitor through a forest. -/
def stations (d : SceneNode → Bool) : List SceneNode → List Station
  | [] => []
  | n :: ns => stationsOf d n ++ stations d ns

end

section Guided

variable {σ : Type} (d : SceneNode → Bool) (step : Station → σ → σ)

theorem walk_guided_container (i : NodeInfo) (p : Paint) (cs : List SceneNode) (s : σ) :
    (Visitor.guided d step).walk (.container i p cs) s =
      step (.leave (.container i p cs))
        (let inside := step (.enter (.container i p cs)) (step (.node (.container i p cs)) s)
        if d (.container i p cs) then (Visitor.guided d step).walkAll cs inside else inside) := rfl

mutual

theorem walk_guided : ∀ (n : SceneNode) (s : σ),
    (Visitor.guided d step).walk n s = (stationsOf d n).foldl (fun s x => step x s) s
  | .text _ _, _ => rfl
  | .shape _ _, _ => rfl
  | .container i p cs, s => by
    by_cases h : d (.container i p cs) <;>
      simp [walk_guided_container, stationsOf, h, walkAll_guided cs]

/-- A guided walk passes its stations one by one. -/
theorem walkAll_guided : ∀ (ns : List SceneNode) (s : σ),
    (Visitor.guided d step).walkAll ns s = (stations d ns).foldl (fun s x => step x s) s
  | [], _ => rfl
  | n :: ns, s => by
    rw [Visitor.walkAll_cons, walk_guided n, walkAll_guided ns, stations, List.foldl_append]

end

end Guided

/-! ### What is open at each node -/

/-- Stations that are nested, after some containers that are open, the innermost first: every node
is followed by what it is, what is entered is left again, the innermost first, and in the end nothing
is open.  Listed are the nodes that are passed, each with the containers that are open there. -/
inductive Nested : List SceneNode → List Station → List (List SceneNode × SceneNode) → Prop
  | done : Nested [] [] []
  | text {around i t xs seen} : Nested around xs seen →
      Nested around (.node (.text i t) :: .text i t :: xs) ((around, .text i t) :: seen)
  | shape {around i p xs seen} : Nested around xs seen →
      Nested around (.node (.shape i p) :: .shape i p :: xs) ((around, .shape i p) :: seen)
  | enter {around i p cs xs seen} : Nested (.container i p cs :: around) xs seen →
      Nested around (.node (.container i p cs) :: .enter (.container i p cs) :: xs)
        ((around, .container i p cs) :: seen)
  | leave {around n xs seen} : Nested around xs seen →
      Nested (n :: around) (.leave n :: xs) seen

/-- The node at a place, with the containers around it, if a guided walk comes to it. -/
def sighting? (d : SceneNode → Bool) (around ns : List SceneNode) (p : List Nat) :
    Option (List SceneNode × SceneNode) :=
  if reached d ns p then (nodeAt? ns p).map fun n => (ancestors ns p ++ around, n) else none

/-- The nodes of a forest that a guided walk comes to, each with the containers around it and those
around the forest. -/
def sightings (d : SceneNode → Bool) (around ns : List SceneNode) :
    List (List SceneNode × SceneNode) :=
  (places ns).filterMap (sighting? d around ns)

section Sightings

variable (d : SceneNode → Bool) (around : List SceneNode)

theorem sighting?_zero : sighting? d around (n :: ns) [0] = some (around, n) := rfl

variable {p} in
theorem sighting?_zero_cons (hp : p ≠ []) :
    sighting? d around (n :: ns) (0 :: p) =
      if d n then sighting? d (n :: around) n.children p else none := by
  by_cases hn : d n <;>
    simp [sighting?, reached, ancestors_zero_cons n ns hp, nodeAt?_zero_cons n ns hp, hn]

theorem sighting?_behind : sighting? d around (n :: ns) (behind p) = sighting? d around ns p := by
  rw [sighting?, reached, ancestors_behind, nodeAt?_behind, sighting?, reached]

theorem sightings_nil : sightings d around [] = [] := rfl

theorem sightings_cons :
    sightings d around (n :: ns) =
      (around, n) :: (if d n then sightings d (n :: around) n.children else []) ++
        sightings d around ns := by
  have hinside : ((places n.children).map (0 :: ·)).filterMap (sighting? d around (n :: ns)) =
      if d n then sightings d (n :: around) n.children else [] := by
    have hcongr : ∀ p ∈ places n.children, (sighting? d around (n :: ns) ∘ (0 :: ·)) p =
        if d n then sighting? d (n :: around) n.children p else none :=
      fun p hp => sighting?_zero_cons n ns d around (ne_nil_of_mem_places hp)
    rw [List.filterMap_map, List.filterMap_congr hcongr]
    by_cases hn : d n <;> simp [hn, sightings]
  have hbehind : ((places ns).map behind).filterMap (sighting? d around (n :: ns)) =
      sightings d around ns := by
    rw [List.filterMap_map]
    exact List.filterMap_congr fun p _ => sighting?_behind n ns p d around
  rw [sightings, places_cons, List.cons_append, List.filterMap_cons, sighting?_zero,
    List.filterMap_append, hinside, hbehind]
  rfl

end Sightings

theorem nested_stations_append (d : SceneNode → Bool) (ns : List SceneNode) :
    ∀ {around xs seen}, Nested around xs seen →
      Nested around (stations d ns ++ xs) (sightings d around ns ++ seen) := by
  induction ns using forest_induction with
  | nil => intro around xs seen h; exact h
  | cons n ns ihn ihs =>
    intro around xs seen h
    rw [stations, sightings_cons, List.append_assoc, List.append_assoc]
    have hbehind := ihs h
    cases n with
    | text i t => simpa [stationsOf, sightings_nil] using hbehind.text
    | shape i p => simpa [stationsOf, sightings_nil] using hbehind.shape
    | container i p cs =>
      rw [children_container] at ihn
      by_cases hd : d (.container i p cs)
      · simpa [stationsOf, hd] using (ihn hbehind.leave).enter
      · simpa [stationsOf, hd] using hbehind.leave.enter

/-- **A guided walk comes to the nodes whose ancestors it may enter**, in the order of their places.
At each of them just the containers around it are open. -/
theorem nested_stations (d : SceneNode → Bool) (ns : List SceneNode) :
    Nested [] (stations d ns) (sightings d [] ns) := by
  simpa using nested_stations_append d ns .done

/-- The node of a station that every node has. -/
def Station.node? : Station → Option SceneNode
  | .node n => some n
  | _ => none

theorem Nested.map_snd {around xs seen} (h : Nested around xs seen) :
    seen.map Prod.snd = xs.filterMap Station.node? := by
  induction h with
  | done => rfl
  | leave _ ih => exact ih
  | text _ ih | shape _ ih | enter _ ih => exact congrArg (_ :: ·) ih

theorem map_snd_sightings (d : SceneNode → Bool) (around ns : List SceneNode) :
    (sightings d around ns).map Prod.snd =
      ((places ns).filter (reached d ns)).filterMap (nodeAt? ns) := by
  rw [sightings, List.map_filterMap, List.filterMap_filter]
  refine List.filterMap_congr fun p _ => ?_
  by_cases h : reached d ns p <;> simp [sighting?, h, Option.map_map, Function.comp_def]

/-! ### Walks that note the texts -/

namespace Visitor

/-- The visitor that does one thing at every text. -/
def atTexts {σ : Type} (f : NodeInfo → Typography → σ → σ) : Visitor σ where
  text := f

end Visitor

/-- The parts of a text node. -/
def textParts? : SceneNode → Option (NodeInfo × Typography)
  | .text i t => some (i, t)
  | _ => none

section Texts

variable {σ : Type} (f : NodeInfo → Typography → σ → σ)

mutual

theorem walk_atTexts : ∀ (n : SceneNode) (s : σ),
    (Visitor.atTexts f).walk n s =
      (n.preorder.filterMap textParts?).foldl (fun s x => f x.1 x.2 s) s
  | .text _ _, _ => rfl
  | .shape _ _, _ => rfl
  | .container _ _ cs, s => walkAll_atTexts cs s

/-- Where nothing is done but at texts, the way goes over the texts of the preorder. -/
theorem walkAll_atTexts : ∀ (ns : List SceneNode) (s : σ),
    (Visitor.atTexts f).walkAll ns s =
      ((preorderAll ns).filterMap textParts?).foldl (fun s x => f x.1 x.2 s) s
  | [], _ => rfl
  | n :: ns, s => by
    rw [Visitor.walkAll_cons, walk_atTexts n, walkAll_atTexts ns, preorderAll, List.filterMap_append,
      List.foldl_append]

end

end Texts

/-! ### All visitors of a selection -/

/-- **What visitors come to in a selection.**  The places of its nodes are in lexicographic order,
and the nodes at these places are as many as the selection has.  A visitor that does something at
every node does it at these nodes, each once and in this order, and one that does something at texts
does it at the texts among them.  A visitor that goes into containers where a predicate holds comes,
in the same order, to the nodes with this predicate at all containers around them: its stations are
nested, and at each of these nodes just the containers around it are open. -/
theorem walks_of_selection (s : Selection) :
    (places s.roots).Pairwise (· < ·) ∧
      (∀ p, p ∈ places s.roots ↔ (nodeAt? s.roots p).isSome) ∧
      ((places s.roots).filterMap (nodeAt? s.roots)).length = s.nodeCount ∧
      (∀ (σ : Type) (f : SceneNode → σ → σ) (a : σ),
        (Visitor.atEvery f).walkAll s.roots a =
          ((places s.roots).filterMap (nodeAt? s.roots)).foldl (fun a n => f n a) a) ∧
      (∀ (σ : Type) (f : NodeInfo → Typography → σ → σ) (a : σ),
        (Visitor.atTexts f).walkAll s.roots a =
          (((places s.roots).filterMap (nodeAt? s.roots)).filterMap textParts?).foldl
            (fun a x => f x.1 x.2 a) a) ∧
      ∀ d : SceneNode → Bool,
        (∀ (σ : Type) (step : Station → σ → σ) (a : σ),
          (Visitor.guided d step).walkAll s.roots a =
            (stations d s.roots).foldl (fun a x => step x a) a) ∧
          (stations d s.roots).filterMap Station.node? =
            ((places s.roots).filter (reached d s.roots)).filterMap (nodeAt? s.roots) ∧
          Nested [] (stations d s.roots) (sightings d [] s.roots) := by
  rw [filterMap_places]
  refine ⟨places_pairwise s.roots, fun p => mem_places s.roots, length_preorderAll s.roots,
    fun σ f a => Visitor.walkAll_atEvery f s.roots a, fun σ f a => walkAll_atTexts f s.roots a,
    fun d => ⟨fun σ step a => walkAll_guided d step s.roots a, ?_, nested_stations d s.roots⟩⟩
  rw [← map_snd_sightings d [] s.roots, (nested_stations d s.roots).map_snd]

/-- The nodes inside a container without the predicate are passed over, and the container is not. -/
example :
    ((stations (fun n => n.info.name != "b")
      [.ofChildren .frame "a"
        [.ofChildren .group "b" [.ofText "c" "x"], .ofShape .rectangle "d"],
       .ofText "e" "y"]).filterMap Station.node?).map (·.info.name) = ["a", "b", "d", "e"] := by
  decide

/-! ### The stations that are noted -/

namespace WalkEvent

/-- What is noted at a station. -/
def ofStation : Station → WalkEvent
  | .node n => .node n.info.name n.info.depth
  | .text i t => .text i.name t.text
  | .shape i _ => .shape i.name
  | .enter n => .enter n.info.name n.children.length
  | .leave n => .leave n.info.name

end WalkEvent

theorem eventVisitor_eq (descends : NodeInfo → Bool) :
    eventVisitor descends =
      Visitor.guided (fun n => descends n.info) fun x es => WalkEvent.ofStation x :: es := rfl

/-- What is noted on the way are the stations of a guided visitor. -/
theorem walkEvents_eq (descends : NodeInfo → Bool) (ns : List SceneNode) :
    walkEvents descends ns =
      (stations (fun n => descends n.info) ns).map WalkEvent.ofStation := by
  rw [walkEvents, eventVisitor_eq, walkAll_guided, List.foldl_flip_cons_eq_append, List.append_nil,
    List.reverse_reverse]

end SceneMarkup
