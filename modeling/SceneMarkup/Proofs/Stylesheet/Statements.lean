import SceneMarkup.Proofs.Stylesheet.Conversion
import SceneMarkup.Proofs.Text.Wordwise

/-!
# Statement by statement

A declaration ends with a semicolon and has no other one, so a stylesheet can be read statement by
statement: what stands up to a semicolon has one declaration at most, which ends there, and it is the
same whatever follows.

The names of properties are free to be configured.  A declaration is read with its own name whenever
no name has a colon, and statements are told apart whenever no name has a semicolon.

## Main definitions

* `IsPropertyName`, `IsPlainName` — what is asked of the names.

## Main results

* `mem_propertyOrder_iff` — the names of a configured list.
* `declaration?_append`, `remFunction?_append` — a declaration that is written is read.
* `declaration?_append_semicolon` — what is read does not depend on what follows its semicolon.
* `pieces_append_semicolon` — **a stylesheet is divided behind a semicolon.**
-/

namespace SceneMarkup
namespace Stylesheet

open Text

/-! ### Names -/

/-- A name of a property: no blank around it, and no colon, at which it would end. -/
structure IsPropertyName (q : List Char) : Prop where
  /-- It is not empty. -/
  ne_nil : q ≠ []
  /-- It starts with no blank. -/
  head : ∀ c ∈ q.head?, isBlank c = false
  /-- It ends with no blank. -/
  trimEnd_eq : trimEnd q = q
  /-- It has no colon. -/
  not_colon : ':' ∉ q

/-- A name of a property without blanks and without the signs that end a name or a value. -/
structure IsPlainName (q : List Char) : Prop where
  /-- It is not empty. -/
  ne_nil : q ≠ []
  /-- It has no blanks. -/
  not_isBlank : ∀ c ∈ q, isBlank c = false
  /-- It has no colon. -/
  not_colon : ':' ∉ q
  /-- It has no semicolon. -/
  not_semicolon : ';' ∉ q

instance (q : List Char) : Decidable (IsPlainName q) :=
  decidable_of_iff (q ≠ [] ∧ (q.all fun c => isBlank c = false) = true ∧ ':' ∉ q ∧ ';' ∉ q)
    ⟨fun ⟨h₁, h₂, h₃, h₄⟩ => ⟨h₁, forall_mem_of_all h₂, h₃, h₄⟩,
      fun h => ⟨h.1, List.all_eq_true.2 fun c hc => decide_eq_true (h.2 c hc), h.3, h.4⟩⟩

theorem IsPlainName.isPropertyName {q : List Char} (h : IsPlainName q) : IsPropertyName q where
  ne_nil := h.ne_nil
  head := head?_of_run h.not_isBlank
  trimEnd_eq := by
    have htrim := trim_run h.not_isBlank
    rwa [trim, trimStart_of_head? (head?_of_run h.not_isBlank)] at htrim
  not_colon := h.not_colon

theorem mem_insertProperty_iff {p q : String} {qs : List String} :
    q ∈ insertProperty p qs ↔ q = p ∨ q ∈ qs := by
  induction qs with
  | nil => simp [insertProperty]
  | cons r qs ih =>
    rw [insertProperty]
    split
    · next h => simp [h]
    · split
      · simp
      · rw [List.mem_cons, ih, List.mem_cons]
        tauto

/-- The properties of a configured list are its names without the blanks around them, the empty ones
left out. -/
theorem mem_propertyOrder_iff {p : String} {names : List String} :
    p ∈ propertyOrder names ↔ p.toList ≠ [] ∧ ∃ q ∈ names, trim q.toList = p.toList := by
  induction names with
  | nil => simp [propertyOrder]
  | cons r names ih =>
    rw [propertyOrder]
    split
    · next h =>
      rw [ih]
      refine and_congr_right fun hne => ?_
      simp [h, hne.symm]
    · next hne =>
      rw [mem_insertProperty_iff, ih]
      constructor
      · rintro (rfl | ⟨hp, q, hq, h⟩)
        · rw [String.toList_ofList]
          exact ⟨hne, r, List.mem_cons_self, rfl⟩
        · exact ⟨hp, q, List.mem_cons_of_mem r hq, h⟩
      · rintro ⟨hp, q, hq, h⟩
        rcases List.mem_cons.1 hq with rfl | hq
        · exact Or.inl (String.toList_inj.1 (by rw [String.toList_ofList, h]))
        · exact Or.inr ⟨hp, q, hq, h⟩

/-- The names of a configured list, as the rule of sizes reads them. -/
theorem isPropertyName_of_mem {names : List String}
    (hcolon : ∀ q ∈ propertyOrder names, ':' ∉ q.toList) :
    ∀ q ∈ (propertyOrder names).map String.toList, IsPropertyName q := by
  intro q' hq'
  obtain ⟨q, hq, rfl⟩ := List.mem_map.1 hq'
  obtain ⟨hne, r, -, hr⟩ := mem_propertyOrder_iff.1 hq
  refine ⟨hne, ?_, ?_, hcolon q hq⟩
  · rw [← hr]
    exact head?_trim r.toList
  · rw [← hr, trim, trimEnd_trimEnd]

/-! ### Reading what is written -/

theorem findSome?_congr {α β : Type} {f g : α → Option β} {l : List α}
    (h : ∀ a ∈ l, f a = g a) : l.findSome? f = l.findSome? g := by
  induction l with
  | nil => rfl
  | cons a l ih =>
    rw [List.findSome?_cons, List.findSome?_cons, h a List.mem_cons_self,
      ih fun b hb => h b (List.mem_cons_of_mem a hb)]

/-- What one member finds is found first when no other member finds anything else. -/
theorem findSome?_eq_some_of_forall {α β : Type} {f : α → Option β} {l : List α} {a : α} {b : β}
    (ha : a ∈ l) (hfa : f a = some b) (h : ∀ a' ∈ l, ∀ b', f a' = some b' → b' = b) :
    l.findSome? f = some b := by
  have hsome : (l.findSome? f).isSome := by
    rw [List.findSome?_isSome_iff]
    exact ⟨a, ha, by rw [hfa]; rfl⟩
  obtain ⟨b', hb'⟩ := Option.isSome_iff_exists.1 hsome
  obtain ⟨a', ha', hfa'⟩ := List.exists_of_findSome?_eq_some hb'
  rw [hb', h a' ha' b' hfa']

theorem isValueChar_of_isBlank {c : Char} (h : isBlank c = true) : isValueChar c = true :=
  forall_blank (P := fun c => isValueChar c = true) (by decide) h

theorem declarationValue?_append {y : List Char} (hne : y ≠ [])
    (hy : ∀ c ∈ y, isValueChar c = true) (r : List Char) :
    declarationValue? (y ++ ';' :: r) = some (withoutLead y, r) := by
  have hstop : ∀ c ∈ (';' :: r).head?, isValueChar c = false := by
    intro c hc
    obtain rfl : ';' = c := Option.some.inj hc
    rfl
  obtain ⟨htake, hdrop⟩ := takeWhile_append_of_head? hy hstop
  rw [declarationValue?, htake, hdrop]
  split
  · exact absurd rfl hne
  · next h =>
    cases h
    rfl
  · next h => exact absurd rfl (h r)

theorem afterColon?_append {w : List Char} (hw : ∀ c ∈ w, isBlank c = true) (r : List Char) :
    afterColon? (w ++ ':' :: r) = some r := by
  rw [afterColon?, trimStart_blanks_append hw (by decide)]
  rfl

theorem propertyValue?_append (p : List Char) {w y : List Char}
    (hw : ∀ c ∈ w, isBlank c = true) (hne : y ≠ []) (hy : ∀ c ∈ y, isValueChar c = true)
    (r : List Char) :
    propertyValue? p (p ++ (w ++ ':' :: (y ++ ';' :: r))) = some (withoutLead y, r) := by
  rw [propertyValue?, after?_append]
  dsimp only
  rw [afterColon?_append hw]
  exact declarationValue?_append hne hy r

theorem not_colon_of_name {q w : List Char} (hq : IsPropertyName q)
    (hw : ∀ c ∈ w, isBlank c = true) : ':' ∉ q ++ w := by
  rw [List.mem_append, not_or]
  exact ⟨hq.not_colon, not_mem_of_isBlank hw (by decide)⟩

/-- **A declaration that is written is read**, with its own name, as long as no name has a colon. -/
theorem declaration?_append {ps : List (List Char)} (hps : ∀ q ∈ ps, IsPropertyName q)
    {lead p w y : List Char} (hne : lead ≠ []) (hlead : ∀ c ∈ lead, isBlank c = true)
    (hp : p ∈ ps) (hw : ∀ c ∈ w, isBlank c = true) (hyne : y ≠ [])
    (hy : ∀ c ∈ y, isValueChar c = true) (r : List Char) :
    declaration? ps (lead ++ (p ++ (w ++ ':' :: (y ++ ';' :: r))))
      = some (⟨lead, p, withoutLead y⟩, r) := by
  have hhead : ∀ c ∈ (p ++ (w ++ ':' :: (y ++ ';' :: r))).head?, isBlank c = false := by
    rw [List.head?_append_of_ne_nil p (hps p hp).ne_nil]
    exact (hps p hp).head
  have hread := propertyValue?_append p hw hyne hy r
  obtain ⟨htake, hdrop⟩ := takeWhile_append_of_head? hlead hhead
  rw [declaration?, htake, hdrop]
  split
  · exact absurd rfl hne
  · refine findSome?_eq_some_of_forall hp (by rw [hread]) ?_
    intro q hq found hq'
    split at hq'
    · next v rest hv =>
      cases hq'
      -- the name that reads the text ends at the same colon
      obtain ⟨w₁, w₂, hw₁, -, -, htext⟩ := propertyValue?_eq_some hv
      rw [← List.append_assoc p, ← List.append_assoc q] at htext
      obtain ⟨hname, -⟩ := append_cons_inj_of_not_mem (not_colon_of_name (hps p hp) hw)
        (not_colon_of_name (hps q hq) hw₁) htext
      obtain rfl : p = q := by
        rw [← (hps p hp).trimEnd_eq, ← trimEnd_append_blanks hw, hname,
          trimEnd_append_blanks hw₁, (hps q hq).trimEnd_eq]
      rw [hread] at hv
      cases hv
      rfl
    · cases hq'

/-- A value in the parentheses of the `rem` function that is written is read. -/
theorem remFunction?_append {lead p w₁ w₂ w₃ v : List Char} (hne : lead ≠ [])
    (hlead : ∀ c ∈ lead, isBlank c = true) (hpne : p ≠ [])
    (hp : ∀ c ∈ p, (c.isAlpha || c == '-') = true) (hw₁ : ∀ c ∈ w₁, isBlank c = true)
    (hw₂ : ∀ c ∈ w₂, isBlank c = true) (hw₃ : ∀ c ∈ w₃, isBlank c = true) (hvne : v ≠ [])
    (hv : ')' ∉ v) (r : List Char) :
    remFunction? (lead ++ (p ++ (w₁ ++ ':' ::
      (w₂ ++ ("rem(".toList ++ (v ++ ')' :: (w₃ ++ ';' :: r)))))))
      = some (⟨lead, p, v⟩, r) := by
  obtain ⟨b, lead, rfl⟩ := List.exists_cons_of_ne_nil hne
  obtain ⟨a, p, rfl⟩ := List.exists_cons_of_ne_nil hpne
  obtain ⟨e, v, rfl⟩ := List.exists_cons_of_ne_nil hvne
  have hletter : ∀ c ∈ (a :: p).head?, isBlank c = false := by
    intro c hc
    have hpc := hp c (List.mem_of_mem_head? hc)
    by_contra hblank
    rw [Bool.not_eq_false] at hblank
    have hnot : (c.isAlpha || c == '-') = false :=
      forall_blank (P := fun c => (c.isAlpha || c == '-') = false) (by decide) hblank
    rw [hpc] at hnot
    cases hnot
  have hcolon : ∀ z : List Char, ∀ c ∈ (w₁ ++ ':' :: z).head?, (c.isAlpha || c == '-') = false := by
    intro z c hc
    cases w₁ with
    | nil =>
      obtain rfl : ':' = c := Option.some.inj hc
      decide
    | cons d w₁ =>
      obtain rfl : d = c := Option.some.inj hc
      exact forall_blank (P := fun c => (c.isAlpha || c == '-') = false) (by decide)
        (hw₁ d List.mem_cons_self)
  have hparen : ∀ c ∈ e :: v, (c != ')') = true := by
    intro c hc
    refine bne_iff_ne.2 ?_
    rintro rfl
    exact hv hc
  obtain ⟨htake, hdrop⟩ := takeWhile_append_of_head? hlead
    (z := (a :: p) ++ (w₁ ++ ':' :: (w₂ ++ ("rem(".toList ++ (e :: v ++ ')' :: (w₃ ++ ';' :: r))))))
    (by rw [List.head?_append_of_ne_nil _ hpne]; exact hletter)
  obtain ⟨htake', hdrop'⟩ := takeWhile_append_of_head? hp
    (hcolon (w₂ ++ ("rem(".toList ++ (e :: v ++ ')' :: (w₃ ++ ';' :: r)))))
  obtain ⟨htake'', hdrop''⟩ := takeWhile_append_of_head? hparen (z := ')' :: (w₃ ++ ';' :: r))
    (by simp)
  have hopen : trimStart (w₂ ++ ("rem(".toList ++ (e :: v ++ ')' :: (w₃ ++ ';' :: r))))
      = "rem(".toList ++ (e :: v ++ ')' :: (w₃ ++ ';' :: r)) :=
    trimStart_blanks_append hw₂ (d := 'r') (by decide) _
  simp only [remFunction?, htake, hdrop, htake', hdrop', afterColon?_append hw₁, hopen,
    after?_append, htake'', hdrop'', trimStart_blanks_append hw₃ (d := ';') (by decide)]

/-! ### Reading up to a semicolon -/

theorem after?_append_cons {q : List Char} {b : Char} (hb : b ∉ q) (u z : List Char) :
    after? q (u ++ b :: z) = (after? q u).map (· ++ b :: z) := by
  induction q generalizing u with
  | nil => rw [after?_nil, after?_nil, Option.map_some]
  | cons a q ih =>
    rw [List.mem_cons, not_or] at hb
    cases u with
    | nil =>
      rw [List.nil_append, after?.eq_3, if_neg (Ne.symm hb.1)]
      rfl
    | cons c u =>
      rw [List.cons_append, after?, after?]
      split
      · exact ih hb.2 u
      · rfl

theorem afterColon?_append_semicolon (u r : List Char) :
    afterColon? (u ++ ';' :: r) = (afterColon? u).map (· ++ ';' :: r) := by
  have htrim : trimStart (u ++ ';' :: r) = trimStart u ++ ';' :: r :=
    (takeWhile_append_of_stops (P := isBlank) (x := ';' :: r) (by
      intro c hc
      obtain rfl : ';' = c := Option.some.inj hc
      decide)).2
  rw [afterColon?, htrim, afterColon?]
  cases trimStart u with
  | nil => rfl
  | cons c z =>
    by_cases hc : c = ':'
    · subst hc
      rfl
    · rw [List.cons_append]
      split
      · next h => exact absurd (List.cons.inj h).1 hc
      · split
        · next h => exact absurd (List.cons.inj h).1 hc
        · rfl

theorem declarationValue?_append_semicolon {u : List Char} (hu : ';' ∉ u) (r : List Char) :
    declarationValue? (u ++ ';' :: r)
      = (declarationValue? (u ++ [';'])).map fun x => (x.1, r) := by
  have hstop : ∀ z, ∀ c ∈ (';' :: z).head?, isValueChar c = false := by
    intro z c hc
    obtain rfl : ';' = c := Option.some.inj hc
    rfl
  by_cases hy : ∀ c ∈ u, isValueChar c = true
  · by_cases hne : u = []
    · subst hne
      rfl
    · rw [declarationValue?_append hne hy, declarationValue?_append hne hy, Option.map_some]
  · -- the value ends at a brace
    have hnone : ∀ z, declarationValue? (u ++ ';' :: z) = none := by
      intro z
      obtain ⟨htake, hdrop⟩ := takeWhile_append_of_stops (s := u) (hstop z)
      rw [declarationValue?, htake, hdrop]
      cases hend : u.dropWhile isValueChar with
      | nil => exact absurd (List.dropWhile_eq_nil_iff.1 hend) hy
      | cons c z' =>
        have hc : c ≠ ';' := by
          rintro rfl
          exact hu ((List.dropWhile_sublist _).subset (hend ▸ List.mem_cons_self))
        split
        · rfl
        · next h _ => exact absurd (List.cons.inj h).1 hc
        · rfl
    rw [hnone, hnone, Option.map_none]

theorem propertyValue?_append_semicolon {q u : List Char} (hq : ';' ∉ q) (hu : ';' ∉ u)
    (r : List Char) :
    propertyValue? q (u ++ ';' :: r)
      = (propertyValue? q (u ++ [';'])).map fun x => (x.1, r) := by
  rw [propertyValue?, propertyValue?, after?_append_cons hq, after?_append_cons hq]
  cases ha : after? q u with
  | none => rfl
  | some z =>
    dsimp only [Option.map_some]
    rw [afterColon?_append_semicolon, afterColon?_append_semicolon]
    cases hz : afterColon? z with
    | none => rfl
    | some z' =>
      refine declarationValue?_append_semicolon (fun hmem => hu ?_) r
      obtain ⟨w, -, rfl⟩ := afterColon?_eq_some hz
      rw [after?_eq_some_iff.1 ha]
      exact List.mem_append_right _ (List.mem_append_right _ (List.mem_cons_of_mem _ hmem))

section Statements

variable {ps : List (List Char)} (hps : ∀ q ∈ ps, ';' ∉ q)

include hps

/-- What is read in front of a semicolon does not depend on what follows it. -/
theorem declaration?_append_semicolon {u : List Char} (hu : ';' ∉ u) (r : List Char) :
    declaration? ps (u ++ ';' :: r) = (declaration? ps (u ++ [';'])).map fun x => (x.1, r) := by
  have hstop : ∀ z, ∀ c ∈ (';' :: z).head?, isBlank c = false := by
    intro z c hc
    obtain rfl : ';' = c := Option.some.inj hc
    decide
  obtain ⟨htake, hdrop⟩ := takeWhile_append_of_stops (s := u) (hstop r)
  obtain ⟨htake', hdrop'⟩ := takeWhile_append_of_stops (s := u) (hstop [])
  rw [declaration?, declaration?, htake, hdrop, htake', hdrop']
  cases u.takeWhile isBlank with
  | nil => rfl
  | cons b lead =>
    dsimp only
    rw [List.map_findSome?]
    refine findSome?_congr fun q hq => ?_
    have hrest : ';' ∉ u.dropWhile isBlank := fun h => hu ((List.dropWhile_sublist _).subset h)
    rw [propertyValue?_append_semicolon (hps q hq) hrest, Function.comp_apply]
    cases propertyValue? q (u.dropWhile isBlank ++ [';']) with
    | none => rfl
    | some x => rfl

theorem rest_of_declaration? {u r : List Char} (hu : ';' ∉ u) {d : Declaration}
    (h : declaration? ps (u ++ [';']) = some (d, r)) : r = [] := by
  have := declaration?_append_semicolon hps hu []
  rw [h, Option.map_some, Option.some_inj] at this
  exact (Prod.mk.inj this).2

/-- A stylesheet is divided behind a semicolon. -/
theorem pieces_append_semicolon {u : List Char} (hu : ';' ∉ u) (r : List Char) :
    pieces (declaration? ps) (u ++ ';' :: r)
      = pieces (declaration? ps) (u ++ [';']) ++ pieces (declaration? ps) r := by
  induction u with
  | nil => rw [List.nil_append, List.nil_append, pieces_cons_of_none rfl,
      pieces_cons_of_none rfl, pieces_nil, List.singleton_append]
  | cons c u ih =>
    have hu' : ';' ∉ u := fun h => hu (List.mem_cons_of_mem c h)
    have hread := declaration?_append_semicolon hps hu r
    cases h : declaration? ps (c :: u ++ [';']) with
    | none =>
      rw [h, Option.map_none] at hread
      rw [List.cons_append] at h hread ⊢
      rw [List.cons_append, pieces_cons_of_none hread, pieces_cons_of_none h, ih hu',
        List.cons_append]
    | some x =>
      obtain ⟨d, r'⟩ := x
      obtain rfl := rest_of_declaration? hps hu h
      rw [h, Option.map_some] at hread
      have hne : c :: u ++ [';'] ≠ [] := by simp
      have htext : c :: u ++ ';' :: r = c :: u ++ [';'] ++ r := by simp
      rw [htext] at hread ⊢
      rw [← List.append_nil (c :: u ++ [';'])] at h
      rw [pieces_append_of_some hne hread, ← List.append_nil (c :: u ++ [';']),
        pieces_append_of_some hne h, pieces_nil, List.append_nil, List.singleton_append]

end Statements

end Stylesheet
end SceneMarkup
