import Mathlib.Logic.Function.Iterate
import SceneMarkup.Proofs.Stylesheet.Rerun
import SceneMarkup.Proofs.Stylesheet.Statements

/-!
# A conversion made again

A statement has one declaration at most, and what it is converted to is a statement again.  What is
found in it then can only be a declaration inside the argument of the mixin: in front of the mixin
nothing was found before, and no name goes on into it, for the mixin starts with a word, a blank and
another word.  So a second conversion changes a stylesheet exactly when it changes one of the
mixins that the first one wrote.  A value without a colon makes none that it would change.

## Main definitions

* `IsUnread` — characters at which nothing is read.
* `mixinCall` — a mixin without its semicolon.

## Main results

* `statement_cases` — a statement is unread characters, with a declaration behind them or without.
* `declaration?_mixin_eq_none` — nothing in front of a mixin is read together with it.
* `convert_convert_iff` — **a second conversion changes nothing exactly when it changes none of the
  mixins that the first one wrote.**
* `convert_convert_of_not_colon` — as it does when no converted value has a colon.
* `convert_settles` — conversions made again and again come to an end.
* `sizes_converted_again` — all of this for the rule of sizes.
-/

namespace SceneMarkup
namespace Stylesheet

open Text

/-! ### Unread characters -/

section Unread

variable {α : Type} {p : Recogniser α}

/-- Characters at none of which anything is read in front of the rest `z`. -/
def IsUnread (p : Recogniser α) (x z : List Char) : Prop :=
  ∀ y, y ≠ [] → y <:+ x → p (y ++ z) = none

theorem isUnread_nil (z : List Char) : IsUnread p [] z := by
  intro y hne hy
  exact absurd (List.suffix_nil.1 hy) hne

theorem isUnread_cons {c : Char} {x z : List Char} (h : p (c :: x ++ z) = none)
    (hx : IsUnread p x z) : IsUnread p (c :: x) z := by
  intro y hne hy
  rcases List.suffix_cons_iff.1 hy with rfl | hy
  · exact h
  · exact hx y hne hy

theorem pieces_append_of_isUnread {x z : List Char} (h : IsUnread p x z) :
    pieces p (x ++ z) = x.map Piece.plain ++ pieces p z := by
  induction x with
  | nil => rfl
  | cons c x ih =>
    have hc := h (c :: x) (List.cons_ne_nil c x) List.suffix_rfl
    have hx : IsUnread p x z := fun y hne hy => h y hne (hy.trans (List.suffix_cons c x))
    rw [List.cons_append] at hc ⊢
    rw [pieces_cons_of_none hc, ih hx]
    rfl

theorem pieces_of_isUnread {s : List Char} (h : IsUnread p s []) :
    pieces p s = s.map Piece.plain := by
  have := pieces_append_of_isUnread h
  rwa [List.append_nil, pieces_nil, List.append_nil] at this

theorem found_mem_map_plain_append_iff {x t t' : List Char} {a a' : α} :
    .found t' a' ∈ x.map Piece.plain ++ [.found t a] ↔ t' = t ∧ a' = a := by
  simp

end Unread

theorem replaced_map_plain {α : Type} (f : List Char → α → List Char) (x : List Char) :
    (x.map (Piece.plain : Char → Piece α)).flatMap (Piece.replaced f) = x := by
  induction x with
  | nil => rfl
  | cons c x ih =>
    rw [List.map_cons, List.flatMap_cons, ih]
    rfl

/-! ### Mixins -/

/-- What stands in front of the semicolon of a mixin. -/
def mixinCall (p w : List Char) : List Char :=
  "@include rem(".toList ++ (p ++ (", ".toList ++ (w ++ [')'])))

theorem mixin_eq (p w : List Char) : mixin p w = mixinCall p w ++ [';'] := by
  have hend : ");".toList = [')'] ++ [';'] := by decide
  unfold mixin mixinCall
  rw [hend]
  simp only [List.append_assoc]

theorem not_semicolon_mixinCall {p w : List Char} (hp : ';' ∉ p) (hw : ';' ∉ w) :
    ';' ∉ mixinCall p w := by
  have hopen : ';' ∉ "@include rem(".toList := by decide
  have hcomma : ';' ∉ ", ".toList := by decide
  have hclose : ';' ∉ [')'] := by decide
  unfold mixinCall
  rw [List.mem_append, List.mem_append, List.mem_append, List.mem_append]
  rintro (h | h | h | h | h)
  · exact hopen h
  · exact hp h
  · exact hcomma h
  · exact hw h
  · exact hclose h

/-- A text that goes on with another word behind a blank has two words at least. -/
theorem two_le_length_words {u v : List Char} {c d : Char} (hc : c ∈ u) (hd : d ∈ v)
    (hcb : isBlank c = false) (hdb : isBlank d = false) :
    2 ≤ (words (u ++ ' ' :: v)).length := by
  have hpos : ∀ {s : List Char} {c : Char}, c ∈ s → isBlank c = false → 0 < (words s).length := by
    intro s c hc hb
    refine List.length_pos_iff.2 fun hnil => ?_
    rw [isBlank_of_words_eq_nil hnil c hc] at hb
    cases hb
  rw [words_append_blank isBlank_space, List.length_append]
  have := hpos hc hcb
  have := hpos hd hdb
  omega

section Conversions

variable {ps : List (List Char)} (hps : ∀ q ∈ ps, IsPlainName q)

include hps

/-! ### One statement -/

/-- A statement is characters at which nothing is read, and behind them a declaration or nothing. -/
theorem statement_cases {u : List Char} (hu : ';' ∉ u) :
    IsUnread (declaration? ps) (u ++ [';']) [] ∨
      ∃ x t d, u ++ [';'] = x ++ t ∧ declaration? ps t = some (d, []) ∧
        IsUnread (declaration? ps) x t := by
  have hsemi : ∀ q ∈ ps, ';' ∉ q := fun q hq => (hps q hq).not_semicolon
  induction u with
  | nil => exact Or.inl (isUnread_cons rfl (isUnread_nil []))
  | cons c u ih =>
    cases h : declaration? ps (c :: u ++ [';']) with
    | some found =>
      obtain ⟨d, r⟩ := found
      obtain rfl := rest_of_declaration? hsemi hu h
      exact Or.inr ⟨[], c :: u ++ [';'], d, rfl, h, isUnread_nil _⟩
    | none =>
      rcases ih fun hmem => hu (List.mem_cons_of_mem c hmem) with hx | ⟨x, t, d, ht, hd, hx⟩
      · refine Or.inl (isUnread_cons ?_ hx)
        rw [List.append_nil]
        exact h
      · refine Or.inr ⟨c :: x, t, d, by rw [List.cons_append, ht]; rfl, hd, isUnread_cons ?_ hx⟩
        rw [List.cons_append, ← ht]
        exact h

omit hps in
/-- The text of a declaration with nothing behind it. -/
theorem text_of_statement {t : List Char} {d : Declaration}
    (h : declaration? ps t = some (d, [])) :
    ∃ w₁ w₂, (∀ c ∈ w₁, isBlank c = true) ∧ (∀ c ∈ w₂, isBlank c = true) ∧
      (∀ c ∈ w₂ ++ d.value, isValueChar c = true) ∧
      t = d.lead ++ (d.property ++ (w₁ ++ ':' :: (w₂ ++ (d.value ++ [';'])))) := by
  rw [← List.append_nil t] at h
  exact text_of_declaration? h

omit hps in
/-- Value characters are no semicolons. -/
theorem not_semicolon_of_isValueChar {v : List Char} (hv : ∀ c ∈ v, isValueChar c = true) :
    ';' ∉ v := fun hmem => absurd (hv ';' hmem) (by decide)

omit hps in
/-- No name goes on from a text without a colon into a mixin, for it would run over the first word of
the mixin into the second. -/
theorem append_mixin_ne {y p w lead q v z : List Char} (hy : ':' ∉ y)
    (hlead : ∀ c ∈ lead, isBlank c = true) (hq : IsPlainName q) (hv : ∀ c ∈ v, isBlank c = true) :
    y ++ mixin p w ≠ lead ++ (q ++ v) ++ ':' :: z := by
  intro h
  have hopen : ':' ∉ "@include rem(".toList := by decide
  have hmixin : mixin p w = "@include rem(".toList
      ++ (p ++ (", ".toList ++ (w ++ [')'])) ++ [';']) := by
    rw [mixin_eq]
    unfold mixinCall
    exact List.append_assoc _ _ _
  have hfree : ':' ∉ y ++ "@include rem(".toList := by
    rw [List.mem_append, not_or]
    exact ⟨hy, hopen⟩
  rw [hmixin, ← List.append_assoc] at h
  obtain ⟨a, ha, -⟩ := eq_append_of_not_mem hfree h.symm
  have hone : (words (lead ++ (q ++ v))).length = 1 := by
    rw [words_blanks_append hlead, words_append_blanks hv, words_run hq.ne_nil hq.not_isBlank]
    rfl
  have htwo : 2 ≤ (words ((y ++ "@include".toList) ++ ' ' :: ("rem(".toList ++ a))).length :=
    two_le_length_words (c := '@') (d := 'r') (List.mem_append_right _ (by decide))
      (List.mem_append_left _ (by decide)) (by decide) (by decide)
  have hwords : (y ++ "@include".toList) ++ ' ' :: ("rem(".toList ++ a) = lead ++ (q ++ v) := by
    rw [ha]
    simp
  rw [hwords, hone] at htwo
  omega

/-- What is unread in front of a declaration does not go on through it as the value of another
one. -/
theorem not_isValueChar_of_isUnread {x t lead q v b : List Char} {d : Declaration}
    (ht : declaration? ps t = some (d, [])) (hunread : IsUnread (declaration? ps) x t)
    (hne : lead ≠ []) (hlead : ∀ c ∈ lead, isBlank c = true) (hq : q ∈ ps)
    (hv : ∀ c ∈ v, isBlank c = true) (hz : lead ++ (q ++ v) ++ ':' :: b <:+ x) :
    ¬ ∀ c ∈ b ++ d.property, isValueChar c = true := by
  intro h
  obtain ⟨-, hlead', -⟩ := declaration?_eq_some ht
  obtain ⟨w₁, w₂, hw₁, hw₂, hval, htext⟩ := text_of_statement ht
  have hchars : ∀ c ∈ b ++ (d.lead ++ (d.property ++ (w₁ ++ ':' :: (w₂ ++ d.value)))),
      isValueChar c = true := by
    intro c hc
    simp only [List.mem_append, List.mem_cons] at hc
    rcases hc with hc | hc | hc | hc | rfl | hc
    · exact h c (List.mem_append_left _ hc)
    · exact isValueChar_of_isBlank (hlead' c hc)
    · exact h c (List.mem_append_right _ hc)
    · exact isValueChar_of_isBlank (hw₁ c hc)
    · rfl
    · exact hval c (List.mem_append.2 hc)
  have hread := declaration?_append (fun q hq => (hps q hq).isPropertyName) hne hlead hq hv
    (by simp) hchars []
  refine absurd (hunread _ (by simp) hz) ?_
  rw [htext]
  simp only [List.append_assoc, List.cons_append] at hread ⊢
  rw [hread]
  exact Option.some_ne_none _

/-- **Nothing in front of a mixin is read together with it** when nothing was read in front of the
declaration that the mixin replaces. -/
theorem declaration?_mixin_eq_none {x t w y : List Char} {d : Declaration} (hx : ';' ∉ x)
    (ht : declaration? ps t = some (d, [])) (hunread : IsUnread (declaration? ps) x t)
    (hw : ';' ∉ w) (hy : y <:+ x ++ d.lead) :
    declaration? ps (y ++ mixin d.property w) = none := by
  obtain ⟨-, hlead, hmem, -⟩ := declaration?_eq_some ht
  by_contra h
  obtain ⟨⟨d', r'⟩, h⟩ := Option.ne_none_iff_exists'.1 h
  obtain ⟨hne', hlead', hmem', v₁, v₂, hv₁, hv₂, hval', hs⟩ := declaration?_eq_some h
  have hs' : y ++ mixin d.property w = (d'.lead ++ (d'.property ++ v₁)) ++
      ':' :: (v₂ ++ d'.value ++ ';' :: r') := by
    rw [hs]
    simp
  have hcolon : ':' ∈ y := by
    by_contra hcolon
    exact append_mixin_ne hcolon hlead' (hps _ hmem') hv₁ hs'
  -- the colon stands in front of the blanks of the declaration, so in what was unread
  obtain ⟨z, rfl, hz⟩ : ∃ z, y = z ++ d.lead ∧ z <:+ x := by
    rcases List.suffix_or_suffix_of_suffix hy (List.suffix_append x d.lead) with h | h
    · exact absurd (h.subset hcolon) (not_mem_of_isBlank hlead (by decide))
    · obtain ⟨z, rfl⟩ := h
      exact ⟨z, rfl, List.suffix_append_self_iff.1 hy⟩
  have hcolon : ':' ∈ z := by
    rcases List.mem_append.1 hcolon with h | h
    · exact h
    · exact absurd h (not_mem_of_isBlank hlead (by decide))
  obtain ⟨a, b, rfl, ha⟩ := List.eq_append_cons_of_mem hcolon
  have hname : ':' ∉ d'.lead ++ (d'.property ++ v₁) := by
    simp [not_mem_of_isBlank hlead' (c := ':') (by decide), (hps _ hmem').not_colon,
      not_mem_of_isBlank hv₁ (c := ':') (by decide)]
  have hsplit : a ++ ':' :: (b ++ d.lead ++ mixinCall d.property w ++ [';'])
      = (d'.lead ++ (d'.property ++ v₁)) ++ ':' :: (v₂ ++ d'.value ++ ';' :: r') := by
    rw [← hs', mixin_eq]
    simp
  obtain ⟨rfl, hrest⟩ := append_cons_inj_of_not_mem ha hname hsplit
  -- behind it stand value characters only, in the mixin and so in the declaration
  have hfree : ';' ∉ b ++ d.lead ++ mixinCall d.property w := by
    have hb : ';' ∉ b := fun h =>
      hx (hz.subset (List.mem_append_right _ (List.mem_cons_of_mem _ h)))
    simp [hb, not_mem_of_isBlank hlead (c := ';') (by decide),
      not_semicolon_mixinCall (hps _ hmem).not_semicolon hw]
  obtain ⟨hvalue, -⟩ :=
    append_cons_inj_of_not_mem hfree (not_semicolon_of_isValueChar hval') hrest
  have hb : ∀ c ∈ b ++ d.lead ++ mixinCall d.property w, isValueChar c = true := hvalue ▸ hval'
  refine not_isValueChar_of_isUnread hps ht hunread hne' hlead' hmem' hv₁ hz fun c hc => ?_
  rcases List.mem_append.1 hc with hc | hc
  · exact hb c (List.mem_append_left _ (List.mem_append_left _ hc))
  · exact hb c (List.mem_append_right _ (List.mem_append_right _ (List.mem_append_left _ hc)))

/-! ### What is converted -/

variable {f : List Char → Option (List Char)}
  (hf : ∀ v w, f v = some w → lasting w = lasting v)

omit hps in
theorem convert_eq (s : List Char) :
    convert ps f s = (pieces (declaration? ps) s).flatMap (Piece.replaced fun text d =>
      match f d.value with
      | some argument => d.lead ++ mixin d.property argument
      | none => text) :=
  rfl

omit hps in
theorem convert_unread {x z : List Char} (h : IsUnread (declaration? ps) x z) :
    convert ps f (x ++ z) = x ++ convert ps f z := by
  rw [convert_eq, pieces_append_of_isUnread h, List.flatMap_append, replaced_map_plain]
  rfl

/-- **Statements are converted one by one.** -/
theorem convert_append_semicolon {u : List Char} (hu : ';' ∉ u) (r : List Char) :
    convert ps f (u ++ ';' :: r) = convert ps f (u ++ [';']) ++ convert ps f r := by
  have hsemi : ∀ q ∈ ps, ';' ∉ q := fun q hq => (hps q hq).not_semicolon
  rw [convert_eq, pieces_append_semicolon hsemi hu, List.flatMap_append]
  rfl

omit hps in
/-- A text without a colon or without a semicolon has no declaration. -/
theorem occurrences_declaration?_eq_nil {u : List Char} (hu : ':' ∉ u ∨ ';' ∉ u) :
    occurrences (declaration? ps) u = [] := by
  refine List.eq_nil_iff_forall_not_mem.2 fun o ho => ?_
  obtain ⟨x, r, hs, -, -, hread⟩ := place_of_mem_occurrences (consumes_declaration? ps) ho
  obtain ⟨w₁, w₂, -, -, -, htext⟩ := text_of_declaration? hread
  rw [hs, htext] at hu
  simp at hu

include hf in
omit hps in
/-- A lasting character stands in an argument if it stands in the value. -/
theorem mem_of_mem_argument {v w : List Char} (h : f v = some w) {b : Char}
    (hb : isLasting b = true) (hmem : b ∈ w) : b ∈ v := by
  have hlast : b ∈ lasting w := List.mem_filter.2 ⟨hmem, hb⟩
  rw [hf v w h] at hlast
  exact (List.mem_filter.1 hlast).1

omit hps in
theorem pieces_statement {x t : List Char} {d : Declaration}
    (ht : declaration? ps t = some (d, [])) (hx : IsUnread (declaration? ps) x t) :
    pieces (declaration? ps) (x ++ t) = x.map Piece.plain ++ [.found t d] := by
  have hne : t ≠ [] := by
    rintro rfl
    cases ht
  rw [← List.append_nil t] at ht
  have hread := pieces_append_of_some hne ht
  rw [List.append_nil, pieces_nil] at hread
  rw [pieces_append_of_isUnread hx, hread]

omit hps in
theorem convert_statement {x t : List Char} {d : Declaration}
    (ht : declaration? ps t = some (d, [])) (hx : IsUnread (declaration? ps) x t) :
    convert ps f (x ++ t) = x ++ (match f d.value with
      | some w => d.lead ++ mixin d.property w
      | none => t) := by
  rw [convert_eq, pieces_statement ht hx, List.flatMap_append, replaced_map_plain,
    List.flatMap_singleton]
  rfl

omit hps in
/-- The semicolon of a statement is that of the declaration in it. -/
theorem not_semicolon_of_statement {u x t : List Char} {d : Declaration} (hu : ';' ∉ u)
    (hs : u ++ [';'] = x ++ t) (ht : declaration? ps t = some (d, [])) : ';' ∉ x := by
  obtain ⟨w₁, w₂, -, -, -, htext⟩ := text_of_statement ht
  obtain ⟨z, hz⟩ : ∃ z, t = z ++ [';'] :=
    ⟨d.lead ++ (d.property ++ (w₁ ++ ':' :: (w₂ ++ d.value))), by rw [htext]; simp⟩
  rw [hz, ← List.append_assoc] at hs
  exact fun h => hu ((List.append_left_inj _).1 hs ▸ List.mem_append_left z h)

/-! ### A second conversion -/

include hf in
/-- A statement becomes a statement, and converting it again changes the mixin in it or nothing. -/
theorem convert_convert_statement {u : List Char} (hu : ';' ∉ u) :
    ∃ u', ';' ∉ u' ∧ convert ps f (u ++ [';']) = u' ++ [';'] ∧
      (convert ps f (u' ++ [';']) = u' ++ [';'] ↔
        ∀ t d, .found t d ∈ pieces (declaration? ps) (u ++ [';']) → ∀ w, f d.value = some w →
          convert ps f (mixin d.property w) = mixin d.property w) := by
  rcases statement_cases hps hu with hx | ⟨x, t, d, hs, ht, hx⟩
  · -- nothing is read, so nothing is changed
    have hpieces := pieces_of_isUnread hx
    have hkept : convert ps f (u ++ [';']) = u ++ [';'] := by
      rw [convert_eq, hpieces, replaced_map_plain]
    refine ⟨u, hu, hkept, iff_of_true hkept fun t d hmem => ?_⟩
    rw [hpieces] at hmem
    obtain ⟨c, -, hc⟩ := List.mem_map.1 hmem
    cases hc
  · have hconvert := convert_statement (f := f) ht hx
    have hpieces := pieces_statement ht hx
    rw [← hs] at hconvert hpieces
    cases hw : f d.value with
    | none =>
      rw [hw, ← hs] at hconvert
      refine ⟨u, hu, hconvert, iff_of_true hconvert fun t' d' hmem w' hw' => ?_⟩
      rw [hpieces] at hmem
      obtain ⟨-, rfl⟩ := found_mem_map_plain_append_iff.1 hmem
      rw [hw] at hw'
      cases hw'
    | some w =>
      obtain ⟨-, hlead, hmem, -⟩ := declaration?_eq_some ht
      obtain ⟨_, _, -, -, hval, -⟩ := text_of_statement ht
      have hxsemi := not_semicolon_of_statement hu hs ht
      have hwsemi : ';' ∉ w := fun h =>
        not_semicolon_of_isValueChar (fun c hc => hval c (List.mem_append_right _ hc))
          (mem_of_mem_argument hf hw (by decide) h)
      have hsemi : ';' ∉ (x ++ d.lead) ++ mixinCall d.property w := by
        rw [List.mem_append, List.mem_append, not_or, not_or]
        exact ⟨⟨hxsemi, not_mem_of_isBlank hlead (by decide)⟩,
          not_semicolon_mixinCall (hps _ hmem).not_semicolon hwsemi⟩
      have htext : (x ++ d.lead) ++ mixin d.property w
          = ((x ++ d.lead) ++ mixinCall d.property w) ++ [';'] := by
        rw [mixin_eq, List.append_assoc (x ++ d.lead)]
      have hunread : IsUnread (declaration? ps) (x ++ d.lead) (mixin d.property w) :=
        fun y _ hy => declaration?_mixin_eq_none hps hxsemi ht hx hwsemi hy
      rw [hw, ← List.append_assoc] at hconvert
      refine ⟨_, hsemi, by rw [hconvert, htext], ?_⟩
      -- what stands in front of the mixin is kept, so the mixin decides
      rw [← htext, convert_unread hunread, List.append_cancel_left_eq, hpieces]
      constructor
      · intro h t' d' hmem' w' hw'
        obtain ⟨-, rfl⟩ := found_mem_map_plain_append_iff.1 hmem'
        rw [hw] at hw'
        cases hw'
        exact h
      · intro h
        exact h t d (found_mem_map_plain_append_iff.2 ⟨rfl, rfl⟩) w hw

include hf in
/-- **A second conversion changes nothing exactly when it changes none of the mixins that the first
one wrote.** -/
theorem convert_convert_iff (s : List Char) :
    convert ps f (convert ps f s) = convert ps f s ↔
      ∀ d ∈ occurrences (declaration? ps) s, ∀ w, f d.value.value = some w →
        convert ps f (mixin d.value.property w) = mixin d.value.property w := by
  have hsemi : ∀ q ∈ ps, ';' ∉ q := fun q hq => (hps q hq).not_semicolon
  refine Iff.trans ?_ (forall_occurrences_iff (Q := fun _ (d : Declaration) =>
    ∀ w, f d.value = some w →
      convert ps f (mixin d.property w) = mixin d.property w)).symm
  -- statement by statement
  induction s using run_induction (· == ';') with
  | run u hu =>
    have hu : ';' ∉ u := fun h => absurd (hu ';' h) (by decide)
    have hnone : occurrences (declaration? ps) u = [] :=
      occurrences_declaration?_eq_nil (Or.inr hu)
    have hkept : convert ps f u = u := convert_eq_self fun d hd => by simp [hnone] at hd
    rw [hkept, hkept]
    refine iff_of_true rfl fun t d hmem => ?_
    obtain ⟨o, ho, -⟩ := mem_occurrences_iff.2 hmem
    rw [hnone] at ho
    cases ho
  | cut u b e hu hb ih =>
    obtain rfl : b = ';' := beq_iff_eq.1 hb
    have hu : ';' ∉ u := fun h => absurd (hu ';' h) (by decide)
    obtain ⟨u', hu', hfirst, hiff⟩ := convert_convert_statement hps hf hu
    obtain ⟨u'', hu'', hagain, -⟩ := convert_convert_statement hps hf hu'
    have hleft : convert ps f (u ++ ';' :: e) = u' ++ ';' :: convert ps f e := by
      rw [convert_append_semicolon hps hu, hfirst, List.append_assoc]
      rfl
    have hright : convert ps f (u' ++ ';' :: convert ps f e)
        = u'' ++ ';' :: convert ps f (convert ps f e) := by
      rw [convert_append_semicolon hps hu', hagain, List.append_assoc]
      rfl
    have hparts : u'' ++ ';' :: convert ps f (convert ps f e) = u' ++ ';' :: convert ps f e ↔
        convert ps f (u' ++ [';']) = u' ++ [';'] ∧
          convert ps f (convert ps f e) = convert ps f e := by
      rw [hagain]
      constructor
      · intro h
        obtain ⟨rfl, hrest⟩ := append_cons_inj_of_not_mem hu'' hu' h
        exact ⟨rfl, hrest⟩
      · rintro ⟨hstatement, hrest⟩
        rw [List.append_cancel_right hstatement, hrest]
    rw [hleft, hright, hparts, hiff, ih, pieces_append_semicolon hsemi hu e]
    constructor
    · rintro ⟨hstatement, hrest⟩ t d hmem
      rcases List.mem_append.1 hmem with h | h
      · exact hstatement t d h
      · exact hrest t d h
    · intro h
      exact ⟨fun t d hmem => h t d (List.mem_append_left _ hmem),
        fun t d hmem => h t d (List.mem_append_right _ hmem)⟩

include hf in
/-- A second conversion changes nothing when no converted value has a colon. -/
theorem convert_convert_of_not_colon {s : List Char}
    (h : ∀ d ∈ occurrences (declaration? ps) s, (f d.value.value).isSome →
      ':' ∉ d.value.value) :
    convert ps f (convert ps f s) = convert ps f s := by
  refine (convert_convert_iff hps hf s).2 fun d hd w hw => convert_eq_self fun o ho => ?_
  obtain ⟨r, -, hread⟩ := read_of_mem_occurrences (consumes_declaration? ps) hd
  obtain ⟨-, -, hmem, -⟩ := declaration?_eq_some hread
  have hcolon : ':' ∉ mixin d.value.property w := by
    have hvalue := h d hd (by rw [hw]; rfl)
    have hopen : ':' ∉ "@include rem(".toList := by decide
    have hcomma : ':' ∉ ", ".toList := by decide
    rw [mixin_eq]
    unfold mixinCall
    simp only [List.mem_append, not_or]
    exact ⟨⟨hopen, (hps _ hmem).not_colon, hcomma,
      fun hin => hvalue (mem_of_mem_argument hf hw (by decide) hin), by decide⟩, by decide⟩
  rw [occurrences_declaration?_eq_nil (Or.inl hcolon)] at ho
  cases ho

end Conversions

/-! ### Conversions again and again -/

section Settles

variable {ps : List (List Char)} {f : List Char → Option (List Char)}
  (hf : ∀ v w, f v = some w → lasting w = lasting v)

include hf

/-- A converted declaration has one colon less. -/
theorem count_colon_declaration {t r w : List Char} {d : Declaration}
    (h : declaration? ps (t ++ r) = some (d, r)) (hw : f d.value = some w) :
    (d.lead ++ mixin d.property w).count ':' + 1 = t.count ':' := by
  obtain ⟨-, hlead, -⟩ := declaration?_eq_some h
  obtain ⟨w₁, w₂, hw₁, hw₂, -, rfl⟩ := text_of_declaration? h
  have harg : w.count ':' = d.value.count ':' := by
    rw [← count_lasting (by decide), hf _ _ hw, count_lasting (by decide)]
  have hopen : "@include rem(".toList.count ':' = 0 := by decide
  have hcomma : ", ".toList.count ':' = 0 := by decide
  have hclose : [')'].count ':' = 0 := by decide
  have hend : [';'].count ':' = 0 := by decide
  rw [mixin_eq]
  unfold mixinCall
  simp only [List.count_append, List.count_cons_self, harg, hopen, hcomma, hclose, hend,
    count_blanks (b := ':') (by decide) hw₁, count_blanks (b := ':') (by decide) hw₂]
  omega

/-- A conversion finds nothing to convert in a text, or its result has fewer colons. -/
theorem convert_idle_or_lowers (s : List Char) :
    (∀ d ∈ occurrences (declaration? ps) s, f d.value.value = none) ∨
      (convert ps f s).count ':' < s.count ':' := by
  refine replaceAll_idle_or_lowers (consumes_declaration? ps) (m := fun s => s.count ':')
    (I := fun d => f d.value = none) ?_ s
  intro t d r hd
  cases hw : f d.value with
  | none => exact Or.inl ⟨rfl, rfl⟩
  | some w =>
    refine Or.inr fun x y => ?_
    have hcount := count_colon_declaration hf hd hw
    simp only [List.count_append] at hcount ⊢
    omega

/-- A conversion keeps the texts in which it finds nothing to convert, and no others. -/
theorem convert_eq_self_iff {s : List Char} :
    convert ps f s = s ↔ ∀ d ∈ occurrences (declaration? ps) s, f d.value.value = none := by
  refine ⟨fun h => (convert_idle_or_lowers hf s).resolve_right fun hlt => ?_, convert_eq_self⟩
  rw [h] at hlt
  exact absurd hlt (lt_irrefl _)

/-- **Conversions made again and again come to an end**, at the latest when there are as many of them
as there are colons. -/
theorem convert_settles {s : List Char} {n : Nat} (hn : s.count ':' ≤ n) :
    convert ps f ((convert ps f)^[n] s) = (convert ps f)^[n] s := by
  induction n generalizing s with
  | zero =>
    rcases convert_idle_or_lowers hf s with h | h
    · exact convert_eq_self h
    · omega
  | succ n ih =>
    rw [Function.iterate_succ_apply]
    rcases convert_idle_or_lowers hf s with h | h
    · have hkept := convert_eq_self h
      rw [hkept, Function.iterate_fixed hkept, hkept]
    · exact ih (by omega)

end Settles

/-! ### Sizes -/

/-- **Sizes converted again.**  For every list of properties and every stylesheet, a second run of
the rule of sizes changes nothing exactly when the first one left no declaration whose value makes
an argument; and runs made again and again come to an end, at the latest when there are as many of
them as the stylesheet has colons.  When no name has a blank, a colon or a semicolon, a second run
changes nothing exactly when it changes none of the mixins written for the declarations of the
stylesheet. -/
theorem sizes_converted_again (names : List String) (s : List Char) :
    ((remProperties names).revise ((remProperties names).revise s)
        = (remProperties names).revise s ↔
      ∀ d ∈ occurrences (declaration? ((propertyOrder names).map String.toList))
        ((remProperties names).revise s), remArgument? d.value.value = none) ∧
    (remProperties names).revise ((remProperties names).revise^[s.count ':'] s)
      = (remProperties names).revise^[s.count ':'] s ∧
    ((∀ q ∈ propertyOrder names, IsPlainName q.toList) →
      ((remProperties names).revise ((remProperties names).revise s)
          = (remProperties names).revise s ↔
        ∀ d ∈ occurrences (declaration? ((propertyOrder names).map String.toList)) s,
          ∀ w, remArgument? d.value.value = some w →
            (remProperties names).revise (mixin d.value.property w)
              = mixin d.value.property w)) := by
  have hf : ∀ v w, remArgument? v = some w → lasting w = lasting v :=
    fun _ _ => lasting_remArgument?
  rw [revise_remProperties]
  refine ⟨⟨fun h => ?_, convert_eq_self⟩, convert_settles hf le_rfl, fun hplain => ?_⟩
  · -- had it converted something, there would be fewer colons
    refine (convert_idle_or_lowers hf _).resolve_right fun hlt => ?_
    rw [h] at hlt
    exact absurd hlt (lt_irrefl _)
  · refine convert_convert_iff (fun q' hq' => ?_) hf s
    obtain ⟨q, hq, rfl⟩ := List.mem_map.1 hq'
    exact hplain q hq

/-- A declaration of two sizes makes a mixin that is not changed again. -/
theorem sizes_converted_again_two_sizes :
    ∀ d ∈ occurrences (declaration? ((propertyOrder ["margin", " top "]).map String.toList))
        "\n  margin: 4px 2px;".toList,
      ∀ w, remArgument? d.value.value = some w →
        (remProperties ["margin", " top "]).revise (mixin d.value.property w)
          = mixin d.value.property w :=
  ((sizes_converted_again ["margin", " top "] "\n  margin: 4px 2px;".toList).2.2
    (by decide +kernel)).1 (by decide +kernel)

/-- With a semicolon forgotten, the first run converts the first declaration with the second one in
its value, and the second run converts that. -/
theorem sizes_rerun_ne_of_forgotten_semicolon :
    (remProperties ["margin", "padding"]).revise ((remProperties ["margin", "padding"]).revise
        "\n  margin: 4px\n  padding: 2px 3px;".toList)
      ≠ (remProperties ["margin", "padding"]).revise
        "\n  margin: 4px\n  padding: 2px 3px;".toList := by
  decide +kernel

end Stylesheet
end SceneMarkup
