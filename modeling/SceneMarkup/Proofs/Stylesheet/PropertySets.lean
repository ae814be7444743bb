import SceneMarkup.Proofs.Stylesheet.PropertyOrder
import SceneMarkup.Proofs.Stylesheet.RemForms

/-!
# Lists of properties as sets

The rule of sizes is made from a list of properties, and what it does to stylesheets depends on the
set of names in the list and on nothing else.  It also depends on all of them: for a name that is in
one list and not in the other there is a stylesheet at which the two rules differ, the line
` name:7;`.

The rule with the name turns that line into the mixin ` @include rem(name, 7);`.  The rule without
the name may rewrite the line too, for a name may hold blanks, colons and semicolons, and other names
are read inside it.  But then the end of the line tells the two apart.  Either the `7;` is kept, or
it becomes `:7);`, as part of a longer value, or the last part of the name is read as a name, and its
mixin opens where the blanks of the name end.

## Main definitions

* `sizeLine` — a line that tells whether a name is listed.

## Main results

* `revise_sizeLine` — the line of a listed name becomes a mixin.
* `convert_sizeLine_cases` — how the line of any name ends.
* `mem_of_convert_sizeLine` — only the line of a listed name becomes its mixin.
* `sizes_agree_iff` — **two lists make the same rule exactly when they configure the same names.**
* `revise_eq_self_iff` — a rule is idle exactly when its list configures none.
-/

namespace SceneMarkup
namespace Stylesheet

open Text

/-- A size of the property `p` behind a single blank. -/
def sizeLine (p : List Char) : List Char := ' ' :: (p ++ ":7;".toList)

/-! ### The line of a listed name -/

theorem trimmed_of_mem {p : String} {names : List String} (h : p ∈ listedNames names) :
    p.toList ≠ [] ∧ trim p.toList = p.toList := by
  obtain ⟨hne, q, -, hq⟩ := mem_propertyOrder_iff.1 (mem_propertyOrder.2 h)
  refine ⟨hne, ?_⟩
  rw [← hq, trim_trim]

/-- A name that is read in front of a size, up to its colon, is a part of the name that is there. -/
theorem isPrefix_of_read_size {p q : List Char}
    (h : (propertyValue? q (p ++ ":7;".toList)).isSome) : q <+: p := by
  obtain ⟨⟨v, r⟩, h⟩ := Option.isSome_iff_exists.1 h
  obtain ⟨w₁, w₂, -, -, -, hs⟩ := propertyValue?_eq_some h
  have hcolon : (q ++ w₁) ++ ':' :: (w₂ ++ (v ++ ';' :: r)) = p ++ ':' :: "7;".toList := by
    rw [List.append_assoc]
    exact hs.symm
  rcases append_cons_cases_of_not_mem (by decide) hcolon with ⟨rfl, -⟩ | ⟨ms, rfl, -⟩
  · exact List.prefix_append q w₁
  · rw [List.append_assoc]
    exact List.prefix_append q _

theorem remArgument?_seven : remArgument? ['7'] = some ['7'] := by decide +kernel

/-- The line of a listed name becomes a mixin. -/
theorem revise_sizeLine {names : List String} {p : String} (hp : p ∈ listedNames names) :
    (remProperties names).revise (sizeLine p.toList) = ' ' :: mixin p.toList ['7'] := by
  obtain ⟨hne, htrim⟩ := trimmed_of_mem hp
  have hhead : ∀ c ∈ (p.toList ++ ":7;".toList).head?, isBlank c = false := by
    rw [List.head?_append_of_ne_nil _ hne, ← htrim]
    exact head?_trim p.toList
  have hvalue : propertyValue? p.toList (p.toList ++ ":7;".toList) = some (['7'], []) :=
    propertyValue?_append p.toList (w := []) (y := ['7']) (by simp) (List.cons_ne_nil _ _)
      (forall_mem_of_all (by decide)) []
  have hread : declaration? ((propertyOrder names).map String.toList) (sizeLine p.toList)
      = some (⟨[' '], p.toList, ['7']⟩, []) := by
    refine (declaration?_propertyOrder_iff (List.cons_ne_nil ' ' []) (by simp) hhead).2
      ⟨hp, hvalue, fun q _ hq => ?_⟩
    exact size_le_of_prefix (isPrefix_of_read_size hq)
  rw [← List.append_nil (sizeLine p.toList)] at hread ⊢
  have hne' : sizeLine p.toList ≠ [] := List.cons_ne_nil _ _
  rw [revise_remProperties, convert, replaceAll_append_of_some hne' hread, replaceAll_nil,
    List.append_nil]
  simp only [remArgument?_seven]
  rfl

/-! ### What becomes of the line of any name -/

/-- The argument that is made of a value keeps a number behind a colon together with the colon. -/
theorem exists_append_of_remArgument? {x w : List Char}
    (h : remArgument? (x ++ ":7".toList) = some w) : ∃ z, w = z ++ ":7".toList := by
  rw [remArgument?] at h
  split at h
  · cases h
  · rw [numericValue?_trim] at h
    obtain ⟨-, rfl⟩ := numericValue?_eq_some_iff.1 h
    obtain ⟨ws, l, hwords⟩ := words_append_word x
    have hlast : words (x ++ ":7".toList) = ws ++ [l ++ ":7".toList] := by
      have := hwords ":7".toList [] (by decide) (forall_mem_of_all (by decide)) isApart_nil
      rwa [List.append_nil, words_nil] at this
    have hkept : bareToken (l ++ ":7".toList) = l ++ ":7".toList := by
      rw [bareToken, numericToken?_eq_none_of_mem (c := ':')
        (List.mem_append_right l (by decide)) (by decide) (by decide)]
      rfl
    rw [hlast, List.map_append, List.map_singleton, hkept]
    by_cases hnil : ws.map bareToken = []
    · exact ⟨l, by rw [hnil]; rfl⟩
    · refine ⟨joinWith [' '] (ws.map bareToken) ++ ([' '] ++ l), ?_⟩
      rw [joinWith_concat _ hnil]
      simp only [List.append_assoc]

/-- So does the mixin that is made of it. -/
theorem suffix_mixin_of_colon (lead q : List Char) {x v w w' : List Char}
    (hw : ∀ c ∈ w, isBlank c = true) (hvalue : w ++ v = x ++ ":7".toList)
    (harg : remArgument? v = some w') : ":7);".toList <:+ lead ++ mixin q w' := by
  rw [← remArgument?_blanks_append hw, hvalue] at harg
  obtain ⟨z, rfl⟩ := exists_append_of_remArgument? harg
  refine ⟨lead ++ ("@include rem(".toList ++ q ++ ", ".toList ++ z), ?_⟩
  unfold mixin
  simp

/-- Behind a semicolon the line of a size ends, or as many characters follow as its end has. -/
theorem behind_semicolon_cases {x u k : List Char} (h : u ++ ';' :: k = x ++ "7;".toList) :
    (u = x ++ ['7'] ∧ k = []) ∨ ∃ z, k = z ++ "7;".toList := by
  have hline : u ++ ';' :: k = (x ++ ['7']) ++ ';' :: [] := by
    rw [h, List.append_assoc]
    rfl
  rcases append_cons_cases_of_not_mem List.not_mem_nil hline with hend | ⟨ms, hms, rfl⟩
  · exact Or.inl hend
  · rcases List.eq_nil_or_concat' ms with rfl | ⟨z, c, rfl⟩
    · exact absurd (List.append_inj_right' hms rfl) (by decide)
    · have hlast : x ++ ['7'] = (u ++ ';' :: z) ++ [c] := by
        rw [hms, List.append_assoc]
        rfl
      obtain rfl := List.singleton_inj.1 (List.append_inj_right' hlast rfl)
      exact Or.inr ⟨z, by rw [List.append_assoc]; rfl⟩

/-- What the line of a size ends with when the names of a list are converted in it: the size as it
was, the size with its colon in the argument of a mixin, or the mixin of a name that is the name of
the line or the end of it. -/
theorem convert_sizeLine_cases (ps : List (List Char)) (p : List Char) :
    "7;".toList <:+ convert ps remArgument? (sizeLine p) ∨
    ":7);".toList <:+ convert ps remArgument? (sizeLine p) ∨
    ∃ u lead q w y, lead ≠ [] ∧ (∀ c ∈ lead, isBlank c = true) ∧ q ∈ ps ∧
      (∀ c ∈ w, isBlank c = true) ∧ ' ' :: p = u ++ (lead ++ (q ++ w)) ∧
      convert ps remArgument? (sizeLine p) = y ++ (lead ++ mixin q ['7']) := by
  have hsize : sizeLine p = (' ' :: p ++ [':']) ++ "7;".toList := by
    rw [List.append_assoc]
    rfl
  rw [convert]
  rcases replaceAll_eq_or_last (consumes_declaration? ps) (sizeLine p) with
    hkept | ⟨u, t, d, k, y, hs, hd, hlast⟩
  · rw [hkept, hsize]
    exact Or.inl (List.suffix_append _ _)
  · rw [hlast]
    obtain ⟨hne, hlead, hmem, -⟩ := declaration?_eq_some hd
    obtain ⟨w₁, w₂, hw₁, hw₂, -, rfl⟩ := text_of_declaration? hd
    have hsemi : (u ++ (d.lead ++ (d.property ++ (w₁ ++ ':' :: (w₂ ++ d.value))))) ++ ';' :: k
        = (' ' :: p ++ [':']) ++ "7;".toList := by
      rw [← hsize, hs]
      simp
    rcases behind_semicolon_cases hsemi with ⟨hline, rfl⟩ | ⟨z, rfl⟩
    · -- the last declaration ends the line, and its colon is the last one or another
      have hcolon : (u ++ (d.lead ++ (d.property ++ w₁))) ++ ':' :: (w₂ ++ d.value)
          = (' ' :: p) ++ ':' :: ['7'] := by
        simpa using hline
      rcases append_cons_cases_of_not_mem (by decide) hcolon with ⟨hname, hvalue⟩ | ⟨ms, -, hvalue⟩
      · have harg : remArgument? d.value = some ['7'] := by
          rw [← remArgument?_blanks_append hw₂, hvalue, remArgument?_seven]
        refine Or.inr (Or.inr ⟨u, d.lead, d.property, w₁, y, hne, hlead, hmem, hw₁, hname.symm, ?_⟩)
        simp only [harg, List.append_nil]
      · cases harg : remArgument? d.value with
        | none =>
          have hend : w₂ ++ (d.value ++ [';']) = ms ++ ":7;".toList := by
            rw [← List.append_assoc, hvalue, List.append_assoc]
            rfl
          refine Or.inl ⟨y ++ (d.lead ++ (d.property ++ (w₁ ++ ':' :: (ms ++ [':'])))), ?_⟩
          simp [hend]
        | some w =>
          refine Or.inr (Or.inl ?_)
          rw [List.append_nil]
          exact (suffix_mixin_of_colon d.lead d.property hw₂ hvalue harg).trans
            (List.suffix_append y _)
    · exact Or.inl (((List.suffix_append z _).trans (List.suffix_append _ _)).trans
        (List.suffix_append y _))

/-- A text that ends like the mixin of a size has no other end of that length. -/
theorem not_suffix_mixin {e p : List Char} (he : e.length ≤ " 7);".toList.length)
    (hne : ¬ e <:+ " 7);".toList) : ¬ e <:+ ' ' :: mixin p ['7'] := by
  intro h
  have hmixin : ' ' :: mixin p ['7'] = (" @include rem(".toList ++ p ++ [',']) ++ " 7);".toList := by
    unfold mixin
    simp
  rw [hmixin] at h
  exact hne (List.suffix_of_suffix_length_le h (List.suffix_append _ _) he)

/-- Only the line of a listed name becomes its mixin. -/
theorem mem_of_convert_sizeLine {ps : List (List Char)} (hps : ∀ q ∈ ps, trim q = q)
    {p : List Char} (hne : p ≠ []) (htrim : trim p = p)
    (h : convert ps remArgument? (sizeLine p) = ' ' :: mixin p ['7']) : p ∈ ps := by
  have hcases := convert_sizeLine_cases ps p
  rw [h] at hcases
  rcases hcases with hend | hend | ⟨u, lead, q, w, y, hlead, hblank, hq, hw, hname, hmixin⟩
  · exact absurd hend (not_suffix_mixin (by decide) (by decide))
  · exact absurd hend (not_suffix_mixin (by decide) (by decide))
  · have hhead : ∀ c ∈ q.head?, isBlank c = false := hps q hq ▸ head?_trim q
    have hlast : ∀ c ∈ (' ' :: p).getLast?, isBlank c = false := by
      rw [List.getLast?_cons_of_ne_nil hne, ← htrim]
      exact getLast?_trim p
    obtain rfl : w = [] := by
      refine eq_nil_of_blanks_behind (s := u ++ (lead ++ q)) hw ?_
      rwa [hname, ← List.append_assoc lead, ← List.append_assoc u] at hlast
    rw [List.append_nil] at hname
    cases u with
    | nil =>
      obtain ⟨-, rfl⟩ := blanks_append_inj (w := [' ']) (by simp) hblank (htrim ▸ head?_trim p)
        hhead hname
      exact hq
    | cons c u =>
      -- the mixin opens in front of the last part of the name, where blanks would have to stand
      obtain ⟨-, rfl⟩ := List.cons.inj hname
      obtain ⟨lead, b, rfl⟩ := (List.eq_nil_or_concat' lead).resolve_left hlead
      have hopen : (" @include rem(".toList ++ (u ++ lead) ++ [b]) ++ (q ++ ", 7);".toList)
          = (y ++ (lead ++ [b]) ++ "@include rem".toList ++ ['(']) ++ (q ++ ", 7);".toList) := by
        unfold mixin at hmixin
        simpa using hmixin
      have hb := List.append_inj_right' (List.append_cancel_right hopen) rfl
      obtain rfl := List.singleton_inj.1 hb
      exact absurd (hblank '(' (by simp)) (by decide)

/-! ### The set of names -/

/-- A name is listed when the line of it becomes its mixin. -/
theorem mem_of_revise_sizeLine {names : List String} {p : String} (hne : p.toList ≠ [])
    (htrim : trim p.toList = p.toList)
    (h : (remProperties names).revise (sizeLine p.toList) = ' ' :: mixin p.toList ['7']) :
    p ∈ listedNames names := by
  have hps : ∀ q ∈ (propertyOrder names).map String.toList, trim q = q := by
    intro q' hq'
    obtain ⟨q, hq, rfl⟩ := List.mem_map.1 hq'
    exact (trimmed_of_mem (mem_propertyOrder.1 hq)).2
  rw [revise_remProperties] at h
  obtain ⟨q, hq, heq⟩ := List.mem_map.1 (mem_of_convert_sizeLine hps hne htrim h)
  rw [← String.toList_inj.1 heq]
  exact mem_propertyOrder.1 hq

/-- A rule that does what another one does has all the names of the other. -/
theorem mem_of_revise_eq {names names' : List String}
    (h : ∀ s, (remProperties names).revise s = (remProperties names').revise s) :
    ∀ p ∈ listedNames names, p ∈ listedNames names' := by
  intro p hp
  obtain ⟨hne, htrim⟩ := trimmed_of_mem hp
  refine mem_of_revise_sizeLine hne htrim ?_
  rw [← h, revise_sizeLine hp]

/-- **Two lists of properties make the same rule of sizes, for all stylesheets, exactly when they
configure the same names**, in whatever order and however often, with whatever blanks around them
and empty entries between them. -/
theorem sizes_agree_iff (names names' : List String) :
    (∀ s, (remProperties names).revise s = (remProperties names').revise s) ↔
      ∀ p, p ∈ listedNames names ↔ p ∈ listedNames names' := by
  constructor
  · intro h p
    exact ⟨mem_of_revise_eq h p, mem_of_revise_eq (fun s => (h s).symm) p⟩
  · intro h s
    rw [revise_remProperties, revise_remProperties, propertyOrder_eq_iff.2 h]

example : (remProperties ["top", " margin-top ", "", "margin", "top"]).revise
      "\n  margin-top: 8px;\n  gap: 4px;".toList
    = "\n  @include rem(margin-top, 8);\n  gap: 4px;".toList := by
  decide +kernel

/-- A rule changes no stylesheet exactly when its list configures no name. -/
theorem revise_eq_self_iff (names : List String) :
    (∀ s, (remProperties names).revise s = s) ↔ listedNames names = [] := by
  have hnone : ∀ s, (remProperties []).revise s = s := by
    intro s
    rw [revise_remProperties]
    refine replaceAll_eq_self fun o ho => ?_
    obtain ⟨r, -, hread⟩ := read_of_mem_occurrences (consumes_declaration? _) ho
    obtain ⟨-, -, hmem, -⟩ := declaration?_eq_some hread
    cases hmem
  constructor
  · intro h
    refine List.eq_nil_iff_forall_not_mem.2 fun p hp => ?_
    have hempty : p ∈ listedNames [] :=
      mem_of_revise_eq (fun s => by rw [h, hnone]) p hp
    cases hempty
  · intro h s
    have horder : propertyOrder names = propertyOrder [] := propertyOrder_eq_iff.2 fun p => by
      rw [h]
      rfl
    rw [revise_remProperties, horder, ← revise_remProperties, hnone]

end Stylesheet
end SceneMarkup
