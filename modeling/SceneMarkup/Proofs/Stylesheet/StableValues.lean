import SceneMarkup.Proofs.Stylesheet.Numbers

/-!
# Arguments converted again

What the conversions write are numbers without units, single blanks, and the rest of the value as it
stood.  Given to the same conversion again, it is read in the same way: the lengths end at the blanks
behind them whatever stood there before, and a style or a colour begins where it began.  So each
converter keeps its own results, and a shadow of three lengths is not taken for one of four.

## Main results

* `borderStyle?_append` — a style is read again in front of a blank.
* `shadowLengths?_append`, `shadowLengths?_succ` — so are lengths, and one length more is one more
  behind the others.
* `borderValue?_stable`, `shadowValue?_stable` — each converter keeps what it has made.
* `values_stable` — **all of this together.**
-/

namespace SceneMarkup
namespace Stylesheet

open Text

/-! ### Borders -/

theorem blanks?_eq_some_iff {s r : List Char} :
    blanks? s = some r ↔ ∃ b z, isBlank b = true ∧ s = b :: z ∧ r = trimStart z := by
  rw [blanks?.eq_def]
  constructor
  · intro h
    split at h
    · cases h
    · next c z =>
      split at h
      · next hc =>
        cases h
        exact ⟨c, z, hc, rfl, List.dropWhile_cons_of_pos hc⟩
      · cases h
  · rintro ⟨b, z, hb, rfl, rfl⟩
    dsimp only
    rw [if_pos hb, trimStart, List.dropWhile_cons_of_pos hb, trimStart]

theorem blanks?_blank (s : List Char) : blanks? (' ' :: s) = some (trimStart s) := rfl

/-- A length is read again in front of a blank. -/
theorem spacedLength?_append {p : Recogniser (List Char)} (hp : Rereads p) {s n r : List Char}
    (h : spacedLength? p s = some (n, r)) (z : List Char) :
    spacedLength? p (n ++ ' ' :: z) = some (n, trimStart z) := by
  obtain ⟨r', hn, -⟩ := spacedLength?_eq_some_iff.1 h
  refine spacedLength?_eq_some_iff.2 ⟨_, (hp hn).2 _ (endsNumber_blank z), ?_⟩
  rw [skipPixels_blank, blanks?_blank]

/-- A style in front of blanks, when it is the word `word` up to folding. -/
def styleAfter? (word : String) : Recogniser (List Char) := fun s =>
  match afterFolded? word.toList s with
  | none => none
  | some r => (blanks? r).map fun rest => (s.take word.length, rest)

theorem borderStyle?_eq (s : List Char) :
    borderStyle? s = borderStyles.findSome? fun word => styleAfter? word s :=
  rfl

theorem styleAfter?_eq_some_iff {word : String} {s style r : List Char} :
    styleAfter? word s = some (style, r) ↔ style.map fold = word.toList ∧
      ∃ b z, isBlank b = true ∧ s = style ++ b :: z ∧ r = trimStart z := by
  have htake : ∀ {u : List Char}, u.map fold = word.toList → ∀ z, (u ++ z).take word.length = u := by
    intro u hu z
    have hlen : word.length = u.length := by
      rw [← String.length_toList, ← hu, List.length_map]
    rw [hlen, List.take_left]
  rw [styleAfter?]
  constructor
  · intro h
    split at h
    · cases h
    · next r' hr =>
      obtain ⟨rest, hrest, h⟩ := Option.map_eq_some_iff.1 h
      cases h
      obtain ⟨u, hu, rfl⟩ := afterFolded?_eq_some_iff.1 hr
      obtain ⟨b, z, hb, rfl, rfl⟩ := blanks?_eq_some_iff.1 hrest
      rw [htake hu]
      exact ⟨hu, b, z, hb, rfl, rfl⟩
  · rintro ⟨hword, b, z, hb, rfl, rfl⟩
    rw [afterFolded?_eq_some_iff.2 ⟨style, hword, rfl⟩]
    simp only [blanks?_eq_some_iff.2 ⟨b, z, hb, rfl, rfl⟩, Option.map_some, htake hword]

/-- The styles have no blanks in any spelling. -/
theorem not_isBlank_of_map_fold {word : String} (hword : word ∈ borderStyles) {u : List Char}
    (hu : u.map fold = word.toList) : ∀ c ∈ u, isBlank c = false := by
  have hletters : ∀ word ∈ borderStyles, (word.toList.all fun c => isBlank c = false) = true := by
    decide
  intro c hc
  have hfold : isBlank (fold c) = false :=
    forall_mem_of_all (hletters word hword) _ (hu ▸ List.mem_map_of_mem hc)
  by_contra hblank
  rw [fold_of_isBlank (by simpa using hblank)] at hfold
  exact hblank hfold

/-- A style is read again in front of a blank: it has no blank itself, so whichever word of the list
reads it there reads all of it. -/
theorem borderStyle?_append {s style r : List Char} (h : borderStyle? s = some (style, r))
    (z : List Char) : borderStyle? (style ++ ' ' :: z) = some (style, trimStart z) := by
  rw [borderStyle?_eq] at h ⊢
  obtain ⟨word, hmem, h⟩ := List.exists_of_findSome?_eq_some h
  obtain ⟨hword, -⟩ := styleAfter?_eq_some_iff.1 h
  have hread : styleAfter? word (style ++ ' ' :: z) = some (style, trimStart z) :=
    styleAfter?_eq_some_iff.2 ⟨hword, ' ', z, isBlank_space, rfl, rfl⟩
  have hsome : (borderStyles.findSome? fun word => styleAfter? word (style ++ ' ' :: z)).isSome := by
    rw [List.findSome?_isSome_iff]
    exact ⟨word, hmem, by rw [hread]; rfl⟩
  obtain ⟨⟨style', r'⟩, hfound⟩ := Option.isSome_iff_exists.1 hsome
  rw [hfound]
  obtain ⟨word', hmem', hread'⟩ := List.exists_of_findSome?_eq_some hfound
  obtain ⟨hword', b, z', hb, hs, rfl⟩ := styleAfter?_eq_some_iff.1 hread'
  obtain ⟨rfl, -, rfl⟩ := append_cons_inj (not_isBlank_of_map_fold hmem hword)
    (not_isBlank_of_map_fold hmem' hword') isBlank_space hb hs
  rfl

/-- What is read behind the style of a border starts with no blank. -/
theorem trimStart_of_borderStyle? {s style r : List Char}
    (h : borderStyle? s = some (style, r)) : trimStart r = r := by
  rw [borderStyle?_eq] at h
  obtain ⟨word, -, h⟩ := List.exists_of_findSome?_eq_some h
  obtain ⟨-, b, z, -, -, rfl⟩ := styleAfter?_eq_some_iff.1 h
  exact trimStart_trimStart z

theorem trimStart_append_of_borderStyle? {s style r : List Char}
    (h : borderStyle? s = some (style, r)) (z : List Char) :
    trimStart (style ++ z) = style ++ z := by
  rw [borderStyle?_eq] at h
  obtain ⟨word, hmem, h⟩ := List.exists_of_findSome?_eq_some h
  obtain ⟨hword, -⟩ := styleAfter?_eq_some_iff.1 h
  cases style with
  | nil =>
    have hne : ∀ word ∈ borderStyles, [] ≠ word.toList := by decide
    exact absurd hword (hne word hmem)
  | cons c u =>
    have hc := not_isBlank_of_map_fold hmem hword c List.mem_cons_self
    exact List.dropWhile_cons_of_neg (by simp [hc])

theorem borderShorthand?_stable {v w : List Char} (h : borderShorthand? v = some w) :
    borderShorthand? w = some w := by
  obtain ⟨width, r, style, color, hwidth, hstyle, hcolor, rfl⟩ := borderShorthand?_eq_some_iff.1 h
  have hagain := spacedLength?_append rereads_unsigned? hwidth (style ++ ' ' :: color)
  rw [trimStart_append_of_borderStyle? hstyle] at hagain
  have hstyle' := borderStyle?_append hstyle color
  rw [trimStart_of_borderStyle? hstyle] at hstyle'
  refine borderShorthand?_eq_some_iff.2 ⟨width, _, style, color, ?_, hstyle', hcolor, rfl⟩
  simpa using hagain

theorem borderWidth?_stable {v w : List Char} (h : borderWidth? v = some w) :
    borderValue? w = some w := by
  obtain ⟨r, hwidth, -⟩ := borderWidth?_eq_some_iff.1 h
  have hagain := (rereads_unsigned? hwidth).2 [] endsNumber_nil
  rw [List.append_nil] at hagain
  -- nothing stands behind the width, so it is no shorthand
  have hnone : borderShorthand? w = none := by
    rw [borderShorthand?, spacedLength?, hagain]
    rfl
  rw [borderValue?, hnone]
  exact borderWidth?_eq_some_iff.2 ⟨[], hagain, skipPixels_nil⟩

/-- A border keeps what it is converted to. -/
theorem borderValue?_stable {v w : List Char} (h : borderValue? v = some w) :
    borderValue? w = some w := by
  rw [borderValue?] at h
  split at h
  · next argument ha =>
    cases h
    rw [borderValue?, borderShorthand?_stable ha]
  · exact borderWidth?_stable h

/-! ### Shadows -/

theorem trimStart_append_of_signed? {s n r : List Char}
    (h : signed? unsigned? s = some (n, r)) (z : List Char) :
    trimStart (n ++ z) = n ++ z := by
  have hhead : ∃ c u, n = c :: u ∧ isBlank c = false := by
    cases s with
    | nil => cases h
    | cons c s =>
      simp only [signed?] at h
      split at h
      · split at h
        · cases h
          exact ⟨'-', _, rfl, rfl⟩
        · cases h
      · obtain ⟨hne, -⟩ := rereads_unsigned? h
        rw [unsigned?] at h
        split at h
        · cases h
        · next ds r' hd =>
          obtain ⟨hne', hds⟩ := digits?_eq_some hd
          obtain ⟨d, u, rfl⟩ := List.exists_cons_of_ne_nil hne'
          have hblank := not_isBlank_of_isDigit (hds d List.mem_cons_self)
          split at h
          · cases h
            exact ⟨d, _, rfl, hblank⟩
          · cases h
            exact ⟨d, u, rfl, hblank⟩
  obtain ⟨c, u, rfl, hc⟩ := hhead
  exact List.dropWhile_cons_of_neg (by simp [hc])

theorem shadowLengths?_one (s : List Char) :
    shadowLengths? 1 s = (signed? unsigned? s).map fun x => ([x.1], skipPixels x.2) := by
  rw [shadowLengths?]
  cases signed? unsigned? s <;> rfl

theorem shadowLengths?_add_two (n : Nat) (s : List Char) :
    shadowLengths? (n + 2) s = (signed? unsigned? s).bind fun x =>
      (blanks? (skipPixels x.2)).bind fun r =>
        (shadowLengths? (n + 1) r).map fun y => (x.1 :: y.1, y.2) := by
  rw [shadowLengths?]
  cases signed? unsigned? s with
  | none => rfl
  | some x =>
    simp only [Nat.succ_ne_zero, if_false, Option.bind_some]
    cases blanks? (skipPixels x.2) with
    | none => rfl
    | some r =>
      simp only [Option.bind_some]
      cases shadowLengths? (n + 1) r <;> rfl

/-- So many lengths, with single blanks between them, are read again in front of a blank. -/
theorem shadowLengths?_append {n : Nat} {s r : List Char} {ls : List (List Char)}
    (h : shadowLengths? (n + 1) s = some (ls, r)) (z : List Char) :
    ls ≠ [] ∧ trimStart (joinWith [' '] ls ++ ' ' :: z) = joinWith [' '] ls ++ ' ' :: z ∧
      shadowLengths? (n + 1) (joinWith [' '] ls ++ ' ' :: z) = some (ls, ' ' :: z) := by
  induction n generalizing s ls with
  | zero =>
    rw [shadowLengths?_one] at h
    obtain ⟨⟨length, r'⟩, hlength, h⟩ := Option.map_eq_some_iff.1 h
    cases h
    refine ⟨List.cons_ne_nil _ _, trimStart_append_of_signed? hlength _, ?_⟩
    rw [joinWith_singleton, shadowLengths?_one, (rereads_signed? hlength).2 _ (endsNumber_blank z)]
    rfl
  | succ n ih =>
    rw [shadowLengths?_add_two] at h
    obtain ⟨⟨length, r₁⟩, hlength, h⟩ := Option.bind_eq_some_iff.1 h
    obtain ⟨r₂, -, h⟩ := Option.bind_eq_some_iff.1 h
    obtain ⟨⟨ls', r₃⟩, hls, h⟩ := Option.map_eq_some_iff.1 h
    cases h
    obtain ⟨hne, htrim, hagain⟩ := ih hls
    have hjoin : joinWith [' '] (length :: ls') ++ ' ' :: z =
        length ++ ' ' :: (joinWith [' '] ls' ++ ' ' :: z) := by
      obtain ⟨l', ls'', rfl⟩ := List.exists_cons_of_ne_nil hne
      simp
    refine ⟨List.cons_ne_nil _ _, ?_, ?_⟩
    · rw [hjoin]
      exact trimStart_append_of_signed? hlength _
    · rw [hjoin, shadowLengths?_add_two, (rereads_signed? hlength).2 _ (endsNumber_blank _)]
      simp only [Option.bind_some, skipPixels_blank, blanks?_blank, htrim, hagain, Option.map_some]

/-- One length more is one length more behind the others. -/
theorem shadowLengths?_succ (n : Nat) (s : List Char) :
    shadowLengths? (n + 2) s = (shadowLengths? (n + 1) s).bind fun x =>
      (blanks? x.2).bind fun r => (shadowLengths? 1 r).map fun y => (x.1 ++ y.1, y.2) := by
  induction n generalizing s with
  | zero =>
    rw [shadowLengths?_add_two, shadowLengths?_one, Option.bind_map]
    rfl
  | succ n ih =>
    rw [shadowLengths?_add_two, shadowLengths?_add_two n, Option.bind_assoc]
    refine congrArg _ (funext fun x => ?_)
    rw [Option.bind_assoc]
    refine congrArg _ (funext fun r => ?_)
    rw [ih, Option.bind_map, Option.map_bind]
    refine congrArg _ (funext fun y => ?_)
    rw [Function.comp, Function.comp, Option.map_bind]
    refine congrArg _ (funext fun r' => ?_)
    rw [Function.comp, Option.map_map]
    rfl

theorem trimStart_withoutLead (run : List Char) : trimStart (withoutLead run) = trimStart run := by
  rw [withoutLead]
  split
  · next h =>
    rw [h]
    have hblank : ∀ c ∈ run, isBlank c = true := List.dropWhile_eq_nil_iff.1 h
    exact List.dropWhile_eq_nil_iff.2 fun c hc => hblank c (List.mem_of_mem_drop hc)
  · exact trimStart_trimStart run

theorem withoutLead_withoutLead (run : List Char) :
    withoutLead (withoutLead run) = withoutLead run := by
  rw [withoutLead, trimStart_withoutLead, withoutLead]
  cases trimStart run with
  | nil =>
    dsimp only
    rw [List.drop_drop, List.length_drop]
    congr 1
    omega
  | cons c v => rfl

theorem shadowColor?_cons {b : Char} (hb : isBlank b = true) (r : List Char) :
    shadowColor? (b :: r) =
      if (withoutLead r).isEmpty || (withoutLead r).contains '\n' then none
      else some (withoutLead r) := by
  rw [shadowColor?, if_pos hb]
  rfl

theorem shadowColor?_eq_some_iff {s color : List Char} :
    shadowColor? s = some color ↔ ∃ b r, isBlank b = true ∧ s = b :: r ∧ color = withoutLead r ∧
      (color.isEmpty || color.contains '\n') = false := by
  constructor
  · intro h
    cases s with
    | nil => cases h
    | cons b r =>
      by_cases hb : isBlank b = true
      · rw [shadowColor?_cons hb] at h
        split at h
        · cases h
        · next hcolor =>
          cases h
          exact ⟨b, r, hb, rfl, rfl, Bool.eq_false_iff.2 hcolor⟩
      · rw [shadowColor?, if_neg hb] at h
        cases h
  · rintro ⟨b, r, hb, rfl, rfl, hcolor⟩
    rw [shadowColor?_cons hb, hcolor]
    rfl

theorem shadowOf?_eq (n : Nat) (v : List Char) :
    shadowOf? n v = (shadowLengths? n v).bind fun x =>
      (shadowColor? x.2).map fun color => joinWith [' '] (x.1 ++ [color]) := by
  rw [shadowOf?]
  cases shadowLengths? n v <;> rfl

/-- The argument for a shadow is its lengths and its colour, and both are found in it again. -/
theorem shadowOf?_eq_some {n : Nat} {v w : List Char} (h : shadowOf? (n + 1) v = some w) :
    ∃ ls b r, isBlank b = true ∧ shadowLengths? (n + 1) v = some (ls, b :: r) ∧
      shadowLengths? (n + 1) w = some (ls, ' ' :: withoutLead r) ∧
      shadowOf? (n + 1) w = some w := by
  rw [shadowOf?_eq] at h
  obtain ⟨⟨ls, r⟩, hls, h⟩ := Option.bind_eq_some_iff.1 h
  obtain ⟨color, hcolor, rfl⟩ := Option.map_eq_some_iff.1 h
  obtain ⟨b, r, hb, rfl, rfl, hkept⟩ := shadowColor?_eq_some_iff.1 hcolor
  obtain ⟨hne, -, hagain⟩ := shadowLengths?_append hls (withoutLead r)
  have hcolor' : shadowColor? (' ' :: withoutLead r) = some (withoutLead r) :=
    shadowColor?_eq_some_iff.2
      ⟨' ', withoutLead r, isBlank_space, rfl, (withoutLead_withoutLead r).symm, hkept⟩
  have hw : joinWith [' '] (ls ++ [withoutLead r]) = joinWith [' '] ls ++ ' ' :: withoutLead r :=
    joinWith_concat _ hne _
  refine ⟨ls, b, r, hb, hls, ?_, ?_⟩
  · rw [hw, hagain]
  · rw [shadowOf?_eq, hw, hagain, Option.bind_some, hcolor', Option.map_some, ← hw]

/-- The argument for a shadow of some lengths is read as one of more lengths when the value is. -/
theorem shadowOf?_succ_eq {n : Nat} {v w : List Char} (h : shadowOf? (n + 1) v = some w) :
    shadowOf? (n + 2) w = shadowOf? (n + 2) v := by
  obtain ⟨ls, b, r, hb, hv, hw, -⟩ := shadowOf?_eq_some h
  have hblanks : blanks? (b :: r) = some (trimStart r) :=
    blanks?_eq_some_iff.2 ⟨b, r, hb, rfl, rfl⟩
  rw [shadowOf?_eq, shadowOf?_eq, shadowLengths?_succ, shadowLengths?_succ, hv, hw]
  simp only [Option.bind_some, hblanks, blanks?_blank, trimStart_withoutLead]

/-- A shadow keeps what it is converted to: one of three lengths is not taken for one of four. -/
theorem shadowValue?_stable {v w : List Char} (h : shadowValue? v = some w) :
    shadowValue? w = some w := by
  rw [shadowValue?] at h
  split at h
  · next argument hfour =>
    cases h
    obtain ⟨-, -, -, -, -, -, hagain⟩ := shadowOf?_eq_some hfour
    rw [shadowValue?, hagain]
  · next hfour =>
    obtain ⟨-, -, -, -, -, -, hagain⟩ := shadowOf?_eq_some h
    rw [shadowValue?, shadowOf?_succ_eq h, hfour]
    exact hagain

/-! ### All converters -/

/-- **Every converter keeps what it has made.**  A size is converted token by token, each kept or
freed of its unit of pixels, and no numeric token of the argument has a unit left. -/
theorem values_stable (v w : List Char) :
    (numericValue? v = some w → numericValue? w = some w ∧
      List.Forall₂ IsStripped (words v) (words w) ∧
      ∀ t ∈ words w, ∀ n, numericToken? t = some n → n = t) ∧
    (borderValue? v = some w → borderValue? w = some w) ∧
    (shadowValue? v = some w → shadowValue? w = some w) := by
  refine ⟨fun h => ⟨numericValue?_stable h, ?_, ?_⟩, borderValue?_stable, shadowValue?_stable⟩
  · rw [words_of_numericValue? h, List.forall₂_map_right_iff, List.forall₂_same]
    exact fun t _ => isStripped_bareToken t
  · intro t' ht' n hn
    rw [words_of_numericValue? h] at ht'
    obtain ⟨t, -, rfl⟩ := List.mem_map.1 ht'
    have hagain := bareToken_bareToken t
    rwa [bareToken, hn] at hagain

/-- A shadow of three lengths whose colour looks like a fourth, and a size in capitals. -/
theorem values_stable_lookalike :
    shadowValue? "0 4PX 8px 2px".toList = some "0 4 8 2px".toList ∧
      shadowValue? "0 4 8 2px".toList = some "0 4 8 2px".toList ∧
      numericValue? "10PX  $px-gap 4px".toList = some "10 $px-gap 4".toList ∧
      numericValue? "10 $px-gap 4".toList = some "10 $px-gap 4".toList :=
  ⟨by decide +kernel, (values_stable "0 4PX 8px 2px".toList _).2.2 (by decide +kernel),
    by decide +kernel, ((values_stable "10PX  $px-gap 4px".toList _).1 (by decide +kernel)).1⟩

end Stylesheet
end SceneMarkup
