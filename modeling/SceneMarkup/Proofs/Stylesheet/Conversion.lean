import SceneMarkup.Proofs.Stylesheet.Readers
import SceneMarkup.Proofs.Text.Caseless

/-!
# What a conversion keeps

The conversions of values drop the units of pixels and put single blanks between what is left.  All
other characters stand in the argument of the mixin as they stood in the value, in the same order.

## Main definitions

* `isLasting`, `lasting` — the characters that no conversion drops, and a text reduced to them.

## Main results

* `lasting_numericValue?`, `lasting_borderValue?`, `lasting_shadowValue?` — **the argument and the
  value agree on the lasting characters.**
* `lasting_remArgument?`, `lasting_borderArgument?`, `lasting_shadowArgument?` — the same for the
  values of declarations.
* `normalize_eq` — the pipeline written out.
-/

namespace SceneMarkup
namespace Stylesheet

open Text

/-- Whether a character is neither blank nor a letter of the unit of pixels. -/
def isLasting (c : Char) : Bool := !(isBlank c || fold c == 'p' || fold c == 'x')

/-- The lasting characters of a text. -/
def lasting (s : List Char) : List Char := s.filter isLasting

@[simp] theorem lasting_nil : lasting [] = [] := rfl

@[simp] theorem lasting_append (s t : List Char) : lasting (s ++ t) = lasting s ++ lasting t :=
  List.filter_append s t

theorem isLasting_of_isBlank : ∀ c, isBlank c = true → isLasting c = false := by
  intro c h
  simp [isLasting, h]

/-- A text without lasting characters. -/
theorem lasting_eq_nil {s : List Char} (h : ∀ c ∈ s, isLasting c = false) : lasting s = [] :=
  List.filter_eq_nil_iff.2 fun c hc => by simp [h c hc]

theorem lasting_blanks {w : List Char} (h : ∀ c ∈ w, isBlank c = true) : lasting w = [] :=
  lasting_eq_nil fun c hc => isLasting_of_isBlank c (h c hc)

@[simp] theorem lasting_trim (s : List Char) : lasting (trim s) = lasting s :=
  filter_trim isLasting_of_isBlank s

theorem lasting_joinWith (ls : List (List Char)) :
    lasting (joinWith [' '] ls) = lasting ls.flatten :=
  filter_joinWith (by decide) ls

theorem lasting_flatten_words (s : List Char) : lasting (words s).flatten = lasting s :=
  filter_flatten_words isLasting_of_isBlank s

theorem lasting_flatten_map {f : List Char → List Char} (h : ∀ t, lasting (f t) = lasting t)
    (ls : List (List Char)) : lasting (ls.map f).flatten = lasting ls.flatten := by
  induction ls with
  | nil => rfl
  | cons l ls ih => rw [List.map_cons, List.flatten_cons, List.flatten_cons, lasting_append,
      lasting_append, h, ih]

theorem lasting_withoutLead (run : List Char) : lasting (withoutLead run) = lasting run := by
  obtain ⟨w, hw, hs⟩ := exists_blanks_append_withoutLead run
  conv => rhs; rw [hs]
  rw [lasting_append, lasting_blanks hw, List.nil_append]

/-! ### Numbers and units -/

theorem lasting_skipPixels (s : List Char) : lasting (skipPixels s) = lasting s := by
  rw [skipPixels]
  cases h : afterFolded? "px".toList s with
  | none => rfl
  | some r =>
    obtain ⟨u, hu, rfl⟩ := afterFolded?_eq_some_iff.1 h
    have hnil : lasting u = [] := by
      refine lasting_eq_nil fun c hc => ?_
      have hmem : fold c ∈ "px".toList := hu ▸ List.mem_map_of_mem hc
      have hpx : fold c = 'p' ∨ fold c = 'x' := by simpa using hmem
      rcases hpx with h | h <;> simp [isLasting, h]
    simp [hnil]

/-- Readers whose value is the text that they take. -/
def Verbatim (p : Recogniser (List Char)) : Prop :=
  ∀ ⦃s n r : List Char⦄, p s = some (n, r) → s = n ++ r

theorem verbatim_digits? : Verbatim digits? := by
  intro s n r h
  rw [digits?] at h
  split at h
  · cases h
  · cases h
    exact List.takeWhile_append_dropWhile.symm

theorem verbatim_fraction? : Verbatim fraction? := by
  intro s n r h
  unfold fraction? at h
  split at h
  · split at h
    · next ds rest hd =>
      cases h
      rw [verbatim_digits? hd]
      rfl
    · cases h
  · cases h

theorem verbatim_unsigned? : Verbatim unsigned? := by
  intro s n r h
  rw [unsigned?] at h
  split at h
  · cases h
  · next ds r' hd =>
    split at h
    · next f rest hf =>
      cases h
      rw [verbatim_digits? hd, verbatim_fraction? hf, List.append_assoc]
    · cases h
      exact verbatim_digits? hd

theorem Verbatim.signed? {p : Recogniser (List Char)} (hp : Verbatim p) :
    Verbatim (Stylesheet.signed? p) := by
  intro s n r h
  cases s with
  | nil => exact hp h
  | cons c s =>
    simp only [Stylesheet.signed?] at h
    split at h
    · next hc =>
      split at h
      · next n' rest hn =>
        cases h
        rw [hp hn, hc]
        rfl
      · cases h
    · exact hp h

theorem verbatim_number? : Verbatim number? := by
  refine Verbatim.signed? fun s n r h => ?_
  split at h
  · next found hf =>
    cases h
    exact verbatim_unsigned? hf
  · exact verbatim_fraction? h

/-- A number in front of nothing but a unit of pixels has the lasting characters of both. -/
theorem lasting_of_skipPixels_eq_nil {r : List Char} (h : (skipPixels r).isEmpty = true) :
    lasting r = [] := by
  rw [← lasting_skipPixels, List.isEmpty_iff.1 h, lasting_nil]

theorem lasting_bareToken (token : List Char) : lasting (bareToken token) = lasting token := by
  rw [bareToken]
  cases h : numericToken? token with
  | none => rfl
  | some n =>
    rw [numericToken?] at h
    split at h
    · next n' rest hn =>
      split at h
      · next hr =>
        cases h
        rw [verbatim_number? hn, lasting_append, lasting_of_skipPixels_eq_nil hr, List.append_nil,
          Option.getD_some]
      · cases h
    · cases h

/-- **A size and its argument agree on the lasting characters.** -/
theorem lasting_numericValue? {v w : List Char} (h : numericValue? v = some w) :
    lasting w = lasting v := by
  rw [numericValue?] at h
  split at h
  · cases h
    rw [lasting_joinWith, lasting_flatten_map lasting_bareToken, lasting_flatten_words]
  · cases h

/-! ### Borders -/

theorem blanks?_eq_some {s r : List Char} (h : blanks? s = some r) :
    ∃ w, w ≠ [] ∧ (∀ c ∈ w, isBlank c = true) ∧ s = w ++ r := by
  rw [blanks?.eq_def] at h
  split at h
  · cases h
  · next c s =>
    split at h
    · next hc =>
      cases h
      obtain ⟨w, hw, hs⟩ := exists_blanks_append_trimStart (c :: s)
      refine ⟨w, ?_, hw, hs⟩
      rintro rfl
      have := congrArg List.length hs
      have hlt : (trimStart (c :: s)).length < (c :: s).length := by
        rw [trimStart, List.dropWhile_cons_of_pos hc]
        exact Nat.lt_succ_of_le (List.dropWhile_sublist _).length_le
      simp only [List.nil_append] at this
      omega
    · cases h

theorem lasting_blanks? {s r : List Char} (h : blanks? s = some r) : lasting r = lasting s := by
  obtain ⟨w, -, hw, rfl⟩ := blanks?_eq_some h
  rw [lasting_append, lasting_blanks hw, List.nil_append]

/-- A length in front of blanks is its number, with the unit and the blanks left out. -/
theorem spacedLength?_eq_some_iff {p : Recogniser (List Char)} {s n rest : List Char} :
    spacedLength? p s = some (n, rest) ↔
      ∃ r, p s = some (n, r) ∧ blanks? (skipPixels r) = some rest := by
  rw [spacedLength?]
  constructor
  · intro h
    split at h
    · cases h
    · next n' r hn =>
      split at h
      · next rest' hr =>
        cases h
        exact ⟨r, hn, hr⟩
      · cases h
  · rintro ⟨r, hn, hr⟩
    simp only [hn, hr]

theorem lasting_spacedLength? {p : Recogniser (List Char)} (hp : Verbatim p)
    {s n r : List Char} (h : spacedLength? p s = some (n, r)) :
    lasting s = lasting n ++ lasting r := by
  obtain ⟨r', hn, hr⟩ := spacedLength?_eq_some_iff.1 h
  rw [hp hn, lasting_append, lasting_blanks? hr, lasting_skipPixels]

theorem lasting_borderStyle? {s style r : List Char} (h : borderStyle? s = some (style, r)) :
    lasting s = lasting style ++ lasting r := by
  rw [borderStyle?] at h
  obtain ⟨word, -, h⟩ := List.exists_of_findSome?_eq_some h
  split at h
  · cases h
  · next r' hr =>
    obtain ⟨rest, hrest, h⟩ := Option.map_eq_some_iff.1 h
    cases h
    obtain ⟨u, hu, rfl⟩ := afterFolded?_eq_some_iff.1 hr
    have hlen : word.length = u.length := by
      rw [← String.length_toList, ← hu, List.length_map]
    rw [hlen, List.take_left, lasting_append, lasting_blanks? hrest]

/-- A shorthand is a width, a style and a colour, each read where the one before it ended. -/
theorem borderShorthand?_eq_some_iff {v w : List Char} :
    borderShorthand? v = some w ↔ ∃ width r style color,
      spacedLength? unsigned? v = some (width, r) ∧ borderStyle? r = some (style, color) ∧
        isBorderColor color = true ∧ w = joinWith [' '] [width, style, color] := by
  rw [borderShorthand?]
  constructor
  · intro h
    split at h
    · cases h
    · next width r hwidth =>
      split at h
      · cases h
      · next style color hstyle =>
        split at h
        · next hcolor =>
          cases h
          exact ⟨width, r, style, color, hwidth, hstyle, hcolor, rfl⟩
        · cases h
  · rintro ⟨width, r, style, color, hwidth, hstyle, hcolor, rfl⟩
    simp only [hwidth, hstyle, hcolor, if_true]

/-- A bare width is a number with nothing but its unit behind it. -/
theorem borderWidth?_eq_some_iff {v w : List Char} :
    borderWidth? v = some w ↔ ∃ r, unsigned? v = some (w, r) ∧ skipPixels r = [] := by
  rw [borderWidth?]
  constructor
  · intro h
    split at h
    · next width r hwidth =>
      split at h
      · next hr =>
        cases h
        exact ⟨r, hwidth, List.isEmpty_iff.1 hr⟩
      · cases h
    · cases h
  · rintro ⟨r, hwidth, hr⟩
    simp only [hwidth, hr, List.isEmpty_nil, if_true]

/-- **A border and its argument agree on the lasting characters.** -/
theorem lasting_borderValue? {v w : List Char} (h : borderValue? v = some w) :
    lasting w = lasting v := by
  rw [borderValue?] at h
  split at h
  · next argument ha =>
    cases h
    obtain ⟨width, r, style, color, hw, hs, -, rfl⟩ := borderShorthand?_eq_some_iff.1 ha
    rw [lasting_joinWith, lasting_spacedLength? verbatim_unsigned? hw, lasting_borderStyle? hs]
    simp
  · obtain ⟨r, hw, hr⟩ := borderWidth?_eq_some_iff.1 h
    rw [verbatim_unsigned? hw, lasting_append,
      lasting_of_skipPixels_eq_nil (List.isEmpty_iff.2 hr), List.append_nil]

/-! ### Shadows -/

theorem lasting_shadowLengths? {n : Nat} {s r : List Char} {ls : List (List Char)}
    (h : shadowLengths? n s = some (ls, r)) : lasting s = lasting ls.flatten ++ lasting r := by
  induction n generalizing s ls with
  | zero =>
    cases h
    rfl
  | succ n ih =>
    simp only [shadowLengths?] at h
    split at h
    · cases h
    · next length r' hl =>
      rw [verbatim_unsigned?.signed? hl, lasting_append, ← lasting_skipPixels r']
      split at h
      · cases h
        simp
      · split at h
        · cases h
        · next r'' hb =>
          split at h
          · next ls' rest hls =>
            cases h
            rw [← lasting_blanks? hb, ih hls]
            simp
          · cases h

theorem lasting_shadowColor? {s color : List Char} (h : shadowColor? s = some color) :
    lasting color = lasting s := by
  rw [shadowColor?.eq_def] at h
  split at h
  · cases h
  · next c r =>
    split at h
    · next hc =>
      have h : (if (withoutLead r).isEmpty || (withoutLead r).contains '\n' then none
          else some (withoutLead r)) = some color := h
      split at h
      · cases h
      · cases h
        rw [lasting_withoutLead, lasting, lasting,
          List.filter_cons_of_neg (by simp [isLasting_of_isBlank c hc])]
    · cases h

theorem lasting_shadowOf? {n : Nat} {v w : List Char} (h : shadowOf? n v = some w) :
    lasting w = lasting v := by
  rw [shadowOf?] at h
  split at h
  · cases h
  · next ls r hls =>
    obtain ⟨color, hc, rfl⟩ := Option.map_eq_some_iff.1 h
    rw [lasting_joinWith, lasting_shadowLengths? hls, ← lasting_shadowColor? hc]
    simp

/-- **A shadow and its argument agree on the lasting characters.** -/
theorem lasting_shadowValue? {v w : List Char} (h : shadowValue? v = some w) :
    lasting w = lasting v := by
  rw [shadowValue?] at h
  split at h
  · next argument ha =>
    cases h
    exact lasting_shadowOf? ha
  · exact lasting_shadowOf? h

/-! ### Values of declarations -/

theorem lasting_remArgument? {v w : List Char} (h : remArgument? v = some w) :
    lasting w = lasting v := by
  rw [remArgument?] at h
  split at h
  · cases h
  · rw [lasting_numericValue? h, lasting_trim]

theorem lasting_borderArgument? {v w : List Char} (h : borderArgument? v = some w) :
    lasting w = lasting v := by
  simp only [borderArgument?] at h
  split at h
  · cases h
  · rw [lasting_borderValue? h, lasting_trim]

theorem lasting_shadowArgument? {v w : List Char} (h : shadowArgument? v = some w) :
    lasting w = lasting v := by
  simp only [shadowArgument?] at h
  split at h
  · cases h
  · rw [lasting_shadowValue? h, lasting_trim]

/-! ### The house rules -/

theorem revise_remProperties (properties : List String) :
    (remProperties properties).revise =
      convert ((propertyOrder properties).map String.toList) remArgument? :=
  rfl

theorem revise_remFunctions :
    remFunctions.revise = replaceAll remFunction? fun _ d =>
      d.lead ++ mixin d.property (trim (erase "px".toList d.value)) :=
  rfl

theorem revise_borders :
    borders.revise = convert (borderProperties.map String.toList) borderArgument? :=
  rfl

theorem revise_shadows :
    shadows.revise = convert (shadowProperties.map String.toList) shadowArgument? :=
  rfl

theorem revise_markDeepLines (limit : Nat) : (markDeepLines limit).revise = markDeep limit :=
  rfl

/-- The house rules, one inside the other. -/
theorem normalize_eq (o : Options) (s : List Char) :
    normalize o s = markDeep o.nestingLimit ((inlineColors o.colorFallback.toList).revise
      (convert (shadowProperties.map String.toList) shadowArgument?
        (convert (borderProperties.map String.toList) borderArgument?
          (convert ((propertyOrder o.remProperties).map String.toList) remArgument?
            (remFunctions.revise s))))) := by
  simp only [normalize, houseRules, Pipeline.apply_cons, Pipeline.apply_nil, revise_remProperties,
    revise_borders, revise_shadows, revise_markDeepLines]

end Stylesheet
end SceneMarkup
