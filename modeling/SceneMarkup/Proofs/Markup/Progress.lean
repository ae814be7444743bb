import SceneMarkup.Proofs.Markup.Classes
import SceneMarkup.Proofs.Markup.QuotedAttributes
import SceneMarkup.Proofs.Text.Caseless

/-!
# What the replacements do to the rank

For each of the rules that replace occurrences of a form: wherever a replacement stands, it lowers
the rank of the text around it, or does not raise it when it only spells classes in kebab case.

## Main results

* `rank_kebabAttribute_le`
* `rank_blanked_lt`
* `rank_standardAttributes_lt`
* `rank_typedButton_lt`
* `rank_hiddenTag_lt`
-/

namespace SceneMarkup
namespace Markup

open Text

theorem eq_quote_or_eq_tick {c : Char} (h : isQuote c = true) : c = '"' ∨ c = '\'' := by
  simpa [isQuote] using h

theorem not_mem_of_isQuote {v : List Char} (h : ∀ c ∈ v, isQuote c = false) : '"' ∉ v := by
  intro hmem
  exact absurd (h _ hmem) (by decide)

theorem fleeting_blanks {w : List Char} (h : ∀ c ∈ w, isBlank c = true) : fleeting w = 0 :=
  List.countP_eq_zero.2 fun c hc => by simp [not_isFleeting_of_isBlank (h c hc)]

/-- The quotes around an assigned value are both double, or one of them is fleeting. -/
theorem quotes_of_isAssignment {name t : List Char} {a : Assignment}
    (h : IsAssignment name a t) :
    (∃ w₁ w₂, (∀ c ∈ w₁, isBlank c = true) ∧ (∀ c ∈ w₂, isBlank c = true) ∧
      t = name ++ (w₁ ++ '=' :: (w₂ ++ '"' :: (a.value ++ ['"'])))) ∨
      fleeting a.value < fleeting t := by
  obtain ⟨hquote, -, w₁, w₂, q, hw₁, hw₂, hq, rfl⟩ := h
  have htick : isFleeting '\'' = true := by decide
  rcases eq_quote_or_eq_tick hquote with h₁ | h₁
  · rcases eq_quote_or_eq_tick hq with rfl | rfl
    · exact Or.inl ⟨w₁, w₂, hw₁, hw₂, by rw [h₁]⟩
    · refine Or.inr ?_
      simp only [fleeting_append, fleeting_cons, htick, if_true]
      omega
  · refine Or.inr ?_
    simp only [fleeting_append, fleeting_cons, h₁, htick, if_true]
    omega

/-! ### Kebab case -/

theorem kebabAttribute_eq (a : ClassAttribute) :
    kebabAttribute a =
      a.lead :: ("class=".toList ++ '"' :: (joinWith [' '] (kebabWords a.value) ++ ['"'])) := by
  have hlit : "class=\"".toList = "class=".toList ++ ['"'] := by decide
  rw [kebabAttribute, hlit]
  simp

/-- Spelling a class attribute in kebab case does not raise the rank. -/
theorem rank_kebabAttribute_le {t r : List Char} {a : ClassAttribute}
    (h : classAttribute? (t ++ r) = some (a, r)) (x y : List Char) :
    rank (x ++ kebabAttribute a ++ y) ≤ rank (x ++ t ++ y) := by
  obtain ⟨hlead, hne, quote, t', ht', hs⟩ := classAttribute?_eq_some h
  obtain rfl : t = a.lead :: t' := List.append_cancel_right hs
  have hfleeting := fleeting_kebabWords_le a.value
  have hq := not_mem_of_isQuote ht'.2.1
  rw [kebabAttribute_eq]
  rcases quotes_of_isAssignment ht' with ⟨w₁, w₂, hw₁, hw₂, rfl⟩ | hlt
  · have hle := rank_rewritten_le (A := x ++ [a.lead]) (B := y) isFaint_class hw₁ hw₂ hne hq
      hfleeting (weight_kebabWords_le hq)
    simpa [written, rewritten] using hle
  · refine (rank_lt_of_fleeting_lt ?_).le
    have hclass : fleeting "class=".toList = 0 := by decide
    have hfq : isFleeting '"' = false := by decide
    simp only [fleeting_append, fleeting_cons, fleeting_nil, hclass, hfq, Bool.false_eq_true,
      if_false] at hlt ⊢
    omega

/-! ### Anchors -/

/-- Blanking the target of an anchor lowers the rank. -/
theorem rank_blanked_lt {t r : List Char} {a : Anchor} (h : anchor? (t ++ r) = some (a, r))
    (hne : a.target ≠ []) (x y : List Char) :
    rank (x ++ a.blanked ++ y) < rank (x ++ t ++ y) := by
  obtain ⟨w, quote, t', hw, -, -, ht', hs⟩ := anchor?_eq_some h
  obtain rfl : t = "<a".toList ++ (w ++ (a.lead ++ t')) :=
    List.append_cancel_right (hs.trans (by simp))
  have hlit : "href=\"\"".toList = "href=".toList ++ ['"', '"'] := by decide
  have hopen : fleeting "<a".toList = 0 := by decide
  have hblank : fleeting "<a ".toList = 0 := by decide
  have hhref : fleeting "href=".toList = 0 := by decide
  have hfq : isFleeting '"' = false := by decide
  have hq : '"' ∉ a.target := not_mem_of_isQuote ht'.2.1
  rw [Anchor.blanked, hlit]
  rcases quotes_of_isAssignment ht' with ⟨w₁, w₂, hw₁, hw₂, rfl⟩ | hlt
  · have hfront : '"' ∉ "<a".toList ++ w := by
      simp [not_mem_of_isBlank hw (c := '"') (by decide)]
    have hname : '"' ∉ "href".toList ++ (w₁ ++ '=' :: w₂) := not_mem_assigned (by decide) hw₁ hw₂
    have hold : x ++ ("<a".toList ++ (w ++ (a.lead ++
        ("href".toList ++ (w₁ ++ '=' :: (w₂ ++ '"' :: (a.target ++ ['"']))))))) ++ y
        = x ++ (("<a".toList ++ w) ++ (a.lead ++ (("href".toList ++ (w₁ ++ '=' :: w₂)) ++
          (['"'] ++ (a.target ++ '"' :: y))))) := by simp
    have hnew : x ++ ("<a ".toList ++ a.lead ++ ("href=".toList ++ ['"', '"'])) ++ y
        = x ++ ("<a ".toList ++ (a.lead ++ ("href=".toList ++ '"' :: '"' :: y))) := by simp
    rw [hold, hnew]
    refine rank_lt_of_pairs_lt ?_ ?_ ?_
    · simp only [fleeting_append, fleeting_cons, hopen, hblank, hhref, fleeting_blanks hw, hfq,
        Bool.false_eq_true, if_false]
      omega
    · have h₁ := quotes_eq_zero hfront
      have h₂ := quotes_eq_zero hname
      have h₃ : quotes "<a ".toList = 0 := by decide
      have h₄ : quotes "href=".toList = 0 := by decide
      rw [quotes_append, quotes_append (_ ++ _), h₁, quotes_append, quotes_append (_ ++ _), h₂]
      simp only [quotes_append, quotes_cons, quotes_nil, quotes_eq_zero hq, h₃, h₄]
      omega
    · rw [pairs_append_of_not_mem (by simp) hfront, pairs_append_of_not_mem (by simp) hname,
        pairs_append_of_not_mem hne hq, pairs_append_of_not_mem (by simp) (by decide),
        pairs_append_of_not_mem (by simp) (by decide)]
      simp [pairs_cons, startsQuote]
  · refine rank_lt_of_fleeting_lt ?_
    simp only [fleeting_append, fleeting_cons, fleeting_nil, hopen, hblank, hhref,
      fleeting_blanks hw, hfq, Bool.false_eq_true, if_false] at hlt ⊢
    omega

/-! ### Icon classes -/

/-- The text of a tag that was read in front of the rest `r`. -/
theorem text_of_tag? {opening t r attrs : List Char}
    (h : tag? opening (t ++ r) = some (attrs, r)) : t = opening ++ (attrs ++ ['>']) :=
  List.append_cancel_right ((tag?_eq_some h).2.trans (by simp))

theorem isFaint_of_sameAscii {name : List Char} (h : sameAscii name "class".toList = true) :
    IsFaint name := by
  have hmap : name.map Char.toLower = "class".toList := by
    simpa [sameAscii] using h
  have hmem : ∀ c ∈ name, c.toLower ∈ "class".toList := by
    intro c hc
    rw [← hmap]
    exact List.mem_map_of_mem hc
  refine ⟨?_, fun c hc => ⟨?_, ?_⟩, fun c hc => ?_, fun hlast => ?_⟩
  · rintro rfl
    exact absurd hmap (by decide)
  · cases hb : isBlank c with
    | false => rfl
    | true =>
      -- a blank is no capital, so it would be one of the letters itself
      have hletters : ∀ x ∈ "class".toList, isBlank x = false := forall_mem_of_all (by decide)
      have := hletters _ (hmem c hc)
      rw [toLower_of_isBlank hb, hb] at this
      exact absurd this (by decide)
  · rintro rfl
    exact absurd (hmem _ hc) (by decide)
  · cases hn : isLetterN c with
    | false => rfl
    | true =>
      simp only [isLetterN, Bool.or_eq_true, beq_iff_eq] at hn
      rcases hn with rfl | rfl <;> exact absurd (hmem _ hc) (by decide)
  · have hl := congrArg List.getLast? hmap
    rw [List.getLast?_map, hlast] at hl
    exact absurd hl (by decide)

/-- What an icon in need of the standard form looks like, and what becomes of it. -/
theorem standardAttributes?_eq_some {attrs attrs' : List Char}
    (h : standardAttributes? attrs = some attrs') :
    ∃ u name w₁ w₂ v t r, IsFaint name ∧ (∀ c ∈ w₁, isBlank c = true) ∧
      (∀ c ∈ w₂, isBlank c = true) ∧ IsValueText v t ∧ (words v).any mentionsIcon = true ∧
      attrs = u ++ (name ++ (w₁ ++ '=' :: (w₂ ++ (t ++ r)))) ∧
      attrs' = u ++ ("class=".toList ++ '"' :: (joinWith [' '] (standardWords (words v)) ++
        '"' :: r)) := by
  obtain ⟨o, v, hfind, hv, hicon, -, rfl⟩ := standardAttributes?_eq_quotedText h
  obtain ⟨ho, hclass⟩ := mem_of_findAttribute? hfind
  obtain ⟨u, r, hattrs, hlen, -, hread⟩ := place_of_mem_occurrences consumes_attribute? ho
  obtain ⟨htake, hdrop⟩ := take_drop_of_place hattrs hlen
  obtain ⟨-, -, ⟨hnone, -⟩ | ⟨v', w₁, w₂, t, hv', hw₁, hw₂, ht, htext⟩⟩ :=
    attribute?_eq_some hread
  · rw [hv] at hnone
    cases hnone
  · obtain rfl : v = v' := Option.some.inj (hv.symm.trans hv')
    refine ⟨u, o.value.name, w₁, w₂, v, t, r, isFaint_of_sameAscii hclass, hw₁, hw₂, ht, hicon,
      by rw [hattrs, htext], ?_⟩
    rw [htake, hdrop]
    simp [quotedText]

/-- Bringing the classes of an icon to the standard form lowers the rank. -/
theorem rank_standardAttributes_lt {t r attrs attrs' : List Char}
    (h : icon? (t ++ r) = some (attrs, r)) (hs : standardAttributes? attrs = some attrs')
    (x y : List Char) :
    rank (x ++ ("<i".toList ++ attrs' ++ ['>']) ++ y) < rank (x ++ t ++ y) := by
  obtain rfl := text_of_tag? (icon?_eq_some h)
  obtain ⟨u, name, w₁, w₂, v, tv, rest, hname, hw₁, hw₂, ht, hicon, rfl, rfl⟩ :=
    standardAttributes?_eq_some hs
  have hfleeting := fleeting_standardWords_le v
  have hclass : fleeting "class=".toList = 0 := by decide
  have hfq : isFleeting '"' = false := by decide
  have hv : v ≠ [] := by
    rintro rfl
    cases hicon
  have hnew : x ++ ("<i".toList ++ (u ++ ("class=".toList ++ '"' ::
      (joinWith [' '] (standardWords (words v)) ++ '"' :: rest))) ++ ['>']) ++ y
      = rewritten (x ++ ("<i".toList ++ u)) (joinWith [' '] (standardWords (words v)))
        (rest ++ '>' :: y) := by simp [rewritten]
  rw [hnew]
  rcases ht with ⟨q, hq, hqv, rfl⟩ | ⟨-, hbare, htv⟩
  · rcases eq_quote_or_eq_tick hq with rfl | rfl
    · have hold : x ++ ("<i".toList ++ (u ++ (name ++ (w₁ ++ '=' :: (w₂ ++ ('"' :: (v ++ ['"']) ++
          rest)))) ++ ['>'])) ++ y
          = written (x ++ ("<i".toList ++ u)) name w₁ w₂ v (rest ++ '>' :: y) := by
        simp [written]
      rw [hold]
      exact rank_rewritten_lt hname hw₁ hw₂ hv hqv hfleeting (weight_standardWords_lt hqv hicon)
    · -- single quotes are fleeting
      refine rank_lt_of_fleeting_lt ?_
      have htick : isFleeting '\'' = true := by decide
      simp only [rewritten, fleeting_append, fleeting_cons, fleeting_nil, hclass, hfq, htick,
        Bool.false_eq_true, if_false, if_true]
      omega
  · -- a bare value gets quotes
    have hqv : '"' ∉ v := by
      intro hmem
      exact absurd (hbare _ hmem) (by decide)
    refine rank_lt_of_quotes_lt ?_ ?_
    · simp only [rewritten, fleeting_append, fleeting_cons, fleeting_nil, hclass, hfq, htv,
        Bool.false_eq_true, if_false]
      omega
    · have hnq : quotes name = 0 := quotes_eq_zero hname.not_mem_quote
      have h₁ : quotes w₁ = 0 := quotes_eq_zero (not_mem_of_isBlank hw₁ (by decide))
      have h₂ : quotes w₂ = 0 := quotes_eq_zero (not_mem_of_isBlank hw₂ (by decide))
      have hsq : ('>' == '"') = false := by decide
      have heq : ('=' == '"') = false := by decide
      simp only [rewritten, quotes_append, quotes_cons, quotes_nil, htv, hnq, h₁, h₂,
        quotes_eq_zero hqv, hsq, heq, beq_self_eq_true, Bool.false_eq_true, if_false, if_true]
      omega

/-! ### Button types and hidden icons -/

/-- Inserting a text with double quotes lowers the rank. -/
theorem rank_insert_lt {u : List Char} (hf : fleeting u = 0) (hq : 0 < quotes u)
    (x y : List Char) : rank (x ++ (u ++ y)) < rank (x ++ y) := by
  refine rank_lt_of_quotes_lt ?_ ?_
  · rw [fleeting_append, fleeting_append, fleeting_append, hf]
    omega
  · rw [quotes_append, quotes_append, quotes_append]
    omega

/-- Giving a button a type lowers the rank. -/
theorem rank_typedButton_lt {t r attrs : List Char} (h : button? (t ++ r) = some (attrs, r))
    (x y : List Char) : rank (x ++ typedButton attrs ++ y) < rank (x ++ t ++ y) := by
  obtain rfl := text_of_tag? h
  have hlit : "<button type=\"button\"".toList
      = "<button".toList ++ " type=\"button\"".toList := by decide
  have hnew : typedButton attrs
      = "<button".toList ++ " type=\"button\"".toList ++ attrs ++ ['>'] :=
    congrArg (fun opening => opening ++ attrs ++ ['>']) hlit
  have hlt := rank_insert_lt (u := " type=\"button\"".toList) (by decide) (by decide)
    (x ++ "<button".toList) (attrs ++ '>' :: y)
  rw [hnew]
  simpa only [List.append_assoc, List.cons_append, List.nil_append] using hlt

theorem beforeSlash?_eq_some {s u : List Char} (h : beforeSlash? s = some u) : s = u ++ ['/'] := by
  unfold beforeSlash? at h
  split at h
  · next r hr =>
    cases h
    rw [← List.reverse_reverse s, hr, List.reverse_cons]
  · cases h

/-- A hidden tag has the characters of the tag, apart from blanks, and those of its new
attribute. -/
theorem countP_hiddenTag {q : Char → Bool} (hq : ∀ c, isBlank c = true → q c = false)
    (hslash : q '/' = false) (attrs : List Char) :
    (hiddenTag attrs).countP q =
      ("<i".toList ++ attrs ++ " aria-hidden=\"true\">".toList).countP q := by
  have htrim : ∀ s, (trimEnd s).countP q = s.countP q := by
    intro s
    rw [List.countP_eq_length_filter, filter_trimEnd hq, ← List.countP_eq_length_filter]
  have hlit : " aria-hidden=\"true\" />".toList
      = " aria-hidden=\"true\"".toList ++ [' ', '/', '>'] := by decide
  have hlit' : " aria-hidden=\"true\">".toList
      = " aria-hidden=\"true\"".toList ++ ['>'] := by decide
  unfold hiddenTag
  split
  · next body hbody =>
    have hattrs := htrim attrs
    rw [beforeSlash?_eq_some hbody, List.countP_append, List.countP_singleton, hslash] at hattrs
    rw [hlit, hlit']
    simp only [List.countP_append, htrim, List.countP_cons, hq ' ' isBlank_space, hslash,
      List.countP_nil]
    simp only [Bool.false_eq_true, if_false] at hattrs ⊢
    omega
  · simp only [List.countP_append, htrim]

/-- Hiding an icon lowers the rank. -/
theorem rank_hiddenTag_lt {t r attrs : List Char} (h : icon? (t ++ r) = some (attrs, r))
    (x y : List Char) : rank (x ++ hiddenTag attrs ++ y) < rank (x ++ t ++ y) := by
  obtain rfl := text_of_tag? (icon?_eq_some h)
  have hf : fleeting (hiddenTag attrs)
      = fleeting ("<i".toList ++ attrs ++ " aria-hidden=\"true\">".toList) :=
    countP_hiddenTag (fun _ => not_isFleeting_of_isBlank) (by decide) attrs
  have hq : quotes (hiddenTag attrs)
      = quotes ("<i".toList ++ attrs ++ " aria-hidden=\"true\">".toList) := by
    refine countP_hiddenTag (fun c hc => ?_) (by decide) attrs
    exact beq_false_of_ne (not_quote_of_isBlank hc)
  have hf' : fleeting " aria-hidden=\"true\">".toList = 0 := by decide
  have hq' : quotes " aria-hidden=\"true\">".toList = 2 := by decide
  have hq'' : quotes ['>'] = 0 := by decide
  refine rank_lt_of_quotes_lt ?_ ?_
  · simp only [fleeting_append, hf, hf']
    omega
  · simp only [quotes_append, hq, hq', hq'']
    omega

end Markup
end SceneMarkup
