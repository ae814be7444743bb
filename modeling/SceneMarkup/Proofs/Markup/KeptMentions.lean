import SceneMarkup.Proofs.Markup.IconNames
import SceneMarkup.Proofs.Markup.KeptOutline
import SceneMarkup.Proofs.Markup.SpeltMentions

/-!
# Mentions through the rules

Behind the rule of class names no rule brings in a class name that is not in kebab case.  Blanking
targets and demoting headings make no mentions, grouping items keeps all of them.  The rule of icons
writes icon names, and reads only attributes whose classes are in kebab case if it has something to
make of them.  The rules for buttons and hidden icons write attributes that are no mentions.

## Main results

* `mem_mentions_emptyHref` — blanking a target makes no mentions.
* `shows_standardIcons`, `shows_typedButtons`, `shows_hiddenIcons` — the rules that rewrite tags.
* `mentions_groupItems`, `forall_mentions_singleHeading` — the rules that rename tags.
* `shows_normalize` — **a markup with plain mentions shows class names in kebab case when it is
  brought to the house rules.**
-/

namespace SceneMarkup
namespace Markup

open Text

/-! ### Anchors -/

theorem mentions_anchor {w : List Char} (hw : ∀ c ∈ w, isBlank c = true) (hne : w ≠ [])
    (z : List Char) : mentions ('<' :: 'a' :: (w ++ z)) = mentions (' ' :: z) := by
  obtain ⟨w', b, rfl⟩ := (List.eq_nil_or_concat' w).resolve_left hne
  have hb : isBlank b = true := hw b (by simp)
  have hletters : ∀ d ∈ '<' :: 'a' :: w', d.toLower ≠ 'c' := by
    rintro d (_ | ⟨_, _ | ⟨_, hd⟩⟩)
    · decide
    · decide
    · exact toLower_ne_of_not_isNameChar
        (not_isNameChar_of_isBlank (hw d (List.mem_append_left _ hd)))
  have hhead : ∀ d ∈ (b :: z).head?, d.toLower ≠ 'c' :=
    toLower_ne_of_mem_head? (toLower_ne_of_not_isNameChar (not_isNameChar_of_isBlank hb)) z
  rw [List.append_assoc, List.singleton_append, ← List.cons_append, ← List.cons_append,
    mentions_append_of_toLower_ne hletters hhead, mentions_cons_of_isBlank hb isBlank_space]

/-- A target is no mention, and none starts in front of its opening quote. -/
theorem mentions_href {b : Char} {w₁ w₂ : List Char} (hw₁ : ∀ c ∈ w₁, isBlank c = true)
    (hw₂ : ∀ c ∈ w₂, isBlank c = true) {q : Char} (hq : isQuote q = true) (r : List Char) :
    mentions (b :: ("href".toList ++ (w₁ ++ '=' :: (w₂ ++ q :: r)))) = mentions (q :: r) := by
  have hletters : ∀ c ∈ "href".toList, isNameChar c = true := forall_mem_of_all (by decide)
  have hhead : ∀ d ∈ ("href".toList ++ (w₁ ++ '=' :: (w₂ ++ q :: r))).head?, d.toLower ≠ 'c' :=
    toLower_ne_of_mem_head? (by decide) _
  rw [mentions_cons_of_none (mention?_of_head? hhead b), mentions_assignment hletters hw₁ hw₂ hq]

/-- The text in front of an `href` ends with a blank, the one behind the name of the tag if there is
no other. -/
theorem exists_blank_of_anchor? {s r : List Char} {a : Anchor} (h : anchor? s = some (a, r)) :
    ∃ y b, isBlank b = true ∧ ∀ z, ' ' :: (a.lead ++ z) = y ++ b :: z := by
  rcases getLast?_lead_of_anchor? h with hlead | ⟨b, hlast, hb⟩
  · exact ⟨[], ' ', isBlank_space, fun z => by rw [hlead]; rfl⟩
  · obtain ⟨y, hy⟩ := List.getLast?_eq_some_iff.1 hlast
    exact ⟨' ' :: y, b, hb, fun z => by rw [hy]; simp⟩

/-- Blanking a target makes no mentions. -/
theorem mem_mentions_emptyHref (s x : List Char) {m : Mention}
    (h : m ∈ mentions (x ++ emptyHref.revise s)) : m ∈ mentions (x ++ s) := by
  revert x m
  refine replaceAll_induction (R := fun s s' => ∀ (x : List Char) {m : Mention},
    m ∈ mentions (x ++ s') → m ∈ mentions (x ++ s)) consumes_anchor? ?_ ?_ ?_ s
  · exact fun x m h => h
  · intro c s s' _ ih x m h
    have := ih (x ++ [c]) (m := m) (by simpa using h)
    simpa using this
  · intro t a r r' _ ha ih x m h
    split at h
    · have := ih (x ++ t) (m := m) (by simpa using h)
      simpa using this
    · obtain ⟨w, quote, t', hw, hwne, -, ⟨hquote, -, w₁, w₂, q, hw₁, hw₂, hq, rfl⟩, hs⟩ :=
        anchor?_eq_some ha
      have hopening : "<a".toList = ['<', 'a'] := by decide
      have hdouble : isQuote '"' = true := by decide
      obtain ⟨y, b, hb, hlead⟩ := exists_blank_of_anchor? ha
      have hold : x ++ (t ++ r) = x ++ '<' :: ('a' :: (w ++ (a.lead ++ ("href".toList ++
          (w₁ ++ '=' :: (w₂ ++ quote :: (a.target ++ q :: r))))))) := by
        rw [hs, hopening]
        simp
      have hnew : x ++ (a.blanked ++ r') = x ++ '<' :: ('a' :: ([' '] ++ (a.lead ++
          ("href".toList ++ ([] ++ '=' :: ([] ++ '"' :: ([] ++ '"' :: r'))))))) := by
        simp [Anchor.blanked]
      obtain ⟨ms, h₁, h₂⟩ := exists_mentions_append (alike_assignment hb (n := "href".toList)
        (by decide) (forall_mem_of_all (by decide)) hw₁ isBlank_of_mem_nil
        (w₂ ++ quote :: (a.target ++ q :: r)) ([] ++ '"' :: ([] ++ '"' :: r'))) y
      rw [hnew, mentions_cut (Or.inl rfl), mentions_anchor (by simp) (by simp), hlead, h₂,
        mentions_href isBlank_of_mem_nil isBlank_of_mem_nil hdouble,
        mentions_append_quote (by simp) hdouble] at h
      rw [hold, mentions_cut (Or.inl rfl), mentions_anchor hw hwne, hlead, h₁,
        mentions_href hw₁ hw₂ hquote]
      refine (List.mem_append.1 h).elim (List.mem_append_left _) fun h =>
        List.mem_append_right _ ((List.mem_append.1 h).elim (List.mem_append_left _) fun h =>
          List.mem_append_right _ ?_)
      -- behind the target stands a quote in both texts
      have hr := ih ['"'] h
      rw [List.singleton_append, mentions_cons_of_isQuote hdouble hq] at hr
      have := mem_mentions_append_right (quote :: a.target) hr
      simpa using this

/-! ### Tags -/

section Tags

variable {Q Q' : Mention → Prop}

/-- What holds of all mentions of a text with a tag in it. -/
theorem forall_mentions_tag {x body z : List Char} :
    (∀ m ∈ mentions (x ++ ('<' :: (body ++ '>' :: z))), Q m) ↔
      (∀ m ∈ mentions (x ++ ['<']), Q m) ∧ (∀ m ∈ mentions ('<' :: (body ++ ['>'])), Q m) ∧
        ∀ m ∈ mentions ('>' :: z), Q m := by
  rw [mentions_tag]
  simp only [List.mem_append, or_imp, forall_and]

/-- What is checked of the tags that are replaced holds of all mentions. -/
theorem forall_mentions_replaceAll {α : Type} {p : Recogniser α}
    {f : List Char → α → List Char} (hp : p.Consumes) (hQ : ∀ m, Q m → Q' m)
    (htag : ∀ t a r, p (t ++ r) = some (a, r) → ∃ body body', t = '<' :: (body ++ ['>']) ∧
      f t a = '<' :: (body' ++ ['>']) ∧ ((∀ m ∈ mentions t, Q m) → ∀ m ∈ mentions (f t a), Q' m))
    (s : List Char) (h : ∀ m ∈ mentions s, Q m) : ∀ m ∈ mentions (replaceAll p f s), Q' m := by
  refine replaceAll_induction (R := fun s s' => ∀ x, (∀ m ∈ mentions (x ++ s), Q m) →
    ∀ m ∈ mentions (x ++ s'), Q' m) hp ?_ ?_ ?_ s [] h
  · exact fun x h m hm => hQ m (h m hm)
  · intro c s s' _ ih x h
    have := ih (x ++ [c]) (by simpa using h)
    simpa using this
  · intro t a r r' _ ha ih x h
    obtain ⟨body, body', rfl, hf, hkept⟩ := htag t a r ha
    have hold : x ++ ('<' :: (body ++ ['>']) ++ r) = x ++ ('<' :: (body ++ '>' :: r)) := by simp
    have hnew : x ++ (f ('<' :: (body ++ ['>'])) a ++ r') = x ++ ('<' :: (body' ++ '>' :: r')) := by
      rw [hf]
      simp
    rw [hold, forall_mentions_tag] at h
    rw [hf] at hkept
    rw [hnew, forall_mentions_tag]
    exact ⟨fun m hm => hQ m (h.1 m hm), hkept h.2.1, ih ['>'] h.2.2⟩

end Tags

/-- No mention starts in the name of a tag that does not start with a `c`. -/
theorem mentions_tagName {n : List Char} (hn : ∀ c ∈ n, isNameChar c = true)
    (hhead : ∀ d ∈ n.head?, d.toLower ≠ 'c') (hne : n ≠ []) (z : List Char) :
    mentions ('<' :: (n ++ z)) = mentions z := by
  rw [mentions_cons_of_none (mention?_of_head? ?_ '<'), mentions_append_of_isNameChar hn]
  rwa [List.head?_append_of_ne_nil _ hne]

/-! ### Icons -/

/-- The value of an attribute is the value of a mention, when that is not torn. -/
theorem classValue_of_attributeValue? {s v r : List Char} (h : attributeValue? s = some (v, r))
    {d : Char} (hd : isBareChar d = false) (z : List Char) :
    classValue (s ++ d :: z) = .torn ∨
      (classValue (s ++ d :: z)).text = v ∧ ∀ c ∈ v, isPlainChar c = true := by
  rcases attributeValue?_cases h with ⟨q, hq, hmem, rfl⟩ | ⟨hne, rfl, -⟩
  · have htext : q :: (v ++ q :: r) ++ d :: z = q :: (v ++ q :: (r ++ d :: z)) := by simp
    rw [htext]
    by_cases htorn : classValue (q :: (v ++ q :: (r ++ d :: z))) = .torn
    · exact Or.inl htorn
    · obtain ⟨-, hplain, hvalue⟩ := classValue_of_closed hq hmem hq _ htorn
      exact Or.inr ⟨by rw [hvalue]; rfl, hplain⟩
  · have hbare : ∀ c ∈ s.takeWhile isBareChar, isBareChar c = true :=
      fun c hc => List.mem_takeWhile_imp hc
    cases s with
    | nil => cases hne rfl
    | cons c s =>
      have htake : (c :: s ++ d :: z).takeWhile isBareChar = (c :: s).takeWhile isBareChar :=
        (takeWhile_append_of_stops (by simp [hd])).1
      have hc : isBareChar c = true := by
        by_contra hc
        exact hne (List.takeWhile_cons_of_neg hc)
      have hquote : ¬ isQuote c = true := by
        simp [not_isQuote_of_isBareChar hc]
      refine Or.inr ⟨?_, fun x hx => ?_⟩
      · rw [List.cons_append, classValue, if_neg hquote, ← List.cons_append, htake]
        rfl
      · have hx := hbare x hx
        simp only [isBareChar, Bool.not_eq_true', Bool.or_eq_false_iff] at hx
        simp [isPlainChar, hx]

/-- An attribute named `class` is a mention with its value, when that is not torn. -/
theorem mention?_of_attribute? {b : Char} (hb : isNameChar b = false) {s r v : List Char}
    {a : Attribute} (h : attribute? s = some (a, r))
    (hclass : sameAscii a.name "class".toList = true) (hv : a.value = some v) {d : Char}
    (hd : isBareChar d = false) (z : List Char) :
    ∃ value, mention? (b :: (s ++ d :: z)) = some ⟨isBlank b, a.name, value⟩ ∧
      (value = .torn ∨ value.text = v ∧ ∀ c ∈ v, isPlainChar c = true) := by
  obtain ⟨hname, -, ⟨hnone, -⟩ | ⟨v', hv', hequals⟩⟩ := attribute?_cases h
  · rw [hv] at hnone
    cases hnone
  · obtain rfl : v = v' := Option.some.inj (hv.symm.trans hv')
    obtain ⟨w₁, w₂, e, hw₁, hw₂, hhead, hvalue, hs⟩ := attributeValue?_of_equalsValue? hequals
    cases e with
    | nil => cases hvalue
    | cons e r₂ =>
      refine ⟨_, ?_, classValue_of_attributeValue? hvalue hd z⟩
      have htext : s ++ d :: z = a.name ++ (w₁ ++ '=' :: (w₂ ++ e :: (r₂ ++ d :: z))) := by
        conv => lhs; rw [← List.takeWhile_append_dropWhile (p := isNameChar) (l := s), ← hname, hs]
        simp
      rw [htext]
      exact mention?_of_sameAscii hb hclass hw₁ hw₂ (hhead e rfl) _

/-- Reading a value stops behind a quote, or where no bare value goes on. -/
theorem stop_of_attributeValue? {s v r : List Char} (h : attributeValue? s = some (v, r)) :
    (∃ u q, isQuote q = true ∧ s = u ++ q :: r) ∨ ∀ d ∈ r.head?, isBareChar d = false := by
  rcases attributeValue?_cases h with ⟨q, hq, -, rfl⟩ | ⟨-, -, rfl⟩
  · exact Or.inl ⟨q :: v, q, hq, rfl⟩
  · refine Or.inr fun d hd => ?_
    obtain ⟨u, hu⟩ := List.head?_eq_some_iff.1 hd
    exact eq_false_of_dropWhile hu

/-- Reading an attribute stops behind a quote, or in front of a character that goes on with no
name or with no bare value. -/
theorem stop_of_attribute? {s r : List Char} {a : Attribute} (h : attribute? s = some (a, r)) :
    (∃ u q, isQuote q = true ∧ s = u ++ q :: r) ∨
      ∀ d ∈ r.head?, isNameChar d = false ∨ isBareChar d = false := by
  obtain ⟨-, -, ⟨-, rfl⟩ | ⟨v, -, hequals⟩⟩ := attribute?_cases h
  · refine Or.inr fun d hd => Or.inl ?_
    obtain ⟨u, hu⟩ := List.head?_eq_some_iff.1 hd
    exact eq_false_of_dropWhile hu
  · obtain ⟨w₁, w₂, e, -, -, -, hvalue, hs⟩ := attributeValue?_of_equalsValue? hequals
    rcases stop_of_attributeValue? hvalue with ⟨u, q, hq, rfl⟩ | hstop
    · refine Or.inl ⟨s.takeWhile isNameChar ++ (w₁ ++ '=' :: (w₂ ++ u)), q, hq, ?_⟩
      conv => lhs; rw [← List.takeWhile_append_dropWhile (p := isNameChar) (l := s), hs]
      simp
    · exact Or.inr fun d hd => Or.inr (hstop d hd)

/-- An attribute whose name could go on a bare value does not stand directly behind a name. -/
theorem not_isNameChar_before {s : List Char} {o : Occurrence Attribute}
    (h : o ∈ attributes s) (hbare : ∀ d ∈ o.value.name.head?, isBareChar d = true) :
    ∃ u r, s = u ++ (o.text ++ r) ∧ u.length = o.start ∧
      attribute? (o.text ++ r) = some (o.value, r) ∧ ∀ b ∈ u.getLast?, isNameChar b = false := by
  obtain ⟨u, r, hs, hlen, -, hread, hcomes⟩ := comesTo_of_mem_occurrences consumes_attribute? h
  refine ⟨u, r, hs, hlen, hread, fun b hb => ?_⟩
  rcases hcomes with rfl | ⟨y, c, rfl, hc⟩ | ⟨y, t, a, rfl, -, ha⟩
  · cases hb
  · rw [List.getLast?_concat] at hb
    obtain rfl : c = b := Option.some.inj hb
    exact attribute?_cons_eq_none_iff.1 hc
  · -- the attribute follows directly, so the one before it ended with a quote
    obtain ⟨hname, hchars, hshape⟩ := attribute?_eq_some hread
    obtain ⟨d, n, hdn⟩ := List.exists_cons_of_ne_nil hname
    have hhead : (o.text ++ r).head? = some d := by
      rcases hshape with ⟨-, htext⟩ | ⟨_, _, _, _, -, -, -, -, htext⟩ <;> rw [htext, hdn] <;> rfl
    rcases stop_of_attribute? ha with ⟨u, q, hq, hu⟩ | hstop
    · obtain rfl : t = u ++ [q] := List.append_cancel_right (hu.trans (by simp))
      rw [← List.append_assoc, List.getLast?_concat] at hb
      obtain rfl : q = b := Option.some.inj hb
      simp [isNameChar, hq]
    · rcases hstop d hhead with hd | hd
      · rw [hchars d (by rw [hdn]; exact List.mem_cons_self)] at hd
        cases hd
      · rw [hbare d (by rw [hdn]; rfl)] at hd
        cases hd

/-- The standard form of the classes of a plain value is plain. -/
theorem isPlainChar_of_mem_standardWords {v : List Char} (hv : ∀ c ∈ v, isPlainChar c = true) :
    ∀ c ∈ joinWith [' '] (standardWords (words v)), isPlainChar c = true := by
  have hletters : ∀ c ∈ " ico-normal-default".toList, isPlainChar c = true :=
    forall_mem_of_all (by decide)
  intro c hc
  rcases mem_standardWords hc with hc | hc
  · exact hv c hc
  · exact hletters c hc

/-- In a text with spelt mentions, the classes of an icon are plain, and in kebab case when a blank
is in front of their attribute. -/
theorem classes_of_spelt {b : Char} (hb : isNameChar b = false) {x z s r v : List Char}
    {a : Attribute} (h : attribute? s = some (a, r))
    (hclass : sameAscii a.name "class".toList = true) (hv : a.value = some v)
    (hicon : (words v).any mentionsIcon = true) {d : Char} (hd : isBareChar d = false)
    (hold : ∀ m ∈ mentions (x ++ b :: (s ++ d :: z)), m.IsSpelt) :
    (∀ c ∈ v, isPlainChar c = true) ∧ (isBlank b = true → ∀ w ∈ words v, kebab w = w) := by
  obtain ⟨value, hmention, hvalue⟩ := mention?_of_attribute? hb h hclass hv hd z
  have hspelt : Mention.IsSpelt ⟨isBlank b, a.name, value⟩ := by
    refine hold _ (mem_mentions_append_right x ?_)
    rw [mentions_cons_of_some hmention]
    exact List.mem_cons_self
  obtain ⟨hvtext, hplain⟩ := hvalue.resolve_left hspelt.1
  refine ⟨hplain, fun hblank => ?_⟩
  have hkebab := hspelt.2 hblank
  simp only [Mention.classes, hvtext] at hkebab
  exact hkebab (Or.inr hicon)

/-- The standard form of the classes of an icon, which are spelt, is spelt. -/
theorem shows_standardAttributes {attrs attrs' : List Char} (hattrs : startsBlank attrs = true)
    (h : standardAttributes? attrs = some attrs')
    (hold : ∀ m ∈ mentions ('<' :: ("i".toList ++ attrs ++ ['>'])), m.IsSpelt) :
    ∀ m ∈ mentions ('<' :: ("i".toList ++ attrs' ++ ['>'])), m.Shows fun w => kebab w = w := by
  obtain ⟨o, v, hfind, hv, hicon, -, rfl⟩ := standardAttributes?_eq_quotedText h
  obtain ⟨ho, hclass⟩ := mem_of_findAttribute? hfind
  obtain ⟨u, r, hs, hlen, hread, hlast⟩ := not_isNameChar_before ho
    fun d hd => isBareChar_of_sameAscii hclass d (List.mem_of_head? hd)
  obtain ⟨htake, hdrop⟩ := take_drop_of_place hs hlen
  obtain ⟨hname, -, ⟨hnone, -⟩ | ⟨-, w₁, w₂, tv, -, hw₁, hw₂, -, htext⟩⟩ :=
    attribute?_eq_some hread
  · rw [hv] at hnone
    cases hnone
  -- a blank stands in front of the first attribute
  have hne : u ≠ [] := by
    rintro rfl
    rw [hs, List.nil_append, startsBlank_of_attribute? hread] at hattrs
    cases hattrs
  obtain ⟨y, b, rfl⟩ := (List.eq_nil_or_concat' u).resolve_left hne
  have hb : isNameChar b = false := hlast b List.getLast?_concat
  have hfront : '<' :: ("i".toList ++ attrs ++ ['>']) = ('<' :: 'i' :: y) ++ ([b] ++
      (o.value.name ++ (w₁ ++ '=' :: (w₂ ++ (tv ++ (r ++ ['>'])))))) := by
    rw [hs, htext]
    simp
  have hwritten : '<' :: ("i".toList ++ (attrs.take o.start ++ (quotedText "class".toList [] []
      (joinWith [' '] (standardWords (words v))) ++ attrs.drop o.stop)) ++ ['>']) =
      ('<' :: 'i' :: y) ++ ([b] ++ ("class".toList ++ ([] ++ '=' :: ([] ++ '"' ::
        (joinWith [' '] (standardWords (words v)) ++ '"' :: (r ++ ['>'])))))) := by
    rw [htake, hdrop]
    simp [quotedText]
  obtain ⟨hplain, hkebab⟩ := classes_of_spelt (x := '<' :: 'i' :: y) (z := []) hb hread hclass hv
    hicon (d := '>') (by decide) (by simpa [hs] using hold)
  have hquote : isQuote '"' = true := by decide
  intro m hm
  rw [hwritten] at hm
  rcases mem_mentions_append (seals_assignment hname (isBareChar_of_sameAscii hclass) hw₁ _)
    (seals_assignment (by decide) (isBareChar_of_sameAscii sameAscii_class) (by simp) _)
    (fun u => ⟨Or.inr ⟨b, by simp, hb⟩, Or.inr ⟨b, by simp, hb⟩⟩) hm with hm | hm | hm
  · rw [← hfront] at hm
    exact (hold m hm).shows
  · exact Mention.shows_of_isBare hm _
  · rw [List.singleton_append, mentions_quoted hb sameAscii_class (by simp) (by simp) hquote
      (isPlainChar_of_mem_standardWords hplain)] at hm
    rcases List.mem_cons.1 hm with rfl | hm
    · refine Mention.shows_quoted fun hblank w hw => ?_
      have hws : ∀ w ∈ standardWords (words v), IsKebab w :=
        isKebab_of_mem_standardWords fun w hw => isKebab_iff.2 (hkebab hblank w hw)
      exact isKebab_iff.1 (hws w (mem_of_mem_words_joinWith hws hw))
    · refine shows_mentions_cons (by decide) (fun m hm => (hold m ?_).shows) m hm
      rw [hfront]
      have := mem_mentions_append_right
        ('<' :: 'i' :: y ++ ([b] ++ (o.value.name ++ (w₁ ++ '=' :: (w₂ ++ tv))))) hm
      simpa using this

/-- Bringing the classes of icons to the standard form leaves class names in kebab case. -/
theorem shows_standardIcons {s : List Char} (h : ∀ m ∈ mentions s, m.IsSpelt) :
    ∀ m ∈ mentions (standardIcons.revise s), m.Shows fun w => kebab w = w := by
  refine forall_mentions_replaceAll consumes_icon? (fun m hm => hm.shows) ?_ s h
  intro t attrs r ha
  have htag := icon?_eq_some ha
  obtain rfl := text_of_tag? htag
  have hblank : startsBlank attrs = true := by
    have hne : attrs ≠ [] := by
      rintro rfl
      rw [icon?, htag] at ha
      cases ha
    exact (tag?_eq_some htag).1.resolve_left hne
  have htext : "<i".toList ++ (attrs ++ ['>']) = '<' :: ("i".toList ++ attrs ++ ['>']) := by simp
  cases hs : standardAttributes? attrs with
  | none => exact ⟨_, _, htext, htext, fun h m hm => (h m hm).shows⟩
  | some attrs' =>
    have htext' : "<i".toList ++ attrs' ++ ['>'] = '<' :: ("i".toList ++ attrs' ++ ['>']) := by
      simp
    refine ⟨_, _, htext, htext', fun h => ?_⟩
    rw [htext] at h
    dsimp only
    rw [htext']
    exact shows_standardAttributes hblank hs h

/-! ### Button types and hidden icons -/

section Shown

variable {P : List Char → Prop}

/-- The type of a button is no mention. -/
theorem mentions_typedButton {attrs : List Char} (hattrs : attrs = [] ∨ startsBlank attrs = true) :
    mentions (typedButton attrs) = mentions ("<button".toList ++ (attrs ++ ['>'])) := by
  have hletters : ∀ c ∈ "<button".toList, c.toLower ≠ 'c' := forall_mem_of_all (by decide)
  have hletters' : ∀ c ∈ "<button type=\"button\"".toList, c.toLower ≠ 'c' :=
    forall_mem_of_all (by decide)
  have hhead : ∀ d ∈ (attrs ++ ['>']).head?, d.toLower ≠ 'c' := by
    rcases hattrs with rfl | hblank
    · exact toLower_ne_of_mem_head? (by decide) []
    · cases attrs with
      | nil => cases hblank
      | cons c attrs =>
        exact toLower_ne_of_mem_head?
          (toLower_ne_of_not_isNameChar (not_isNameChar_of_isBlank hblank)) _
  have htext : typedButton attrs = "<button type=\"button\"".toList ++ (attrs ++ ['>']) :=
    List.append_assoc _ _ _
  rw [htext, mentions_append_of_toLower_ne hletters hhead,
    mentions_append_of_toLower_ne hletters' hhead]

/-- Giving every button a type keeps what is shown. -/
theorem shows_typedButtons {s : List Char} (h : ∀ m ∈ mentions s, m.Shows P) :
    ∀ m ∈ mentions (typedButtons.revise s), m.Shows P := by
  refine forall_mentions_replaceAll consumes_button? (fun _ hm => hm) ?_ s h
  intro t attrs r ha
  obtain rfl := text_of_tag? ha
  have htext : "<button".toList ++ (attrs ++ ['>']) =
      '<' :: ("button".toList ++ attrs ++ ['>']) := by simp
  by_cases htype : hasType attrs = true
  · rw [if_pos htype]
    exact ⟨_, _, htext, htext, fun h => h⟩
  · rw [if_neg htype]
    refine ⟨_, _, htext, typedButton_eq attrs, ?_⟩
    rw [mentions_typedButton (tag?_eq_some ha).1]
    exact fun h => h

/-- Hiding icons keeps what is shown. -/
theorem shows_hiddenIcons {s : List Char} (h : ∀ m ∈ mentions s, m.Shows P) :
    ∀ m ∈ mentions (hiddenIcons.revise s), m.Shows P := by
  refine forall_mentions_replaceAll consumes_icon? (fun _ hm => hm) ?_ s h
  intro t attrs r ha
  obtain rfl := text_of_tag? (icon?_eq_some ha)
  have htext : "<i".toList ++ (attrs ++ ['>']) = '<' :: ("i".toList ++ attrs ++ ['>']) := by simp
  split
  · refine ⟨_, _, htext, hiddenTag_eq attrs, fun h m hm => ?_⟩
    obtain ⟨u, w, z, rfl, hw, hhidden, hz⟩ := hiddenAttributes_eq attrs
    have hwplain : ∀ c ∈ w, isPlainChar c = true ∧ isNameChar c = false := by
      intro c hc
      rcases hw c hc with hblank | rfl
      · exact ⟨isPlainChar_of_isBlank hblank, not_isNameChar_of_isBlank hblank⟩
      · decide
    have hparted : ∀ x, IsParted x (w ++ ['>']) := by
      intro x
      cases w with
      | nil => exact isParted_of_not_isNameChar (by decide) x []
      | cons c w => exact isParted_of_not_isNameChar (hwplain c List.mem_cons_self).2 x _
    have hold : "<i".toList ++ (u ++ w ++ ['>']) = ('<' :: 'i' :: u) ++ ([] ++ (w ++ ['>'])) := by
      simp
    have hnew : hiddenTag (u ++ w) = ('<' :: 'i' :: u) ++
        ([] ++ ' ' :: ("aria-hidden".toList ++ ([] ++ '=' :: ('"' :: ("true".toList ++
          ['"'] ++ z ++ ['>']))))) := by
      rw [hiddenTag_eq, hhidden]
      simp [hidingText, quotedText]
    have hseals : Seals (' ' :: ("aria-hidden".toList ++ ([] ++ '=' :: ('"' :: ("true".toList ++
        ['"'] ++ z ++ ['>']))))) :=
      (seals_assignment (by decide) (forall_mem_of_all (by decide)) (by simp) _).cons isBlank_space
    rw [hnew] at hm
    rcases mem_mentions_append (seals_plain_append (fun c hc => (hwplain c hc).1) (Or.inr rfl) [])
      hseals (fun x => ⟨hparted (x ++ []),
        isParted_of_not_isNameChar (by decide) _ _⟩) hm with hm | hm | hm
    · rw [← hold] at hm
      exact h m hm
    · exact Mention.shows_of_isBare hm P
    · -- the new attribute is no mention, and nothing stands behind it
      have hnone : ∀ z, z = " /".toList ∨ z = [] → mentions ([] ++ ' ' :: ("aria-hidden".toList ++
          ([] ++ '=' :: ('"' :: ("true".toList ++ ['"'] ++ z ++ ['>']))))) = [] := by
        rintro z (rfl | rfl) <;> decide
      rw [hnone z hz] at hm
      cases hm
  · exact ⟨_, _, htext, htext, fun h => h⟩

end Shown

/-! ### Headings -/

/-- A heading tag, demoted or not, has the mentions of its attributes at most. -/
theorem mem_mentions_step {s t : List Char} {tag : HeadingTag}
    (h : .found t tag ∈ pieces headingTag? s) (d : Demotion) :
    ∃ body body', t = '<' :: (body ++ ['>']) ∧ (d.step t tag).1 = '<' :: (body' ++ ['>']) ∧
      ∀ m ∈ mentions (d.step t tag).1, m ∈ mentions t := by
  rcases body_of_mem_headings h with ⟨attrs, rfl, -, rfl⟩ | ⟨rfl, u, -, rfl⟩
  · rw [Demotion.step]
    split
    · have hold := mentions_tagName (n := "h1".toList) (forall_mem_of_all (by decide))
        (by simp) (by decide) (attrs ++ ['>'])
      have hnew := mentions_tagName (n := "h2".toList) (forall_mem_of_all (by decide))
        (by simp) (by decide) (attrs ++ ['>'])
      have htext : "<h2".toList ++ attrs ++ ['>'] = '<' :: ("h2".toList ++ attrs ++ ['>']) := by
        simp
      refine ⟨_, _, rfl, htext, fun m hm => ?_⟩
      dsimp only at hm
      rw [htext, List.append_assoc, hnew] at hm
      rw [List.append_assoc, hold]
      exact hm
    · exact ⟨_, _, rfl, rfl, fun m hm => hm⟩
  · rw [Demotion.step]
    split
    · have htext : "</h2>".toList = '<' :: ("/h2".toList ++ ['>']) := by decide
      have hnone : mentions "</h2>".toList = [] := by decide
      refine ⟨_, _, rfl, htext, fun m hm => ?_⟩
      dsimp only at hm
      rw [hnone] at hm
      cases hm
    · exact ⟨_, _, rfl, rfl, fun m hm => hm⟩

/-- Keeping one heading of level one makes no mentions. -/
theorem forall_mentions_singleHeading {Q : Mention → Prop} {s : List Char}
    (h : ∀ m ∈ mentions s, Q m) : ∀ m ∈ mentions (singleHeading.revise s), Q m := by
  have key : ∀ (ps : List (Piece HeadingTag)), (∀ y ∈ ps, y ∈ pieces headingTag? s) → ∀ d x,
      (∀ m ∈ mentions (x ++ ps.flatMap Piece.text), Q m) →
        ∀ m ∈ mentions (x ++ demote d ps), Q m := by
    intro ps
    induction ps with
    | nil => exact fun _ d x h => h
    | cons piece ps ih =>
      intro hps d x h
      have hrest := ih fun y hy => hps y (List.mem_cons_of_mem _ hy)
      cases piece with
      | plain c =>
        have := hrest d (x ++ [c]) (by simpa using h)
        simpa [demote] using this
      | found t tag =>
        obtain ⟨body, body', ht, ht', hsub⟩ := mem_mentions_step (hps _ List.mem_cons_self) d
        have hold : x ++ (Piece.found t tag :: ps).flatMap Piece.text =
            x ++ ('<' :: (body ++ '>' :: ps.flatMap Piece.text)) := by
          rw [List.flatMap_cons, Piece.text_found, ht]
          simp
        have hnew : x ++ demote d (.found t tag :: ps) =
            x ++ ('<' :: (body' ++ '>' :: demote (d.step t tag).2 ps)) := by
          rw [demote, ht']
          simp
        rw [hold, forall_mentions_tag] at h
        rw [hnew, forall_mentions_tag]
        rw [ht', ht] at hsub
        exact ⟨h.1, fun m hm => h.2.1 m (hsub m hm), hrest _ ['>'] h.2.2⟩
  have := key (pieces headingTag? s) (fun _ hy => hy) ⟨false, false⟩ []
  rw [flatMap_text_pieces] at this
  exact this h

/-! ### Items -/

/-- The mentions around and in a text between two tags without mentions. -/
theorem mentions_enclosed {n n' : List Char} (hn : ∀ c ∈ n, isNameChar c = true)
    (hhead : ∀ d ∈ n.head?, d.toLower ≠ 'c') (hne : n ≠ [])
    (hn' : mentions ('<' :: (n' ++ ['>'])) = []) (x u y : List Char) :
    mentions (x ++ ('<' :: (n ++ (u ++ ('<' :: (n' ++ '>' :: y)))))) =
      mentions (x ++ ['<']) ++ (mentions (u ++ ['<']) ++ mentions ('>' :: y)) := by
  rw [mentions_cut (Or.inl rfl), mentions_tagName hn hhead hne, mentions_tag, hn',
    List.nil_append]

/-- An item has the mentions of its body, and so has the list item. -/
theorem mentions_item {t : List Char} (h : IsItem t) : ∃ u, ∀ x y,
    mentions (x ++ (t ++ y)) =
        mentions (x ++ ['<']) ++ (mentions (u ++ ['<']) ++ mentions ('>' :: y)) ∧
      mentions (x ++ (listItem t ++ y)) =
        mentions (x ++ ['<']) ++ (mentions (u ++ ['<']) ++ mentions ('>' :: y)) := by
  obtain ⟨u, rfl⟩ := h
  refine ⟨u, fun x y => ⟨?_, ?_⟩⟩
  · have hclosing : mentions ('<' :: ("/div".toList ++ ['>'])) = [] := by decide
    have hdiv := mentions_enclosed (n := "div".toList) (forall_mem_of_all (by decide)) (by simp)
      (by decide) hclosing x u y
    simpa using hdiv
  · have hclosing : mentions ('<' :: ("/li".toList ++ ['>'])) = [] := by decide
    have hli := mentions_enclosed (n := "li".toList) (forall_mem_of_all (by decide)) (by simp)
      (by decide) hclosing x u y
    rw [listItem, itemBody_of_isItem]
    simpa using hli

theorem head?_of_isItem {t : List Char} (h : IsItem t) (y : List Char) :
    ∀ d ∈ (t ++ y).head?, d.toLower ≠ 'c' := by
  obtain ⟨u, rfl⟩ := h
  exact toLower_ne_of_mem_head? (by decide) _

theorem head?_of_listItem (t y : List Char) : ∀ d ∈ (listItem t ++ y).head?, d.toLower ≠ 'c' :=
  toLower_ne_of_mem_head? (by decide) _

/-- Blanks behind a tag hold no mention. -/
theorem mentions_gap {w : List Char} (hw : ∀ c ∈ w, isBlank c = true) {z : List Char}
    (hz : ∀ d ∈ z.head?, d.toLower ≠ 'c') : mentions ('>' :: (w ++ z)) = mentions z := by
  refine mentions_append_of_toLower_ne (y := '>' :: w) ?_ hz
  rintro d (_ | ⟨_, hd⟩)
  · decide
  · exact toLower_ne_of_not_isNameChar (not_isNameChar_of_isBlank (hw d hd))

/-- The items behind the first one, behind the end of a tag. -/
theorem mentions_others {gs : List Segment} (hgap : ∀ g ∈ gs, allBlank g.gap = true)
    (hitem : ∀ g ∈ gs, IsItem g.item) (y : List Char) :
    mentions ('>' :: (gs.flatMap Segment.text ++ y)) =
      mentions ('>' :: ((gs.map Segment.item).flatMap (fun t => "\n    ".toList ++ listItem t) ++
        ("\n</ul>".toList ++ y))) := by
  induction gs with
  | nil =>
    have hclosing : '>' :: ("\n</ul>".toList ++ y) = ">\n</ul".toList ++ '>' :: y := by simp
    have hletters : ∀ d ∈ ">\n</ul".toList, d.toLower ≠ 'c' := forall_mem_of_all (by decide)
    rw [List.map_nil, List.flatMap_nil, List.flatMap_nil, List.nil_append, List.nil_append,
      hclosing, mentions_append_of_toLower_ne hletters (toLower_ne_of_mem_head? (by decide) _)]
  | cons g gs ih =>
    have ih := ih (fun g hg => hgap g (List.mem_cons_of_mem _ hg))
      (fun g hg => hitem g (List.mem_cons_of_mem _ hg))
    have hg := hitem g List.mem_cons_self
    have hbreak : ∀ c ∈ "\n    ".toList, isBlank c = true := forall_mem_of_all (by decide)
    obtain ⟨u, hu⟩ := mentions_item hg
    have hleft := (hu [] (gs.flatMap Segment.text ++ y)).1
    have hright := (hu [] ((gs.map Segment.item).flatMap (fun t => "\n    ".toList ++ listItem t) ++
      ("\n</ul>".toList ++ y))).2
    rw [List.nil_append] at hleft hright
    rw [List.flatMap_cons, Segment.text, List.append_assoc, List.append_assoc,
      mentions_gap (allBlank_iff.1 (hgap g List.mem_cons_self)) (head?_of_isItem hg _), hleft, ih,
      List.map_cons, List.flatMap_cons, List.append_assoc, List.append_assoc,
      mentions_gap hbreak (head?_of_listItem _ _), hright]

/-- Making a list of a run keeps its mentions. -/
theorem mentions_render {r : Run} (hgap : ∀ g ∈ r.others, allBlank g.gap = true)
    (hitems : ∀ t ∈ r.items, IsItem t) (x y : List Char) :
    mentions (x ++ (r.render ++ y)) = mentions (x ++ (r.text ++ y)) := by
  by_cases hothers : r.others = []
  · rw [render_eq_text hothers]
  · have hfirst : IsItem r.first := hitems r.first List.mem_cons_self
    have hrest : ∀ g ∈ r.others, IsItem g.item := fun g hg =>
      hitems g.item (List.mem_cons_of_mem _ (List.mem_map_of_mem hg))
    have hletters : ∀ d ∈ "<ul>\n    ".toList, d.toLower ≠ 'c' := forall_mem_of_all (by decide)
    have hlist : x ++ (r.render ++ y) = (x ++ r.gap) ++ '<' :: ("ul>\n    ".toList ++
        (listItem r.first ++ ((r.others.map Segment.item).flatMap
          (fun t => "\n    ".toList ++ listItem t) ++ ("\n</ul>".toList ++ y)))) := by
      rw [render_eq_list hothers]
      simp
    have htext : x ++ (r.text ++ y) =
        (x ++ r.gap) ++ (r.first ++ (r.others.flatMap Segment.text ++ y)) := by
      rw [Run.text]
      simp
    obtain ⟨u, hu⟩ := mentions_item hfirst
    have hopened := mentions_append_of_toLower_ne hletters (head?_of_listItem r.first
      ((r.others.map Segment.item).flatMap (fun t => "\n    ".toList ++ listItem t) ++
        ("\n</ul>".toList ++ y)))
    have hwritten := (hu [] ((r.others.map Segment.item).flatMap
      (fun t => "\n    ".toList ++ listItem t) ++ ("\n</ul>".toList ++ y))).2
    have hopening : "<ul>\n    ".toList = '<' :: "ul>\n    ".toList := by decide
    rw [hopening, List.cons_append] at hopened
    rw [List.nil_append] at hwritten
    rw [hlist, mentions_cut (Or.inl rfl), hopened, hwritten, htext, (hu _ _).1,
      mentions_others hgap hrest]
    rfl

/-- **Making lists of neighbouring items keeps the mentions.** -/
theorem mentions_groupItems (s : List Char) : mentions (groupItems s) = mentions s :=
  groupItems_invariant (I := fun t => mentions t = mentions s) rfl fun _ hgap hitems x y h =>
    (mentions_render hgap hitems x y).trans h

/-! ### All rules -/

/-- **A markup with plain mentions shows class names in kebab case when it is brought to the house
rules.** -/
theorem shows_normalize {s : List Char} (h : ∀ m ∈ mentions s, m.IsPlain) :
    ∀ m ∈ mentions (normalize s), m.Shows fun w => kebab w = w := by
  have hspelt : ∀ m ∈ mentions (emptyHref.revise (kebabClasses.revise s)), m.IsSpelt :=
    fun m hm => isSpelt_kebabClasses h m (mem_mentions_emptyHref _ [] hm)
  have hicons := shows_standardIcons hspelt
  have hbuttons := shows_typedButtons hicons
  have hhidden := shows_hiddenIcons hbuttons
  rw [← mentions_groupItems] at hhidden
  rw [normalize_eq]
  exact forall_mentions_singleHeading hhidden

end Markup
end SceneMarkup
