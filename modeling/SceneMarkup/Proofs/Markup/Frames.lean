import SceneMarkup.Proofs.Markup.KeptOutline
import SceneMarkup.Proofs.Markup.Rerun

/-!
# What the house rules keep of a markup

The rules for class names and for targets look for their attributes anywhere in a markup, in running
text and inside the values of other attributes too.  Where what they write anew is an attribute of a
tag, as the reader of attributes finds it, they keep the outline; and so do all the rules together.

## Main definitions

* `tagAttributes` — the attributes of the tags of a markup, with their places.
* `ClassesInTags`, `TargetsInTags` — what the two rules write anew are attributes of tags.

## Main results

* `Tagwise.write` — an attribute written anew in a tag that is partly rewritten.
* `tagwise_kebabClasses`, `tagwise_emptyHref` — the two rules go tag by tag.
* `outline_normalize` — **the house rules keep the visible characters, and the frames of the
  tags between them.**
-/

namespace SceneMarkup
namespace Markup

open Text

/-! ### The attributes of a markup -/

/-- The attributes of the tags of a markup, with their places in the markup. -/
def tagAttributes (s : List Char) : List (Occurrence Attribute) :=
  (occurrences anyTag? s).flatMap fun tag =>
    (attributes (tag.value.dropWhile isNameChar)).map fun o =>
      ⟨tag.start + 1 + (tag.value.takeWhile isNameChar).length + o.start, o.text, o.value⟩

/-- Whether an attribute of some tag, with the name and the value given, ends at a place. -/
def EndsTagAttribute (s name value : List Char) (stop : Nat) : Prop :=
  ∃ o ∈ tagAttributes s, o.stop = stop ∧ o.value = ⟨name, some value⟩

/-- The class attributes that are written anew are attributes of tags. -/
def ClassesInTags (s : List Char) : Prop :=
  ∀ o ∈ occurrences classAttribute? s, kebabAttribute o.value = o.text ∨
    EndsTagAttribute s "class".toList o.value.value o.stop

/-- The targets that are written anew are attributes of tags. -/
def TargetsInTags (s : List Char) : Prop :=
  ∀ o ∈ occurrences anchor? s, o.value.target = [] ∨
    EndsTagAttribute s "href".toList o.value.target o.stop

instance (s name value : List Char) (stop : Nat) : Decidable (EndsTagAttribute s name value stop) :=
  inferInstanceAs (Decidable (∃ o ∈ tagAttributes s, o.stop = stop ∧ o.value = ⟨name, some value⟩))

instance (s : List Char) : Decidable (ClassesInTags s) :=
  inferInstanceAs (Decidable (∀ o ∈ occurrences classAttribute? s,
    kebabAttribute o.value = o.text ∨ EndsTagAttribute s "class".toList o.value.value o.stop))

instance (s : List Char) : Decidable (TargetsInTags s) :=
  inferInstanceAs (Decidable (∀ o ∈ occurrences anchor? s,
    o.value.target = [] ∨ EndsTagAttribute s "href".toList o.value.target o.stop))

/-- The text in front of a tag does not end inside a tag. -/
theorem not_endsInTag_of_pieces {s t body : List Char} {before after : List (Piece (List Char))}
    (h : pieces anyTag? s = before ++ .found t body :: after) :
    endsInTag false (before.flatMap Piece.text) = false := by
  induction before generalizing s with
  | nil => rfl
  | cons x before ih =>
    cases s using text_induction consumes_anyTag? with
    | nil => cases h
    | plain c s hn _ =>
      rw [pieces_cons_of_none hn] at h
      obtain ⟨rfl, hrest⟩ := List.cons.inj h
      have hc : c ≠ '<' := by
        rintro rfl
        -- a tag would start here, since the tag that follows is closed
        rw [anyTag?, if_pos rfl] at hn
        refine not_mem_of_tagBody?_eq_none hn ?_
        have hmem : .found t body ∈ pieces anyTag? s := by
          rw [hrest]
          simp
        obtain ⟨r, -, hread⟩ := occurrence_of_mem consumes_anyTag? hmem
        have ht : t = '<' :: (body ++ ['>']) :=
          List.append_cancel_right ((anyTag?_eq_some hread).2.trans (by simp))
        rw [← flatMap_text_pieces anyTag? s]
        exact List.mem_flatMap.2 ⟨_, hmem, by rw [Piece.text_found, ht]; simp⟩
      rw [List.flatMap_cons, Piece.text_plain, List.singleton_append, endsInTag, if_neg hc,
        ite_self, ih hrest]
    | found t' body' r ht ha _ =>
      rw [pieces_append_of_some ht ha] at h
      obtain ⟨rfl, hrest⟩ := List.cons.inj h
      have ht' : t' = '<' :: body' ++ ['>'] :=
        List.append_cancel_right ((anyTag?_eq_some ha).2.trans (by simp))
      rw [List.flatMap_cons, Piece.text_found, endsInTag_append, ht', endsInTag_concat, ih hrest]

/-- A tag of a markup stands behind a text that does not end inside a tag. -/
theorem place_of_tag {s : List Char} {o : Occurrence (List Char)}
    (h : o ∈ occurrences anyTag? s) :
    ∃ x z, s = x ++ '<' :: (o.value ++ '>' :: z) ∧ x.length = o.start ∧
      endsInTag false x = false ∧ '>' ∉ o.value := by
  obtain ⟨before, after, hpieces, htake, -⟩ := pieces_of_mem_occurrences h
  obtain ⟨hlen, hs, -, hread⟩ := cut_of_mem_occurrences consumes_anyTag? h
  obtain ⟨hclose, htag⟩ := anyTag?_eq_some hread
  have hout := not_endsInTag_of_pieces hpieces
  rw [htake] at hout
  rw [htag] at hs
  exact ⟨s.take o.start, s.drop o.stop, hs, hlen, hout, hclose⟩

/-- A text is divided in one way only at its last character that is not blank. -/
theorem append_cons_inj_right {x y w z : List Char} {c d : Char} (hw : ∀ c ∈ w, isBlank c = true)
    (hz : ∀ c ∈ z, isBlank c = true) (hc : isBlank c = false) (hd : isBlank d = false)
    (h : x ++ c :: w = y ++ d :: z) : x = y ∧ c = d ∧ w = z := by
  have hrev : w.reverse ++ c :: x.reverse = z.reverse ++ d :: y.reverse := by
    simpa using congrArg List.reverse h
  have hblank : ∀ {w : List Char}, (∀ c ∈ w, isBlank c = true) →
      ∀ c ∈ w.reverse, (!isBlank c) = false :=
    fun h c hc => by simp [h c (List.mem_reverse.1 hc)]
  obtain ⟨hwz, hcd, hxy⟩ := append_cons_inj (P := fun c => !isBlank c) (hblank hw) (hblank hz)
    (by simp [hc]) (by simp [hd]) hrev
  exact ⟨List.reverse_injective hxy, hcd, List.reverse_injective hwz⟩

/-- An assignment that ends where an attribute with its name and value ends is that attribute. -/
theorem eq_of_isAssignment {x y t t' r name : List Char} {a : Assignment}
    (h : x ++ t' = y ++ t) (ht' : IsAssignment name a t')
    (ht : attribute? (t ++ r) = some (⟨name, some a.value⟩, r)) : x = y ∧ t' = t := by
  obtain ⟨hne, hchars, ⟨hnone, -⟩ | ⟨v, w₁, w₂, tv, hv, hw₁, hw₂, htv, hs⟩⟩ := attribute?_eq_some ht
  · cases hnone
  · obtain rfl : a.value = v := Option.some.inj hv
    obtain rfl : t = name ++ (w₁ ++ '=' :: (w₂ ++ tv)) :=
      List.append_cancel_right (hs.trans (by simp))
    obtain ⟨hq, -, u₁, u₂, q, hu₁, hu₂, hq', rfl⟩ := ht'
    rcases htv with ⟨q₀, -, -, rfl⟩ | ⟨hvne, hbare, rfl⟩
    · have hvalues : (x ++ name ++ u₁ ++ '=' :: u₂) ++ (a.quote :: (a.value ++ [q]))
          = (y ++ name ++ w₁ ++ '=' :: w₂) ++ (q₀ :: (a.value ++ [q₀])) := by simpa using h
      obtain ⟨hfront, hback⟩ := List.append_inj' hvalues (by simp)
      obtain ⟨hquote, hback⟩ := List.cons.inj hback
      obtain rfl : q = q₀ := by simpa using hback
      -- from the value back to the name
      obtain ⟨hnamed, -, rfl⟩ := append_cons_inj_right hu₂ hw₂ (by decide) (by decide) hfront
      obtain ⟨n, c, hname⟩ : ∃ n c, name = n ++ [c] :=
        (List.eq_nil_or_concat' name).resolve_left hne
      have hc : isBlank c = false := isBlank_of_isNameChar (hchars c (by simp [hname]))
      have hnames : (x ++ n) ++ c :: u₁ = (y ++ n) ++ c :: w₁ := by simpa [hname] using hnamed
      obtain ⟨hxy, -, rfl⟩ := append_cons_inj_right hu₁ hw₁ hc hc hnames
      exact ⟨List.append_cancel_right hxy, by rw [hquote]⟩
    · -- a bare value does not end in a quote
      have hlast := congrArg List.getLast? h
      have h₁ : x ++ (name ++ (u₁ ++ '=' :: (u₂ ++ a.quote :: (a.value ++ [q]))))
          = (x ++ (name ++ (u₁ ++ '=' :: (u₂ ++ a.quote :: a.value)))) ++ [q] := by simp
      have h₂ : y ++ (name ++ (w₁ ++ '=' :: (w₂ ++ a.value)))
          = (y ++ (name ++ (w₁ ++ '=' :: w₂))) ++ a.value := by simp
      rw [h₁, h₂, List.getLast?_concat, List.getLast?_append_of_ne_nil _ hvne] at hlast
      have := hbare q (List.mem_of_getLast? hlast.symm)
      simp [isBareChar, hq'] at this

/-- The tag of an assignment that is one of its attributes. -/
theorem exists_tag_of_isAssignment {s p t r name : List Char} {a : Assignment}
    (hs : s = p ++ (t ++ r)) (ht : IsAssignment name a t)
    (h : EndsTagAttribute s name a.value (p.length + t.length)) :
    ∃ x tag attrs z o, s = x ++ '<' :: (tag ++ attrs ++ '>' :: z) ∧ endsInTag false x = false ∧
      '>' ∉ tag ++ attrs ∧ (∀ c ∈ tag, isNameChar c = true) ∧ StopsName attrs ∧
      o ∈ attributes attrs ∧ o.text = t ∧ o.value = ⟨name, some a.value⟩ ∧
      p = x ++ '<' :: (tag ++ attrs.take o.start) := by
  obtain ⟨o', ho', hstop, hvalue⟩ := h
  obtain ⟨whole, hwhole, ho'⟩ := List.mem_flatMap.1 ho'
  obtain ⟨o, ho, rfl⟩ := List.mem_map.1 ho'
  obtain ⟨x, z, hplace, hlen, hx, hclose⟩ := place_of_tag hwhole
  have hchars : ∀ c ∈ whole.value.takeWhile isNameChar, isNameChar c = true :=
    fun c hc => List.mem_takeWhile_imp hc
  have hstops := stopsName_dropWhile whole.value
  have hsplit := List.takeWhile_append_dropWhile (p := isNameChar) (l := whole.value)
  rw [← hsplit] at hplace hclose
  simp only [Occurrence.stop] at hstop
  generalize whole.value.takeWhile isNameChar = tag at *
  generalize whole.value.dropWhile isNameChar = attrs at *
  have hval : o.value = ⟨name, some a.value⟩ := hvalue
  obtain ⟨hu, hattrs, -, hread⟩ := cut_of_mem_occurrences consumes_attribute? ho
  generalize htake : attrs.take o.start = u at *
  generalize attrs.drop o.stop = r' at *
  have hparts : (p ++ t) ++ r = (x ++ '<' :: (tag ++ u) ++ o.text) ++ (r' ++ '>' :: z) := by
    rw [← List.append_assoc] at hs
    rw [← hs, hplace, hattrs]
    simp
  have hlength : (p ++ t).length = (x ++ '<' :: (tag ++ u) ++ o.text).length := by
    simp only [List.length_append, List.length_cons]
    omega
  -- both end at the same place with the same value, so they are the same attribute
  obtain ⟨hfront, -⟩ := List.append_inj hparts hlength
  rw [hval] at hread
  obtain ⟨hp, htext⟩ := eq_of_isAssignment hfront ht hread
  exact ⟨x, tag, attrs, z, o, hplace, hx, hclose, hchars, hstops, ho, htext.symm, hval,
    by rw [hp, htake]⟩

/-! ### An attribute written anew -/

/-- What stands behind a place inside a tag of a text that goes with `s` tag by tag, and what the
tag can be written as up to that place. -/
theorem Tagwise.cut {s x body z b r : List Char} (hs : s = x ++ '<' :: (body ++ '>' :: z))
    (hx : endsInTag false x = false) (hbody : '>' ∉ body) (hb : '>' ∉ b)
    (h : Tagwise s (x ++ '<' :: (b ++ r))) :
    ∃ c z', '>' ∉ c ∧ r = c ++ '>' :: z' ∧ FrameKept body (b ++ c) ∧
      ∀ b', '>' ∉ b' → FrameKept body (b' ++ c) → Tagwise s (x ++ '<' :: (b' ++ r)) := by
  subst hs
  rw [Tagwise, pieces_append_of_not_endsInTag hx, pieces_append_of_not_endsInTag hx,
    pieces_tag hbody] at h
  have hrest := List.forall₂_drop_append _ _ _ h
  rw [List.drop_left] at hrest
  by_cases hmem : '>' ∈ r
  · obtain ⟨c, z', hc, rfl⟩ := exists_cut_of_mem hmem
    have hassoc : ∀ b, '<' :: (b ++ (c ++ '>' :: z')) = '<' :: ((b ++ c) ++ '>' :: z') := by simp
    have hclose : ∀ {b}, '>' ∉ b → '>' ∉ b ++ c := fun hb => by simp [hb, hc]
    rw [hassoc, pieces_tag (hclose hb), List.forall₂_cons] at hrest
    refine ⟨c, z', hc, rfl, hrest.1, fun b' hb' hkept => ?_⟩
    rw [hassoc, Tagwise, pieces_append_of_not_endsInTag hx, pieces_append_of_not_endsInTag hx,
      pieces_tag hbody, pieces_tag (hclose hb')]
    exact List.rel_append (Tagwise.refl x) (.cons hkept hrest.2)
  · -- the tag would not be closed
    have hnone : anyTag? ('<' :: (b ++ r)) = none := by
      rw [anyTag?, if_pos rfl]
      cases htag : tagBody? (b ++ r) with
      | none => rfl
      | some u =>
        have := append_of_tagBody? htag
        exact absurd (this ▸ (by simp : '>' ∈ u.1 ++ '>' :: u.2)) (by simp [hb, hmem])
    rw [pieces_cons_of_none hnone, List.forall₂_cons] at hrest
    exact hrest.1.elim

/-- An attribute of a tag with a frame stands where it stood when the rest of the tag is
rewritten. -/
theorem mem_attributes_of_quoted {attrs : List Char} {as : List Attribute} {o : Occurrence Attribute}
    (h : quotedAttributes? attrs = some as) (ho : o ∈ attributes attrs) (c : List Char) :
    o ∈ attributes (attrs.take o.start ++ (o.text ++ c)) := by
  obtain ⟨before, after, hpieces, htake, -⟩ := pieces_of_mem_occurrences ho
  obtain ⟨hlen, -⟩ := cut_of_mem_occurrences consumes_attribute? ho
  have hcut : pieces attribute? attrs = (before ++ [.found o.text o.value]) ++ after := by
    rw [hpieces, List.append_assoc, List.singleton_append]
  -- the pieces up to the attribute do not depend on what follows
  have halone := standsAlone_of_quotedFrom h
  rw [hcut] at halone
  have := pieces_append_of_standsAlone hcut (fun x hx => halone x (List.mem_append_left _ hx)) c
  rw [List.flatMap_append, htake, List.flatMap_singleton, Piece.text_found, List.append_assoc,
    List.append_assoc, List.singleton_append] at this
  have hmem := mem_placed_append 0 before o.text o.value (pieces attribute? c)
  rw [htake, hlen, Nat.zero_add] at hmem
  rwa [attributes, occurrences, this]

/-- An attribute of a tag with a frame can be written anew when the rest of the tag is
rewritten. -/
theorem FrameKept.write {tag attrs name v c : List Char} {o : Occurrence Attribute}
    (h : FrameKept (tag ++ attrs) (tag ++ (attrs.take o.start ++ (o.text ++ c))))
    (htag : ∀ c ∈ tag, isNameChar c = true) (hattrs : StopsName attrs)
    (ho : o ∈ attributes attrs) (hold : isHouseName o.value.name = true)
    (hnew : isHouseName name = true) (hname : name ≠ [])
    (hchars : ∀ c ∈ name, isNameChar c = true) (hv : '"' ∉ v) (hopen : '<' ∉ attrs → '<' ∉ v) :
    FrameKept (tag ++ attrs) (tag ++ (attrs.take o.start ++ (quotedText name [] [] v ++ c))) := by
  intro as has
  obtain ⟨-, hmem, as', hquoted, -⟩ := frame?_tag_eq_some htag hattrs has
  obtain ⟨hlen, -⟩ := cut_of_mem_occurrences consumes_attribute? ho
  have ho' := mem_attributes_of_quoted hquoted ho c
  have := frame?_replace htag (stopsName_take_append hattrs ho _) (h as has) ho' hold hnew hname
    hchars hv (hopen hmem)
  have hstop : (attrs.take o.start ++ o.text).length = o.stop := by
    rw [List.length_append, hlen, Occurrence.stop]
  rwa [List.take_left' hlen, ← List.append_assoc _ o.text, List.drop_left' hstop] at this

/-- **An attribute of a tag can be written anew when what stands behind it is rewritten.** -/
theorem Tagwise.write {s p t r r' name v : List Char} {a : Assignment} (hs : s = p ++ (t ++ r))
    (ht : IsAssignment name a t) (hends : EndsTagAttribute s name a.value (p.length + t.length))
    (hcur : Tagwise s (p ++ (t ++ r'))) (hhouse : isHouseName name = true) (hname : name ≠ [])
    (hchars : ∀ c ∈ name, isNameChar c = true) (hv : '"' ∉ v)
    (hangle : ∀ c, c = '<' ∨ c = '>' → c ∈ v → c ∈ a.value) :
    '>' ∈ r' ∧ Tagwise s (p ++ (quotedText name [] [] v ++ r')) := by
  obtain ⟨x, tag, attrs, z, o, hplace, hx, hclose, htag, hattrs, ho, rfl, hval, rfl⟩ :=
    exists_tag_of_isAssignment hs ht hends
  have hvalue : o.value.value = some a.value := by rw [hval]
  obtain ⟨-, hsplit, -, -⟩ := cut_of_mem_occurrences consumes_attribute? ho
  rw [List.mem_append, not_or] at hclose
  have hfront : '>' ∉ attrs.take o.start := fun hmem => hclose.2 (List.mem_of_mem_take hmem)
  have htext : '>' ∉ o.text := by
    intro hmem
    refine hclose.2 ?_
    rw [hsplit]
    exact List.mem_append_right _ (List.mem_append_left _ hmem)
  have hb : '>' ∉ tag ++ (attrs.take o.start ++ o.text) := by simp [hclose.1, hfront, htext]
  have hcur' : Tagwise s (x ++ '<' :: ((tag ++ (attrs.take o.start ++ o.text)) ++ r')) := by
    simpa using hcur
  -- what stands behind the attribute may have been rewritten, but the tag is still closed
  obtain ⟨c, z', hc, rfl, hkept, hwrite⟩ :=
    Tagwise.cut hplace hx (by simpa using hclose) hb hcur'
  refine ⟨by simp, ?_⟩
  have hkept' : FrameKept (tag ++ attrs)
      (tag ++ (attrs.take o.start ++ (quotedText name [] [] v ++ c))) := by
    refine FrameKept.write (by simpa using hkept) htag hattrs ho ?_ hhouse hname hchars hv ?_
    · rw [hval]
      exact hhouse
    · exact fun hopen hmem => hopen (mem_of_mem_value ho hvalue (hangle _ (Or.inl rfl) hmem))
  have hclose' : '>' ∉ tag ++ (attrs.take o.start ++ quotedText name [] [] v) := by
    have hwritten : '>' ∉ quotedText name [] [] v :=
      not_mem_quotedText (by decide) (by decide) (fun hmem => absurd (hchars _ hmem) (by decide))
        fun hmem => hclose.2 (mem_of_mem_value ho hvalue (hangle _ (Or.inr rfl) hmem))
    simp [hclose.1, hfront, hwritten]
  have := hwrite _ hclose' (by simpa using hkept')
  simpa using this

/-! ### Class names -/

theorem isUnmade_angle {c : Char} (h : c = '<' ∨ c = '>') : IsUnmade (· == c) where
  ascii := by
    intro d hd
    obtain rfl := beq_iff_eq.1 hd
    rcases h with rfl | rfl <;> decide
  toLower := by
    rcases h with rfl | rfl <;> decide
  hyphen := by
    rcases h with rfl | rfl <;> decide
  made := by
    rcases h with rfl | rfl <;> decide

/-- Kebab case makes no angle brackets. -/
theorem mem_of_mem_kebabWords {v : List Char} {c : Char} (hc : c = '<' ∨ c = '>')
    (h : c ∈ joinWith [' '] (kebabWords v)) : c ∈ v := by
  have hspace : (' ' == c) = false := by
    rcases hc with rfl | rfl <;> decide
  have hle := countP_kebabWords_le (isUnmade_angle hc) hspace v
  have hpos : 0 < (joinWith [' '] (kebabWords v)).countP (· == c) :=
    List.countP_pos_iff.2 ⟨c, h, beq_self_eq_true c⟩
  obtain ⟨d, hd, hdc⟩ := List.countP_pos_iff.1 (hpos.trans_le hle)
  rwa [← beq_iff_eq.1 hdc]

theorem kebabAttribute_eq_quotedText (a : ClassAttribute) :
    kebabAttribute a =
      a.lead :: quotedText "class".toList [] [] (joinWith [' '] (kebabWords a.value)) := by
  rw [kebabAttribute_eq]
  simp [quotedText]

/-- **The rule of class names goes tag by tag** when what it writes anew are attributes of tags. -/
theorem tagwise_kebabClasses {s : List Char} (h : ClassesInTags s) :
    Tagwise s (kebabClasses.revise s) := by
  refine replaceAll_invariant consumes_classAttribute? (Tagwise.refl s) ?_
  intro x t a r hs ho ha hcur
  rcases h _ ho with heq | hends
  · rwa [heq]
  · obtain ⟨-, -, quote, t', ht', hread⟩ := classAttribute?_eq_some ha
    obtain rfl : t = a.lead :: t' := List.append_cancel_right hread
    have hchars : ∀ c ∈ "class".toList, isNameChar c = true := forall_mem_of_all (by decide)
    have hs' : s = (x ++ [a.lead]) ++ (t' ++ r) := by simpa using hs
    have hquote := not_mem_of_isQuote (not_isQuote_of_mem_kebabWords ht'.2.1)
    have hends' : EndsTagAttribute s "class".toList a.value
        ((x ++ [a.lead]).length + t'.length) := by
      have hstop : x.length + (a.lead :: t').length = (x ++ [a.lead]).length + t'.length := by
        simp only [List.length_append, List.length_cons, List.length_nil]
        omega
      rwa [← hstop]
    have hcur' : Tagwise s ((x ++ [a.lead]) ++
        (t' ++ replaceAll classAttribute? (fun _ a => kebabAttribute a) r)) := by
      simpa using hcur
    have := (Tagwise.write hs' ht' hends' hcur' (by decide) (by decide) hchars hquote
      fun c hc => mem_of_mem_kebabWords hc).2
    rw [kebabAttribute_eq_quotedText]
    simpa using this

/-! ### Anchors -/

/-- The blanks behind the name of a tag can be any other ones. -/
theorem FrameKept.blanks {tag w : List Char} (htag : ∀ c ∈ tag, isNameChar c = true)
    (hw : ∀ c ∈ w, isBlank c = true) (hne : w ≠ []) (y : List Char) :
    FrameKept (tag ++ (w ++ y)) (tag ++ (' ' :: y)) := by
  intro as has
  have hstops : StopsName (w ++ y) := by
    cases w with
    | nil => exact absurd rfl hne
    | cons c w => exact stopsName_cons (not_isNameChar_of_isBlank (hw c List.mem_cons_self)) _
  obtain ⟨hletter, hmem, as', hquoted, rfl⟩ := frame?_tag_eq_some htag hstops has
  have hmem' : '<' ∉ ' ' :: y := by
    rw [List.mem_append, not_or] at hmem
    simpa using hmem.2
  rw [frame?_tag hletter htag (stopsName_cons not_isNameChar_space _), if_neg hmem',
    ← quotedAttributes?_blanks hw hne, hquoted]
  rfl

theorem blanked_eq_quotedText (a : Anchor) :
    a.blanked = '<' :: ("a".toList ++ ' ' :: (a.lead ++ quotedText "href".toList [] [] [])) := by
  have hopening : "<a ".toList = '<' :: ("a".toList ++ [' ']) := by decide
  have hlit : "href=\"\"".toList = quotedText "href".toList [] [] [] := by decide
  rw [Anchor.blanked, hopening, hlit]
  simp

/-- **The rule of targets goes tag by tag** when what it writes anew are attributes of tags. -/
theorem tagwise_emptyHref {s : List Char} (h : TargetsInTags s) :
    Tagwise s (emptyHref.revise s) := by
  refine replaceAll_invariant consumes_anchor? (Tagwise.refl s) ?_
  intro x t a r hs ho ha hcur
  split
  · exact hcur
  · next htarget =>
    rcases h _ ho with hempty | hends
    · exact absurd (List.isEmpty_iff.2 hempty) htarget
    · obtain ⟨w, quote, t', hw, hne, hlead, ht', hread⟩ := anchor?_eq_some ha
      have hopening : "<a".toList = '<' :: "a".toList := by decide
      obtain rfl : t = "<a".toList ++ (w ++ (a.lead ++ t')) :=
        List.append_cancel_right (hread.trans (by simp))
      have hchars : ∀ c ∈ "href".toList, isNameChar c = true := forall_mem_of_all (by decide)
      have htag : ∀ c ∈ "a".toList, isNameChar c = true := forall_mem_of_all (by decide)
      have hs' : s = (x ++ ("<a".toList ++ (w ++ a.lead))) ++ (t' ++ r) := by simpa using hs
      have hends' : EndsTagAttribute s "href".toList a.target
          ((x ++ ("<a".toList ++ (w ++ a.lead))).length + t'.length) := by
        have hstop : x.length + ("<a".toList ++ (w ++ (a.lead ++ t'))).length
            = (x ++ ("<a".toList ++ (w ++ a.lead))).length + t'.length := by
          simp only [List.length_append]
          omega
        rwa [← hstop]
      generalize replaceAll anchor? _ r = r' at hcur ⊢
      have hcur' : Tagwise s ((x ++ ("<a".toList ++ (w ++ a.lead))) ++ (t' ++ r')) := by
        simpa using hcur
      obtain ⟨hmem, hwritten⟩ := Tagwise.write hs' ht' hends' hcur' (by decide) (by decide) hchars
        (List.not_mem_nil (a := '"')) fun c _ hc => absurd hc List.not_mem_nil
      obtain ⟨c, z, hc, rfl⟩ := exists_cut_of_mem hmem
      refine hwritten.trans ?_
      -- the blanks behind the name of the anchor become one
      generalize hquoted : quotedText "href".toList [] [] [] = text
      have htext : '>' ∉ text := by
        rw [← hquoted]
        decide
      have hblank : '>' ∉ w := fun hmem => absurd (hw _ hmem) (by decide)
      have hkept := FrameKept.blanks htag hw hne (a.lead ++ (text ++ c))
      have := tagwise_tag _ _ (by simp [hblank, hlead, htext, hc]) (by simp [hlead, htext, hc])
        hkept x z
      rw [blanked_eq_quotedText, hquoted, hopening]
      simpa using this

/-! ### All rules -/

/-- **The house rules keep the visible characters of a markup, and the frames of its tags between
them**, when what the rules of class names and of targets write anew are attributes of tags. -/
theorem outline_normalize (s : List Char) (hclass : ClassesInTags s)
    (hhref : TargetsInTags (kebabClasses.revise s)) :
    visible (normalize s) = visible s ∧ (outline s).Sublist (outline (normalize s)) := by
  have hrules : Keeps s (normalize s) := by
    rw [normalize_eq]
    exact (tagwise_kebabClasses hclass).keeps.trans <| (tagwise_emptyHref hhref).keeps.trans <|
      (keeps_standardIcons _).trans <| (keeps_typedButtons _).trans <|
      (keeps_hiddenIcons _).trans <| (keeps_groupItems _).trans (keeps_singleHeading _)
  exact ⟨hrules.visible, hrules.sublist⟩

/-- A link with a class name and a target of its own, and a title that stays. -/
theorem outline_normalize_link :
    let link := "<a class=\"navLink\" href=\"x\" title=\"Home\">Go</a>".toList
    visible (normalize link) = "Go".toList ∧
      (outline link).Sublist (outline (normalize link)) ∧
      Mark.tag [⟨"title".toList, some "Home".toList⟩] ∈ outline (normalize link) := by
  have hkept := outline_normalize "<a class=\"navLink\" href=\"x\" title=\"Home\">Go</a>".toList
    (by decide +kernel) (by decide +kernel)
  have hvisible : visible "<a class=\"navLink\" href=\"x\" title=\"Home\">Go</a>".toList =
      "Go".toList := by decide +kernel
  have hframe : Mark.tag [⟨"title".toList, some "Home".toList⟩] ∈
      outline "<a class=\"navLink\" href=\"x\" title=\"Home\">Go</a>".toList := by decide +kernel
  exact ⟨hkept.1.trans hvisible, hkept.2, hkept.2.subset hframe⟩

/-- Class names are looked for in running text and in the values of other attributes: neither the
text nor the title of this paragraph stays. -/
theorem outline_normalize_lookalikes :
    let text := "<p title=\" class='aB'\"> class=\"cD\"</p>".toList
    visible (normalize text) ≠ visible text ∧
      Mark.tag [⟨"title".toList, some " class='aB'".toList⟩] ∈ outline text ∧
      Mark.tag [⟨"title".toList, some " class='aB'".toList⟩] ∉ outline (normalize text) := by
  decide +kernel

end Markup
end SceneMarkup
