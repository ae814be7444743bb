import SceneMarkup.Proofs.Markup.AttributeTails
import SceneMarkup.Proofs.Markup.Rerun
import SceneMarkup.Proofs.Markup.RewrittenTags
import SceneMarkup.Proofs.Text.Search

/-!
# Hidden icons

The rule that hides icons puts an attribute behind those that an icon has.  The scanner finds it
there unless the attributes in front of it leave one open: then the new attribute is read as the
value, and the rule has the icon to hide again when it is run on its own result.

## Main definitions

* `makesIcon` — whether attributes are those of an icon that is not hidden yet.
* `losesHiding` — whether an attribute behind the class of an icon is left open.

## Main results

* `needsHiding_iconBody` — the slash at the end of a tag makes no difference.
* `needsHiding_hiddenAttributes` — whether an icon is hidden by the new attribute.
* `hiddenIcons_hides_iff` — **the rule hides all icons and is done with its own result exactly when
  no icon that it hides loses the new attribute.**
-/

namespace SceneMarkup
namespace Markup

open Text

/-! ### Icons by their attributes -/

/-- Whether a value holds the class of an icon. -/
def holdsIcon (v : Option (List Char)) : Bool :=
  v.any fun v => (words v).any (contains "ico-".toList)

/-- Whether an attribute has a name, the case of ASCII letters disregarded. -/
def Attribute.isNamed (name : List Char) (a : Attribute) : Bool := sameAscii a.name name

/-- Whether attributes are those of an icon that is not hidden. -/
def makesIcon (as : List Attribute) : Bool :=
  (as.find? (Attribute.isNamed "aria-hidden".toList)).isNone &&
    (as.find? (Attribute.isNamed "class".toList)).any fun a => holdsIcon a.value

/-- What an icon is told by: the names of its attributes, and which of them hold its class. -/
def iconMark (a : Attribute) : List Char × Bool := (a.name, holdsIcon a.value)

theorem makesIcon_congr {as bs : List Attribute} (h : as.map iconMark = bs.map iconMark) :
    makesIcon as = makesIcon bs := by
  have hmarks : ∀ as, makesIcon as =
      (((as.map iconMark).find? fun m => sameAscii m.1 "aria-hidden".toList).isNone &&
        ((as.map iconMark).find? fun m => sameAscii m.1 "class".toList).any Prod.snd) := by
    intro as
    rw [makesIcon, List.find?_map, List.find?_map, Option.isNone_map, Option.any_map]
    rfl
  rw [hmarks, hmarks, h]

theorem map_value_findAttribute? (name attrs : List Char) :
    (findAttribute? name attrs).map Occurrence.value =
      (values attribute? attrs).find? (Attribute.isNamed name) := by
  rw [values, List.find?_map]
  rfl

theorem needsHiding_eq (attrs : List Char) :
    needsHiding attrs = makesIcon (values attribute? attrs) := by
  rw [makesIcon, ← map_value_findAttribute?, ← map_value_findAttribute?, needsHiding, classWords?,
    Option.isNone_map]
  cases findAttribute? "aria-hidden".toList attrs with
  | some o => rfl
  | none =>
    cases findAttribute? "class".toList attrs with
    | none => rfl
    | some o =>
      obtain ⟨start, text, name, value⟩ := o
      cases value <;> rfl

/-! ### Blanks and slashes at the end -/

/-- Where no name starts no attribute is read. -/
theorem values_of_not_isNameChar {w : List Char} (hw : ∀ c ∈ w, isNameChar c = false) :
    values attribute? w = [] := by
  induction w with
  | nil => rfl
  | cons c w ih =>
    rw [values_cons_of_none (attribute?_cons_eq_none_iff.2 (hw c List.mem_cons_self)),
      ih fun d hd => hw d (List.mem_cons_of_mem c hd)]

theorem holdsIcon_of_not_isBlank {v : List Char} (hv : ∀ c ∈ v, isBlank c = false) :
    holdsIcon (some v) = contains "ico-".toList v := by
  cases v with
  | nil => rfl
  | cons c v =>
    simp [holdsIcon, words_run (List.cons_ne_nil c v) hv]

theorem contains_slashes {z : List Char} (hz : ∀ c ∈ z, c = '/') :
    contains "ico-".toList z = false := by
  rw [Bool.eq_false_iff, Ne, contains_iff_isInfix]
  intro hinfix
  have hmem : 'i' ∈ z := hinfix.subset (by decide)
  exact absurd (hz _ hmem) (by decide)

/-- Slashes behind a value without quotes make no class of an icon. -/
theorem holdsIcon_append_slashes {v z : List Char} (hv : ∀ c ∈ v, isBlank c = false)
    (hz : ∀ c ∈ z, c = '/') : holdsIcon (some (v ++ z)) = holdsIcon (some v) := by
  have hblank : ∀ c ∈ v ++ z, isBlank c = false := by
    intro c hc
    rcases List.mem_append.1 hc with hc | hc
    · exact hv c hc
    · rw [hz c hc]
      decide
  rw [holdsIcon_of_not_isBlank hv, holdsIcon_of_not_isBlank hblank]
  cases z with
  | nil => rw [List.append_nil]
  | cons c z =>
    obtain rfl : c = '/' := hz c List.mem_cons_self
    have hrest := contains_slashes fun d hd => hz d (List.mem_cons_of_mem _ hd)
    rw [contains_append_cons (by decide), hrest, Bool.or_false]

section Slashes

variable {w : List Char} (hw : ∀ c ∈ w, isBlank c = true ∨ c = '/')

include hw

theorem not_isNameChar_of_slashes : ∀ c ∈ w, isNameChar c = false := by
  intro c hc
  rcases hw c hc with hblank | rfl
  · exact not_isNameChar_of_isBlank hblank
  · decide

/-- With blanks and slashes behind the text a missing value is one of slashes, and nothing else is
read behind the name. -/
theorem equalsValue?_append_slashes {s : List Char} (h : equalsValue? s = none) :
    equalsValue? (s ++ w) = none ∨ (∀ c ∈ s, isNameChar c = false) ∧
      ∃ v r, equalsValue? (s ++ w) = some (v, r) ∧ (∀ c ∈ v, c = '/') ∧ ∀ c ∈ r, c ∈ w := by
  have hnot : ∀ q, isBlank q = false → q ≠ '/' → q ∉ w := fun q hblank hslash hq =>
    (hw q hq).elim (fun h => by simp [h] at hblank) hslash
  have htrim : ∀ c ∈ trimStart w, c ∈ w := fun c hc => (List.dropWhile_sublist _).subset hc
  rcases equalsValue?_append_of_none h with ⟨-, hseam⟩ | ⟨e, hs, he, hseam⟩ |
    ⟨e, q, v, -, -, hq, -, hseam⟩ | ⟨-, hseam⟩
  · refine Or.inl ?_
    rw [hseam, equalsValue?]
    split
    · next r hr =>
      have hmem : '=' ∈ w := htrim '=' (hr ▸ List.mem_cons_self)
      exact absurd hmem (hnot '=' (by decide) (by decide))
    · rfl
  · cases hv : attributeValue? (trimStart w) with
    | none => exact Or.inl (by rw [hseam, hv])
    | some found =>
      obtain ⟨v, r⟩ := found
      obtain ⟨t, ht, hcut⟩ := attributeValue?_eq_some hv
      refine Or.inr ⟨?_, v, r, by rw [hseam, hv], ?_, fun c hc => htrim c (by simp [hcut, hc])⟩
      · obtain ⟨w₁, hw₁, hs'⟩ := exists_blanks_append_trimStart s
        obtain ⟨w₂, hw₂, he'⟩ := exists_blanks_append_trimStart e
        rw [he, List.append_nil] at he'
        rw [hs', hs, he']
        have hequals : isNameChar '=' = false := by decide
        simpa [or_imp, forall_and, hequals] using
          ⟨fun c hc => not_isNameChar_of_isBlank (hw₁ c hc),
            fun c hc => not_isNameChar_of_isBlank (hw₂ c hc)⟩
      · intro c hc
        rcases ht with ⟨q, hq, -, rfl⟩ | ⟨-, hbare, rfl⟩
        · have hmem : q ∈ w := htrim q (by simp [hcut])
          refine absurd hmem (hnot q (not_isBlank_of_isQuote hq) ?_)
          rintro rfl
          cases hq
        · have hmem : c ∈ w := htrim c (by simp [hcut, hc])
          refine (hw c hmem).resolve_left fun hblank => ?_
          rw [not_isBlank_of_isBareChar (hbare c hc)] at hblank
          cases hblank
  · have hmem : q ∉ w := hnot q (not_isBlank_of_isQuote hq) (by rintro rfl; cases hq)
    refine Or.inl ?_
    rw [hseam, upTo?_eq_none_iff.2 hmem, Option.map_none]
  · exact Or.inl (hseam w)

/-- What an icon is told by is read in the same way with blanks and slashes behind it. -/
theorem map_iconMark_append_slashes (s : List Char) :
    (values attribute? (s ++ w)).map iconMark = (values attribute? s).map iconMark := by
  have hnames := not_isNameChar_of_slashes hw
  have hstops : StopsName w := fun c hc => hnames c (List.mem_of_mem_head? hc)
  induction s using text_induction consumes_attribute? with
  | nil =>
    rw [List.nil_append, values_of_not_isNameChar hnames]
    rfl
  | plain c s hn ih =>
    have hn' : attribute? (c :: (s ++ w)) = none :=
      attribute?_cons_eq_none_iff.2 (attribute?_cons_eq_none_iff.1 hn)
    rw [List.cons_append, values_cons_of_none hn', values_cons_of_none hn, ih]
  | found t a r ht ha ih =>
    rw [values_of_some consumes_attribute? ha, List.map_cons]
    obtain ⟨name, _ | v⟩ := a
    · obtain ⟨hnone, hseam⟩ := attribute?_append_of_bare ha
      have hread := hseam w hstops
      rcases equalsValue?_append_slashes hw hnone with hsame | ⟨hr, v, r', hv, hslash, hr'⟩
      · rw [behindName_eq_bare_iff.2 ⟨hsame, rfl⟩] at hread
        rw [values_of_some consumes_attribute? hread, List.map_cons, ih]
      · rw [behindName_eq_value_iff.2 hv] at hread
        rw [values_of_some consumes_attribute? hread, values_of_not_isNameChar hr,
          values_of_not_isNameChar fun c hc => hnames c (hr' c hc)]
        have hicon : holdsIcon (some v) = holdsIcon (some []) :=
          holdsIcon_append_slashes (v := []) (by simp) hslash
        simp only [List.map_cons, iconMark, hicon]
        rfl
    · rcases attribute?_append_of_value ha with hsame | ⟨rfl, -, hbare, hgrows⟩
      · rw [values_of_some consumes_attribute? (hsame w hstops), List.map_cons, ih]
      · have hslash : ∀ c ∈ w.takeWhile isBareChar, c = '/' := fun c hc =>
          (hw c ((List.takeWhile_sublist _).subset hc)).resolve_left fun hblank => by
            rw [not_isBlank_of_isBareChar (List.mem_takeWhile_imp hc)] at hblank
            cases hblank
        have hicon := holdsIcon_append_slashes (fun c hc => not_isBlank_of_isBareChar (hbare c hc))
          hslash
        rw [values_of_some consumes_attribute? (hgrows w hstops), values_of_not_isNameChar
          fun c hc => hnames c ((List.dropWhile_sublist _).subset hc)]
        simp only [List.map_cons, iconMark, hicon]
        rfl

end Slashes

theorem needsHiding_iconBody (attrs : List Char) :
    needsHiding (iconBody attrs) = needsHiding attrs := by
  obtain ⟨w, hattrs, hw⟩ := exists_iconBody_append attrs
  conv => rhs; rw [hattrs]
  rw [needsHiding_eq, needsHiding_eq, makesIcon_congr (map_iconMark_append_slashes hw _)]

/-! ### The new attribute -/

/-- The text that hides an icon, behind its body. -/
def hidingEnd (z : List Char) : List Char := ' ' :: (hidingText ++ z)

theorem hidingText_eq : hidingText = "aria-hidden".toList ++ '=' :: '"' :: "true\"".toList := by
  decide

theorem stopsName_hidingEnd (z : List Char) : StopsName (hidingEnd z) :=
  stopsName_cons not_isNameChar_space _

theorem trimStart_hidingEnd (z : List Char) : trimStart (hidingEnd z) = hidingText ++ z := by
  rw [hidingEnd, hidingText_eq]
  rfl

section NewAttribute

variable {z : List Char}

/-- Where nothing is left open the new attribute becomes no value. -/
theorem equalsValue?_append_hidingEnd (hz : '\'' ∉ z) {s : List Char} (h : equalsValue? s = none)
    (hopen : leavesOpen s = false) : equalsValue? (s ++ hidingEnd z) = none := by
  rcases equalsValue?_append_of_none h with ⟨-, hseam⟩ | ⟨e, hs, he, -⟩ |
    ⟨e, q, v, hs, he, hq, hv, hseam⟩ | ⟨-, hseam⟩
  · rw [hseam, equalsValue?, trimStart_hidingEnd, hidingText_eq]
    rfl
  · simp [leavesOpen, hs, he] at hopen
  · have hne : q ≠ '"' := by
      rintro rfl
      simp [leavesOpen, hs, he, hv] at hopen
    have hquote : q = '\'' := by simpa [isQuote, hne] using hq
    have hmem : q ∉ hidingEnd z := by
      rw [hquote, hidingEnd, hidingText_eq]
      simp [hz]
    rw [hseam, upTo?_eq_none_iff.2 hmem, Option.map_none]
  · exact hseam _

/-- Where a value is left open the new attribute becomes the value. -/
theorem exists_equalsValue?_append_hidingEnd {s : List Char} (h : equalsValue? s = none)
    (hopen : leavesOpen s = true) :
    ∃ v r, equalsValue? (s ++ hidingEnd z) = some (v, r ++ z) ∧
      (r = "=\"true\"".toList ∨ r = "true\"".toList) := by
  rcases equalsValue?_append_of_none h with ⟨hs, -⟩ | ⟨e, -, -, hseam⟩ |
    ⟨e, q, v, hs, he, -, -, hseam⟩ | ⟨hnone, -⟩
  · simp [leavesOpen, hs] at hopen
  · refine ⟨"aria-hidden".toList, "=\"true\"".toList, ?_, Or.inl rfl⟩
    rw [hseam, trimStart_hidingEnd, hidingText_eq]
    rfl
  · have hquote : q = '"' := by
      simp only [leavesOpen, hs, he, Bool.and_eq_true, beq_iff_eq] at hopen
      exact hopen.1
    refine ⟨v ++ " aria-hidden=".toList, "true\"".toList, ?_, Or.inr rfl⟩
    rw [hseam, hquote, hidingEnd, hidingText_eq]
    rfl
  · rw [hnone] at hopen
    cases hopen

/-- An attribute with a value, or one that is not left open, is read in front of the new one as it
was. -/
theorem attribute?_append_hidingEnd (hz : '\'' ∉ z) {s r : List Char} {a : Attribute}
    (h : attribute? s = some (a, r)) (hopen : (a.value.isNone && leavesOpen r) = false) :
    attribute? (s ++ hidingEnd z) = some (a, r ++ hidingEnd z) := by
  obtain ⟨name, _ | v⟩ := a
  · obtain ⟨hnone, hseam⟩ := attribute?_append_of_bare h
    have hclosed : leavesOpen r = false := by simpa using hopen
    rw [hseam _ (stopsName_hidingEnd z),
      behindName_eq_bare_iff.2 ⟨equalsValue?_append_hidingEnd hz hnone hclosed, rfl⟩]
  · rcases attribute?_append_of_value h with hsame | ⟨rfl, -, -, hgrows⟩
    · exact hsame _ (stopsName_hidingEnd z)
    · have hspace : ¬isBareChar ' ' = true := by decide
      rw [hgrows _ (stopsName_hidingEnd z), hidingEnd, List.takeWhile_cons_of_neg hspace,
        List.dropWhile_cons_of_neg hspace, List.append_nil, List.nil_append]

/-- An attribute that is left open takes the new one as its value, and what is left of that one is
the last attribute. -/
theorem exists_values_append_hidingEnd (hz : z = " /".toList ∨ z = []) {s r : List Char}
    {a : Attribute} (h : attribute? s = some (a, r))
    (hopen : (a.value.isNone && leavesOpen r) = true) :
    ∃ v, values attribute? (s ++ hidingEnd z) =
      [⟨a.name, some v⟩, ⟨"true".toList, none⟩] := by
  rw [Bool.and_eq_true] at hopen
  obtain ⟨name, _ | v⟩ := a
  · obtain ⟨hnone, hseam⟩ := attribute?_append_of_bare h
    obtain ⟨v, r', hvalue, hr'⟩ := exists_equalsValue?_append_hidingEnd (z := z) hnone hopen.2
    have hread := hseam _ (stopsName_hidingEnd z)
    rw [behindName_eq_value_iff.2 hvalue] at hread
    refine ⟨v, ?_⟩
    rw [values_of_some consumes_attribute? hread]
    rcases hr' with rfl | rfl
    · rcases hz with rfl | rfl
      · exact congrArg (_ :: ·) (by decide)
      · exact congrArg (_ :: ·) (by decide)
    · rcases hz with rfl | rfl
      · exact congrArg (_ :: ·) (by decide)
      · exact congrArg (_ :: ·) (by decide)
  · cases hopen.1

theorem values_hidingEnd (z : List Char) :
    values attribute? (hidingEnd z) =
      ⟨"aria-hidden".toList, some "true".toList⟩ :: values attribute? z := by
  have hchars : ∀ c ∈ "aria-hidden".toList, isNameChar c = true := forall_mem_of_all (by decide)
  have hread : attribute? (hidingText ++ z) = some (⟨"aria-hidden".toList, some "true".toList⟩, z) :=
    attribute?_quoted (by decide) hchars (by simp) (by simp) (by decide) z
  rw [hidingEnd, values_cons_of_none (attribute?_cons_eq_none_iff.2 not_isNameChar_space),
    values_of_some consumes_attribute? hread]

/-- Behind attributes of which none is left open the new one is read. -/
theorem values_append_hidingEnd (hz : '\'' ∉ z) {s : List Char} {n : Nat}
    (h : firstOpen? n (pieces attribute? s) = none) :
    values attribute? (s ++ hidingEnd z) = values attribute? s ++
      ⟨"aria-hidden".toList, some "true".toList⟩ :: values attribute? z := by
  induction s using text_induction consumes_attribute? generalizing n with
  | nil => exact values_hidingEnd z
  | plain c s hn ih =>
    rw [firstOpen?_cons_of_none hn] at h
    have hn' : attribute? (c :: (s ++ hidingEnd z)) = none :=
      attribute?_cons_eq_none_iff.2 (attribute?_cons_eq_none_iff.1 hn)
    rw [List.cons_append, values_cons_of_none hn', values_cons_of_none hn, ih h]
  | found t a r ht ha ih =>
    rw [firstOpen?_append_of_some ht ha] at h
    split at h
    · cases h
    · next hopen =>
      have hread := attribute?_append_hidingEnd hz ha (by simpa using hopen)
      rw [values_of_some consumes_attribute? hread, values_of_some consumes_attribute? ha, ih h,
        List.cons_append]

/-- The first attribute that is left open takes the new one as its value, behind the attributes in
front of it. -/
theorem exists_values_append_of_open (hz : z = " /".toList ∨ z = []) {s : List Char}
    {n : Nat} {o : Occurrence Attribute} (h : firstOpen? n (pieces attribute? s) = some o) :
    o.value.value = none ∧ ∃ os os' v, placed n (pieces attribute? s) = os ++ o :: os' ∧
      values attribute? (s ++ hidingEnd z) =
        os.map Occurrence.value ++ [⟨o.value.name, some v⟩, ⟨"true".toList, none⟩] := by
  have hquote : '\'' ∉ z := by
    rcases hz with rfl | rfl <;> decide
  induction s using text_induction consumes_attribute? generalizing n with
  | nil => cases h
  | plain c s hn ih =>
    rw [firstOpen?_cons_of_none hn] at h
    have hn' : attribute? (c :: (s ++ hidingEnd z)) = none :=
      attribute?_cons_eq_none_iff.2 (attribute?_cons_eq_none_iff.1 hn)
    rw [List.cons_append, values_cons_of_none hn', pieces_cons_of_none hn, placed]
    exact ih h
  | found t a r ht ha ih =>
    rw [firstOpen?_append_of_some ht ha] at h
    rw [pieces_append_of_some ht ha, placed]
    split at h
    · next hopen =>
      cases h
      obtain ⟨v, hv⟩ := exists_values_append_hidingEnd hz ha hopen
      refine ⟨?_, [], _, v, rfl, hv⟩
      rw [Bool.and_eq_true, Option.isNone_iff_eq_none] at hopen
      exact hopen.1
    · next hopen =>
      obtain ⟨hnone, os, os', v, hos, hv⟩ := ih h
      have hread := attribute?_append_hidingEnd hquote ha (by simpa using hopen)
      refine ⟨hnone, ⟨n, t, a⟩ :: os, os', v, by rw [hos, List.cons_append], ?_⟩
      rw [values_of_some consumes_attribute? hread, hv, List.map_cons, List.cons_append]

end NewAttribute

/-! ### Icons that lose the new attribute -/

/-- Whether the class of an icon stands in front of an attribute that is left open, so that the
attribute that hides the icon is read as the value of that one. -/
def losesHiding (attrs : List Char) : Bool :=
  match findAttribute? "class".toList (iconBody attrs), openAttribute? (iconBody attrs) with
  | some c, some o => c.start < o.start
  | _, _ => false

theorem makesIcon_of_isNamed (as bs : List Attribute) (v : Option (List Char)) :
    makesIcon (as ++ ⟨"aria-hidden".toList, v⟩ :: bs) = false := by
  have haria : Attribute.isNamed "aria-hidden".toList ⟨"aria-hidden".toList, v⟩ = true := by
    have : sameAscii "aria-hidden".toList "aria-hidden".toList = true := by decide
    exact this
  rw [makesIcon, List.find?_append, List.find?_cons_of_pos haria, Option.isNone_or,
    Option.isNone_some, Bool.and_false, Bool.false_and]

/-- When an attribute that was left open is read with a value and swallows what stands behind it, an
icon stays one exactly if its class stands in front. -/
theorem makesIcon_of_open {as as' : List Attribute} {b : Attribute}
    (h : makesIcon (as ++ b :: as') = true) (hnone : b.value = none) (v : List Char) :
    makesIcon (as ++ [⟨b.name, some v⟩, ⟨"true".toList, none⟩]) =
      (as.find? (Attribute.isNamed "class".toList)).isSome := by
  have hname : ∀ name, Attribute.isNamed name ⟨b.name, some v⟩ = b.isNamed name := fun _ => rfl
  have haria : Attribute.isNamed "aria-hidden".toList ⟨"true".toList, none⟩ = false := by decide
  have hclass : Attribute.isNamed "class".toList ⟨"true".toList, none⟩ = false := by decide
  simp only [makesIcon, List.find?_append, List.find?_cons, Bool.and_eq_true, Option.isNone_or] at h
  simp only [makesIcon, List.find?_append, List.find?_cons, hname, haria, hclass, List.find?_nil]
  obtain ⟨⟨ha, hb⟩, hicon⟩ := h
  rw [Option.isNone_iff_eq_none] at ha
  cases hba : b.isNamed "aria-hidden".toList with
  | true =>
    rw [hba] at hb
    cases hb
  | false =>
    cases hc : as.find? (Attribute.isNamed "class".toList) with
    | some d =>
      rw [hc, Option.some_or] at hicon
      rw [ha, Option.some_or, hicon]
      rfl
    | none =>
      cases hbc : b.isNamed "class".toList with
      | true =>
        -- the class would be the attribute that has no value
        rw [hc, hbc] at hicon
        simp [holdsIcon, hnone] at hicon
      | false =>
        rw [ha]
        rfl

/-- An attribute that is found among others stands in front of one of them when it starts there. -/
theorem isSome_find?_eq {os os' : List (Occurrence Attribute)} {c o : Occurrence Attribute}
    {P : Attribute → Bool} (hc : (os ++ o :: os').find? (P ∘ Occurrence.value) = some c)
    (hos : ∀ x ∈ os, x.start < o.start) (hos' : ∀ x ∈ os', o.start ≤ x.start) :
    ((os.map Occurrence.value).find? P).isSome = decide (c.start < o.start) := by
  rw [List.find?_map, Option.isSome_map]
  rw [List.find?_append] at hc
  cases hfind : os.find? (P ∘ Occurrence.value) with
  | some d =>
    rw [hfind, Option.some_or] at hc
    obtain rfl := Option.some.inj hc
    rw [decide_eq_true (hos d (List.mem_of_find?_eq_some hfind))]
    rfl
  | none =>
    rw [hfind, Option.none_or] at hc
    have hle : o.start ≤ c.start := by
      rcases List.mem_cons.1 (List.mem_of_find?_eq_some hc) with rfl | hmem
      · exact Nat.le_refl _
      · exact hos' c hmem
    rw [decide_eq_false (Nat.not_lt.2 hle)]
    rfl

/-- **Whether an icon that is hidden is still to be hidden afterwards.** -/
theorem needsHiding_hiddenAttributes {attrs : List Char} (h : needsHiding attrs = true) :
    needsHiding (hiddenAttributes attrs) = losesHiding attrs := by
  obtain ⟨z, hhidden, hz⟩ := hiddenAttributes_eq_iconBody attrs
  have hhidden' : hiddenAttributes attrs = iconBody attrs ++ hidingEnd z := hhidden
  rw [← needsHiding_iconBody, needsHiding_eq] at h
  rw [hhidden', needsHiding_eq, losesHiding, openAttribute?]
  cases hopen : firstOpen? 0 (pieces attribute? (iconBody attrs)) with
  | none =>
    have hquote : '\'' ∉ z := by
      rcases hz with rfl | rfl <;> decide
    rw [values_append_hidingEnd hquote hopen, makesIcon_of_isNamed]
    cases findAttribute? "class".toList (iconBody attrs) <;> rfl
  | some o =>
    obtain ⟨hnone, os, os', v, hos, hv⟩ := exists_values_append_of_open hz hopen
    have hattributes : attributes (iconBody attrs) = os ++ o :: os' := hos
    rw [values, ← attributes, hattributes, List.map_append, List.map_cons] at h
    rw [hv, makesIcon_of_open h hnone]
    obtain ⟨-, hrest, hpairs⟩ := List.pairwise_append.1 (hos ▸ pairwise_placed 0 _)
    have hfront : ∀ x ∈ os, x.start < o.start := by
      intro x hx
      have hmem : x ∈ attributes (iconBody attrs) := hattributes ▸ List.mem_append_left _ hx
      have hne := (cut_of_mem_occurrences consumes_attribute? hmem).2.2.1
      have hstop : x.start + x.text.length ≤ o.start := hpairs x hx o List.mem_cons_self
      have := List.length_pos_iff.2 hne
      omega
    have hbehind : ∀ x ∈ os', o.start ≤ x.start := by
      intro x hx
      exact (Nat.le_add_right _ _).trans (List.rel_of_pairwise_cons hrest hx)
    cases hc : findAttribute? "class".toList (iconBody attrs) with
    | some c =>
      rw [findAttribute?, hattributes] at hc
      exact isSome_find?_eq hc hfront hbehind
    | none =>
      rw [findAttribute?, hattributes, List.find?_append, Option.or_eq_none_iff] at hc
      have hnone : os.find? (Attribute.isNamed "class".toList ∘ Occurrence.value) = none := hc.1
      rw [List.find?_map, hnone]
      rfl

/-- The attribute text of an icon after the rule. -/
def hiddenOrSame (attrs : List Char) : List Char :=
  if needsHiding attrs then hiddenAttributes attrs else attrs

theorem isIconAttributes_hiddenAttributes {attrs : List Char} (h : IsIconAttributes attrs) :
    IsIconAttributes (hiddenAttributes attrs) := by
  obtain ⟨w, hattrs, -⟩ := exists_iconBody_append attrs
  obtain ⟨z, hhidden, -⟩ := hiddenAttributes_eq_iconBody attrs
  refine ⟨?_, fun hmem => (mem_hiddenAttributes hmem).elim h.close (by decide)⟩
  have hblank := h.blank
  rw [hhidden]
  rw [hattrs] at hblank
  cases hbody : iconBody attrs with
  | nil => rfl
  | cons c u =>
    rw [hbody] at hblank
    exact hblank

/-- The icons after the rule are those before it with their attribute texts rewritten. -/
theorem pieces_hiddenIcons (s : List Char) :
    pieces icon? (hiddenIcons.revise s) = (pieces icon? s).map (writtenIcon hiddenOrSame) := by
  refine pieces_writtenIcons (fun attrs _ => ?_) (fun attrs h => ?_) s
  · rw [hiddenOrSame]
    split
    · rw [hiddenTag_eq, iconText, iconOpening_eq]
      simp
    · rfl
  · rw [hiddenOrSame]
    split
    · exact isIconAttributes_hiddenAttributes h
    · exact h

/-- The rule is done with a text exactly when it has no icon to hide. -/
theorem hiddenIcons_eq_self_iff {s : List Char} :
    hiddenIcons.revise s = s ↔ ∀ o ∈ occurrences icon? s, needsHiding o.value = false := by
  refine ⟨fun h => (hiddenIcons_idle_or_lowers s).resolve_right fun hlt => ?_, hiddenIcons_eq_self⟩
  rw [h] at hlt
  exact lt_irrefl _ hlt

/-- The rule leaves an icon to hide exactly when one that it hides loses the new attribute. -/
theorem needsHiding_of_hiddenIcons_iff (s : List Char) :
    (∀ o ∈ occurrences icon? (hiddenIcons.revise s), needsHiding o.value = false) ↔
      ∀ o ∈ occurrences icon? s, needsHiding o.value = true → losesHiding o.value = false := by
  have hsame : ∀ attrs, needsHiding (hiddenOrSame attrs) = false ↔
      (needsHiding attrs = true → losesHiding attrs = false) := by
    intro attrs
    rw [hiddenOrSame]
    cases hneeds : needsHiding attrs with
    | true =>
      rw [if_pos rfl, needsHiding_hiddenAttributes hneeds]
      exact ⟨fun h _ => h, fun h => h rfl⟩
    | false => simp [hneeds]
  rw [forall_occurrences_iff (Q := fun _ attrs => needsHiding attrs = false),
    forall_occurrences_iff
      (Q := fun _ attrs => needsHiding attrs = true → losesHiding attrs = false),
    pieces_hiddenIcons]
  constructor
  · intro h t attrs hmem
    exact (hsame attrs).1 (h _ _ (List.mem_map_of_mem (f := writtenIcon hiddenOrSame) hmem))
  · intro h t attrs hmem
    obtain ⟨x, hx, heq⟩ := List.mem_map.1 hmem
    cases x with
    | plain c => cases heq
    | found u old =>
      obtain ⟨-, rfl⟩ := Piece.found.inj heq
      exact (hsame old).2 (h u old hx)

theorem needsHiding_eq_false_iff {attrs : List Char} :
    needsHiding attrs = false ↔ ∀ ws, classWords? attrs = some ws →
      ws.any (contains "ico-".toList) = true →
      (findAttribute? "aria-hidden".toList attrs).isSome = true := by
  rw [needsHiding]
  cases (findAttribute? "aria-hidden".toList attrs).isSome with
  | true => simp
  | false =>
    cases classWords? attrs with
    | none => simp
    | some ws => simp

/-- **The rule hides the icons of a text and is done with its own result exactly when no icon loses
the attribute that hides it**, because its class stands in front of an attribute that is left
open. -/
theorem hiddenIcons_hides_iff (s : List Char) :
    ((∀ o ∈ occurrences icon? (hiddenIcons.revise s), ∀ ws, classWords? o.value = some ws →
        ws.any (contains "ico-".toList) = true →
        (findAttribute? "aria-hidden".toList o.value).isSome = true) ↔
      ∀ o ∈ occurrences icon? s, needsHiding o.value = true → losesHiding o.value = false) ∧
    (hiddenIcons.revise (hiddenIcons.revise s) = hiddenIcons.revise s ↔
      ∀ o ∈ occurrences icon? s, needsHiding o.value = true → losesHiding o.value = false) := by
  simp only [← needsHiding_eq_false_iff, hiddenIcons_eq_self_iff, needsHiding_of_hiddenIcons_iff,
    and_self]

/-- A value that is a slash is taken for the slash of the tag, and the new attribute is read in its
place. -/
theorem hiddenIcons_misses_icon :
    hiddenIcons.revise "<i class=\"ico-x\" title=/>".toList =
        "<i class=\"ico-x\" title= aria-hidden=\"true\" />".toList ∧
      classWords? " class=\"ico-x\" title= aria-hidden=\"true\" /".toList =
        some ["ico-x".toList] ∧
      findAttribute? "aria-hidden".toList " class=\"ico-x\" title= aria-hidden=\"true\" /".toList =
        none ∧
      hiddenIcons.revise (hiddenIcons.revise "<i class=\"ico-x\" title=/>".toList) ≠
        hiddenIcons.revise "<i class=\"ico-x\" title=/>".toList := by
  decide +kernel

end Markup
end SceneMarkup
