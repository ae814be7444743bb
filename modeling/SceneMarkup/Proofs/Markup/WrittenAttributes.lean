import SceneMarkup.Proofs.Markup.AttributeTexts

/-!
# Writing attributes

Attributes are written one behind another, each behind blanks, and the scanner of attributes reads
them back: the same names and values in order, each at the place where it was written.  What stands
between quotes is a value and nothing else.

## Main definitions

* `Quotes`, `WrittenValue`, `WrittenAttribute` — an attribute and how it is written.
* `WrittenAttribute.render` — attributes as a text.
* `WrittenAttribute.behind` — the place of an attribute behind a text.

## Main results

* `WrittenAttribute.isAttributeText`, `rendersAttributes_render` — what is written is a text of
  attributes.
* `getElem?_attributes_render`, `exists_of_mem_attributes_render` — **the attributes that are read
  stand where they were written, and there are no others.**
* `attributes_render` — **the scanner reads attributes back.**
-/

namespace SceneMarkup
namespace Markup

open Text

/-! ### Attributes as they are written -/

/-- How a value is quoted. -/
inductive Quotes where
  | none
  | single
  | double
  deriving Repr, DecidableEq

/-- What stands on both sides of a value. -/
def Quotes.mark : Quotes → List Char
  | none => []
  | single => ['\'']
  | double => ['"']

/-- The values that can be quoted in this way. -/
def Quotes.Allows : Quotes → List Char → Prop
  | none, v => v ≠ [] ∧ ∀ c ∈ v, isBareChar c = true
  | single, v => '\'' ∉ v
  | double, v => '"' ∉ v

/-- A value with its quotes, and the blanks around the equals sign in front of it. -/
structure WrittenValue where
  before : List Char
  behind : List Char
  quotes : Quotes
  value : List Char
  blank_before : ∀ c ∈ before, isBlank c = true
  blank_behind : ∀ c ∈ behind, isBlank c = true
  allowed : quotes.Allows value

/-- The text in front of a value. -/
def WrittenValue.opening (v : WrittenValue) : List Char :=
  v.before ++ '=' :: (v.behind ++ v.quotes.mark)

/-- The equals sign, the quotes and the value. -/
def WrittenValue.text (v : WrittenValue) : List Char := v.opening ++ (v.value ++ v.quotes.mark)

/-- An attribute with the blanks in front of it, and its value if it has one. -/
structure WrittenAttribute where
  lead : List Char
  name : List Char
  value : Option WrittenValue
  lead_ne_nil : lead ≠ []
  blank_lead : ∀ c ∈ lead, isBlank c = true
  name_ne_nil : name ≠ []
  name_chars : ∀ c ∈ name, isNameChar c = true

namespace WrittenAttribute

/-- The name and the value. -/
def content (w : WrittenAttribute) : Attribute := ⟨w.name, w.value.map WrittenValue.value⟩

/-- The text of an attribute, without the blanks in front of it. -/
def text (w : WrittenAttribute) : List Char :=
  w.name ++ (w.value.map WrittenValue.text).getD []

/-- Attributes one behind another. -/
def render (ws : List WrittenAttribute) : List Char := ws.flatMap fun w => w.lead ++ w.text

/-- An attribute behind a text. -/
def behind (w : WrittenAttribute) (front : List Char) : Occurrence Attribute :=
  ⟨(front ++ w.lead).length, w.text, w.content⟩

@[simp] theorem render_nil : render [] = [] := rfl

@[simp] theorem render_cons (w : WrittenAttribute) (ws : List WrittenAttribute) :
    render (w :: ws) = w.lead ++ (w.text ++ render ws) := by
  rw [render, List.flatMap_cons, List.append_assoc]
  rfl

@[simp] theorem render_append (ws ws' : List WrittenAttribute) :
    render (ws ++ ws') = render ws ++ render ws' := List.flatMap_append

end WrittenAttribute

theorem WrittenValue.isValueText (v : WrittenValue) :
    IsValueText v.value (v.quotes.mark ++ (v.value ++ v.quotes.mark)) := by
  have hallowed := v.allowed
  cases hq : v.quotes with
  | none =>
    rw [hq] at hallowed
    exact Or.inr ⟨hallowed.1, hallowed.2, List.append_nil v.value⟩
  | single =>
    rw [hq] at hallowed
    exact Or.inl ⟨'\'', by decide, hallowed, rfl⟩
  | double =>
    rw [hq] at hallowed
    exact Or.inl ⟨'"', by decide, hallowed, rfl⟩

namespace WrittenAttribute

/-- What is written is the text of an attribute. -/
theorem isAttributeText (w : WrittenAttribute) : IsAttributeText w.content w.text := by
  refine ⟨w.name_ne_nil, w.name_chars, ?_⟩
  cases hv : w.value with
  | none => exact Or.inl ⟨by rw [content, hv]; rfl, by rw [text, hv]; exact List.append_nil _⟩
  | some v =>
    refine Or.inr ⟨v.value, v.before, v.behind, _, by rw [content, hv]; rfl, v.blank_before,
      v.blank_behind, v.isValueText, ?_⟩
    rw [text, hv, Option.map_some, Option.getD_some, WrittenValue.text, WrittenValue.opening]
    simp [content]

/-- Attributes as a text are a text of these attributes. -/
theorem rendersAttributes_render (ws : List WrittenAttribute) :
    RendersAttributes (ws.map content) (render ws) := by
  induction ws with
  | nil =>
    rw [render_nil]
    exact .nil isBlank_of_mem_nil
  | cons w ws ih =>
    rw [render_cons, List.map_cons]
    exact .cons w.blank_lead w.lead_ne_nil w.isAttributeText ih

/-- An attribute in front of others is read from its text. -/
theorem attribute?_text_append (w : WrittenAttribute) (ws : List WrittenAttribute) :
    attribute? (w.text ++ render ws) = some (w.content, render ws) :=
  attribute?_append w.isAttributeText (rendersAttributes_render ws).endsAttribute

/-! ### Attributes read back -/

/-- The names and values are read in order. -/
theorem map_value_attributes_render (ws : List WrittenAttribute) :
    (attributes (render ws)).map Occurrence.value = ws.map content :=
  (rendersAttributes_render ws).values_eq

/-- **An attribute is read where it was written.** -/
theorem getElem?_attributes_render (ws₁ : List WrittenAttribute) (w : WrittenAttribute)
    (ws₂ : List WrittenAttribute) :
    (attributes (render (ws₁ ++ w :: ws₂)))[ws₁.length]? = some (w.behind (render ws₁)) := by
  obtain ⟨os, hos, hplaced⟩ := (rendersAttributes_render ws₁).exists_placed_append w.blank_lead
    w.lead_ne_nil (w.attribute?_text_append ws₂) 0
  have hlength : ws₁.length = os.length := by
    rw [← List.length_map (f := Occurrence.value), hos, List.length_map]
  rw [render_append, render_cons, attributes, occurrences, hplaced, hlength,
    List.getElem?_append_right (Nat.le_refl _), Nat.sub_self, List.getElem?_cons_zero, Nat.zero_add]
  rfl

/-- **What is read was written.** -/
theorem exists_of_mem_attributes_render {ws : List WrittenAttribute} {o : Occurrence Attribute}
    (ho : o ∈ attributes (render ws)) :
    ∃ ws₁ w ws₂, ws = ws₁ ++ w :: ws₂ ∧ o = w.behind (render ws₁) := by
  obtain ⟨i, hi, rfl⟩ := List.mem_iff_getElem.1 ho
  have hlength : i < ws.length := by
    have := congrArg List.length (map_value_attributes_render ws)
    rw [List.length_map, List.length_map] at this
    omega
  have hcut : ws = ws.take i ++ ws[i] :: ws.drop (i + 1) := by
    rw [List.getElem_cons_drop, List.take_append_drop]
  refine ⟨_, _, _, hcut, ?_⟩
  have hread := getElem?_attributes_render (ws.take i) ws[i] (ws.drop (i + 1))
  rw [← hcut, List.length_take, Nat.min_eq_left hlength.le, List.getElem?_eq_getElem hi] at hread
  exact Option.some.inj hread

/-- The first attribute of a name is found. -/
theorem findAttribute?_render {name : List Char} {ws₁ : List WrittenAttribute}
    {w : WrittenAttribute} (ws₂ : List WrittenAttribute)
    (hfront : ∀ w' ∈ ws₁, sameAscii w'.name name = false) (hname : sameAscii w.name name = true) :
    findAttribute? name (render (ws₁ ++ w :: ws₂)) = some (w.behind (render ws₁)) := by
  have hfind := (rendersAttributes_render ws₁).find?_append
    (P := fun a => sameAscii a.name name) (List.forall_mem_map.2 hfront) w.blank_lead w.lead_ne_nil
    (w.attribute?_text_append ws₂) hname 0
  rw [Nat.zero_add] at hfind
  rw [render_append, render_cons]
  exact hfind

theorem findAttribute?_render_eq_none {name : List Char} {ws : List WrittenAttribute}
    (h : ∀ w ∈ ws, sameAscii w.name name = false) : findAttribute? name (render ws) = none := by
  rw [findAttribute?, List.find?_eq_none]
  intro o ho
  have hmem := List.mem_map_of_mem (f := Occurrence.value) ho
  rw [map_value_attributes_render, List.mem_map] at hmem
  obtain ⟨w, hw, hvalue⟩ := hmem
  rw [← hvalue]
  simp [content, h w hw]

/-- How many characters stand in front of the value of an attribute behind a text. -/
def valueStart (w : WrittenAttribute) (v : WrittenValue) (front : List Char) : Nat :=
  (front ++ (w.lead ++ (w.name ++ v.opening))).length

theorem length_text {w : WrittenAttribute} {v : WrittenValue} (h : w.value = some v) :
    w.text.length = w.name.length + v.opening.length + v.value.length + v.quotes.mark.length := by
  rw [text, h, Option.map_some, Option.getD_some, WrittenValue.text]
  simp only [List.length_append]
  omega

/-- **No name is read inside a value**: it ends in front of the value or starts behind it. -/
theorem name_outside_value {ws₁ ws₂ : List WrittenAttribute} {w : WrittenAttribute}
    {v : WrittenValue} (hv : w.value = some v) {o : Occurrence Attribute}
    (ho : o ∈ attributes (render (ws₁ ++ w :: ws₂))) :
    o.start + o.value.name.length ≤ w.valueStart v (render ws₁) ∨
      w.valueStart v (render ws₁) + v.value.length ≤ o.start := by
  obtain ⟨ws₁', w', ws₂', hws, rfl⟩ := exists_of_mem_attributes_render ho
  rcases append_cons_cases hws with ⟨ms, rfl⟩ | ⟨rfl, rfl⟩ | ⟨ms, rfl⟩
  · -- an attribute in front
    have hname : w'.name.length ≤ w'.text.length := by
      rw [text, List.length_append]
      exact Nat.le_add_right _ _
    refine Or.inl ?_
    simp only [behind, content, valueStart, render_append, render_cons, List.length_append]
    omega
  · refine Or.inl ?_
    simp only [behind, content, valueStart, List.length_append]
    omega
  · -- an attribute behind
    have hlength := length_text hv
    refine Or.inr ?_
    simp only [behind, valueStart, render_append, render_cons, List.length_append]
    omega

end WrittenAttribute

open WrittenAttribute in
/-- **The scanner reads attributes back**, with their names and values in order, each at the place of
its text.  The first one of a name is found, and no name is read inside a value. -/
theorem attributes_render (ws : List WrittenAttribute) :
    (attributes (render ws)).map Occurrence.value = ws.map content ∧
    (∀ ws₁ w ws₂, ws = ws₁ ++ w :: ws₂ →
      render ws = (render ws₁ ++ w.lead) ++ (w.text ++ render ws₂) ∧
        (attributes (render ws))[ws₁.length]? =
          some ⟨(render ws₁ ++ w.lead).length, w.text, w.content⟩) ∧
    (∀ name, (∀ w ∈ ws, sameAscii w.name name = false) →
      findAttribute? name (render ws) = none) ∧
    (∀ name ws₁ w ws₂, ws = ws₁ ++ w :: ws₂ → (∀ w' ∈ ws₁, sameAscii w'.name name = false) →
      sameAscii w.name name = true → findAttribute? name (render ws) =
        some ⟨(render ws₁ ++ w.lead).length, w.text, w.content⟩) ∧
    ∀ ws₁ w ws₂ v, ws = ws₁ ++ w :: ws₂ → w.value = some v →
      ∀ o ∈ attributes (render ws), o.value.name <+: o.text ∧
        (o.start + o.value.name.length ≤ w.valueStart v (render ws₁) ∨
          w.valueStart v (render ws₁) + v.value.length ≤ o.start) := by
  refine ⟨map_value_attributes_render ws, ?_, fun name => findAttribute?_render_eq_none, ?_, ?_⟩
  · rintro ws₁ w ws₂ rfl
    refine ⟨?_, getElem?_attributes_render ws₁ w ws₂⟩
    rw [render_append, render_cons, List.append_assoc]
  · rintro name ws₁ w ws₂ rfl
    exact findAttribute?_render ws₂
  · rintro ws₁ w ws₂ v rfl hv o ho
    refine ⟨?_, name_outside_value hv ho⟩
    obtain ⟨ws₁', w', ws₂', -, rfl⟩ := exists_of_mem_attributes_render ho
    exact List.prefix_append w'.name _

/-- A title between single quotes that looks like a class attribute. -/
def WrittenAttribute.titled : WrittenAttribute where
  lead := " ".toList
  name := "title".toList
  value := some
    { before := []
      behind := []
      quotes := .single
      value := "class=\"z\"".toList
      blank_before := isBlank_of_mem_nil
      blank_behind := isBlank_of_mem_nil
      allowed := by rw [Quotes.Allows]; decide }
  lead_ne_nil := by decide
  blank_lead := forall_mem_of_all (by decide)
  name_ne_nil := by decide
  name_chars := forall_mem_of_all (by decide)

/-- A class attribute in capitals, with blanks around the equals sign. -/
def WrittenAttribute.capitals : WrittenAttribute where
  lead := "\n ".toList
  name := "CLASS".toList
  value := some
    { before := " ".toList
      behind := " ".toList
      quotes := .none
      value := "y".toList
      blank_before := forall_mem_of_all (by decide)
      blank_behind := forall_mem_of_all (by decide)
      allowed := ⟨by decide, forall_mem_of_all (by decide)⟩ }
  lead_ne_nil := by decide
  blank_lead := forall_mem_of_all (by decide)
  name_ne_nil := by decide
  name_chars := forall_mem_of_all (by decide)

open WrittenAttribute in
/-- The class attribute is found behind a title that looks like one. -/
theorem attributes_render_titled : ∃ v, titled.value = some v ∧
    render [titled, capitals] = " title='class=\"z\"'\n CLASS = y".toList ∧
    (attributes (render [titled, capitals]))[1]? =
      some ⟨20, "CLASS = y".toList, ⟨"CLASS".toList, some "y".toList⟩⟩ ∧
    findAttribute? "class".toList (render [titled, capitals]) =
      some ⟨20, "CLASS = y".toList, ⟨"CLASS".toList, some "y".toList⟩⟩ ∧
    findAttribute? "id".toList (render [titled, capitals]) = none ∧
    ∀ o ∈ attributes (render [titled, capitals]),
      o.start + o.value.name.length ≤ 8 ∨ 8 + v.value.length ≤ o.start := by
  obtain ⟨-, hplace, hnone, hfind, hvalue⟩ := attributes_render [titled, capitals]
  have hfront : ∀ w ∈ [titled], sameAscii w.name "class".toList = false := by
    rw [List.forall_mem_singleton]
    decide +kernel
  have hname : sameAscii capitals.name "class".toList = true := by decide +kernel
  have hother : ∀ w ∈ [titled, capitals], sameAscii w.name "id".toList = false := by
    rw [List.forall_mem_cons, List.forall_mem_singleton]
    decide +kernel
  refine ⟨_, rfl, by decide +kernel, (hplace [titled] capitals [] rfl).2, ?_, hnone _ hother,
    fun o ho => (hvalue [] titled [capitals] _ rfl rfl o ho).2⟩
  exact hfind "class".toList [titled] capitals [] rfl hfront hname

end Markup
end SceneMarkup
