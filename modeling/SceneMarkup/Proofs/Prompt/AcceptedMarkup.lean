import SceneMarkup.Proofs.Markup.WrapperClass
import SceneMarkup.Proofs.Prompt.Session

/-!
# Class names of accepted markup

A session accepts a markup by the house rules, and puts the first class of the last stylesheet on
its first tag.  The classes of a markup are spelt in kebab case, those of a stylesheet are not: the
wrapper class stands in the accepted markup as the stylesheet has it.  Every other class name is in
kebab case, as far as the class attributes of the response are written so that all rules read them
alike.

## Main definitions

* `Markup.HasPlainClasses` — a markup whose class attributes are written so.
* `SessionCall.keepsMarkup` — a call that neither loads nor accepts a markup.

## Main results

* `Session.kebabName_of_mem_markupOf` — the class names of the markup made of one response.
* `kebabName_of_mem_accepted` — **the class names of the markup that a session holds.**
-/

namespace SceneMarkup

open Text

/-- A markup whose class attributes are all plain: each value is bare or closed by its own quote
without quotes, angle brackets and equals signs in it, and what the rule of class names does not see
mentions no icon or is in kebab case. -/
def Markup.HasPlainClasses (s : List Char) : Prop := ∀ m ∈ Markup.mentions s, m.IsPlain

instance (s : List Char) : Decidable (Markup.HasPlainClasses s) :=
  inferInstanceAs (Decidable (∀ m ∈ Markup.mentions s, m.IsPlain))

theorem Markup.kebabName_eq_iff {n : String} :
    Markup.kebabName n = n ↔ Markup.kebab n.toList = n.toList := by
  rw [Markup.kebabName]
  constructor
  · intro h
    conv => rhs; rw [← h, String.toList_ofList]
  · intro h
    rw [h, String.ofList_toList]

/-! ### The markup of one response -/

/-- The class names of the markup made of a response. -/
theorem Session.kebabName_of_mem_markupOf {s : Session}
    (hclasses : ∀ n ∈ s.classes, Stylesheet.IsClassName n.toList) {response : List Char}
    (h : Markup.HasPlainClasses (Prompt.extractCode response)) :
    ∀ n ∈ Markup.classNames (s.markupOf response), Markup.kebabName n = n ∨
      s.options.enforceWrapper = true ∧ Markup.pickWrapper s.classes = some n := by
  have hcode := Markup.shows_normalize h
  have hkebab : ∀ n ∈ Markup.classNames (Markup.normalize (Prompt.extractCode response)),
      Markup.kebabName n = n :=
    fun n hn => Markup.kebabName_eq_iff.2 (Markup.forall_classNames_of_shows hcode n hn)
  unfold Session.markupOf
  dsimp only
  split
  · next henforce =>
    split
    · next wrapper hwrapper =>
      have hname := hclasses wrapper (List.mem_of_head? hwrapper)
      have hchars := Markup.isNameChar_of_isClassName hname
      have hbare := Markup.bareClass_of_isClassName hname
      have hplain : ∀ c ∈ Markup.bareClass wrapper.toList, Markup.isPlainChar c = true := by
        rw [hbare]
        exact fun c hc => Markup.isPlainChar_of_isNameChar (hchars c hc)
      have hblank : ∀ c ∈ Markup.bareClass wrapper.toList, isBlank c = false := by
        rw [hbare]
        exact fun c hc => Markup.isBlank_of_isNameChar (hchars c hc)
      have hwrapped := Markup.shows_ensureWrapper hplain hblank hcode
      intro n hn
      rcases Markup.forall_classNames_of_shows hwrapped n hn with hn | hn
      · exact Or.inl (Markup.kebabName_eq_iff.2 hn)
      · rw [hbare] at hn
        exact Or.inr ⟨henforce, by rw [hwrapper, String.toList_inj.1 hn]⟩
    · exact fun n hn => Or.inl (hkebab n hn)
  · exact fun n hn => Or.inl (hkebab n hn)

-- What plainness excludes: a value that is not closed, one that holds another attribute, one that
-- holds an angle bracket, and an icon that the rule of class names does not see.
example :
    ["<p class=\"aB <button>", "<a href=\" class=\"> class=\"aB\">",
      "<i class=\"icon\" title=\" class=\"x->y\">", "<i CLASS=iconI>"].all
        (fun s => (Markup.classNames ((Session.new {}).markupOf s.toList)).any
          fun n => Markup.kebabName n ≠ n) = true := by
  decide +kernel

/-! ### Runs -/

/-- Whether a call neither loads a selection nor accepts a markup. -/
def SessionCall.keepsMarkup : SessionCall → Bool
  | .load _ | .acceptMarkup _ => false
  | _ => true

theorem Session.options_call (s : Session) (c : SessionCall) :
    (s.call c).2.options = s.options := by
  cases c with
  | acceptStylesheet r =>
    rw [Session.call, Session.acceptStylesheet]
  | _ => rfl

/-- A run changes no options. -/
theorem Session.options_run (s : Session) (calls : List SessionCall) :
    (s.run calls).2.options = s.options := by
  induction calls generalizing s with
  | nil => rfl
  | cons c calls ih => rw [Session.run, ih, Session.options_call]

theorem Session.markup_call {c : SessionCall} (h : c.keepsMarkup = true) (s : Session) :
    (s.call c).2.markup = s.markup := by
  cases c with
  | load x => cases h
  | acceptMarkup r => cases h
  | acceptStylesheet r => exact s.markup_acceptStylesheet r
  | _ => rfl

/-- The markup that a session holds was made of the last markup response, by the session as it was
then. -/
theorem exists_acceptMarkup_of_run (o : ResponseOptions) {calls : List SessionCall}
    {markup : List Char} (h : ((Session.new o).run calls).2.markup = some markup) :
    ∃ before response after, calls = before ++ .acceptMarkup response :: after ∧
      (∀ c ∈ after, c.keepsMarkup = true) ∧
      markup = ((Session.new o).run before).2.markupOf response := by
  induction calls using List.reverseRecOn with
  | nil => cases h
  | append_singleton calls c ih =>
    rw [Session.run_concat] at h
    cases hc : c.keepsMarkup with
    | true =>
      rw [Session.markup_call hc] at h
      obtain ⟨before, response, after, rfl, hafter, rfl⟩ := ih h
      refine ⟨before, response, after ++ [c], by simp, fun d hd => ?_, rfl⟩
      rcases List.mem_append.1 hd with hd | hd
      · exact hafter d hd
      · rw [List.mem_singleton.1 hd, hc]
    | false =>
      cases c with
      | load x => cases h
      | acceptMarkup r => exact ⟨calls, r, [], rfl, by simp, (Option.some.inj h).symm⟩
      | _ => cases hc

/-- **The class names of the markup that a session holds.**  The markup was made of the last markup
response behind the last load.  When the class attributes of its code are plain, every class name of
the markup is in kebab case, but for the wrapper class if that is enforced: the first class of the
stylesheet at that time, which stands in the markup as it stands in the stylesheet. -/
theorem kebabName_of_mem_accepted (o : ResponseOptions) (calls : List SessionCall)
    (markup : List Char) (h : ((Session.new o).run calls).2.markup = some markup) :
    ∃ before response after, calls = before ++ .acceptMarkup response :: after ∧
      (∀ c ∈ after, c.keepsMarkup = true) ∧
      markup = ((Session.new o).run before).2.markupOf response ∧
      (Markup.HasPlainClasses (Prompt.extractCode response) →
        ∀ n ∈ Markup.classNames markup, Markup.kebabName n = n ∨
          o.enforceWrapper = true ∧
            Markup.pickWrapper ((Session.new o).run before).2.classes = some n) := by
  obtain ⟨before, response, after, hcalls, hafter, rfl⟩ := exists_acceptMarkup_of_run o h
  refine ⟨before, response, after, hcalls, hafter, rfl, fun hplain n hn => ?_⟩
  have hnames := Session.kebabName_of_mem_markupOf (isClassName_of_mem_run o before) hplain n hn
  rwa [Session.options_run] at hnames

/-- The title is spelt in kebab case, the wrapper class as in the stylesheet. -/
theorem kebabName_of_mem_accepted_hero :
    let options : ResponseOptions := { stylesheet := { remProperties := [] } }
    let response := "<div class=\"bigTitle\"></div>".toList
    let markup := "<div class=\"big-title heroCard\"></div>".toList
    let calls := [.acceptStylesheet ".heroCard \x7b\x7d".toList, .acceptMarkup response]
    ((Session.new options).run calls).2.markup = some markup ∧
      Markup.HasPlainClasses (Prompt.extractCode response) ∧
      ∀ n ∈ Markup.classNames markup, Markup.kebabName n = n ∨ n = "heroCard" := by
  intro options response markup calls
  have h : ((Session.new options).run calls).2.markup = some markup := by decide +kernel
  have hplain : Markup.HasPlainClasses (Prompt.extractCode response) := by decide +kernel
  have hpick : Markup.pickWrapper ((Session.new options).run (calls.take 1)).2.classes =
      some "heroCard" := by decide +kernel
  refine ⟨h, hplain, fun n hn => ?_⟩
  obtain ⟨before, r, after, hcalls, -, -, hnames⟩ :=
    kebabName_of_mem_accepted options calls markup h
  -- the markup response is the second call
  match before, hcalls, hnames with
  | [], hcalls, _ => exact nomatch (List.cons.inj hcalls).1
  | [c], hcalls, hnames =>
    obtain ⟨rfl, hrest⟩ := List.cons.inj hcalls
    obtain rfl : response = r := SessionCall.acceptMarkup.inj (List.cons.inj hrest).1
    exact (hnames hplain n hn).imp_right fun hw => Option.some.inj (hw.2.symm.trans hpick)
  | c :: d :: before, hcalls, _ =>
    have hend := (List.cons.inj (List.cons.inj hcalls).2).2
    simp at hend

/-- The wrapper class of a stylesheet that is not in kebab case is not in kebab case in the
markup. -/
theorem kebabName_ne_of_wrapper :
    let calls := [.acceptStylesheet ".myApp \x7b\x7d".toList,
      .acceptMarkup "<div class=\"a\"></div>".toList]
    let markup := "<div class=\"a myApp\"></div>".toList
    ((Session.new {}).run calls).2.markup = some markup ∧
      "myApp" ∈ Markup.classNames markup ∧ Markup.kebabName "myApp" ≠ "myApp" := by
  decide +kernel

end SceneMarkup
