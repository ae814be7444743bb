import Mathlib.Data.List.DropRight
import SceneMarkup.Prompt.Session
import SceneMarkup.Proofs.Prompt.Variants
import SceneMarkup.Proofs.Stylesheet.ClassNames

/-!
# Runs of a session

A session is used by calling it again and again, in any order: selections are loaded, responses are
accepted, prompts and analyses are asked for, also before there is anything to ask about.  The log
of a run lists the calls with their answers.  What a session holds can be read off its log: the
selection of the last load, and what the last responses behind that load were answered with.
Nothing from before the last load is left, and asking changes nothing.

## Main definitions

* `SessionCall`, `SessionAnswer` — what can be called on a session, and what it answers.
* `Session.call`, `Session.run` — one call, and a run of calls with its log.
* `lastSelection?`, `lastMarkup?`, `lastClasses` — what a log says about the session behind it.
* `Session.Follows` — a session that holds what the log says.

## Main results

* `Session.Follows.call` — one call keeps a session in step with its log.
* `follows_run` — so does a run.
* `run_holds_and_answers` — **what a session holds and answers after any run of calls.**
-/

namespace SceneMarkup

open Text

/-! ### Calls and logs -/

/-- What can be called on a session. -/
inductive SessionCall where
  /-- A selection is loaded. -/
  | load (selection : Selection)
  /-- A markup response is accepted. -/
  | acceptMarkup (response : List Char)
  /-- A stylesheet response is accepted. -/
  | acceptStylesheet (response : List Char)
  /-- The prompt for a markup is asked for. -/
  | markupPrompt (user : String)
  /-- The prompt for a stylesheet is asked for. -/
  | stylesheetPrompt (user : String)
  /-- The prompt for a stylesheet for a given markup is asked for. -/
  | markupStylePrompt (markup : List Char) (user : String)
  /-- The structure of the selection is asked for. -/
  | analysis

/-- What a session answers. -/
inductive SessionAnswer where
  /-- Nothing, to a load. -/
  | done
  /-- The markup made of a response. -/
  | markup (code : List Char)
  /-- What became of a stylesheet response. -/
  | stylesheet (outcome : StylesheetOutcome)
  /-- A prompt, or why there is none. -/
  | prompt (answer : Except SessionError String)
  /-- An analysis, or why there is none. -/
  | analysis (answer : Except SessionError Analysis)

/-- Whether a call only asks. -/
def SessionCall.isQuestion : SessionCall → Bool
  | .load _ | .acceptMarkup _ | .acceptStylesheet _ => false
  | .markupPrompt _ | .stylesheetPrompt _ | .markupStylePrompt _ _ | .analysis => true

/-- One call: its answer, and the session behind it. -/
def Session.call (s : Session) : SessionCall → SessionAnswer × Session
  | .load selection => (.done, s.load selection)
  | .acceptMarkup response => (.markup (s.markupOf response), s.acceptMarkup response)
  | .acceptStylesheet response =>
    (.stylesheet (s.stylesheetOutcome response), s.acceptStylesheet response)
  | .markupPrompt user => (.prompt (s.markupPrompt user), s)
  | .stylesheetPrompt user => (.prompt (s.stylesheetPrompt user), s)
  | .markupStylePrompt markup user => (.prompt (s.markupStylePrompt markup user), s)
  | .analysis => (.analysis s.analysis, s)

/-- A call with its answer. -/
abbrev SessionEntry := SessionCall × SessionAnswer

/-- A run of calls: its log, and the session behind it. -/
def Session.run (s : Session) : List SessionCall → List SessionEntry × Session
  | [] => ([], s)
  | c :: cs => ((c, (s.call c).1) :: ((s.call c).2.run cs).1, ((s.call c).2.run cs).2)

/-- The selection that an entry loads. -/
def SessionEntry.selection? : SessionEntry → Option Selection
  | (.load selection, _) => some selection
  | _ => none

/-- The markup that an entry answers a response with. -/
def SessionEntry.markup? : SessionEntry → Option (List Char)
  | (.acceptMarkup _, .markup code) => some code
  | _ => none

/-- The classes that an entry answers a response with. -/
def SessionEntry.classes? : SessionEntry → Option (List String)
  | (.acceptStylesheet _, .stylesheet outcome) => some outcome.classes
  | _ => none

/-- The entries behind the last load, or all of them when there is no load. -/
def sinceLoad (log : List SessionEntry) : List SessionEntry :=
  log.rtakeWhile fun e => e.selection?.isNone

/-- The selection that was loaded last. -/
def lastSelection? (log : List SessionEntry) : Option Selection :=
  (log.filterMap SessionEntry.selection?).getLast?

/-- The markup that the last response behind the last load was answered with. -/
def lastMarkup? (log : List SessionEntry) : Option (List Char) :=
  ((sinceLoad log).filterMap SessionEntry.markup?).getLast?

/-- The classes that the last stylesheet response behind the last load was answered with; none when
there was no such response. -/
def lastClasses (log : List SessionEntry) : List String :=
  ((sinceLoad log).filterMap SessionEntry.classes?).getLast?.getD []

theorem Session.selection_acceptStylesheet (s : Session) (response : List Char) :
    (s.acceptStylesheet response).selection = s.selection := by
  rw [Session.acceptStylesheet]

theorem Session.markup_acceptStylesheet (s : Session) (response : List Char) :
    (s.acceptStylesheet response).markup = s.markup := by
  rw [Session.acceptStylesheet]

theorem Session.classes_acceptStylesheet (s : Session) (response : List Char) :
    (s.acceptStylesheet response).classes = Stylesheet.classNames (s.stylesheetOf response) := by
  rw [Session.acceptStylesheet]

theorem SessionEntry.classes?_acceptStylesheet (s : Session) (response r : List Char) :
    SessionEntry.classes? (.acceptStylesheet r, .stylesheet (s.stylesheetOutcome response)) =
      some (Stylesheet.classNames (s.stylesheetOf response)) := by
  rw [SessionEntry.classes?, Session.stylesheetOutcome]

/-! ### Logs with one more entry -/

theorem Session.run_concat (s : Session) (cs : List SessionCall) (c : SessionCall) :
    s.run (cs ++ [c]) =
      ((s.run cs).1 ++ [(c, ((s.run cs).2.call c).1)], ((s.run cs).2.call c).2) := by
  induction cs generalizing s with
  | nil => rfl
  | cons d cs ih => rw [List.cons_append, Session.run, ih, Session.run, List.cons_append]

/-- A log lists all the calls in order. -/
theorem Session.map_fst_run (s : Session) (cs : List SessionCall) :
    (s.run cs).1.map Prod.fst = cs := by
  induction cs generalizing s with
  | nil => rfl
  | cons c cs ih => rw [Session.run, List.map_cons, ih]

theorem sinceLoad_concat_load (log : List SessionEntry) (x : Selection) (a : SessionAnswer) :
    sinceLoad (log ++ [(.load x, a)]) = [] :=
  List.rtakeWhile_concat_neg _ _ _ (by simp [SessionEntry.selection?])

theorem sinceLoad_concat {e : SessionEntry} (h : e.selection? = none) (log : List SessionEntry) :
    sinceLoad (log ++ [e]) = sinceLoad log ++ [e] :=
  List.rtakeWhile_concat_pos _ _ _ (by simp [h])

theorem lastSelection?_concat (log : List SessionEntry) (e : SessionEntry) :
    lastSelection? (log ++ [e]) = e.selection?.or (lastSelection? log) := by
  cases h : e.selection? <;> simp [lastSelection?, List.filterMap_append, h]

theorem lastMarkup?_concat {e : SessionEntry} (h : e.selection? = none) (log : List SessionEntry) :
    lastMarkup? (log ++ [e]) = e.markup?.or (lastMarkup? log) := by
  rw [lastMarkup?, sinceLoad_concat h]
  cases h : e.markup? <;> simp [lastMarkup?, List.filterMap_append, h]

theorem lastClasses_concat {e : SessionEntry} (h : e.selection? = none) (log : List SessionEntry) :
    lastClasses (log ++ [e]) = e.classes?.getD (lastClasses log) := by
  rw [lastClasses, sinceLoad_concat h]
  cases h : e.classes? <;> simp [lastClasses, List.filterMap_append, h]

/-! ### What a session holds -/

/-- A session that holds what a log says. -/
structure Session.Follows (s : Session) (log : List SessionEntry) : Prop where
  /-- The selection is the one loaded last. -/
  selection : s.selection = lastSelection? log
  /-- The markup is the one answered last. -/
  markup : s.markup = lastMarkup? log
  /-- So are the classes. -/
  classes : s.classes = lastClasses log

/-- Asking changes nothing. -/
theorem Session.call_of_isQuestion {c : SessionCall} (h : c.isQuestion = true) (s : Session) :
    (s.call c).2 = s := by
  cases c with
  | load x => cases h
  | acceptMarkup r => cases h
  | acceptStylesheet r => cases h
  | markupPrompt u => rfl
  | stylesheetPrompt u => rfl
  | markupStylePrompt m u => rfl
  | analysis => rfl

/-- An entry that is no load leaves the selection, and the markup and the classes unless it answers
with others. -/
theorem Session.Follows.append {s t : Session} {log : List SessionEntry} (h : s.Follows log)
    {e : SessionEntry} (he : e.selection? = none) (hs : t.selection = s.selection)
    (hm : t.markup = e.markup?.or s.markup) (hc : t.classes = e.classes?.getD s.classes) :
    t.Follows (log ++ [e]) where
  selection := by rw [lastSelection?_concat, he, Option.none_or, hs, h.selection]
  markup := by rw [lastMarkup?_concat he, hm, h.markup]
  classes := by rw [lastClasses_concat he, hc, h.classes]

/-- A load makes everything from before it obsolete. -/
theorem Session.follows_load (s : Session) (x : Selection) (log : List SessionEntry)
    (a : SessionAnswer) : (s.load x).Follows (log ++ [(.load x, a)]) where
  selection := by rw [lastSelection?_concat]; rfl
  markup := by rw [lastMarkup?, sinceLoad_concat_load]; rfl
  classes := by rw [lastClasses, sinceLoad_concat_load]; rfl

/-- One call keeps a session in step with its log. -/
theorem Session.Follows.call {s : Session} {log : List SessionEntry} (h : s.Follows log)
    (c : SessionCall) : (s.call c).2.Follows (log ++ [(c, (s.call c).1)]) := by
  cases c with
  | load x => exact s.follows_load x log .done
  | acceptMarkup r => exact h.append rfl rfl rfl rfl
  | acceptStylesheet r =>
    refine h.append rfl (s.selection_acceptStylesheet r) (s.markup_acceptStylesheet r) ?_
    rw [Session.call, SessionEntry.classes?_acceptStylesheet, Option.getD_some]
    exact s.classes_acceptStylesheet r
  | markupPrompt u => exact h.append rfl rfl rfl rfl
  | stylesheetPrompt u => exact h.append rfl rfl rfl rfl
  | markupStylePrompt m u => exact h.append rfl rfl rfl rfl
  | analysis => exact h.append rfl rfl rfl rfl

/-- A new session follows the log of its run. -/
theorem follows_run (o : ResponseOptions) (calls : List SessionCall) :
    ((Session.new o).run calls).2.Follows ((Session.new o).run calls).1 := by
  induction calls using List.reverseRecOn with
  | nil => exact ⟨rfl, rfl, rfl⟩
  | append_singleton calls c ih =>
    rw [Session.run_concat]
    exact ih.call c

/-- A log says that no selection was loaded when none of its calls is a load. -/
theorem lastSelection?_eq_none_iff (s : Session) (calls : List SessionCall) :
    lastSelection? (s.run calls).1 = none ↔ ∀ x, SessionCall.load x ∉ calls := by
  rw [lastSelection?, List.getLast?_eq_none_iff, List.filterMap_eq_nil_iff]
  conv => rhs; rw [← s.map_fst_run calls]
  constructor
  · intro h x hx
    obtain ⟨⟨c, a⟩, he, rfl⟩ := List.mem_map.1 hx
    cases h _ he
  · rintro h ⟨c, a⟩ he
    cases c with
    | load x => exact absurd (List.mem_map.2 ⟨_, he, rfl⟩) (h x)
    | _ => rfl

/-- The classes that a log ends with are the classes of some stylesheet. -/
theorem exists_classNames_of_run (o : ResponseOptions) (calls : List SessionCall) :
    ((Session.new o).run calls).2.classes = [] ∨
      ∃ code, ((Session.new o).run calls).2.classes = Stylesheet.classNames code := by
  induction calls using List.reverseRecOn with
  | nil => exact Or.inl rfl
  | append_singleton calls c ih =>
    rw [Session.run_concat]
    cases c with
    | load x => exact Or.inl rfl
    | acceptStylesheet r => exact Or.inr ⟨_, Session.classes_acceptStylesheet _ r⟩
    | _ => exact ih

/-- The classes that a session holds are class names. -/
theorem isClassName_of_mem_run (o : ResponseOptions) (calls : List SessionCall) :
    ∀ n ∈ ((Session.new o).run calls).2.classes, Stylesheet.IsClassName n.toList := by
  intro n hn
  rcases exists_classNames_of_run o calls with h | ⟨code, h⟩
  · rw [h] at hn
    cases hn
  · rw [h] at hn
    exact Stylesheet.isClassName_of_mem_classNames hn

/-! ### What a session answers -/

/-- Asking of the selection fails only for want of one. -/
theorem Session.ask_eq_error_iff {α : Type} {s : Session} {f : Selection → α} {e : SessionError} :
    s.ask f = .error e ↔ s.selection = none ∧ e = .missingSelection := by
  rw [Session.ask]
  cases s.selection with
  | none => simp [eq_comm]
  | some x => simp

/-- The prompt for a given markup fails for want of a markup first. -/
theorem Session.markupStylePrompt_eq_error_iff {s : Session} {markup : List Char} {user : String}
    {e : SessionError} :
    s.markupStylePrompt markup user = .error e ↔
      allBlank markup = true ∧ e = .missingMarkup ∨
        allBlank markup = false ∧ s.selection = none ∧ e = .missingSelection := by
  rw [Session.markupStylePrompt]
  cases allBlank markup with
  | true => simp [eq_comm]
  | false => simp [Session.ask_eq_error_iff]

section Loaded

variable {s : Session} {x : Selection}

/-- The prompt for a markup has a class list exactly when there are classes. -/
theorem Session.markupPrompt_eq_classed_iff (h : s.selection = some x) (user : String) :
    s.markupPrompt user = .ok (Prompt.classedMarkupPrompt x user s.classes) ↔ s.classes ≠ [] := by
  rw [Session.markupPrompt, Session.ask, h]
  cases s.classes with
  | nil => simpa using (Prompt.classedMarkupPrompt_ne x user []).symm
  | cons n ns => simp

theorem Session.markupPrompt_eq_plain_iff (h : s.selection = some x) (user : String) :
    s.markupPrompt user = .ok (Prompt.markupPrompt x user) ↔ s.classes = [] := by
  rw [Session.markupPrompt, Session.ask, h]
  cases s.classes with
  | nil => simp
  | cons n ns => simpa using Prompt.classedMarkupPrompt_ne x user (n :: ns)

/-- The prompt for a stylesheet is for the last markup exactly when that is not blank. -/
theorem Session.stylesheetPrompt_eq_markup_iff (h : s.selection = some x) {markup : List Char}
    (hm : s.markup = some markup) (user : String) :
    s.stylesheetPrompt user = .ok (Prompt.markupStylePrompt markup x user) ↔
      allBlank markup = false := by
  rw [Session.stylesheetPrompt, Session.ask, h, hm]
  cases hb : allBlank markup with
  | true => simpa [hb] using (Prompt.markupStylePrompt_ne markup x user).symm
  | false => simp [hb]

theorem Session.stylesheetPrompt_eq_plain_iff (h : s.selection = some x) (user : String) :
    s.stylesheetPrompt user = .ok (Prompt.stylesheetPrompt x user) ↔
      ∀ markup, s.markup = some markup → allBlank markup = true := by
  rw [Session.stylesheetPrompt, Session.ask, h]
  cases s.markup with
  | none => simp
  | some markup =>
    cases hb : allBlank markup with
    | true => simp [hb]
    | false => simpa [hb] using Prompt.markupStylePrompt_ne markup x user

end Loaded

/-- **What a session holds and answers after any run of calls on a new one.**  It holds the
selection loaded last, the markup that the last response since then was answered with, and the
classes that the last stylesheet since then was answered with, a strictly increasing list of class
names.  A question changes nothing.  The questions about the selection fail exactly when none was
ever loaded, the one about a given markup also, and first, when that is blank.  The prompt for a
markup is the one with the class list, of exactly the classes held, if and only if there are any;
the prompt for a stylesheet is the one with the markup, exactly the markup held, if and only if
there is one that is not blank. -/
theorem run_holds_and_answers (o : ResponseOptions) (calls : List SessionCall) :
    let log := ((Session.new o).run calls).1
    let s := ((Session.new o).run calls).2
    (log.map Prod.fst = calls ∧
      s.selection = lastSelection? log ∧
      s.markup = lastMarkup? log ∧
      s.classes = lastClasses log ∧
      s.classes.Pairwise (· < ·) ∧
      ∀ name ∈ s.classes, Stylesheet.IsClassName name.toList) ∧
    (∀ c : SessionCall, c.isQuestion = true → (s.call c).2 = s) ∧
    (∀ (user : String) (markup : List Char) (e : SessionError),
      (s.markupPrompt user = .error e ↔
        (∀ x, .load x ∉ calls) ∧ e = .missingSelection) ∧
      (s.stylesheetPrompt user = .error e ↔
        (∀ x, .load x ∉ calls) ∧ e = .missingSelection) ∧
      (s.analysis = .error e ↔
        (∀ x, .load x ∉ calls) ∧ e = .missingSelection) ∧
      (s.markupStylePrompt markup user = .error e ↔
        allBlank markup = true ∧ e = .missingMarkup ∨
          allBlank markup = false ∧ (∀ x, .load x ∉ calls) ∧ e = .missingSelection)) ∧
    ∀ x, s.selection = some x → ∀ user : String,
      (s.markupPrompt user = .ok (Prompt.classedMarkupPrompt x user s.classes) ↔
        s.classes ≠ []) ∧
      (s.markupPrompt user = .ok (Prompt.markupPrompt x user) ↔ s.classes = []) ∧
      (∀ markup, s.markup = some markup →
        (s.stylesheetPrompt user = .ok (Prompt.markupStylePrompt markup x user) ↔
          allBlank markup = false)) ∧
      (s.stylesheetPrompt user = .ok (Prompt.stylesheetPrompt x user) ↔
        ∀ markup, s.markup = some markup → allBlank markup = true) := by
  intro log s
  have hf : s.Follows log := follows_run o calls
  have hnone : s.selection = none ↔ ∀ x, SessionCall.load x ∉ calls := by
    rw [hf.selection]
    exact lastSelection?_eq_none_iff _ calls
  refine ⟨⟨Session.map_fst_run _ calls, hf.selection, hf.markup, hf.classes, ?_,
      isClassName_of_mem_run o calls⟩,
    fun c hc => Session.call_of_isQuestion hc s, fun user markup e => ?_, fun x hx user => ?_⟩
  · rcases exists_classNames_of_run o calls with h | ⟨code, h⟩
    · rw [h]
      exact List.Pairwise.nil
    · rw [h]
      exact Stylesheet.pairwise_classNames code
  · rw [← hnone]
    exact ⟨Session.ask_eq_error_iff, Session.ask_eq_error_iff, Session.ask_eq_error_iff,
      Session.markupStylePrompt_eq_error_iff⟩
  · exact ⟨Session.markupPrompt_eq_classed_iff hx user, Session.markupPrompt_eq_plain_iff hx user,
      fun markup hm => Session.stylesheetPrompt_eq_markup_iff hx hm user,
      Session.stylesheetPrompt_eq_plain_iff hx user⟩

end SceneMarkup
