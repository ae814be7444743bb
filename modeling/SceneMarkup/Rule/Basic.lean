/-!
# Rules and pipelines

A house rule is a named revision of texts; a pipeline is a list of rules applied in order, each to
the result of the one before.

## Main definitions

* `Rule` — a named revision.
* `Pipeline`, `Pipeline.apply` — rules in a row.
* `Pipeline.steps` — what each rule of a pipeline did.
* `Pipeline.describe` — the pipeline as one line of text.

## Main results

* `apply_append` — two pipelines in a row are applied one after the other.
-/

namespace SceneMarkup

/-- A named revision of texts. -/
structure Rule where
  /-- The name that the rule is known by. -/
  name : String
  /-- What the rule is for, in one line. -/
  description : String
  /-- The revision. -/
  revise : List Char → List Char

/-- Rules in the order in which they are applied. -/
abbrev Pipeline := List Rule

namespace Pipeline

/-- The result of all rules, applied in order. -/
def apply : Pipeline → List Char → List Char
  | [], s => s
  | rule :: rules, s => apply rules (rule.revise s)

@[simp] theorem apply_nil (s : List Char) : apply [] s = s := rfl

@[simp] theorem apply_cons (rule : Rule) (rules : Pipeline) (s : List Char) :
    apply (rule :: rules) s = apply rules (rule.revise s) := rfl

/-- Two pipelines in a row are applied one after the other. -/
theorem apply_append (p q : Pipeline) (s : List Char) :
    apply (p ++ q) s = apply q (apply p s) := by
  induction p generalizing s with
  | nil => rfl
  | cons rule rules ih => simpa using ih (rule.revise s)

/-- For each rule its name and the text after it, or nothing when the rule changed nothing. -/
def steps : Pipeline → List Char → List (String × Option (List Char))
  | [], _ => []
  | rule :: rules, s =>
    let t := rule.revise s
    (rule.name, if t = s then none else some t) :: steps rules t

/-- The names of the rules, each in double quotes, as one line of text. -/
def describe (p : Pipeline) : String :=
  "RuleRegistry \x7b rules: [" ++
    String.intercalate ", " (p.map fun rule => "\"" ++ rule.name ++ "\"") ++ "] \x7d"

end Pipeline
end SceneMarkup
