import SceneMarkup.Prompt.Request

/-!
# The variants of the prompts differ

There are two prompts for a markup, with and without given classes, and two for a stylesheet, with
and without a markup.  For one selection and one request the two are different texts whatever the
classes and the markup are, since their guidelines differ in the first lines.

## Main results

* `classedMarkupPrompt_ne` — a prompt with given classes is none without.
* `markupStylePrompt_ne` — a prompt with a markup is none without.
-/

namespace SceneMarkup
namespace Prompt

theorem block_cons_cons (l l' : String) (ls : List String) :
    block (l :: l' :: ls) = l ++ "\n" ++ block (l' :: ls) :=
  String.intercalate_cons_cons

/-- Texts that differ among their first characters are different. -/
theorem append_ne_of_take {a b s t : String} {n : Nat} (ha : n ≤ a.toList.length)
    (hb : n ≤ b.toList.length) (h : a.toList.take n ≠ b.toList.take n) : a ++ s ≠ b ++ t := by
  intro he
  have hlist := congrArg (List.take n) (congrArg String.toList he)
  rw [String.toList_append, String.toList_append, List.take_append_of_le_length ha,
    List.take_append_of_le_length hb] at hlist
  exact h hlist

/-- Both guidelines start with the same two lines; the third is about the classes, or it is empty. -/
theorem classedMarkupPrompt_ne (x : Selection) (user : String) (classes : List String) :
    classedMarkupPrompt x user classes ≠ markupPrompt x user := by
  simp only [classedMarkupPrompt, markupPrompt, classListRules, guidelines, List.cons_append,
    List.nil_append, block_cons_cons, String.append_assoc, String.empty_append, ne_eq,
    String.append_right_inj]
  exact append_ne_of_take (n := 1) (by decide) (by decide) (by decide)

/-- The first line of the guidelines speaks of the markup, or it does not. -/
theorem markupStylePrompt_ne (markup : List Char) (x : Selection) (user : String) :
    markupStylePrompt markup x user ≠ stylesheetPrompt x user := by
  simp only [markupStylePrompt, stylesheetPrompt, markupStyleRules, stylesheetRules,
    block_cons_cons, String.append_assoc, ne_eq, String.append_right_inj]
  exact append_ne_of_take (n := 19) (by decide) (by decide) (by decide)

end Prompt
end SceneMarkup
