import SceneMarkup.Markup.Attribute
import SceneMarkup.Markup.Kebab
import SceneMarkup.Rule.Basic

/-!
# Icons

An icon is an `<i>` tag.  Its classes are a pair `ico-<name> ico-normal`, and it is hidden from
assistive technology.

## Main definitions

* `icon?` — the reader of an `<i>` tag.
* `iconName` — the name of an icon, from a class that mentions it.
* `standardIcons` — the rule that renames icon classes.
* `hiddenIcons` — the rule that hides icons.
-/

namespace SceneMarkup
namespace Markup

open Text

/-- An `<i>` tag with attributes, read as its attribute text. -/
def icon? : Recogniser (List Char) := fun s =>
  match tag? "<i".toList s with
  | some (attrs, rest) => if attrs.isEmpty then none else some (attrs, rest)
  | none => none

/-- Whether a class mentions an icon. -/
def mentionsIcon (w : List Char) : Bool := contains "icon".toList w

/-- A text from which the word `icon` is taken out until it is nowhere left. -/
def eraseIcon (s : List Char) : List Char :=
  if (erase "icon".toList s).length < s.length then eraseIcon (erase "icon".toList s) else s
termination_by s.length

/-- The name of an icon, from a class that mentions it. -/
def iconName (w : List Char) : List Char :=
  match trimHyphens (squeezeHyphens (eraseIcon w)) with
  | [] => "default".toList
  | name => name

/-- The class that every icon has. -/
def iconSize : List Char := "ico-normal".toList

/-- The class of an icon by its name. -/
def iconClass (name : List Char) : List Char := "ico-".toList ++ name

/-- Whether a list of classes has the form that the house rules ask for. -/
def isStandardIcon (ws : List (List Char)) : Bool :=
  ws.contains iconSize && ws.any fun w => startsWith "ico-".toList w && w != iconSize

/-- A class with the name of its icon in the standard form; one that mentions no icon is kept. -/
def standardWord (w : List Char) : List Char :=
  if mentionsIcon w then iconClass (iconName w) else w

/-- The classes of an icon in the standard form, each at its first occurrence. -/
def standardWords (ws : List (List Char)) : List (List Char) :=
  let ws := (ws.map standardWord).eraseDups
  if ws.contains iconSize then ws else ws ++ [iconSize]

/-- The attribute text with the class attribute in the standard form, or nothing when the tag needs
no change. -/
def standardAttributes? (attrs : List Char) : Option (List Char) :=
  match findAttribute? "class".toList attrs with
  | none => none
  | some o =>
    match o.value.value with
    | none => none
    | some v =>
      let ws := words v
      -- a tag in the standard form is kept as it is written, repeated classes and all
      if !ws.any mentionsIcon || isStandardIcon ws then none
      else
        some (attrs.take o.start ++ "class=\"".toList ++ joinWith [' '] (standardWords ws) ++
          '"' :: attrs.drop o.stop)

/-- The rule that renames icon classes. -/
def standardIcons : Rule where
  name := "icon-classes"
  description := "Rename icon classes to ico-<name> ico-normal"
  revise := replaceAll icon? fun text attrs =>
    match standardAttributes? attrs with
    | some attrs => "<i".toList ++ attrs ++ ['>']
    | none => text

/-- Whether a tag is an icon that is not hidden yet. -/
def needsHiding (attrs : List Char) : Bool :=
  if (findAttribute? "aria-hidden".toList attrs).isSome then false
  else
    match classWords? attrs with
    | some ws => ws.any (contains "ico-".toList)
    | none => false

/-- The text before a final slash, if a text ends with one. -/
def beforeSlash? (s : List Char) : Option (List Char) :=
  match s.reverse with
  | '/' :: r => some r.reverse
  | _ => none

/-- The tag of an icon with the attribute that hides it. -/
def hiddenTag (attrs : List Char) : List Char :=
  match beforeSlash? (trimEnd attrs) with
  | some body => "<i".toList ++ trimEnd body ++ " aria-hidden=\"true\" />".toList
  | none => "<i".toList ++ trimEnd attrs ++ " aria-hidden=\"true\">".toList

/-- The rule that hides icons from assistive technology. -/
def hiddenIcons : Rule where
  name := "icon-aria-hidden"
  description := "Add aria-hidden=\"true\" to ico- icons"
  revise := replaceAll icon? fun text attrs => if needsHiding attrs then hiddenTag attrs else text

end Markup
end SceneMarkup
