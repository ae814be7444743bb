import SceneMarkup.Text.Basic
import SceneMarkup.Text.Lowercase

/-!
# What names say

Designers name their nodes by purpose.  A name is searched for known words, whatever the case of its
letters; of several the first line of the table goes.

## Main definitions

* `mentions` — whether a name contains one of some words.
* `Region` — the region of a page that a top-level node is for.
* `Component` — the reusable component that a container is.
-/

namespace SceneMarkup

/-- Whether a name contains one of some words, in lower case. -/
def mentions (words : List String) (name : String) : Bool :=
  words.any fun w => Text.contains w.toList (Text.lower name.toList)

/-- A region of a page. -/
inductive Region where
  | header
  | nav
  | main
  /-- A part of the content that its name says nothing about. -/
  | part
  | aside
  | footer
  deriving DecidableEq, Repr

namespace Region

/-- The region that the name of a top-level node tells. -/
def ofName (name : String) : Region :=
  if mentions ["header", "top"] name then header
  else if mentions ["nav", "menu"] name then nav
  else if mentions ["main", "content"] name then main
  else if mentions ["footer", "bottom"] name then footer
  else if mentions ["sidebar", "aside"] name then aside
  else part

/-- The tag of a region. -/
def tag : Region → String
  | header => "header"
  | nav => "nav"
  | main => "main"
  | part => "section"
  | aside => "aside"
  | footer => "footer"

/-- All regions. -/
def all : List Region := [header, nav, main, part, aside, footer]

end Region

/-- A reusable component. -/
inductive Component where
  | buttons
  | input
  | tab
  | table
  deriving DecidableEq, Repr

namespace Component

/-- The component that the name of a container tells, if any. -/
def ofName? (name : String) : Option Component :=
  if mentions ["button", "btn"] name then some buttons
  else if mentions ["input", "form"] name then some input
  else if mentions ["tab"] name then some tab
  else if mentions ["table"] name then some table
  else none

/-- The class of a component. -/
def className : Component → String
  | buttons => "component-btns"
  | input => "component-input"
  | tab => "component-tab"
  | table => "component-table"

/-- All components. -/
def all : List Component := [buttons, input, tab, table]

end Component
end SceneMarkup
