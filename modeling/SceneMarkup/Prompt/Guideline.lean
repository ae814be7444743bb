/-!
# Guidelines

The fixed parts of the prompts, as lists of lines.

## Main definitions

* `guidelines`, `markupRules`, `accessibilityRules` — writing markup.
* `classListRules` — writing markup with given classes.
* `stylesheetRules` — writing a stylesheet.
* `markupStyleRules` — writing a stylesheet for a markup.
-/

namespace SceneMarkup
namespace Prompt

/-- The task of writing markup. -/
def guidelines : List String :=
  ["You generate HTML that strictly follows the markup guidelines below, based on a " ++
     "design selection exported as JSON.",
   "Return plain HTML only. No code fences, no markdown, no explanations."]

/-- The rules of markup. -/
def markupRules : List String :=
  ["== Markup guidelines ==",
   "",
   "1. Semantic tags:",
   "   - <header> for page or section headers",
   "   - <nav> for navigation menus",
   "   - <main> for the primary content (only one)",
   "   - <section> for self-contained sections",
   "   - <article> for independent content",
   "   - <aside> for sidebars",
   "   - <footer> for footers",
   "",
   "2. Class names are kebab-case:",
   "   - main-container, benefit-item, content-section",
   "",
   "3. Headings are hierarchical:",
   "   - h1 for the single top-level title",
   "   - h2 to h6 in order below it",
   "",
   "4. Repeated items use <ul><li>.",
   "",
   "5. Links and buttons:",
   "   - links: <a href=\"\">",
   "   - buttons: <button type=\"button\">",
   "",
   "6. Icons:",
   "   - <i class=\"ico-name ico-normal\" aria-hidden=\"true\"></i>"]

/-- The rules of accessible markup. -/
def accessibilityRules : List String :=
  ["8. Accessibility:",
   "   - aria-label, aria-hidden and role attributes where they apply",
   "   - structure comments such as <!-- section name -->"]

/-- The task of writing markup with given classes, and its rules. -/
def classListRules : List String :=
  ["You generate HTML that strictly follows the markup guidelines below, based on a " ++
     "design selection exported as JSON.",
   "Return plain HTML only. No code fences, no markdown, no explanations.",
   "Only use classes from CLASS_LIST below in class attributes. Do not invent new class names.",
   "",
   "== Markup guidelines ==",
   "",
   "1. Prefer semantic tags: header, nav, main, section, article, aside, footer.",
   "   - Use the first class as the top-level wrapper, on a fitting semantic tag.",
   "",
   "2. Class names:",
   "   - Only the provided CLASS_LIST",
   "   - Classes prefixed with component- mark components; structure them as such",
   "",
   "3. Structure:",
   "   - repeated items: <ul>, <li>",
   "   - text: hierarchical h1-h6 or p",
   "   - actions: <button type=\"button\"> or <a href=\"\">",
   "   - images: <figure>, <img>",
   "",
   "4. Icons:",
   "   - <i class=\"ico-name ico-normal\" aria-hidden=\"true\"></i>",
   "   - meaningful icons also get role=\"img\" aria-label=\"description\"",
   "",
   "5. Accessibility:",
   "   - appropriate ARIA attributes",
   "   - structure comments between sections"]

/-- The task of writing a stylesheet, and its rules. -/
def stylesheetRules : List String :=
  ["You generate SCSS that strictly follows the stylesheet guidelines below, based on a " ++
     "design selection exported as JSON.",
   "Return plain SCSS only. No code fences, no markdown, no explanations.",
   "",
   "== Stylesheet guidelines ==",
   "",
   "1. Numeric values go through the rem mixin:",
   "   - @include rem(margin, 20), @include rem(padding, 10 20 15)",
   "   - @include rem(font-size, 16), @include rem(border, 1 solid #333333)",
   "",
   "2. Colors are hex literals, not variables:",
   "   - background-color: #3b82f6, color: #ffffff, border: 1px solid #cccccc",
   "",
   "3. Nest everything under one top-level wrapper class.",
   "",
   "4. Nest at most 4 levels deep.",
   "",
   "5. Use the selection data:",
   "   - colors for background-color, color and border-color",
   "   - sizes for width, height, padding and margin",
   "   - fonts for font-family, font-size and font-weight",
   "",
   "6. Nest component- classes and their parts inside the component."]

/-- The task of writing a stylesheet for a markup, and its rules. -/
def markupStyleRules : List String :=
  ["You generate SCSS for the HTML below that strictly follows the stylesheet guidelines, " ++
     "using the design selection JSON for values.",
   "Return plain SCSS only. No code fences, no markdown, no explanations.",
   "",
   "== Stylesheet guidelines ==",
   "",
   "1. Numeric values go through the rem mixin:",
   "   wrong:",
   "      width: rem(24px);",
   "      margin: 20px;",
   "      padding: 10px 20px;",
   "   right:",
   "      @include rem(width, 24);",
   "      @include rem(margin, 20);",
   "      @include rem(padding, 10 20);",
   "   - drop px and pass bare numbers",
   "   - calc() expressions are the only exception: top: calc(50% - 10px)",
   "",
   "2. Colors are hex literals, not variables:",
   "   wrong: color: $color-primary;",
   "   right: color: #3b82f6;",
   "",
   "3. Nest everything under the wrapper class of the HTML.",
   "",
   "4. Nest at most 4 levels deep.",
   "",
   "Cover every class used in the HTML."]

end Prompt
end SceneMarkup
