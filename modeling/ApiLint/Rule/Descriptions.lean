import ApiLint.Rule.Basic
import ApiLint.Walk
set_option autoImplicit false

/-!
# The rule on descriptions

Descriptions are Markdown, which may hold markup, but no script.
-/

namespace ApiLint.Rule

/-- The text has the start of a script tag, in any case. -/
def hasScriptTag (text : String) : Bool :=
  Text.containsCaseless "<script".toList text.toList

/-- A visit of a description with a script tag. -/
def isScriptedDescription (visit : Visit) : Bool :=
  visit.path.lastKey? = some "description" &&
    (match visit.node with
      | .string text => hasScriptTag text
      | _ => false)

/-- The finding for a description. -/
def scriptFinding (visit : Visit) : Finding :=
  { path := visit.path
    message := "Markdown descriptions should not contain `<script>` tags." }

/-- Descriptions with script tags. -/
def noScriptTags (document : Node) : List Finding :=
  ((walkDocument document).filter isScriptedDescription).map scriptFinding

end ApiLint.Rule
