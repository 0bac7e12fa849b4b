import Billing.Text.Blank

set_option autoImplicit false

/-! # Labels

A `Label` is a text that is not blank and has no blanks around it, such as the name of a client or
the description of an item.
-/

namespace Billing

/-- A text that is not blank and has no blanks around it. -/
structure Label where
  text : String
  strip_text : Text.strip text = text
  not_blank : Text.isBlankText text = false
  deriving DecidableEq, Repr

/-- The label that a text holds between the blanks around it, unless the text is blank. -/
def Label.of? (s : String) : Option Label :=
  if h : Text.isBlankText s = false then
    some ⟨Text.strip s, Text.strip_strip s, (Text.isBlankText_strip s).trans h⟩
  else none

theorem Label.of?_text (l : Label) : Label.of? l.text = some l := by
  simp [Label.of?, l.strip_text, l.not_blank]

end Billing
