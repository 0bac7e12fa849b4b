import Billing.Text.Hexadecimal
import Billing.Text.Printable

set_option autoImplicit false

/-! # Quoted texts

A text between quotation marks, in which backslashes, the quotation mark itself and all characters
that are not printable are escaped. Single marks are used unless the text holds a single mark and
no double one.
-/

namespace Billing.Text

/-- The mark that a text is quoted with. -/
def quoteMark (s : String) : Char :=
  if s.toList.contains '\x27' && !s.toList.contains '\x22' then '\x22' else '\x27'

/-- One character of a quoted text. -/
def quoteChar (mark c : Char) : List Char :=
  if c = mark ∨ c = '\\' then ['\\', c]
  else if c = '\n' then ['\\', 'n']
  else if c = '\r' then ['\\', 'r']
  else if c = '\t' then ['\\', 't']
  else if isPrintable c then [c]
  else if c.toNat < 0x100 then '\\' :: 'x' :: hexChars 2 c.toNat
  else if c.toNat < 0x10000 then '\\' :: 'u' :: hexChars 4 c.toNat
  else '\\' :: 'U' :: hexChars 8 c.toNat

/-- The text in quotation marks. -/
def quote (s : String) : String :=
  let mark := quoteMark s
  String.ofList (mark :: s.toList.flatMap (quoteChar mark) ++ [mark])

end Billing.Text
