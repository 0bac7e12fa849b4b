import Billing.Json.Basic
import Billing.Text.Quoted

set_option autoImplicit false

/-! # Writing JSON

`Json.compress` writes a value without any blanks, `Json.pretty` with one element or member on each
line, indented by two blanks for each level. Characters outside ASCII are written as they are.
-/

namespace Billing.Json

/-- One character of a JSON string. -/
def escapeChar (c : Char) : List Char :=
  if c = '\x22' then ['\\', '\x22']
  else if c = '\\' then ['\\', '\\']
  else if c = '\x08' then ['\\', 'b']
  else if c = '\x0c' then ['\\', 'f']
  else if c = '\n' then ['\\', 'n']
  else if c = '\r' then ['\\', 'r']
  else if c = '\t' then ['\\', 't']
  else if c.toNat < 0x20 then '\\' :: 'u' :: Text.hexChars 4 c.toNat
  else [c]

/-- A text as a JSON string. -/
def stringChars (s : String) : List Char :=
  '\x22' :: s.toList.flatMap escapeChar ++ ['\x22']

/-- The beginning of a line at a level of indentation, or nothing in compressed form. -/
def lineStart (indent : Option Nat) : List Char :=
  match indent with
  | some level => '\n' :: List.replicate (2 * level) ' '
  | none => []

/-- The blank behind the colon of a member, which the compressed form leaves out. -/
def afterColon (indent : Option Nat) : List Char := if indent.isSome then [' '] else []

mutual

/-- A value, on lines indented to a level or in compressed form. -/
def chars (indent : Option Nat) : Json → List Char
  | null => ['n', 'u', 'l', 'l']
  | bool true => ['t', 'r', 'u', 'e']
  | bool false => ['f', 'a', 'l', 's', 'e']
  | int n => (Digits.intText n).toList
  | long n => (Digits.intText n).toList
  | real x => x.text.toList
  | str s => stringChars s
  | arr [] => ['[', ']']
  | arr (x :: xs) =>
      '[' :: lineStart (indent.map (· + 1)) ++ chars (indent.map (· + 1)) x ++
        elementsChars (indent.map (· + 1)) xs ++ lineStart indent ++ [']']
  | obj [] => ['\x7b', '\x7d']
  | obj ((k, v) :: ms) =>
      '\x7b' :: lineStart (indent.map (· + 1)) ++ stringChars k ++
        ':' :: afterColon indent ++ chars (indent.map (· + 1)) v ++
        membersChars (indent.map (· + 1)) ms ++ lineStart indent ++ ['\x7d']

/-- The elements of an array behind the first one. -/
def elementsChars (indent : Option Nat) : List Json → List Char
  | [] => []
  | x :: xs => ',' :: lineStart indent ++ chars indent x ++ elementsChars indent xs

/-- The members of an object behind the first one. -/
def membersChars (indent : Option Nat) : List (String × Json) → List Char
  | [] => []
  | (k, v) :: ms =>
      ',' :: lineStart indent ++ stringChars k ++ ':' :: afterColon indent ++
        chars indent v ++ membersChars indent ms

end

/-- A value as text without blanks. -/
def compress (v : Json) : String := String.ofList (v.chars none)

/-- A value as text on indented lines. -/
def pretty (v : Json) : String := String.ofList (v.chars (some 0))

end Billing.Json
