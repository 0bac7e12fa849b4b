import Billing.Json.Basic
import Billing.Text.Hexadecimal

set_option autoImplicit false

/-! # Reading JSON

`Json.parse?` reads a text that holds one JSON value and nothing else but blanks. The infinities
and "not a number" may be written as words. How deep values may be nested, how long numbers may be
and whether large ones are told apart is up to the `Limits`.
-/

namespace Billing.Json

/-- The characters that may stand between the parts of a JSON text. -/
def isSpace (c : Char) : Bool := c = ' ' || c = '\n' || c = '\r' || c = '\t'

/-- The text behind the blanks at its front. -/
def skipSpace (cs : List Char) : List Char := cs.dropWhile isSpace

/-! ## Limits -/

/-- What a text may hold. -/
structure Limits where
  /-- how deep arrays and objects that are not empty may be nested -/
  depth : Option Nat
  /-- how many characters the whole part of a number may have, its sign included -/
  digits : Option Nat
  /-- whether whole numbers that do not fit a word are `long` -/
  words : Bool
  deriving DecidableEq, Repr

/-- The limits of texts from outside. -/
def Limits.standard : Limits := ⟨some 200, some maxNumberLength, true⟩

/-- No limits. -/
def Limits.unlimited : Limits := ⟨none, none, false⟩

/-- Whether a number of things is within a limit, if there is one. -/
def isWithin (limit : Option Nat) (n : Nat) : Bool := limit.all (n ≤ ·)

/-! ## Strings -/

/-- The value of four hexadecimal digits. -/
def hexUnit? (a b c d : Char) : Option Nat := do
  let a ← Text.hexDigit? a
  let b ← Text.hexDigit? b
  let c ← Text.hexDigit? c
  let d ← Text.hexDigit? d
  return ((a * 16 + b) * 16 + c) * 16 + d

/-- The character of an escape that is a single letter or sign. -/
def escaped? : Char → Option Char
  | '\x22' => some '\x22'
  | '\\' => some '\\'
  | '/' => some '/'
  | 'b' => some '\x08'
  | 'f' => some '\x0c'
  | 'n' => some '\n'
  | 'r' => some '\r'
  | 't' => some '\t'
  | _ => none

/-- The character that a high and a low half stand for. -/
def joinHalves? (high low : Nat) : Option Char :=
  if 0xD800 ≤ high ∧ high < 0xDC00 ∧ 0xDC00 ≤ low ∧ low < 0xE000 then
    some (Char.ofNat (0x10000 + (high - 0xD800) * 0x400 + (low - 0xDC00)))
  else none

/-- Puts a character in front of the string that has been read. -/
def consChar (c : Char) (rest : Option (List Char × List Char)) :
    Option (List Char × List Char) :=
  rest.map fun found => (c :: found.1, found.2)

/-- Reads the inside of a string up to the closing mark. Characters outside the first plane are
escaped as two halves, and a half must not stand alone. -/
def stringBody? : List Char → Option (List Char × List Char)
  | [] => none
  | '\x22' :: cs => some ([], cs)
  | '\\' :: 'u' :: a :: b :: c :: d :: cs =>
      match hexUnit? a b c d with
      | none => none
      | some n =>
          if n < 0xD800 ∨ 0xE000 ≤ n then consChar (Char.ofNat n) (stringBody? cs)
          else
            match cs with
            | '\\' :: 'u' :: a :: b :: c :: d :: cs =>
                match (hexUnit? a b c d).bind (joinHalves? n) with
                | some ch => consChar ch (stringBody? cs)
                | none => none
            | _ => none
  | '\\' :: e :: cs =>
      match escaped? e with
      | some ch => consChar ch (stringBody? cs)
      | none => none
  | c :: cs => if c.toNat < 0x20 ∨ c = '\\' then none else consChar c (stringBody? cs)

/-! ## Numbers -/

/-- The digits `0` to `9` at the front of a text, and the rest. -/
def digits (cs : List Char) : List Nat × List Char :=
  ((cs.takeWhile Text.isAsciiDigit).filterMap Text.asciiDigit?, cs.dropWhile Text.isAsciiDigit)

/-- Reads the fraction of a number, if there is one, and says whether there is. -/
def fraction? : List Char → Option (Bool × List Nat × List Char)
  | '.' :: cs =>
      match digits cs with
      | ([], _) => none
      | (ds, cs) => some (true, ds, cs)
  | cs => some (false, [], cs)

/-- Reads the exponent of a number, if there is one, and says whether there is. -/
def exponent? : List Char → Option (Bool × Int × List Char)
  | [] => some (false, 0, [])
  | c :: cs =>
      if c = 'e' ∨ c = 'E' then
        let (negative, cs) := Decimal.signRun cs
        match digits cs with
        | ([], _) => none
        | (ds, cs) =>
            some (true, (if negative then -(Digits.toNat ds : Int) else Digits.toNat ds), cs)
      else some (false, 0, c :: cs)

/-- A whole number, which may be told apart if it is large. -/
def ofWhole (limits : Limits) (n : Int) : Json :=
  if limits.words && !isWord n then long n else int n

/-- Reads a number behind its sign. A zero is not followed by further digits. -/
def unsigned? (limits : Limits) (negative : Bool) (cs : List Char) : Option (Json × List Char) := do
  let (whole, cs) ← match digits cs with
    | ([], _) => none
    | (0 :: _ :: _, _) => none
    | found => some found
  if !isWithin limits.digits (whole.length + if negative then 1 else 0) then none
  let (hasFraction, fraction, cs) ← fraction? cs
  let (hasExponent, e, cs) ← exponent? cs
  let size := Digits.toNat (whole ++ fraction)
  if hasFraction || hasExponent then
    return (real (.ofDecimal ⟨negative, size, e - fraction.length⟩), cs)
  else
    return (ofWhole limits (if negative then -(size : Int) else size), cs)

/-- The text behind a word at its front. -/
def word? (word : List Char) (cs : List Char) : Option (List Char) :=
  if word.isPrefixOf cs then some (cs.drop word.length) else none

/-! ## Values -/

mutual

/-- Reads a value off the front of a text. The numbers bound the steps and count the arrays and
objects around the value. -/
def value? (limits : Limits) : Nat → Nat → List Char → Option (Json × List Char)
  | 0, _, _ => none
  | fuel + 1, level, cs =>
      match skipSpace cs with
      | '\x22' :: cs => (stringBody? cs).map fun found => (str (String.ofList found.1), found.2)
      | '[' :: cs =>
          match skipSpace cs with
          | ']' :: cs => some (arr [], cs)
          | cs => do
              if !isWithin limits.depth (level + 1) then none
              let (x, cs) ← value? limits fuel (level + 1) cs
              let (xs, cs) ← elements? limits fuel (level + 1) cs
              return (arr (x :: xs), cs)
      | '\x7b' :: cs =>
          match skipSpace cs with
          | '\x7d' :: cs => some (obj [], cs)
          | cs => do
              if !isWithin limits.depth (level + 1) then none
              let (m, cs) ← member? limits fuel (level + 1) cs
              let (ms, cs) ← members? limits fuel (level + 1) cs
              return (obj (m :: ms), cs)
      | 'n' :: cs => (word? ['u', 'l', 'l'] cs).map (null, ·)
      | 't' :: cs => (word? ['r', 'u', 'e'] cs).map (bool true, ·)
      | 'f' :: cs => (word? ['a', 'l', 's', 'e'] cs).map (bool false, ·)
      | 'N' :: cs => (word? ['a', 'N'] cs).map (real .notANumber, ·)
      | 'I' :: cs =>
          (word? ['n', 'f', 'i', 'n', 'i', 't', 'y'] cs).map (real (.infinite false), ·)
      | '-' :: 'I' :: cs =>
          (word? ['n', 'f', 'i', 'n', 'i', 't', 'y'] cs).map (real (.infinite true), ·)
      | '-' :: cs => unsigned? limits true cs
      | cs => unsigned? limits false cs

/-- Reads the elements of an array behind the first one, up to the closing bracket. -/
def elements? (limits : Limits) : Nat → Nat → List Char → Option (List Json × List Char)
  | 0, _, _ => none
  | fuel + 1, level, cs =>
      match skipSpace cs with
      | ']' :: cs => some ([], cs)
      | ',' :: cs => do
          let (x, cs) ← value? limits fuel level cs
          let (xs, cs) ← elements? limits fuel level cs
          return (x :: xs, cs)
      | _ => none

/-- Reads a key, a colon and a value. -/
def member? (limits : Limits) : Nat → Nat → List Char → Option ((String × Json) × List Char)
  | 0, _, _ => none
  | fuel + 1, level, cs =>
      match skipSpace cs with
      | '\x22' :: cs => do
          let (key, cs) ← stringBody? cs
          let ':' :: cs := skipSpace cs | none
          let (v, cs) ← value? limits fuel level cs
          return ((String.ofList key, v), cs)
      | _ => none

/-- Reads the members of an object behind the first one, up to the closing brace. -/
def members? (limits : Limits) : Nat → Nat → List Char → Option (List (String × Json) × List Char)
  | 0, _, _ => none
  | fuel + 1, level, cs =>
      match skipSpace cs with
      | '\x7d' :: cs => some ([], cs)
      | ',' :: cs => do
          let (m, cs) ← member? limits fuel level cs
          let (ms, cs) ← members? limits fuel level cs
          return (m :: ms, cs)
      | _ => none

end

/-- Reads a text that holds one value. -/
def parse? (limits : Limits) (s : String) : Option Json :=
  let cs := s.toList
  match value? limits (2 * cs.length + 2) 0 cs with
  | some (v, rest) => if (skipSpace rest).isEmpty then some v else none
  | none => none

end Billing.Json
