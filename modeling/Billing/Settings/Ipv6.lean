import Billing.Decimal.Digits
import Billing.Text.Hexadecimal

set_option autoImplicit false

/-! # Addresses of the Internet Protocol, version 6

An address is eight groups of sixteen bits. `Ipv6.ofChars?` reads every spelling of one, with `::`
for a run of zero groups or an older address at the end, and `Ipv6.chars` writes the shortest.
-/

namespace Billing

/-- An address: its groups from the left. -/
structure Ipv6 where
  groups : List Nat
  deriving DecidableEq, Repr

namespace Ipv6

/-! ## Reading -/

/-- The parts of a text between separators. -/
def parts (separator : Char) : List Char → List (List Char)
  | [] => [[]]
  | c :: cs =>
      if c = separator then [] :: parts separator cs
      else
        match parts separator cs with
        | [] => [[c]]
        | p :: ps => (c :: p) :: ps

/-- A group: one to four hexadecimal digits. -/
def group? (cs : List Char) : Option Nat := do
  let ds ← cs.mapM Text.hexDigit?
  if ds.isEmpty || 4 < ds.length then none
  return ds.foldl (fun n d => n * 16 + d) 0

/-- A byte in decimal digits, without zeros in front. -/
def byte? (cs : List Char) : Option Nat := do
  let ds ← cs.mapM Text.asciiDigit?
  if ds.isEmpty || 3 < ds.length || (1 < ds.length && ds.head? = some 0) then none
  let n := Digits.toNat ds
  if 255 < n then none else return n

/-- Two groups as the four bytes of an older address. -/
def bytes? (cs : List Char) : Option (List Nat) :=
  match (parts '.' cs).mapM byte? with
  | some [a, b, c, d] => some [a * 256 + b, c * 256 + d]
  | _ => none

/-- Groups between colons. Only the last part of an address can be an older address. -/
def groups? (atEnd : Bool) : List (List Char) → Option (List Nat)
  | [] => some []
  | [p] =>
      match group? p with
      | some g => some [g]
      | none => if atEnd then bytes? p else none
  | p :: ps => do
      let g ← group? p
      return g :: (← groups? atEnd ps)

/-- Groups between colons, or nothing at all. -/
def side? (atEnd : Bool) (cs : List Char) : Option (List Nat) :=
  if cs.isEmpty then some [] else groups? atEnd (parts ':' cs)

/-- The text in front of the first two colons and the text behind them. -/
def atGap? : List Char → Option (List Char × List Char)
  | ':' :: ':' :: cs => some ([], cs)
  | c :: cs => (atGap? cs).map fun found => (c :: found.1, found.2)
  | [] => none

/-- Reads an address. The gap stands for at least one group. -/
def ofChars? (cs : List Char) : Option Ipv6 :=
  match atGap? cs with
  | none => do
      let gs ← side? true cs
      if gs.length = 8 then return ⟨gs⟩ else none
  | some (front, back) => do
      let fs ← side? false front
      let bs ← side? true back
      if 7 < fs.length + bs.length then none
      return ⟨fs ++ List.replicate (8 - fs.length - bs.length) 0 ++ bs⟩

/-! ## Writing -/

/-- How many groups are zero from a position on. -/
def zerosFrom (gs : List Nat) (i : Nat) : Nat := ((gs.drop i).takeWhile (· = 0)).length

/-- The position of the first of the longest runs of zeros. -/
def longestRun (gs : List Nat) : Nat :=
  (List.range gs.length).foldl
    (fun best i => if zerosFrom gs best < zerosFrom gs i then i else best) 0

/-- Groups with colons between them. -/
def joined (gs : List Nat) : List Char :=
  List.intercalate [':'] (gs.map (Nat.toDigits 16))

/-- The shortest text of an address. -/
def chars (a : Ipv6) : List Char :=
  let i := longestRun a.groups
  let n := zerosFrom a.groups i
  if n < 2 then joined a.groups
  else joined (a.groups.take i) ++ ':' :: ':' :: joined (a.groups.drop (i + n))

end Ipv6

end Billing
