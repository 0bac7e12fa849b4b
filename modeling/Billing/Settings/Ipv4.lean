import Billing.Decimal.Digits
import Billing.Settings.Ipv6

set_option autoImplicit false

/-! # Addresses of the Internet Protocol, version 4

A name that ends in a number is an address of four bytes (`Ipv4.endsInNumber`). `Ipv4.ofChars?`
reads every spelling of one: one to four numbers between points, decimal, octal or hexadecimal, the
last of which fills all the bytes that are left.
-/

namespace Billing

/-- An address as one number of 32 bits. -/
structure Ipv4 where
  value : Nat
  value_lt : value < 4294967296
  deriving DecidableEq, Repr

namespace Ipv4

/-- The digits of a number and their base, which its beginning tells: sixteen for `0x`, eight for
another zero in front, otherwise ten. -/
def digitsAndBase : List Char → List Char × Nat
  | '0' :: 'x' :: cs => (cs, 16)
  | '0' :: 'X' :: cs => (cs, 16)
  | '0' :: c :: cs => (c :: cs, 8)
  | cs => (cs, 10)

/-- Reads a number. No digits behind the mark of a base are zero. -/
def number? (cs : List Char) : Option Nat := do
  if cs.isEmpty then none
  let (cs, base) := digitsAndBase cs
  let ds ← cs.mapM Text.hexDigit?
  if ds.all (· < base) then return ds.foldl (fun n d => n * base + d) 0 else none

/-- The parts of a name between points, without the empty one behind a point at the end. -/
def labels (cs : List Char) : List (List Char) :=
  let ps := Ipv6.parts '.' cs
  if ps.getLast? = some [] then ps.dropLast else ps

/-- Whether the last part of a name is a number, if only by its digits. -/
def endsInNumber (cs : List Char) : Bool :=
  match (labels cs).getLast? with
  | some part => (!part.isEmpty && part.all Text.isAsciiDigit) || (number? part).isSome
  | none => false

/-- Puts numbers together. All but the last are bytes, and the last fills the bytes that are
left. -/
def join? : Nat → List Nat → Option Nat
  | _, [] => none
  | room, [n] => if n < room then some n else none
  | room, n :: ns =>
      if 255 < n then none else (join? (room / 256) ns).map fun m => n * (room / 256) + m

/-- Reads an address. -/
def ofChars? (cs : List Char) : Option Ipv4 := do
  let ns ← (labels cs).mapM number?
  if 4 < ns.length then none
  let n ← join? 4294967296 ns
  if h : n < 4294967296 then return ⟨n, h⟩ else none

end Ipv4

end Billing
