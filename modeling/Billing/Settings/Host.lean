import Billing.Settings.Ipv4
import Billing.Text.Printable

set_option autoImplicit false

/-! # Hosts

How the host in an address is written depends on its scheme. Most schemes have their own rules for
names, so a name is only checked for characters that it cannot hold (`Host.plain?`). The schemes of
the web look hosts up, so a name is decoded and must be a domain or an Internet address
(`Host.domain?`). An address of a later version of the protocol stands between brackets in both.
-/

namespace Billing.Host

/-- The characters that no name of a host contains. -/
def isForbidden (c : Char) : Bool :=
  ['\x00', '\t', '\n', '\r', ' ', '#', '/', ':', '<', '>', '?', '@', '[', '\\', ']', '^',
    '|'].contains c

/-- Reads what begins with a bracket, which the last character must close. -/
def bracketed? (inside : List Char) : Option (List Char) :=
  if inside.getLast? = some ']' then
    (Ipv6.ofChars? inside.dropLast).map fun a => '[' :: (a.chars ++ [']'])
  else none

/-! ## Names of any scheme -/

/-- A character of a name; outside the visible ASCII characters its bytes are spelled out. -/
def nameChars (c : Char) : List Char :=
  if ' ' ≤ c ∧ c ≤ '~' then [c]
  else (String.utf8EncodeChar c).flatMap fun b =>
    '%' :: (Text.hexChars 2 b.toNat).map Char.toUpper

/-- Reads a host of a scheme with rules of its own. -/
def plain? : List Char → Option (List Char)
  | '[' :: inside => bracketed? inside
  | name => if name.any isForbidden then none else some (name.flatMap nameChars)

/-! ## Domains -/

/-- The bytes of a text, with those spelled out behind percent signs put in place. -/
def decodedBytes : List Char → List UInt8
  | [] => []
  | '%' :: a :: b :: cs =>
      match Text.hexDigit? a, Text.hexDigit? b with
      | some high, some low => UInt8.ofNat (high * 16 + low) :: decodedBytes cs
      | _, _ => 37 :: decodedBytes (a :: b :: cs)
  | c :: cs => String.utf8EncodeChar c ++ decodedBytes cs

/-- A text with the bytes behind percent signs put in place, if it is one. -/
def decoded? (cs : List Char) : Option (List Char) :=
  (String.fromUTF8? (decodedBytes cs).toByteArray).map String.toList

/-- What a character of a domain stands for: itself in lower case, nothing if it is invisible, and
ASCII if it is a wide form of it. -/
def plainChars (c : Char) : List Char :=
  if ['\u00ad', '\u200b', '\u2060', '\ufeff'].contains c then []
  else if ['\u3002', '\uff61'].contains c then ['.']
  else if 0xFF01 ≤ c.toNat ∧ c.toNat ≤ 0xFF5E then [(Char.ofNat (c.toNat - 0xFEE0)).toLower]
  else [c.toLower]

/-- The characters of domains. -/
def isDomainChar (c : Char) : Bool := !isForbidden c && c ≠ '%' && Text.isPrintable c

/-- Reads a host that is looked up: a domain, or an address of four bytes if it ends in a
number. -/
def domain? : List Char → Option (List Char)
  | '[' :: inside => bracketed? inside
  | name => do
      let domain := (← decoded? name).flatMap plainChars
      if domain.isEmpty || !domain.all isDomainChar then none
      if Ipv4.endsInNumber domain && (Ipv4.ofChars? domain).isNone then none
      return domain

end Billing.Host
