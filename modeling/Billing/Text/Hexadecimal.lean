import Billing.Text.Digit

set_option autoImplicit false

/-! # Hexadecimal digits

Numbers in hexadecimal digits, in lower case: a fixed number of them (`hexChars`), or as many as
it takes (`hexDigits`). The main statement is `hexValue_hexDigits`: nothing is lost on the way.
-/

namespace Billing.Text

def hexDigit (n : Nat) : Char :=
  if n < 10 then digitChar n else Char.ofNat (n - 10 + 97)

/-- The value of a hexadecimal digit. -/
def hexDigit? (c : Char) : Option Nat :=
  if '0' ≤ c ∧ c ≤ '9' then some (c.toNat - 48)
  else if 'a' ≤ c ∧ c ≤ 'f' then some (c.toNat - 87)
  else if 'A' ≤ c ∧ c ≤ 'F' then some (c.toNat - 55)
  else none

/-- The last `width` hexadecimal digits of a number, in lower case. -/
def hexChars : Nat → Nat → List Char
  | 0, _ => []
  | width + 1, n => hexChars width (n / 16) ++ [hexDigit (n % 16)]

/-- The hexadecimal digits of a number, in lower case. -/
def hexDigits (n : Nat) : List Char :=
  if n < 16 then [hexDigit n] else hexDigits (n / 16) ++ [hexDigit (n % 16)]

/-- The number that hexadecimal digits stand for; other characters count as zeros. -/
def hexValue (cs : List Char) : Nat := cs.foldl (fun n c => 16 * n + (hexDigit? c).getD 0) 0

theorem hexDigit?_hexDigit {d : Nat} (h : d < 16) : hexDigit? (hexDigit d) = some d := by
  have all : ∀ d < 16, hexDigit? (hexDigit d) = some d := by decide
  exact all d h

theorem hexValue_append_singleton (cs : List Char) (c : Char) :
    hexValue (cs ++ [c]) = 16 * hexValue cs + (hexDigit? c).getD 0 := by
  simp [hexValue]

theorem hexValue_hexDigits (n : Nat) : hexValue (hexDigits n) = n := by
  fun_induction hexDigits n with
  | case1 n h => simp [hexValue, hexDigit?_hexDigit h]
  | case2 n h ih =>
      rw [hexValue_append_singleton, ih, hexDigit?_hexDigit (Nat.mod_lt n (by decide))]
      simp only [Option.getD_some]
      omega

/-- Zeros in front do not count. -/
theorem hexValue_replicate_append (k : Nat) (cs : List Char) :
    hexValue (List.replicate k '0' ++ cs) = hexValue cs := by
  have h : hexDigit? '0' = some 0 := by decide
  induction k with
  | zero => rfl
  | succ k ih =>
      rw [← ih]
      simp [hexValue, List.replicate_succ, h]

end Billing.Text
