import Billing.Text.Digit

set_option autoImplicit false

/-! # Digits of a natural number

A natural number and its decimal digits, most significant digit first: `Digits.ofNat` takes a
number apart, `Digits.toNat` puts digits together, and `Digits.count` is how many there are. The
main statement is `toNat_ofNat`: nothing is lost on the way.
-/

namespace Billing.Digits

/-- The digits of a number, most significant first; zero has the one digit `0`. -/
def ofNat (n : Nat) : List Nat :=
  if n < 10 then [n] else ofNat (n / 10) ++ [n % 10]

/-- The number that a list of digits stands for, most significant first. -/
def toNat (ds : List Nat) : Nat := ds.foldl (fun n d => 10 * n + d) 0

/-- How many digits a number has; zero has one. -/
def count (n : Nat) : Nat :=
  if n < 10 then 1 else count (n / 10) + 1

/-- The digits of a number as characters. -/
def chars (n : Nat) : List Char := (ofNat n).map Text.digitChar

/-- The digits of a number as a text. -/
def text (n : Nat) : String := String.ofList (chars n)

/-- An integer as a text, with `-` in front when it is negative. -/
def intText : Int → String
  | .ofNat n => text n
  | .negSucc n => "-" ++ text (n + 1)

theorem toNat_append_singleton (ds : List Nat) (d : Nat) :
    toNat (ds ++ [d]) = 10 * toNat ds + d := by
  simp [toNat]

theorem toNat_ofNat (n : Nat) : toNat (ofNat n) = n := by
  fun_induction ofNat n with
  | case1 n h => simp [toNat]
  | case2 n h ih => rw [toNat_append_singleton, ih]; omega

theorem length_ofNat (n : Nat) : (ofNat n).length = count n := by
  fun_induction ofNat n with
  | case1 n h => rw [count, if_pos h]; rfl
  | case2 n h ih => rw [count, if_neg h]; simp [ih]

theorem lt_ten_of_mem_ofNat {n d : Nat} (h : d ∈ ofNat n) : d < 10 := by
  fun_induction ofNat n with
  | case1 n hn => simp_all
  | case2 n hn ih =>
      rcases List.mem_append.1 h with h | h
      · exact ih h
      · simp at h; omega

end Billing.Digits
