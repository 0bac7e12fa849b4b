set_option autoImplicit false

/-! # Blank characters

Texts entered by people are compared and stored without the blanks around them. This file says
which characters count as blank (`isBlank`) and how a text is stripped of them (`strip`).
-/

namespace Billing.Text

/-- The blank characters: Unicode white space, and the information separators `U+001C` to
`U+001F`. Zero-width characters are not blank. -/
def isBlank (c : Char) : Bool :=
  let n := c.toNat
  (9 ≤ n && n ≤ 13) || (28 ≤ n && n ≤ 32) || n == 0x85 || n == 0xA0 || n == 0x1680 ||
    (0x2000 ≤ n && n ≤ 0x200A) || n == 0x2028 || n == 0x2029 || n == 0x202F ||
    n == 0x205F || n == 0x3000

/-- The characters without the blanks in front. -/
def trimStart (cs : List Char) : List Char := cs.dropWhile isBlank

/-- The characters without the blanks at the end. -/
def trimEnd (cs : List Char) : List Char := (trimStart cs.reverse).reverse

/-- The characters without the blanks at either end. -/
def trim (cs : List Char) : List Char := trimEnd (trimStart cs)

/-- The text without the blanks at either end. -/
def strip (s : String) : String := String.ofList (trim s.toList)

/-- A text is blank when stripping leaves nothing of it. -/
def isBlankText (s : String) : Bool := (strip s).isEmpty

/-! ## Stripping is a projection -/

/-- A list whose first character is not blank loses nothing in front. -/
theorem trimStart_of_head {c : Char} {cs : List Char} (h : isBlank c = false) :
    trimStart (c :: cs) = c :: cs := by
  simp [trimStart, h]

theorem trimStart_trimStart (cs : List Char) : trimStart (trimStart cs) = trimStart cs := by
  induction cs with
  | nil => rfl
  | cons c cs ih =>
      cases h : isBlank c with
      | true => simpa [trimStart, h] using ih
      | false => rw [trimStart_of_head h, trimStart_of_head h]

theorem trimEnd_trimEnd (cs : List Char) : trimEnd (trimEnd cs) = trimEnd cs := by
  simp [trimEnd, trimStart_trimStart]

/-- Trimming in front leaves nothing, or a character that is not blank comes first. -/
theorem trimStart_eq_nil_or_cons (cs : List Char) :
    trimStart cs = [] ∨ ∃ c rest, trimStart cs = c :: rest ∧ isBlank c = false := by
  induction cs with
  | nil => exact .inl rfl
  | cons c cs ih =>
      cases h : isBlank c with
      | true => simpa [trimStart, h] using ih
      | false => exact .inr ⟨c, cs, trimStart_of_head h, h⟩

theorem trimStart_append_of_not_blank {c : Char} (cs : List Char) (h : isBlank c = false) :
    ∃ ds, trimStart (cs ++ [c]) = ds ++ [c] := by
  induction cs with
  | nil => exact ⟨[], trimStart_of_head h⟩
  | cons d cs ih =>
      cases hd : isBlank d with
      | true =>
          obtain ⟨ds, hds⟩ := ih
          exact ⟨ds, by simpa [trimStart, hd] using hds⟩
      | false => exact ⟨d :: cs, trimStart_of_head hd⟩

/-- Trimming at the end keeps a first character that is not blank. -/
theorem trimEnd_cons {c : Char} (cs : List Char) (h : isBlank c = false) :
    ∃ rest, trimEnd (c :: cs) = c :: rest := by
  obtain ⟨ds, hds⟩ := trimStart_append_of_not_blank cs.reverse h
  exact ⟨ds.reverse, by simp [trimEnd, hds]⟩

theorem trim_trim (cs : List Char) : trim (trim cs) = trim cs := by
  rcases trimStart_eq_nil_or_cons cs with h | ⟨c, rest, h, hc⟩
  · have ht : trim cs = [] := by rw [trim, h]; rfl
    rw [ht]; rfl
  · obtain ⟨ds, hds⟩ := trimEnd_cons rest hc
    rw [trim, trim, h, hds, trimStart_of_head hc, ← hds, trimEnd_trimEnd]

theorem strip_strip (s : String) : strip (strip s) = strip s := by
  simp [strip, trim_trim]

theorem isBlankText_strip (s : String) : isBlankText (strip s) = isBlankText s := by
  rw [isBlankText, strip_strip, isBlankText]

end Billing.Text
