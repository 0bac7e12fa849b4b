import Billing.Given
import Billing.Proofs.Decimal.Text
import Billing.Proofs.Except

set_option autoImplicit false

/-! # Taking given values

A value that is of the right kind is taken as what it is: as a number
(`Given.toDecimal_eq_ok_iff`), as a text that is not blank, or as a name. Numbers that are taken lie
in the range that can be read if those that are handed over do (`Given.readable_of_toDecimal`).
-/

namespace Billing

/-- A text that begins with something else than a blank is not blank. -/
theorem Text.isBlankText_of_toList {s : String} {c : Char} {cs : List Char} (h : s.toList = c :: cs)
    (hc : isBlank c = false) : isBlankText s = false := by
  obtain ⟨rest, hrest⟩ := trimEnd_cons cs hc
  have hstrip : strip s = String.ofList (c :: rest) := by
    rw [strip, h, trim, trimStart_of_head hc, hrest]
  rw [isBlankText, hstrip]
  simp

/-- A blank text is no number. -/
theorem Numeral.ofText?_of_isBlankText {s : String} (h : Text.isBlankText s = true) :
    Numeral.ofText? s = none := by
  have hnone : Text.trim s.toList = [] := by
    simpa [Text.isBlankText, Text.strip] using h
  rw [Numeral.ofText?, hnone]
  rfl

namespace Given

variable {α : Type} {field name : String} {ofName? : String → Option α} {a : α} {g : Given}
  {d : Decimal}

/-! ## Numbers -/

theorem isMissing_of_decimal? (h : g.decimal? = some d) : g.isMissing = false := by
  cases g
  case missing => cases h
  case text s =>
    by_contra hblank
    rw [Bool.not_eq_false, isMissing] at hblank
    simp [decimal?, Numeral.ofText?_of_isBlankText hblank] at h
  -- nothing else counts as missing
  all_goals rfl

/-- What stands for a number is taken as it. -/
theorem toDecimal_of_decimal? (h : g.decimal? = some d) : g.toDecimal field = .ok d := by
  simp [toDecimal, isMissing_of_decimal? h, h]

/-- Nothing else is taken as a number. -/
theorem toDecimal_eq_ok_iff : g.toDecimal field = .ok d ↔ g.decimal? = some d := by
  refine ⟨fun h => ?_, toDecimal_of_decimal?⟩
  unfold toDecimal at h
  split at h
  next => cases h
  next =>
    split at h
    next hd =>
      obtain rfl := Except.ok.inj h
      exact hd
    next => cases h

theorem toDecimal_finite (d : Decimal) : (Given.decimal (.finite d)).toDecimal field = .ok d :=
  toDecimal_of_decimal? rfl

/-- A number that is handed over lies in the range of exponents that decimals have. Texts and
floating-point numbers are read, so this need not be asked of them. -/
def InRange : Given → Prop
  | .int n => (Decimal.ofInt n).readable = true
  | .decimal (.finite d) => d.readable = true
  | _ => True

theorem eq_finite_of_finite? {n : Numeral} (h : finite? n = some d) : n = .finite d := by
  cases n
  case finite d' => exact congrArg Numeral.finite (Option.some.inj h)
  all_goals cases h

theorem readable_of_toDecimal (hrange : g.InRange) (h : g.toDecimal field = .ok d) :
    d.readable = true := by
  have hd := toDecimal_eq_ok_iff.1 h
  cases g
  case int n =>
    obtain rfl := Option.some.inj hd
    exact hrange
  case float x =>
    have hx := eq_finite_of_finite? hd
    unfold Binary64.numeral at hx
    split at hx
    next n hn =>
      subst hx
      exact Numeral.readable_of_ofText? hn
    next => cases hx
  case decimal n =>
    obtain rfl := eq_finite_of_finite? hd
    exact hrange
  case text s =>
    obtain ⟨n, hn, hd⟩ := Option.bind_eq_some_iff.1 hd
    obtain rfl := eq_finite_of_finite? hd
    exact Numeral.readable_of_ofText? hn
  -- nothing else stands for a number
  all_goals cases hd

/-! ## Texts and names -/

theorem toLabel_text (l : Label) : (Given.text l.text).toLabel field = .ok l := by
  simp [toLabel, shown, Label.of?_text]

/-- What is wrong with a text is said of its field. -/
theorem field?_of_toLabel {e : Failure} (h : g.toLabel field = .error e) :
    e.field? = some field := by
  unfold toLabel at h
  split at h
  · obtain rfl := Except.error.inj h
    rfl
  · split at h
    · cases h
    · obtain rfl := Except.error.inj h
      rfl

theorem choose?_name (h : ofName? name = some a) :
    (Given.text name).choose? field ofName? = .ok (some a) := by
  simp [choose?, h]

theorem choose?_eq_ok_none (h : g.choose? field ofName? = .ok none) : g = .missing := by
  cases g <;> simp only [choose?] at h
  case missing => rfl
  case text s => split at h <;> cases h
  all_goals cases h

/-- A name without blanks around it is taken as what it names. -/
theorem choose_name (hstrip : Text.strip name = name) (hblank : Text.isBlankText name = false)
    (h : ofName? name = some a) : (Given.text name).choose field ofName? = .ok a := by
  have hlabel : (Given.text name).toLabel field = .ok ⟨name, hstrip, hblank⟩ :=
    toLabel_text ⟨name, hstrip, hblank⟩
  rw [choose, hlabel]
  simp [h]

end Given

end Billing
