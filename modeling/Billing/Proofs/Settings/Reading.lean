import Billing.Proofs.Json.Checked
import Billing.Settings.Basic

set_option autoImplicit false

/-! # What settings are read from

Settings are read when each of them is, from its member or, if there is no such member, as its
default (`Settings.ofMembers_eq_ok_iff`). A series is read from the text of its letters
(`Series.read_eq_ok_iff`).
-/

namespace Billing

open Json Checked

/-- A series is read from the text of its letters and from nothing else. -/
theorem Series.read_eq_ok_iff {v : Json} {series : Series} :
    Series.read v = .ok series ↔ v = .str series.letters := by
  constructor
  · intro h
    cases v <;> simp only [read] at h
    case str s =>
      split at h
      · obtain rfl := Checked.ok.inj h
        rfl
      · cases h
    -- a series is a text
    all_goals cases h
  · rintro rfl
    rw [read, dif_pos series.isSeries]

namespace Settings

variable {members given : List (String × Json)} {environment : List (String × String)}
  {settings : Settings}

theorem ofMembers_eq_ok_iff : ofMembers members = .ok settings ↔
    required "database_url" Address.read members = .ok settings.address ∧
      optional "invoice_number_prefix" Series.invoices Series.read members =
        .ok settings.invoiceSeries ∧
      optional "proration_number_prefix" Series.prorations Series.read members =
        .ok settings.prorationSeries ∧
      optional "number_allocation_attempts" Attempts.five Attempts.read members =
        .ok settings.attempts ∧
      optional "log_level" LogLevel.info LogLevel.read members = .ok settings.logLevel ∧
      optional "debug" false Json.boolean members = .ok settings.debug := by
  constructor
  · intro h
    simp only [ofMembers, seq_eq_ok_iff, map_eq_ok_iff] at h
    obtain ⟨_, debug, ⟨_, level, ⟨_, attempts, ⟨_, prorations, ⟨_, invoices, ⟨address, haddress,
      rfl⟩, hinvoices, rfl⟩, hprorations, rfl⟩, hattempts, rfl⟩, hlevel, rfl⟩, hdebug, rfl⟩ := h
    exact ⟨haddress, hinvoices, hprorations, hattempts, hlevel, hdebug⟩
  · rintro ⟨haddress, hinvoices, hprorations, hattempts, hlevel, hdebug⟩
    simp only [ofMembers, haddress, hinvoices, hprorations, hattempts, hlevel, hdebug, map_ok,
      seq_ok]

/-- All that is given, the settings of the environment first. -/
def allGiven (environment : List (String × String)) (given : List (String × Json)) :
    List (String × Json) :=
  environment.filterMap settingOf? ++ given

theorem ofMembers_of_read (h : read environment given = .ok settings) :
    ofMembers (allGiven environment given) = .ok settings := by
  obtain ⟨found, _, hfound, -, hsettings⟩ := seq_eq_ok_iff.1 h
  obtain ⟨found, hmembers, rfl⟩ := map_eq_ok_iff.1 hfound
  obtain rfl : found = settings := hsettings
  exact hmembers

/-- A series that is given is taken as it is. -/
theorem eq_str_of_given {key : String} {default series : Series} {v : Json}
    (hv : lookup? key members = some v)
    (h : optional key default Series.read members = .ok series) : v = .str series.letters := by
  rcases Json.optional_eq_ok_iff.1 h with ⟨hnone, -⟩ | ⟨w, hw, hread⟩
  · rw [hv] at hnone
    cases hnone
  · obtain rfl := Option.some.inj (hv.symm.trans hw)
    exact Series.read_eq_ok_iff.1 hread

end Settings

end Billing
