import ManifestChain.Calendar.Timestamp
import ManifestChain.Proofs.Calendar.Date

/-!
# Timestamps in universal time

A timestamp has a universal time if and only if its instant lies in years 1 to 9999. One without an
offset always has.
-/

namespace ManifestChain

theorem Clock.seconds_lt (c : Clock) : c.seconds < 86400 := by
  have hhour := c.hour_lt
  have hminute := c.minute_lt
  have hsecond := c.second_lt
  unfold seconds
  omega

namespace Timestamp

/-- The instant lies between the beginning of the first of all days and the end of the last one. -/
def InYears (t : Timestamp) : Prop :=
  (Date.first.number : Int) * 86400000000 ≤ t.instant ∧
    t.instant < (Date.last.number + 1 : Int) * 86400000000

theorem shift_bounds (t : Timestamp) : -86400 < t.shift ∧ t.shift < 86400 := by
  unfold shift
  cases t.offset with
  | none => decide
  | some o => exact o.bounds

theorem isSome_universal?_iff (t : Timestamp) : t.universal?.isSome = true ↔ t.InYears := by
  have hclock := t.clock.seconds_lt
  have hmicros := t.clock.micros_lt
  obtain ⟨hwest, heast⟩ := t.shift_bounds
  have hlow := t.date.one_le_number
  have hhigh := t.date.number_le_last
  rw [InYears, instant, universal?, Date.number_first]
  rw [Date.number_last] at hhigh ⊢
  simp only
  split
  next hbefore =>
    -- The day before is needed, which the first day has not.
    rw [Option.isSome_map]
    obtain ⟨e, he, hnumber⟩ | ⟨hnone, hfirst⟩ := t.date.previous?_cases
    · have hpositive := e.one_le_number
      rw [he]
      simp only [Option.isSome_some, true_iff]
      omega
    · rw [hnone]
      rw [Date.number_first] at hfirst
      simp only [Option.isSome_none, Bool.false_eq_true, false_iff]
      omega
  next hafter =>
    split
    next hsame =>
      simp only [Option.isSome_some, true_iff]
      omega
    next hlater =>
      rw [Option.isSome_map]
      obtain ⟨e, he, hnumber⟩ | ⟨hnone, hlast⟩ := t.date.next?_cases
      · have hbound := e.number_le_last
        rw [Date.number_last] at hbound
        rw [he]
        simp only [Option.isSome_some, true_iff]
        omega
      · rw [hnone]
        rw [Date.number_last] at hlast
        simp only [Option.isSome_none, Bool.false_eq_true, false_iff]
        omega

/-- A timestamp is written in the form of RFC 3339 exactly if it lies in years 1 to 9999. -/
theorem isSome_rfc3339?_iff (t : Timestamp) : t.rfc3339?.isSome = true ↔ t.InYears := by
  rw [rfc3339?, Option.isSome_map, isSome_universal?_iff]

theorem inYears_of_offset_eq_none {t : Timestamp} (h : t.offset = none) : t.InYears := by
  have hclock := t.clock.seconds_lt
  have hmicros := t.clock.micros_lt
  have hlow := t.date.one_le_number
  have hhigh := t.date.number_le_last
  rw [InYears, instant, shift, h, Date.number_first]
  rw [Date.number_last] at hhigh ⊢
  simp only [Option.map_none, Option.getD_none]
  omega

end Timestamp

end ManifestChain
