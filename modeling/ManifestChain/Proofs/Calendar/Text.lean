import ManifestChain.Calendar.Timestamp
import ManifestChain.Proofs.Calendar.Date
import ManifestChain.Proofs.Json.Number
import ManifestChain.Proofs.Text.Quoted

/-!
# The texts of dates and timestamps

Every date is written with ten characters, none of which changes its length in lower case. So the
sign between date and time stands in one place and tells the forms of timestamps apart.
-/

namespace ManifestChain

namespace Date

theorem value_lt_of_mem_text {d : Date} {c : CodePoint} (h : c ∈ d.text) : c.value < 0x80 := by
  have hpadded (width n : Nat) (h : c ∈ Text.ofNatPadded width n) : c.value < 0x80 := by
    obtain ⟨x, hx, rfl⟩ := List.mem_map.mp h
    have hdigit : x.isDigit = true :=
      (List.mem_append.mp hx).elim (isDigit_of_mem_replicate x) (isDigit_of_mem_toDigits x)
    have hle := (Char.isDigit_iff_toNat.mp hdigit).2
    exact Nat.lt_of_le_of_lt hle (by decide)
  have hhyphen (h : c ∈ Text.ofString "-") : c.value < 0x80 := by
    rw [List.mem_singleton.mp h]
    decide
  simp only [text, List.mem_append] at h
  rcases h with (((h | h) | h) | h) | h
  · exact hpadded _ _ h
  · exact hhyphen h
  · exact hpadded _ _ h
  · exact hhyphen h
  · exact hpadded _ _ h

theorem length_text (d : Date) : d.text.length = 10 := by
  have hyear := d.year_bounds
  have hmonth := d.month_bounds
  have hday := d.day_bounds
  have hdays := daysInMonth_le d.year d.month
  simp only [text, List.length_append]
  rw [Text.length_ofNatPadded (by decide) (by omega), Text.length_ofNatPadded (by decide) (by omega),
    Text.length_ofNatPadded (by decide) (by omega)]
  rfl

theorem length_lower_text (d : Date) : d.text.lower.length = 10 :=
  (Text.length_lowerAfter_of_lt (fun _ => value_lt_of_mem_text) []).trans d.length_text

end Date

/-- A timestamp with a blank after the date and its universal time have different lower cases. -/
theorem Timestamp.lower_text_ne_rfc3339? {m : Timestamp} {written : Text}
    (h : m.rfc3339? = some written) : (m.text " ").lower ≠ written.lower := by
  obtain ⟨⟨d, c⟩, -, rfl⟩ := Option.map_eq_some_iff.mp h
  have hapart : Text.LowerApart ' ' 'T' := ⟨' ', 't', by decide, fun _ _ => rfl, fun _ _ => rfl⟩
  have hleads : m.date.text.lower.length = d.text.lower.length :=
    m.date.length_lower_text.trans d.length_lower_text.symm
  simp only [Timestamp.text, List.append_assoc]
  exact Text.lower_ne_of_leads hapart hleads _ _

end ManifestChain
