import ManifestChain.Payload
import ManifestChain.Proofs.Calendar.Text
import ManifestChain.Proofs.Calendar.Timestamp

/-!
# The instants that texts denote

A text of the form `YYYY-MM-DDTHH:MM:SSZ`, with six digits of microseconds after a point or without
any, denotes an instant, and only one. A timestamp is written as a text that denotes its own
instant, unless that lies outside years 1 to 9999. So two timestamps that can be written have the
same text exactly if they are the same instant, whatever their offsets.
-/

namespace ManifestChain

namespace Text

/-- Decimal digits of a width that denote a number. -/
def IsNumeral (t : Text) (width n : Nat) : Prop :=
  ∃ digits : List Char, t = ofChars digits ∧ digits.length = width ∧
    (∀ c ∈ digits, c.isDigit = true) ∧ Nat.ofDigitChars 10 digits 0 = n

variable {t : Text} {width m n : Nat}

theorem IsNumeral.length (h : t.IsNumeral width n) : t.length = width := by
  obtain ⟨digits, rfl, rfl, -⟩ := h
  exact List.length_map _

/-- Digits denote one number. -/
theorem IsNumeral.unique (h : t.IsNumeral width m) (h' : t.IsNumeral width n) : m = n := by
  obtain ⟨digits, rfl, -, -, rfl⟩ := h
  obtain ⟨digits', heq, -, -, rfl⟩ := h'
  rw [List.map_injective_iff.mpr (fun _ _ => CodePoint.scalar.inj) heq]

theorem isNumeral_ofNatPadded (hwidth : 0 < width) (hn : n < 10 ^ width) :
    (ofNatPadded width n).IsNumeral width n := by
  refine ⟨_, rfl, length_padded (by decide) hwidth hn, fun c hc => ?_, ?_⟩
  · exact (List.mem_append.mp hc).elim (isDigit_of_mem_replicate c) (isDigit_of_mem_toDigits c)
  · rw [Nat.ofDigitChars_append, Nat.ofDigitChars_replicate_zero, Nat.mul_zero,
      Nat.ofDigitChars_ten_toDigits]

/-- What stands before and after a separator is determined by the length of the first part. -/
theorem append_separator_inj {s s' separator t t' : Text}
    (h : s ++ (separator ++ t) = s' ++ (separator ++ t')) (hlength : s.length = s'.length) :
    s = s' ∧ t = t' := by
  obtain ⟨hfirst, hrest⟩ := List.append_inj h hlength
  exact ⟨hfirst, List.append_cancel_left hrest⟩

end Text

namespace Date

/-- A text of the form `YYYY-MM-DD` with the numbers of a day. -/
def Written (d : Date) (t : Text) : Prop :=
  ∃ year month day : Text, t = year ++ ("-" ++ (month ++ ("-" ++ day))) ∧
    year.IsNumeral 4 d.year ∧ month.IsNumeral 2 d.month ∧ day.IsNumeral 2 d.day

variable {d e : Date} {t : Text}

theorem Written.length (h : d.Written t) : t.length = 10 := by
  obtain ⟨year, month, day, rfl, hyear, hmonth, hday⟩ := h
  simp only [List.length_append, hyear.length, hmonth.length, hday.length]
  rfl

theorem Written.unique (h : d.Written t) (h' : e.Written t) : d = e := by
  obtain ⟨year, month, day, rfl, hyear, hmonth, hday⟩ := h
  obtain ⟨year', month', day', heq, hyear', hmonth', hday'⟩ := h'
  obtain ⟨rfl, hrest⟩ := Text.append_separator_inj heq (hyear.length.trans hyear'.length.symm)
  obtain ⟨rfl, rfl⟩ := Text.append_separator_inj hrest (hmonth.length.trans hmonth'.length.symm)
  exact eq_of_parts (hyear.unique hyear') (hmonth.unique hmonth') (hday.unique hday')

theorem written_text (d : Date) : d.Written d.text := by
  have hyear := d.year_bounds
  have hmonth := d.month_bounds
  have hday := d.day_bounds
  have hdays := daysInMonth_le d.year d.month
  refine ⟨_, _, _, ?_, Text.isNumeral_ofNatPadded (by decide) (by omega),
    Text.isNumeral_ofNatPadded (by decide) (by omega),
    Text.isNumeral_ofNatPadded (by decide) (by omega)⟩
  simp only [text, List.append_assoc]

end Date

namespace Clock

/-- A text of the form `HH:MM:SS`, with a point and six digits if there are microseconds, with the
numbers of a time of day. -/
def Written (c : Clock) (t : Text) : Prop :=
  ∃ hour minute second fraction : Text,
    t = hour ++ (":" ++ (minute ++ (":" ++ (second ++ fraction)))) ∧
      hour.IsNumeral 2 c.hour ∧ minute.IsNumeral 2 c.minute ∧ second.IsNumeral 2 c.second ∧
      (fraction = [] ∧ c.micros = 0 ∨
        ∃ digits : Text, fraction = "." ++ digits ∧ digits.IsNumeral 6 c.micros)

variable {c e : Clock} {t : Text}

theorem eq_of_parts (hhour : c.hour = e.hour) (hminute : c.minute = e.minute)
    (hsecond : c.second = e.second) (hmicros : c.micros = e.micros) : c = e := by
  cases c
  cases e
  cases hhour
  cases hminute
  cases hsecond
  cases hmicros
  rfl

theorem Written.unique (h : c.Written t) (h' : e.Written t) : c = e := by
  obtain ⟨hour, minute, second, fraction, rfl, hhour, hminute, hsecond, hfraction⟩ := h
  obtain ⟨hour', minute', second', fraction', heq, hhour', hminute', hsecond', hfraction'⟩ := h'
  obtain ⟨rfl, hrest⟩ := Text.append_separator_inj heq (hhour.length.trans hhour'.length.symm)
  obtain ⟨rfl, hlast⟩ :=
    Text.append_separator_inj hrest (hminute.length.trans hminute'.length.symm)
  obtain ⟨rfl, rfl⟩ := List.append_inj hlast (hsecond.length.trans hsecond'.length.symm)
  refine eq_of_parts (hhour.unique hhour') (hminute.unique hminute') (hsecond.unique hsecond') ?_
  rcases hfraction with ⟨rfl, hzero⟩ | ⟨digits, rfl, hmicros⟩
  · rcases hfraction' with ⟨-, hzero'⟩ | ⟨digits', heq, -⟩
    · exact hzero.trans hzero'.symm
    · cases heq
  · rcases hfraction' with ⟨heq, -⟩ | ⟨digits', heq, hmicros'⟩
    · cases heq
    · obtain rfl := List.append_cancel_left heq
      exact hmicros.unique hmicros'

theorem written_text (c : Clock) : c.Written c.text := by
  have hhour := c.hour_lt
  have hminute := c.minute_lt
  have hsecond := c.second_lt
  have hmicros := c.micros_lt
  refine ⟨_, _, _, if c.micros = 0 then [] else "." ++ Text.ofNatPadded 6 c.micros, ?_,
    Text.isNumeral_ofNatPadded (by decide) (by omega),
    Text.isNumeral_ofNatPadded (by decide) (by omega),
    Text.isNumeral_ofNatPadded (by decide) (by omega), ?_⟩
  · simp only [text, List.append_assoc]
  · split
    next hzero => exact .inl ⟨rfl, hzero⟩
    next => exact .inr ⟨_, rfl, Text.isNumeral_ofNatPadded (by decide) (by omega)⟩

/-- A time of day is determined by its seconds and microseconds. -/
theorem eq_of_seconds (h : c.seconds = e.seconds) (hmicros : c.micros = e.micros) : c = e := by
  have hminute := c.minute_lt
  have hsecond := c.second_lt
  have hminute' := e.minute_lt
  have hsecond' := e.second_lt
  rw [seconds, seconds] at h
  exact eq_of_parts (by omega) (by omega) (by omega) hmicros

theorem seconds_ofSeconds {seconds micros : Nat} (h : seconds < 86400)
    (hmicros : micros < 1000000) : (ofSeconds seconds micros hmicros).seconds = seconds := by
  rw [ofSeconds, Clock.seconds]
  simp only
  omega

end Clock

namespace Timestamp

/-- A text denotes an instant: it is the text of a day and of a time of day in universal time, with
a `T` between them and a `Z` at the end. -/
def Denotes (t : Text) (instant : Int) : Prop :=
  ∃ (d : Date) (c : Clock) (date time : Text), t = date ++ ("T" ++ (time ++ "Z")) ∧
    d.Written date ∧ c.Written time ∧ instant = (⟨d, c, none⟩ : Timestamp).instant

theorem instant_of_offset_none (d : Date) (c : Clock) : (⟨d, c, none⟩ : Timestamp).instant =
    ((d.number : Int) * 86400 + c.seconds) * 1000000 + c.micros := by
  simp [instant, shift]

theorem Denotes.unique {t : Text} {i j : Int} (h : Denotes t i) (h' : Denotes t j) : i = j := by
  obtain ⟨d, c, date, time, rfl, hdate, htime, rfl⟩ := h
  obtain ⟨d', c', date', time', heq, hdate', htime', rfl⟩ := h'
  obtain ⟨rfl, hrest⟩ := Text.append_separator_inj heq (hdate.length.trans hdate'.length.symm)
  obtain rfl := List.append_cancel_right hrest
  rw [hdate.unique hdate', htime.unique htime']

/-- The universal time of a timestamp is its instant without an offset. -/
theorem instant_universal {t : Timestamp} {d : Date} {c : Clock} (h : t.universal? = some (d, c)) :
    (⟨d, c, none⟩ : Timestamp).instant = t.instant := by
  have hclock := t.clock.seconds_lt
  obtain ⟨hwest, heast⟩ := t.shift_bounds
  rw [instant_of_offset_none, instant]
  rw [universal?] at h
  simp only at h
  split at h
  next hbefore =>
    obtain ⟨e, he, heq⟩ := Option.map_eq_some_iff.mp h
    cases heq
    obtain ⟨_, he', hnumber⟩ | ⟨hnone, -⟩ := t.date.previous?_cases
    · rw [he] at he'
      cases he'
      rw [Clock.seconds_ofSeconds (by omega)]
      simp only [Clock.ofSeconds]
      omega
    · rw [hnone] at he
      cases he
  next hafter =>
    split at h
    next hsame =>
      cases h
      rw [Clock.seconds_ofSeconds (by omega)]
      simp only [Clock.ofSeconds]
      omega
    next hlater =>
      obtain ⟨e, he, heq⟩ := Option.map_eq_some_iff.mp h
      cases heq
      obtain ⟨_, he', hnumber⟩ | ⟨hnone, -⟩ := t.date.next?_cases
      · rw [he] at he'
        cases he'
        rw [Clock.seconds_ofSeconds (by omega)]
        simp only [Clock.ofSeconds]
        omega
      · rw [hnone] at he
        cases he

/-- A timestamp is written as a text that denotes its instant. -/
theorem denotes_of_rfc3339? {t : Timestamp} {s : Text} (h : t.rfc3339? = some s) :
    Denotes s t.instant := by
  obtain ⟨⟨d, c⟩, huniversal, rfl⟩ := Option.map_eq_some_iff.mp h
  refine ⟨d, c, d.text, c.text, ?_, d.written_text, c.written_text,
    (instant_universal huniversal).symm⟩
  simp only [List.append_assoc]

/-- Timestamps of one instant have one universal time. -/
theorem universal?_eq_of_instant {t u : Timestamp} {d e : Date} {b c : Clock}
    (ht : t.universal? = some (d, b)) (hu : u.universal? = some (e, c))
    (h : t.instant = u.instant) : d = e ∧ b = c := by
  rw [← instant_universal ht, ← instant_universal hu, instant_of_offset_none,
    instant_of_offset_none] at h
  have hb := b.seconds_lt
  have hc := c.seconds_lt
  have hbmicros := b.micros_lt
  have hcmicros := c.micros_lt
  have hnumber : d.number = e.number := by omega
  have hseconds : b.seconds = c.seconds := by omega
  have hmicros : b.micros = c.micros := by omega
  exact ⟨Date.number_injective hnumber, Clock.eq_of_seconds hseconds hmicros⟩

/-- Timestamps that can be written have one text exactly if they are one instant. -/
theorem rfc3339?_eq_iff {t u : Timestamp} {s r : Text} (ht : t.rfc3339? = some s)
    (hu : u.rfc3339? = some r) : s = r ↔ t.instant = u.instant := by
  constructor
  · rintro rfl
    exact (denotes_of_rfc3339? ht).unique (denotes_of_rfc3339? hu)
  · intro h
    obtain ⟨⟨d, b⟩, hd, rfl⟩ := Option.map_eq_some_iff.mp ht
    obtain ⟨⟨e, c⟩, he, rfl⟩ := Option.map_eq_some_iff.mp hu
    obtain ⟨rfl, rfl⟩ := universal?_eq_of_instant hd he h
    rfl

end Timestamp

namespace Value

theorem document_timestamp_eq_ok_iff {refuse : SerializationFault → Fault} {mark : Mark}
    {t : Timestamp} {j : Json} : document refuse (timestamp mark t) = .ok j ↔
      ∃ s, t.rfc3339? = some s ∧ j = .text s := by
  rw [document]
  cases t.rfc3339? with
  | none => simp
  | some s => simp [eq_comm]

/-- Writing a timestamp into a document fails exactly if its instant lies outside years 1 to 9999.
Otherwise the text that is written denotes this instant, and two timestamps that can be written have
the same text exactly if they are the same instant. -/
theorem document_timestamp (refuse : SerializationFault → Fault) (m n : Mark) (t u : Timestamp) :
    ((∃ e, document refuse (timestamp m t) = .error e) ↔ ¬t.InYears) ∧
      (∀ j, document refuse (timestamp m t) = .ok j →
        ∃ s, j = .text s ∧ Timestamp.Denotes s t.instant) ∧
      ∀ j k, document refuse (timestamp m t) = .ok j → document refuse (timestamp n u) = .ok k →
        (j = k ↔ t.instant = u.instant) := by
  refine ⟨?_, fun j hj => ?_, fun j k hj hk => ?_⟩
  · rw [← Timestamp.isSome_rfc3339?_iff, document]
    cases t.rfc3339? <;> simp
  · obtain ⟨s, hs, rfl⟩ := document_timestamp_eq_ok_iff.mp hj
    exact ⟨s, rfl, Timestamp.denotes_of_rfc3339? hs⟩
  · obtain ⟨s, hs, rfl⟩ := document_timestamp_eq_ok_iff.mp hj
    obtain ⟨r, hr, rfl⟩ := document_timestamp_eq_ok_iff.mp hk
    rw [← Timestamp.rfc3339?_eq_iff hs hr, Json.text.injEq]

/-- At the end of February an hour to the west and an hour to the east are written as one text, and
the beginning of year 1 is not written if it is an hour to the east. -/
theorem document_timestamp_leap :
    let refuse : SerializationFault → Fault := fun cause => .serialization cause "w" none
    let west : Timestamp := ⟨⟨2020, 2, 29, by decide, by decide, by decide⟩,
      ⟨23, 30, 0, 7, by decide, by decide, by decide, by decide⟩, some ⟨-3600, by decide⟩⟩
    let east : Timestamp := ⟨⟨2020, 3, 1, by decide, by decide, by decide⟩,
      ⟨1, 30, 0, 7, by decide, by decide, by decide, by decide⟩, some ⟨3600, by decide⟩⟩
    let early : Timestamp := ⟨.first,
      ⟨0, 59, 59, 0, by decide, by decide, by decide, by decide⟩, some ⟨3600, by decide⟩⟩
    let written : Text := "2020-03-01T00:30:00.000007Z"
    document refuse (timestamp none west) = .ok (.text written) ∧
      document refuse (timestamp none east) = .ok (.text written) ∧
      west.instant = east.instant ∧ Timestamp.Denotes written west.instant ∧
      ¬early.InYears ∧ ∃ e, document refuse (timestamp none early) = .error e := by
  intro refuse west east early written
  have hwest : document refuse (timestamp none west) = .ok (.text written) :=
    document_timestamp_eq_ok_iff.mpr ⟨written, by decide +kernel, rfl⟩
  have heast : document refuse (timestamp none east) = .ok (.text written) :=
    document_timestamp_eq_ok_iff.mpr ⟨written, by decide +kernel, rfl⟩
  have hearly : ¬early.InYears := fun h => absurd h.1 (by decide +kernel)
  obtain ⟨-, hdenotes, hsame⟩ := document_timestamp refuse none none west east
  obtain ⟨hfails, -, -⟩ := document_timestamp refuse none none early early
  obtain ⟨s, hs, hinstant⟩ := hdenotes _ hwest
  cases hs
  exact ⟨hwest, heast, (hsame _ _ hwest heast).mp rfl, hinstant, hearly, hfails.mpr hearly⟩

end Value

end ManifestChain
