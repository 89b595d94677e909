import Mathlib.Order.Monotone.Basic
import Mathlib.Tactic.SplitIfs
import ManifestChain.Calendar.Date

/-!
# Neighbouring days

The day after a day has the next number and the day before has the one before. The numbers run from
that of the first of January of year 1 to that of the last of December of year 9999, and only these
two days lack a neighbour. Different days have different numbers.
-/

namespace ManifestChain

theorem daysInMonth_le (year month : Nat) : daysInMonth year month ≤ 31 := by
  unfold daysInMonth
  split_ifs <;> omega

namespace Date

def first : Date := ⟨1, 1, 1, by decide, by decide, by decide⟩

def last : Date := ⟨9999, 12, 31, by decide, by decide, by decide⟩

theorem number_first : first.number = 1 := by decide

theorem number_last : last.number = 3652059 := by decide

/-! ## Counting days -/

theorem daysBeforeMonth_succ {year month : Nat} (h : 1 ≤ month) :
    daysBeforeMonth year (month + 1) = daysBeforeMonth year month + daysInMonth year month := by
  obtain ⟨m, rfl⟩ := Nat.exists_eq_add_of_le' h
  rfl

theorem daysBeforeMonth_mono (year : Nat) : Monotone (daysBeforeMonth year) := by
  refine monotone_nat_of_le_succ fun month => ?_
  cases month with
  | zero => exact Nat.le_refl 0
  | succ m =>
      rw [daysBeforeMonth_succ (Nat.le_add_left 1 m)]
      exact Nat.le_add_right _ _

/-- The days of a year up to the end of November, by the length of February. -/
theorem daysBeforeMonth_december (year : Nat) :
    daysBeforeMonth year 12 = if isLeapYear year then 335 else 334 := by
  simp only [daysBeforeMonth, daysInMonth]
  cases isLeapYear year <;> rfl

theorem div_succ (y n : Nat) : (y + 1) / n = y / n + if (y + 1) % n = 0 then 1 else 0 := by
  rw [Nat.succ_div]
  simp only [Nat.dvd_iff_mod_eq_zero]

theorem daysBeforeYear_succ {year : Nat} (h : 1 ≤ year) : daysBeforeYear (year + 1) =
    daysBeforeYear year + if isLeapYear year then 366 else 365 := by
  obtain ⟨y, rfl⟩ := Nat.exists_eq_add_of_le' h
  have hcenturies : y / 100 ≤ y := Nat.div_le_self y 100
  have h100 : (y + 1) % 100 = 0 → (y + 1) % 4 = 0 := by omega
  have h400 : (y + 1) % 400 = 0 → (y + 1) % 100 = 0 := by omega
  simp only [daysBeforeYear, isLeapYear, Nat.add_sub_cancel, Bool.and_eq_true, Bool.or_eq_true,
    beq_iff_eq, bne_iff_ne, div_succ y]
  -- Which of the remainders are zero is all that counts from here on.
  generalize y / 4 = a, y / 100 = b, y / 400 = c at *
  generalize (y + 1) % 4 = p, (y + 1) % 100 = q, (y + 1) % 400 = r at *
  split_ifs <;> omega

theorem daysBeforeYear_mono : Monotone daysBeforeYear := by
  refine monotone_nat_of_le_succ fun year => ?_
  cases year with
  | zero => exact Nat.le_refl 0
  | succ y =>
      rw [daysBeforeYear_succ (Nat.le_add_left 1 y)]
      exact Nat.le_add_right _ _

theorem one_le_number (d : Date) : 1 ≤ d.number :=
  d.day_bounds.1.trans (Nat.le_add_left _ _)

/-- No day of a year has a number above that of the last of December. -/
theorem number_le_daysBeforeYear_succ (d : Date) : d.number ≤ daysBeforeYear (d.year + 1) := by
  have hday : d.day ≤ daysInMonth d.year d.month := d.day_bounds.2
  have hmonth : daysBeforeMonth d.year d.month + daysInMonth d.year d.month ≤
      daysBeforeMonth d.year 12 + 31 := by
    rcases Nat.lt_or_ge d.month 12 with hlt | hge
    · have hmono := daysBeforeMonth_mono d.year (Nat.succ_le_of_lt hlt)
      rw [Nat.succ_eq_add_one, daysBeforeMonth_succ d.month_bounds.1] at hmono
      omega
    · rw [Nat.le_antisymm d.month_bounds.2 hge]
      exact Nat.add_le_add_left (daysInMonth_le _ _) _
  have hyear := daysBeforeYear_succ d.year_bounds.1
  rw [daysBeforeMonth_december] at hmonth
  rw [number, hyear]
  split_ifs at hmonth ⊢ <;> omega

theorem number_le_last (d : Date) : d.number ≤ last.number := by
  have hyear : daysBeforeYear (d.year + 1) ≤ daysBeforeYear 10000 :=
    daysBeforeYear_mono (Nat.succ_le_succ d.year_bounds.2)
  exact d.number_le_daysBeforeYear_succ.trans hyear

/-! ## Days by their numbers -/

theorem eq_of_parts {d e : Date} (hyear : d.year = e.year) (hmonth : d.month = e.month)
    (hday : d.day = e.day) : d = e := by
  cases d
  cases e
  cases hyear
  cases hmonth
  cases hday
  rfl

theorem number_lt_of_year_lt {d e : Date} (h : d.year < e.year) : d.number < e.number := by
  have hstart : daysBeforeYear (d.year + 1) ≤ daysBeforeYear e.year := daysBeforeYear_mono h
  have hend := d.number_le_daysBeforeYear_succ
  have hday := e.day_bounds.1
  rw [number] at hend ⊢
  rw [number]
  omega

theorem number_lt_of_month_lt {d e : Date} (hyear : d.year = e.year) (h : d.month < e.month) :
    d.number < e.number := by
  have hstart : daysBeforeMonth e.year (d.month + 1) ≤ daysBeforeMonth e.year e.month :=
    daysBeforeMonth_mono e.year h
  have hend := d.day_bounds.2
  have hday := e.day_bounds.1
  rw [daysBeforeMonth_succ d.month_bounds.1] at hstart
  rw [number, number, hyear]
  rw [hyear] at hend
  omega

/-- Different days have different numbers. -/
theorem number_injective : Function.Injective number := by
  intro d e h
  have hyear : d.year = e.year := by
    rcases Nat.lt_trichotomy d.year e.year with hlt | heq | hgt
    · exact absurd h (number_lt_of_year_lt hlt).ne
    · exact heq
    · exact absurd h (number_lt_of_year_lt hgt).ne'
  have hmonth : d.month = e.month := by
    rcases Nat.lt_trichotomy d.month e.month with hlt | heq | hgt
    · exact absurd h (number_lt_of_month_lt hyear hlt).ne
    · exact heq
    · exact absurd h (number_lt_of_month_lt hyear.symm hgt).ne'
  have hday : d.day = e.day := by
    rw [number, number, hyear, hmonth] at h
    exact Nat.add_left_cancel h
  exact eq_of_parts hyear hmonth hday

/-! ## The day after and the day before -/

theorem ofParts?_eq_some {year month day : Nat} (hyear : 1 ≤ year ∧ year ≤ 9999)
    (hmonth : 1 ≤ month ∧ month ≤ 12) (hday : 1 ≤ day ∧ day ≤ daysInMonth year month) :
    ofParts? year month day = some ⟨year, month, day, hyear, hmonth, hday⟩ := by
  unfold ofParts?
  exact dif_pos ⟨hyear, hmonth, hday⟩

/-- The day after has the next number; after the last of all days there is none. -/
theorem next?_cases (d : Date) :
    (∃ e, d.next? = some e ∧ e.number = d.number + 1) ∨
      d.next? = none ∧ d.number = last.number := by
  obtain ⟨year, month, day, hyear, hmonth, hday⟩ := d
  rw [next?]
  simp only
  split
  next hlt =>
    exact .inl ⟨_, ofParts?_eq_some hyear hmonth ⟨by omega, hlt⟩, rfl⟩
  next hge =>
    obtain rfl : day = daysInMonth year month := by omega
    split
    next hlt =>
      have hlater : 1 ≤ month + 1 ∧ month + 1 ≤ 12 := by omega
      have hfirst : 1 ≤ 1 ∧ 1 ≤ daysInMonth year (month + 1) := by
        unfold daysInMonth
        split_ifs <;> omega
      refine .inl ⟨_, ofParts?_eq_some hyear hlater hfirst, ?_⟩
      simp only [number, daysBeforeMonth_succ hmonth.1]
      omega
    next hge =>
      obtain rfl : month = 12 := by omega
      rcases Nat.lt_or_ge year 9999 with hlt | hge
      · have hlater : 1 ≤ year + 1 ∧ year + 1 ≤ 9999 := by omega
        have hjanuary : 1 ≤ 1 ∧ 1 ≤ 12 := by decide
        have hfirst : 1 ≤ 1 ∧ 1 ≤ daysInMonth (year + 1) 1 := by simp [daysInMonth]
        refine .inl ⟨_, ofParts?_eq_some hlater hjanuary hfirst, ?_⟩
        have hdecember : daysInMonth year 12 = 31 := rfl
        simp only [number, daysBeforeYear_succ hyear.1, daysBeforeMonth_december, daysBeforeMonth,
          hdecember]
        split <;> rfl
      · obtain rfl : year = 9999 := by omega
        exact .inr ⟨rfl, rfl⟩

/-- The day before has the number before; before the first of all days there is none. -/
theorem previous?_cases (d : Date) :
    (∃ e, d.previous? = some e ∧ e.number + 1 = d.number) ∨
      d.previous? = none ∧ d.number = first.number := by
  obtain ⟨year, month, day, hyear, hmonth, hday⟩ := d
  rw [previous?]
  simp only
  split
  next hlt =>
    have hearlier : 1 ≤ day - 1 ∧ day - 1 ≤ daysInMonth year month := by omega
    refine .inl ⟨_, ofParts?_eq_some hyear hmonth hearlier, ?_⟩
    simp only [number]
    omega
  next hge =>
    obtain rfl : day = 1 := by omega
    split
    next hlt =>
      obtain ⟨m, rfl⟩ := Nat.exists_eq_add_of_le' hlt.le
      have hearlier : 1 ≤ m ∧ m ≤ 12 := by omega
      have hlast : 1 ≤ daysInMonth year m ∧ daysInMonth year m ≤ daysInMonth year m := by
        unfold daysInMonth
        split_ifs <;> omega
      refine .inl ⟨_, ofParts?_eq_some hyear hearlier hlast, ?_⟩
      simp only [number, daysBeforeMonth_succ hearlier.1]
      omega
    next hge =>
      obtain rfl : month = 1 := by omega
      rcases Nat.lt_or_ge 1 year with hlt | hge
      · obtain ⟨y, rfl⟩ := Nat.exists_eq_add_of_le' hlt.le
        have hearlier : 1 ≤ y ∧ y ≤ 9999 := by omega
        have hdecember : 1 ≤ 12 ∧ 12 ≤ 12 := by decide
        have hlast : 1 ≤ 31 ∧ 31 ≤ daysInMonth y 12 := ⟨by decide, Nat.le_refl 31⟩
        refine .inl ⟨_, ofParts?_eq_some hearlier hdecember hlast, ?_⟩
        simp only [number, daysBeforeYear_succ hearlier.1, daysBeforeMonth_december,
          daysBeforeMonth]
        split <;> rfl
      · obtain rfl : year = 1 := by omega
        exact .inr ⟨rfl, rfl⟩

end Date

end ManifestChain
