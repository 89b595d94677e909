import Mathlib.Algebra.Ring.Nat
import ManifestChain.Number.Decimal

/-!
# Shortest digits read back

`Magnitude.shortest` is a fraction in its one form that is read as the magnitude it was found for.
Where none of the searched candidates reads back, the exact fraction does: it denotes the magnitude
itself, so nothing is rounded in reading it.
-/

namespace ManifestChain

/-- The powers of the definitions are those of the monoid, which the exponent laws are about. -/
theorem natPow_eq (b n : Nat) : Nat.pow b n = b ^ n := rfl

namespace Decimal

/-- The one form of a fraction: no trailing zeros in the coefficient, and exponent zero for zero. -/
def Canonical (d : Decimal) : Prop := d = ⟨0, 0⟩ ∨ d.coefficient % 10 ≠ 0

/-- Moving zeros from the coefficient to the exponent keeps the value, and with fuel for every digit
leaves no trailing zero. -/
theorem stripZeros_spec {fuel c : Nat} (e : Int) (hc : c ≠ 0) (hfuel : c ≤ fuel) :
    ∃ k : Nat, (stripZeros fuel c e).coefficient * 10 ^ k = c ∧
      (stripZeros fuel c e).exponent = e + k ∧ (stripZeros fuel c e).coefficient % 10 ≠ 0 := by
  induction fuel generalizing c e with
  | zero => omega
  | succ fuel ih =>
      rw [stripZeros]
      split
      next hzero =>
        obtain ⟨k, hvalue, hexponent, hlast⟩ := ih (c := c / 10) (e + 1) (by omega) (by omega)
        refine ⟨k + 1, ?_, by omega, hlast⟩
        rw [Nat.pow_succ, ← Nat.mul_assoc, hvalue]
        omega
      next hlast => exact ⟨0, by simp, by simp, hlast⟩

theorem of_spec {c : Nat} (e : Int) (hc : c ≠ 0) :
    ∃ k : Nat, (of c e).coefficient * 10 ^ k = c ∧ (of c e).exponent = e + k ∧
      (of c e).coefficient % 10 ≠ 0 := by
  rw [of, if_neg hc]
  exact stripZeros_spec e hc (Nat.le_refl c)

theorem canonical_of (c : Nat) (e : Int) : (of c e).Canonical := by
  by_cases hc : c = 0
  · exact .inl (if_pos hc)
  · obtain ⟨-, -, -, hlast⟩ := of_spec e hc
    exact .inr hlast

/-- Powers of ten are split off in one way only. -/
theorem eq_of_mul_pow_eq {a b k l : Nat} (ha : a % 10 ≠ 0) (hb : b % 10 ≠ 0)
    (h : a * 10 ^ k = b * 10 ^ l) : a = b ∧ k = l := by
  induction k generalizing l with
  | zero => cases l with
    | zero => simpa using h
    | succ l => rw [Nat.pow_succ, ← Nat.mul_assoc] at h; omega
  | succ k ih => cases l with
    | zero => rw [Nat.pow_succ, ← Nat.mul_assoc] at h; omega
    | succ l =>
        rw [Nat.pow_succ, Nat.pow_succ, ← Nat.mul_assoc, ← Nat.mul_assoc] at h
        obtain ⟨hab, hkl⟩ := ih (Nat.eq_of_mul_eq_mul_right (by decide) h)
        exact ⟨hab, congrArg (· + 1) hkl⟩

/-- The one form of a fraction in its one form, written with more zeros. -/
theorem Canonical.of_mul_pow {d : Decimal} (hd : d.Canonical) (k : Nat) :
    of (d.coefficient * 10 ^ k) (d.exponent - k) = d := by
  rcases hd with rfl | hlast
  · simp [of]
  · have hpos : 0 < d.coefficient := by omega
    have hne : d.coefficient * 10 ^ k ≠ 0 :=
      Nat.ne_of_gt (Nat.mul_pos hpos (Nat.pow_pos (by decide)))
    obtain ⟨l, hvalue, hexponent, hlast'⟩ := of_spec (d.exponent - k) hne
    obtain ⟨hcoefficient, rfl⟩ := eq_of_mul_pow_eq hlast' hlast hvalue
    generalize of (d.coefficient * 10 ^ l) (d.exponent - l) = d' at hcoefficient hexponent
    obtain ⟨c, e⟩ := d
    obtain ⟨c', e'⟩ := d'
    simp only at hcoefficient hexponent
    rw [hcoefficient, hexponent, Int.sub_add_cancel]

theorem lt_length_of_pow_le {a c k : Nat} (h : 10 ^ a ≤ c * 10 ^ k) :
    a < (Nat.toDigits 10 c).length + k := by
  have hpos : 0 < (Nat.toDigits 10 c).length := Nat.length_toDigits_pos
  apply Nat.lt_of_not_le
  intro hle
  have hlt : c < 10 ^ (a - k) := (Nat.length_toDigits_le_iff (by decide) (by omega)).mp (by omega)
  have hpow : 10 ^ (a - k) * 10 ^ k = 10 ^ a := by rw [← Nat.pow_add, Nat.sub_add_cancel (by omega)]
  have hmul := Nat.mul_lt_mul_of_pos_right hlt (Nat.pow_pos (n := k) (by decide : 0 < 10))
  omega

theorem length_le_of_lt_pow {b c k : Nat} (hc : 0 < c) (h : c * 10 ^ k < 10 ^ b) :
    (Nat.toDigits 10 c).length + k ≤ b := by
  have hk : k < b := by
    refine (Nat.pow_lt_pow_iff_right (by decide : 1 < 10)).mp ?_
    exact Nat.lt_of_le_of_lt (Nat.le_mul_of_pos_left _ hc) h
  have hlt : c < 10 ^ (b - k) := by
    refine Nat.lt_of_mul_lt_mul_right (a := 10 ^ k) ?_
    rwa [← Nat.pow_add, Nat.sub_add_cancel (by omega)]
  have hle := (Nat.length_toDigits_le_iff (by decide) (by omega)).mpr hlt
  omega

theorem mul_pow_sub_mul_two_pow {c u k n : Nat} (h : c * 10 ^ k = u * 5 ^ n) (hn : n ≤ k) :
    c * 10 ^ (k - n) * 2 ^ n = u := by
  refine Nat.eq_of_mul_eq_mul_right (Nat.pow_pos (n := n) (by decide : 0 < 5)) ?_
  rw [← h, Nat.mul_assoc, ← Nat.mul_pow, Nat.mul_assoc, ← Nat.pow_add, Nat.sub_add_cancel hn]

theorem mul_two_pow {c u k n : Nat} (h : c * 10 ^ k = u * 5 ^ n) (hn : k ≤ n) :
    c * 2 ^ n = u * 10 ^ (n - k) := by
  refine Nat.eq_of_mul_eq_mul_right (Nat.pow_pos (n := k) (by decide : 0 < 10)) ?_
  calc
    c * 2 ^ n * 10 ^ k = c * 10 ^ k * 2 ^ n := Nat.mul_right_comm _ _ _
    _ = u * (5 ^ n * 2 ^ n) := by rw [h, Nat.mul_assoc]
    _ = u * (10 ^ (n - k) * 10 ^ k) := by rw [← Nat.mul_pow, ← Nat.pow_add, Nat.sub_add_cancel hn]
    _ = u * 10 ^ (n - k) * 10 ^ k := (Nat.mul_assoc _ _ _).symm

end Decimal

theorem roundDiv_mul (q : Nat) {d : Nat} (hd : 0 < d) : roundDiv (q * d) d = q := by
  rw [roundDiv]
  simp only [Nat.mul_mod_left, Nat.mul_zero, hd, if_true]
  exact Nat.mul_div_cancel q hd

namespace Magnitude

theorem units_eq (m : Magnitude) : m.units = m.significand * 2 ^ m.exponent := rfl

/-- The exponent is the number of bits of the units beyond the 53 of a significand. -/
theorem log2_units (m : Magnitude) : m.units.log2 + 1 - 53 = m.exponent := by
  have hlt := m.significand_lt
  rcases m.normal with hexponent | hsignificand
  · rw [units_eq, hexponent, Nat.pow_zero, Nat.mul_one]
    by_cases hzero : m.significand = 0
    · rw [hzero, Nat.log2_zero]
    · have hlog := (Nat.log2_lt hzero).mpr hlt
      omega
  · have hne : m.units ≠ 0 :=
      Nat.ne_of_gt (Nat.mul_pos (Nat.lt_of_lt_of_le (Nat.two_pow_pos 52) hsignificand)
        (Nat.two_pow_pos _))
    have hlog : m.units.log2 = 52 + m.exponent := by
      refine (Nat.log2_eq_iff hne).mpr ⟨?_, ?_⟩
      · rw [Nat.pow_add, units_eq]
        exact Nat.mul_le_mul_right _ hsignificand
      · rw [Nat.add_right_comm, Nat.pow_add, units_eq]
        exact Nat.mul_lt_mul_of_pos_right hlt (Nat.two_pow_pos _)
    omega

theorem units_pos {m : Magnitude} (hm : m.significand ≠ 0) : 0 < m.units :=
  Nat.mul_pos (Nat.pos_of_ne_zero hm) (Nat.two_pow_pos _)

theorem units_mul_pow_ne_zero {m : Magnitude} (hm : m.significand ≠ 0) (k : Nat) :
    m.units * 5 ^ k ≠ 0 :=
  Nat.ne_of_gt (Nat.mul_pos (units_pos hm) (Nat.pow_pos (by decide)))

theorem units_lt {m : Magnitude} {k : Nat} (hk : m.exponent ≤ k) : m.units < 2 ^ 53 * 2 ^ k :=
  calc
    m.units < 2 ^ 53 * 2 ^ m.exponent :=
      Nat.mul_lt_mul_of_pos_right m.significand_lt (Nat.two_pow_pos _)
    _ ≤ 2 ^ 53 * 2 ^ k := Nat.mul_le_mul_left _ (Nat.pow_le_pow_right (by decide) hk)

/-- A quotient that is a magnitude rounds to it. -/
theorem round?_units (m : Magnitude) {den : Nat} (hden : 0 < den) :
    round? (m.units * den) den = some m := by
  have hquotient : m.units * den / den = m.units := Nat.mul_div_cancel _ hden
  have hrounded : roundDiv (m.units * den) (den * Nat.pow 2 m.exponent) = m.significand := by
    rw [units, Nat.mul_assoc, Nat.mul_comm (Nat.pow 2 m.exponent)]
    exact roundDiv_mul _ (Nat.mul_pos hden (Nat.two_pow_pos _))
  have hlt := m.significand_lt
  simp only [round?, hquotient, log2_units, hrounded, if_neg (Nat.ne_of_lt hlt)]
  rw [dif_pos ⟨hlt, m.normal, m.exponent_le⟩]

theorem exact_spec {m : Magnitude} (hm : m.significand ≠ 0) :
    ∃ k : Nat, m.exact.coefficient * 10 ^ k = m.units * 5 ^ scale ∧ m.exact.exponent = -scale + k ∧
      m.exact.coefficient % 10 ≠ 0 := by
  rw [exact, natPow_eq]
  have hne := units_mul_pow_ne_zero hm scale
  generalize m.units * 5 ^ scale = c at hne ⊢
  exact Decimal.of_spec _ hne

/-- The power of ten of the first digit of an exact fraction is that of a magnitude there is, so
reading it neither overflows nor underflows. -/
theorem leading_exact {m : Magnitude} (hm : m.significand ≠ 0) :
    -330 ≤ m.exact.leading ∧ m.exact.leading ≤ 310 := by
  obtain ⟨k, hvalue, hexponent, hlast⟩ := exact_spec hm
  -- The units lie between one and `2^2098`, so their product with `5^1074` has 745 to 1385 digits.
  have hlow : 10 ^ 744 ≤ m.exact.coefficient * 10 ^ k := by
    have hpow : 10 ^ 744 ≤ 1 * 5 ^ scale := by decide +kernel
    rw [hvalue]
    exact Nat.le_trans hpow (Nat.mul_le_mul_right _ (units_pos hm))
  have hhigh : m.exact.coefficient * 10 ^ k < 10 ^ 1385 := by
    obtain ⟨l, hl⟩ : ∃ l, l = 2045 := ⟨_, rfl⟩
    have hpow : 2 ^ 53 * 2 ^ l * 5 ^ scale ≤ 10 ^ 1385 := by
      rw [hl]
      decide +kernel
    have hlt := units_lt (hl ▸ m.exponent_le)
    rw [hvalue]
    exact Nat.lt_of_lt_of_le (Nat.mul_lt_mul_of_pos_right hlt (Nat.pow_pos (by decide))) hpow
  have hleast := Decimal.lt_length_of_pow_le hlow
  have hmost := Decimal.length_le_of_lt_pow (by omega) hhigh
  have hscale : scale = 1074 := rfl
  rw [Decimal.leading, hexponent, Decimal.digits]
  omega

end Magnitude

namespace Binary64

theorem ofRatio_eq {num den : Nat} {m : Magnitude} (negative : Bool) (hden : 0 < den)
    (h : num * 2 ^ scale = m.units * den) : ofRatio negative num den = finite negative m := by
  rw [ofRatio, natPow_eq, h, m.round?_units hden, Option.elim_some]

/-- The sign of a fraction goes over to the number read. -/
theorem ofDecimal_sign {d : Decimal} {m : Magnitude} (negative : Bool)
    (h : ofDecimal false d = finite false m) : ofDecimal negative d = finite negative m := by
  have hratio (num den : Nat) (h : ofRatio false num den = finite false m) :
      ofRatio negative num den = finite negative m := by
    rw [ofRatio] at h ⊢
    cases hround : Magnitude.round? (num * Nat.pow 2 scale) den with
    | some r =>
        rw [hround] at h
        cases h
        rfl
    | none =>
        rw [hround] at h
        cases h
  -- Which branch is taken does not depend on the sign.
  rw [ofDecimal] at h ⊢
  split
  next hzero =>
    rw [if_pos hzero] at h
    cases h
    rfl
  next hzero =>
    rw [if_neg hzero] at h
    split
    next hlarge =>
      rw [if_pos hlarge] at h
      cases h
    next hlarge =>
      rw [if_neg hlarge] at h
      split
      next hwhole =>
        rw [if_pos hwhole] at h
        exact hratio _ _ h
      next hwhole =>
        rw [if_neg hwhole] at h
        exact hratio _ _ h

/-- A fraction of moderate size that is a magnitude is read as it. -/
theorem ofDecimal_eq {d : Decimal} {m : Magnitude} {k : Nat} (negative : Bool)
    (hd : d.coefficient ≠ 0) (hlow : -330 ≤ d.leading) (hhigh : d.leading ≤ 310)
    (hvalue : d.coefficient * 10 ^ k = m.units * 5 ^ scale) (hexponent : d.exponent = -scale + k) :
    ofDecimal negative d = finite negative m := by
  rw [ofDecimal, if_neg (by omega), if_neg (by omega)]
  split
  next hwhole =>
    have hpower : d.exponent.toNat = k - scale := by omega
    refine ofRatio_eq negative Nat.one_pos ?_
    rw [hpower, natPow_eq, Decimal.mul_pow_sub_mul_two_pow hvalue (by omega), Nat.mul_one]
  next hfraction =>
    have hpower : (-d.exponent).toNat = scale - k := by omega
    refine ofRatio_eq negative (Nat.pow_pos (by decide)) ?_
    rw [hpower, natPow_eq, Decimal.mul_two_pow hvalue (by omega)]

end Binary64

namespace Magnitude

/-- The exact fraction of a magnitude is read as it. -/
theorem readsBack_exact {m : Magnitude} (hm : m.significand ≠ 0) : m.readsBack m.exact = true := by
  obtain ⟨hlow, hhigh⟩ := leading_exact hm
  obtain ⟨k, hvalue, hexponent, hlast⟩ := exact_spec hm
  have hne : m.exact.coefficient ≠ 0 := fun h => by simp [h] at hlast
  exact decide_eq_true (Binary64.ofDecimal_eq false hne hlow hhigh hvalue hexponent)

theorem shortest_of_zero {m : Magnitude} (hm : m.significand = 0) : m.shortest = ⟨0, 0⟩ := by
  rw [shortest, if_pos hm]

/-- The shortest digits are those of a candidate that reads back, or the exact fraction. -/
theorem shortest_cases {m : Magnitude} (hm : m.significand ≠ 0) :
    (∃ p, m.shortest ∈ m.neighbours p ∧ m.readsBack m.shortest = true) ∨ m.shortest = m.exact := by
  have hshortest : m.shortest = (((List.range 17).flatMap fun (k : Nat) =>
      m.neighbours (m.leading - k)).find? m.readsBack).getD m.exact := by
    rw [shortest, if_neg hm]
  rw [hshortest]
  cases hfound : ((List.range 17).flatMap fun (k : Nat) => m.neighbours (m.leading - k)).find?
      m.readsBack with
  | some d =>
      obtain ⟨k, -, hd⟩ := List.mem_flatMap.mp (List.mem_of_find?_eq_some hfound)
      exact .inl ⟨_, hd, List.find?_some hfound⟩
  | none => exact .inr (Option.getD_none ..)

theorem eq_zero {m : Magnitude} (hm : m.significand = 0) : m = zero := by
  obtain ⟨s, e, _, hnormal, _⟩ := m
  simp only at hm hnormal
  subst hm
  obtain rfl : e = 0 := hnormal.resolve_right (by decide)
  rfl

/-- The shortest digits of a magnitude are read as it, under either sign. -/
theorem ofDecimal_shortest (negative : Bool) (m : Magnitude) :
    Binary64.ofDecimal negative m.shortest = .finite negative m := by
  by_cases hm : m.significand = 0
  · rw [shortest_of_zero hm, eq_zero hm, Binary64.ofDecimal, if_pos (.inl rfl)]
  · refine Binary64.ofDecimal_sign negative (of_decide_eq_true ?_)
    rcases shortest_cases hm with ⟨p, -, hread⟩ | hexact
    · exact hread
    · rw [hexact]
      exact readsBack_exact hm

theorem canonical_neighbours {m : Magnitude} {p : Int} {d : Decimal} (hd : d ∈ m.neighbours p) :
    d.Canonical := by
  have hpair (low high : Nat) (lowFirst : Bool) (hd : d ∈ if lowFirst = true then
      [Decimal.of low p, Decimal.of high p] else [Decimal.of high p, Decimal.of low p]) :
      d.Canonical := by
    have hform : d = Decimal.of low p ∨ d = Decimal.of high p := by
      cases lowFirst <;> simp_all [or_comm]
    rcases hform with rfl | rfl
    · exact Decimal.canonical_of low p
    · exact Decimal.canonical_of high p
  exact hpair _ _ _ hd

theorem canonical_shortest (m : Magnitude) : m.shortest.Canonical := by
  by_cases hm : m.significand = 0
  · exact .inl (shortest_of_zero hm)
  · rcases shortest_cases hm with ⟨p, hmem, -⟩ | hexact
    · exact canonical_neighbours hmem
    · rw [hexact]
      exact Decimal.canonical_of _ _

end Magnitude

end ManifestChain
