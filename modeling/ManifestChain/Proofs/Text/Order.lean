import Mathlib.Data.List.Lex
import ManifestChain.Text.Basic

/-!
# The order of texts

Texts are linearly ordered by their code points, a text before its extensions. Lone surrogates have
numbers of their own, so two texts that neither precedes are the same text.
-/

namespace ManifestChain

namespace CodePoint

theorem value_injective {a b : CodePoint} (h : a.value = b.value) : a = b := by
  cases a with
  | scalar c => cases b with
    | scalar d => exact congrArg scalar (Char.toNat_inj.mp h)
    | surrogate n =>
        have hc : c.toNat < 0xD800 ∨ 0xDFFF < c.toNat ∧ c.toNat < 0x110000 := c.valid
        simp only [value] at h
        omega
  | surrogate n => cases b with
    | scalar d =>
        have hd : d.toNat < 0xD800 ∨ 0xDFFF < d.toNat ∧ d.toNat < 0x110000 := d.valid
        simp only [value] at h
        omega
    | surrogate m =>
        simp only [value] at h
        exact congrArg surrogate (Fin.ext (by omega))

def Before (a b : CodePoint) : Prop := a.value < b.value

instance : DecidableRel Before := fun a b => Nat.decLt a.value b.value

instance : Std.Asymm Before where
  asymm _ _ := Nat.lt_asymm

instance : Std.Trichotomous Before where
  trichotomous _ _ hab hba :=
    value_injective (Nat.le_antisymm (Nat.not_lt.mp hba) (Nat.not_lt.mp hab))

instance : IsOrderConnected CodePoint Before where
  conn a b _ h := (Nat.lt_or_ge a.value b.value).imp_right fun hba => Nat.lt_of_le_of_lt hba h

end CodePoint

namespace Text

/-- Texts are ordered by the first code points that differ, a text before its extensions. -/
abbrev Before : Text → Text → Prop := List.Lex CodePoint.Before

theorem cons_before_cons_iff {a b : CodePoint} {s t : Text} :
    Before (a :: s) (b :: t) ↔ a.Before b ∨ a = b ∧ Before s t := List.cons_lex_cons_iff

@[simp] theorem nil_le (t : Text) : le [] t = true := by
  cases t <;> rfl

@[simp] theorem cons_le_nil (c : CodePoint) (t : Text) : le (c :: t) [] = false := rfl

/-- A text precedes another one by the first code points that differ. -/
theorem cons_le_cons_iff (a b : CodePoint) (s t : Text) :
    le (a :: s) (b :: t) = true ↔ a.value < b.value ∨ a = b ∧ le s t = true := by
  rw [le]
  split
  next hlt => simp [hlt]
  next hnot =>
    split
    next hgt =>
      have hne : a ≠ b := fun heq => by rw [heq] at hgt; omega
      simp [hnot, hne]
    next hnot' =>
      have heq : a = b := CodePoint.value_injective (by omega)
      simp [heq]

theorem le_iff_not_before (s t : Text) : le s t = true ↔ ¬Before t s := by
  induction s generalizing t with
  | nil => simp
  | cons a s ih => cases t with
    | nil => simp
    | cons b t =>
        rw [cons_le_cons_iff, cons_before_cons_iff, ih, not_or, not_and]
        constructor
        · rintro (hlt | ⟨rfl, h⟩)
          · refine ⟨Nat.lt_asymm hlt, ?_⟩
            rintro rfl
            exact absurd hlt (Nat.lt_irrefl _)
          · exact ⟨Nat.lt_irrefl _, fun _ => h⟩
        · rintro ⟨hnot, h⟩
          rcases Nat.lt_or_eq_of_le (Nat.not_lt.mp hnot) with hlt | heq
          · exact .inl hlt
          · have hab := CodePoint.value_injective heq
            exact .inr ⟨hab, h hab.symm⟩

theorem le_refl (t : Text) : le t t = true :=
  (le_iff_not_before t t).mpr (irrefl_of Before t)

theorem le_total (s t : Text) : le s t = true ∨ le t s = true := by
  rw [le_iff_not_before, le_iff_not_before, ← not_and_or]
  exact fun h => Std.Asymm.asymm _ _ h.1 h.2

theorem le_trans {s t u : Text} (hst : le s t = true) (htu : le t u = true) : le s u = true := by
  rw [le_iff_not_before] at hst htu ⊢
  exact IsOrderConnected.neg_trans htu hst

theorem le_antisymm {s t : Text} (hst : le s t = true) (hts : le t s = true) : s = t := by
  rw [le_iff_not_before] at hst hts
  exact Std.Trichotomous.trichotomous s t hts hst

end Text

end ManifestChain
