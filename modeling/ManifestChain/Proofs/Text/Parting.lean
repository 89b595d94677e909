import Mathlib.Data.List.Forall2
import ManifestChain.Text.LetterCase.Lower

/-!
# Texts that part

Two texts part if they begin alike and then go on with different code points. Such texts stay
different whatever is put before both of them and after each, and joining texts that are equal or
part one by one gives texts that are equal or part. Where texts part at characters of different
lower case, their lower cases are different, too.
-/

namespace ManifestChain

namespace Text

variable {r : CodePoint → CodePoint → Prop} {s t : Text}

/-- The texts begin alike and go on with two code points that stand in a relation. -/
def Parts (r : CodePoint → CodePoint → Prop) (s t : Text) : Prop :=
  ∃ lead c d s' t', s = lead ++ c :: s' ∧ t = lead ++ d :: t' ∧ r c d

namespace Parts

theorem of_head {c d : CodePoint} (h : r c d) (s t : Text) : Parts r (c :: s) (d :: t) :=
  ⟨[], c, d, s, t, rfl, rfl, h⟩

theorem append_left (h : Parts r s t) (before : Text) : Parts r (before ++ s) (before ++ t) := by
  obtain ⟨lead, c, d, s', t', rfl, rfl, hcd⟩ := h
  exact ⟨before ++ lead, c, d, s', t', by simp, by simp, hcd⟩

theorem append_right (h : Parts r s t) (after after' : Text) :
    Parts r (s ++ after) (t ++ after') := by
  obtain ⟨lead, c, d, s', t', rfl, rfl, hcd⟩ := h
  exact ⟨lead, c, d, s' ++ after, t' ++ after', by simp, by simp, hcd⟩

theorem ne (h : Parts r s t) (hr : ∀ c, ¬r c c) : s ≠ t := by
  rintro rfl
  obtain ⟨lead, c, d, s', t', hs, ht, hcd⟩ := h
  have heq := List.append_cancel_left (hs.symm.trans ht)
  cases heq
  exact hr c hcd

end Parts

/-- Texts part if neither begins the other. -/
theorem parts_of_append_ne (h : ∀ after after', s ++ after ≠ t ++ after') :
    Parts (· ≠ ·) s t := by
  induction s generalizing t with
  | nil => exact absurd (List.append_nil t).symm (h t [])
  | cons c s ih =>
      cases t with
      | nil => exact absurd (List.append_nil (c :: s)) (h [] (c :: s))
      | cons d t =>
          by_cases hcd : c = d
          · subst hcd
            refine (ih fun after after' heq => ?_).append_left [c]
            exact h after after' (congrArg (c :: ·) heq)
          · exact .of_head hcd s t

/-- Texts that are equal or part, one by one, are all equal, or part when they are joined. -/
theorem eq_or_parts_join (separator : Text) {ss ts : List Text}
    (h : List.Forall₂ (fun s t => s = t ∨ Parts r s t) ss ts) :
    ss = ts ∨ Parts r (join separator ss) (join separator ts) := by
  induction h with
  | nil => exact .inl rfl
  | @cons s t ss ts hst hrest ih =>
      rcases hst with rfl | hst
      · rcases ih with rfl | hjoin
        · exact .inl rfl
        · -- Lists that part are not empty, so both have a separator after the first text.
          cases hrest with
          | nil => exact .inl rfl
          | cons => exact .inr (hjoin.append_left (s ++ separator))
      · right
        cases hrest with
        | nil => exact hst
        | cons =>
            rw [join, join, List.append_assoc, List.append_assoc]
            exact hst.append_right _ _

/-! ## Texts that are equal under a condition -/

/-- Two texts are equal exactly if a condition holds; if it does not, they part. -/
structure Agree (r : CodePoint → CodePoint → Prop) (p : Prop) (s t : Text) : Prop where
  eq_iff : s = t ↔ p
  eq_or_parts : s = t ∨ Parts r s t

namespace Agree

variable {p q : Prop}

theorem of_eq (h : s = t) (hp : p) : Agree r p s t := ⟨iff_of_true h hp, .inl h⟩

theorem of_parts (hr : ∀ c, ¬r c c) (h : Parts r s t) (hp : ¬p) : Agree r p s t :=
  ⟨iff_of_false (h.ne hr) hp, .inr h⟩

theorem congr (h : Agree r p s t) (hpq : p ↔ q) : Agree r q s t :=
  ⟨h.eq_iff.trans hpq, h.eq_or_parts⟩

theorem append_left (h : Agree r p s t) (before : Text) :
    Agree r p (before ++ s) (before ++ t) :=
  ⟨List.append_cancel_left_eq before s t ▸ h.eq_iff,
    h.eq_or_parts.imp (congrArg (before ++ ·)) fun hst => hst.append_left before⟩

theorem append_right (h : Agree r p s t) (after : Text) : Agree r p (s ++ after) (t ++ after) :=
  ⟨List.append_cancel_right_eq s after t ▸ h.eq_iff,
    h.eq_or_parts.imp (congrArg (· ++ after)) fun hst => hst.append_right after after⟩

end Agree

/-- Two lists of texts are equal exactly if a condition holds, and one by one their texts are equal
or part. -/
structure AgreeAll (r : CodePoint → CodePoint → Prop) (p : Prop) (ss ts : List Text) : Prop where
  eq_iff : ss = ts ↔ p
  eq_or_parts : List.Forall₂ (fun s t => s = t ∨ Parts r s t) ss ts

namespace AgreeAll

variable {p q : Prop} {ss ts : List Text}

theorem congr (h : AgreeAll r p ss ts) (hpq : p ↔ q) : AgreeAll r q ss ts :=
  ⟨h.eq_iff.trans hpq, h.eq_or_parts⟩

theorem nil : AgreeAll r True [] [] := ⟨iff_of_true rfl trivial, .nil⟩

theorem cons (h : Agree r p s t) (hrest : AgreeAll r q ss ts) :
    AgreeAll r (p ∧ q) (s :: ss) (t :: ts) :=
  ⟨List.cons_eq_cons.trans (and_congr h.eq_iff hrest.eq_iff),
    .cons h.eq_or_parts hrest.eq_or_parts⟩

theorem join (hr : ∀ c, ¬r c c) (h : AgreeAll r p ss ts) (separator : Text) :
    Agree r p (Text.join separator ss) (Text.join separator ts) := by
  rcases eq_or_parts_join separator h.eq_or_parts with heq | hparts
  · exact .of_eq (congrArg (Text.join separator) heq) (h.eq_iff.mp heq)
  · refine .of_parts hr hparts fun hp => ?_
    rw [h.eq_iff.mpr hp] at hparts
    exact hparts.ne hr rfl

end AgreeAll

/-! ## Lower case -/

theorem length_lowerBetween (before before' : Text) (c : CodePoint) (after after' : Text) :
    (LetterCase.lowerBetween before c after).length =
      (LetterCase.lowerBetween before' c after').length := by
  unfold LetterCase.lowerBetween
  split
  case h_3 => split <;> split <;> rfl
  all_goals rfl

/-- Lower case changes the length of no character of ASCII. -/
theorem length_lowerAfter_of_lt {s : Text} (h : ∀ c ∈ s, c.value < 0x80) (before : Text) :
    (lowerAfter before s).length = s.length := by
  induction s generalizing before with
  | nil => rfl
  | cons c s ih =>
      obtain ⟨hc, hs⟩ := List.forall_mem_cons.mp h
      have hone : (LetterCase.lowerBetween before c s).length = 1 := by
        unfold LetterCase.lowerBetween
        split
        case h_2 => exact absurd hc (by decide)
        case h_3 => split <;> rfl
        all_goals rfl
      rw [lowerAfter, List.length_append, hone, ih hs, List.length_cons, Nat.add_comm]

/-- The lower case of the first part of a text is as long as that of the part alone. -/
theorem exists_lowerAfter_append (before s t : Text) :
    ∃ lowered, lowered.length = (lowerAfter before s).length ∧
      lowerAfter before (s ++ t) = lowered ++ lowerAfter (s.reverse ++ before) t := by
  induction s generalizing before with
  | nil => exact ⟨[], rfl, rfl⟩
  | cons c s ih =>
      obtain ⟨lowered, hlength, heq⟩ := ih (c :: before)
      refine ⟨LetterCase.lowerBetween before c (s ++ t) ++ lowered, ?_, ?_⟩
      · rw [lowerAfter, List.length_append, List.length_append, hlength,
          length_lowerBetween before before c (s ++ t) s]
      · rw [List.cons_append, lowerAfter, heq, List.append_assoc, List.reverse_cons,
          List.append_assoc, List.singleton_append]

/-- Two characters whose lower cases are different wherever they stand. -/
def LowerApart (c d : CodePoint) : Prop :=
  ∃ a b : CodePoint, a ≠ b ∧ (∀ before after, LetterCase.lowerBetween before c after = [a]) ∧
    ∀ before after, LetterCase.lowerBetween before d after = [b]

theorem not_lowerApart_self (c : CodePoint) : ¬LowerApart c c := by
  rintro ⟨a, b, hab, ha, hb⟩
  exact hab (List.cons.inj ((ha [] []).symm.trans (hb [] []))).1

/-- Texts have different lower cases if they go on with such characters after leads whose lower
cases have one length. -/
theorem lower_ne_of_leads {c d : CodePoint} (h : LowerApart c d) {lead lead' : Text}
    (hlead : lead.lower.length = lead'.lower.length) (s t : Text) :
    (lead ++ c :: s).lower ≠ (lead' ++ d :: t).lower := by
  obtain ⟨a, b, hab, hc, hd⟩ := h
  obtain ⟨x, hx, hleft⟩ := exists_lowerAfter_append [] lead (c :: s)
  obtain ⟨y, hy, hright⟩ := exists_lowerAfter_append [] lead' (d :: t)
  rw [lower, lower, hleft, hright, lowerAfter, lowerAfter, hc, hd]
  intro heq
  have hcons := List.append_inj_right heq (hx.trans (hlead.trans hy.symm))
  exact hab (List.cons.inj hcons).1

theorem Parts.lower_ne (h : Parts LowerApart s t) : s.lower ≠ t.lower := by
  obtain ⟨lead, c, d, s', t', rfl, rfl, hcd⟩ := h
  exact lower_ne_of_leads hcd rfl s' t'

/-- Texts that are equal or part at characters of different lower case have different lower cases
if they are different. -/
theorem Agree.lower_eq_iff {p : Prop} (h : Agree LowerApart p s t) : s.lower = t.lower ↔ p := by
  rw [← h.eq_iff]
  exact ⟨fun heq => h.eq_or_parts.resolve_right fun hparts => hparts.lower_ne heq,
    congrArg lower⟩

end Text

end ManifestChain
