import Mathlib.Data.List.Forall2
import ManifestChain.Fault

/-!
# Outcomes of operations in sequence

A sequence of operations returns what its last one returns, if all return; otherwise its fault is
that of the first one that fails.
-/

namespace ManifestChain

namespace Fault

variable {α β : Type}

theorem bind_eq_ok_iff {x : Except Fault α} {f : α → Except Fault β} {r : β} :
    x >>= f = .ok r ↔ ∃ a, x = .ok a ∧ f a = .ok r := by
  cases x with
  | error e => simp [bind, Except.bind]
  | ok a => simp [bind, Except.bind]

theorem bind_eq_error_iff {x : Except Fault α} {f : α → Except Fault β} {e : Fault} :
    x >>= f = .error e ↔ x = .error e ∨ ∃ a, x = .ok a ∧ f a = .error e := by
  cases x with
  | error e' => simp [bind, Except.bind]
  | ok a => simp [bind, Except.bind]

theorem map_eq_ok_iff {x : Except Fault α} {f : α → β} {r : β} :
    x.map f = .ok r ↔ ∃ a, x = .ok a ∧ f a = r := by
  cases x with
  | error e => simp [Except.map]
  | ok a => simp [Except.map]

theorem map_eq_error_iff {x : Except Fault α} {f : α → β} {e : Fault} :
    x.map f = .error e ↔ x = .error e := by
  cases x with
  | error e' => simp [Except.map]
  | ok a => simp [Except.map]

/-- An operation on every item of a list returns if it returns for each of them. -/
theorem mapM_eq_ok_iff {f : α → Except Fault β} {xs : List α} {ys : List β} :
    xs.mapM f = .ok ys ↔ List.Forall₂ (fun x y => f x = .ok y) xs ys := by
  induction xs generalizing ys with
  | nil => cases ys <;> simp [pure, Except.pure]
  | cons x xs ih =>
      rw [List.mapM_cons, bind_eq_ok_iff]
      constructor
      · rintro ⟨y, hy, h⟩
        obtain ⟨rest, hrest, h⟩ := bind_eq_ok_iff.mp h
        cases h
        exact .cons hy (ih.mp hrest)
      · intro h
        cases h with
        | @cons _ y _ ys hy hys => exact ⟨y, hy, by rw [ih.mpr hys]; rfl⟩

theorem exists_mapM_eq_ok_iff {f : α → Except Fault β} {xs : List α} :
    (∃ ys, xs.mapM f = .ok ys) ↔ ∀ x ∈ xs, ∃ y, f x = .ok y := by
  induction xs with
  | nil => exact ⟨fun _ x hx => absurd hx List.not_mem_nil, fun _ => ⟨[], rfl⟩⟩
  | cons x xs ih =>
      simp only [mapM_eq_ok_iff] at ih ⊢
      rw [List.forall_mem_cons, ← ih]
      constructor
      · rintro ⟨_, _ | ⟨hy, hys⟩⟩
        exact ⟨⟨_, hy⟩, _, hys⟩
      · rintro ⟨⟨y, hy⟩, ys, hys⟩
        exact ⟨y :: ys, .cons hy hys⟩

/-- It fails as it does for the first item for which it fails. -/
theorem mapM_eq_error_iff {f : α → Except Fault β} {xs : List α} {e : Fault} :
    xs.mapM f = .error e ↔ ∃ before x after, xs = before ++ x :: after ∧
      (∀ y ∈ before, ∃ b, f y = .ok b) ∧ f x = .error e := by
  induction xs with
  | nil => simp [pure, Except.pure]
  | cons x xs ih =>
      rw [List.mapM_cons, bind_eq_error_iff]
      constructor
      · rintro (hx | ⟨y, hy, h⟩)
        · exact ⟨[], x, xs, rfl, fun y hy => absurd hy List.not_mem_nil, hx⟩
        · rcases bind_eq_error_iff.mp h with hrest | ⟨_, _, h⟩
          · obtain ⟨before, z, after, rfl, hbefore, hz⟩ := ih.mp hrest
            exact ⟨x :: before, z, after, rfl, List.forall_mem_cons.mpr ⟨⟨y, hy⟩, hbefore⟩, hz⟩
          · cases h
      · rintro ⟨_ | ⟨y, before⟩, z, after, heq, hbefore, hz⟩
        · cases heq
          exact .inl hz
        · cases heq
          obtain ⟨⟨b, hb⟩, hbefore⟩ := List.forall_mem_cons.mp hbefore
          have hrest := ih.mpr ⟨before, z, after, rfl, hbefore, hz⟩
          exact .inr ⟨b, hb, bind_eq_error_iff.mpr (.inl hrest)⟩

/-! ## The fault of an outcome -/

/-- The fault of an operation that failed. -/
def of? : Except Fault α → Option Fault
  | .ok _ => none
  | .error e => some e

theorem of?_eq_some_iff {x : Except Fault α} {e : Fault} : of? x = some e ↔ x = .error e := by
  cases x <;> simp [of?]

@[simp] theorem of?_error (e : Fault) : of? (.error e : Except Fault α) = some e := rfl

@[simp] theorem of?_map (x : Except Fault α) (f : α → β) : of? (x.map f) = of? x := by
  cases x <;> rfl

/-- Of two operations in sequence, the first one to fail has the fault, where the fault of the
second does not depend on what the first one returned. -/
theorem of?_bind {x : Except Fault α} {f : α → Except Fault β} {e : Option Fault}
    (h : ∀ a, of? (f a) = e) : of? (x >>= f) = (of? x).or e := by
  cases x with
  | error e' => rfl
  | ok a => exact h a

@[simp] theorem of?_bind_pure (x : Except Fault α) (f : α → β) :
    of? (x >>= fun a => pure (f a)) = of? x := by
  cases x <;> rfl

/-- An operation on every item of a list has the fault of the first one where it fails. -/
theorem of?_mapM (f : α → Except Fault β) (xs : List α) :
    of? (xs.mapM f) = xs.findSome? fun x => of? (f x) := by
  induction xs with
  | nil => rfl
  | cons x xs ih =>
      rw [List.mapM_cons, of?_bind fun y => of?_bind_pure _ _, ih, List.findSome?_cons]
      cases of? (f x) <;> rfl

end Fault

end ManifestChain
