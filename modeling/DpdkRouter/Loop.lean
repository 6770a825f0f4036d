import Mathlib.Tactic.Common
import Mathlib.Tactic.Linarith

/-!
Counted loops over a fallible body. `forRange body lo n` runs `body` on the
indices `lo, lo + 1, ..., lo + n - 1` in order and stops at the first error,
as the C loop `for (i = lo; i < lo + n; i++)` does when its body may leave
the program. The invariant rule is stated for total correctness: a body that
keeps an index-dependent invariant and never fails makes the whole loop
succeed with the invariant at the final index.
-/

namespace ForLoop

universe u

variable {σ ε : Type*}

/-- Run `body` on `lo, ..., lo + n - 1`, stopping at the first error. -/
def forRange (body : ℕ → σ → Except ε σ) (lo : ℕ) : ℕ → σ → Except ε σ
  | 0, s => .ok s
  | n + 1, s => (body lo s).bind (forRange body (lo + 1) n)

@[simp] theorem ok_bind {α β : Type u} (a : α) (f : α → Except ε β) :
    (Except.ok a >>= f) = f a := rfl

@[simp] theorem error_bind {α β : Type u} (e : ε) (f : α → Except ε β) :
    (Except.error e >>= f) = .error e := rfl

@[simp] theorem map_ok {α β : Type u} (f : α → β) (a : α) : Except.map f (.ok a : Except ε α) = .ok (f a) := rfl

@[simp] theorem map_error {α β : Type u} (f : α → β) (e : ε) : Except.map f (.error e : Except ε α) = .error e :=
  rfl

/-- A bind that succeeds ran both of its parts successfully. -/
theorem bind_eq_ok {α β : Type u} {x : Except ε α} {f : α → Except ε β} {b : β}
    (h : (x >>= f) = .ok b) : ∃ a, x = .ok a ∧ f a = .ok b := by
  cases x with
  | error e => cases h
  | ok a => exact ⟨a, rfl, h⟩

/-- A bind after a step that returns nothing succeeds when both parts do. -/
theorem bind_unit_eq_ok_iff {β : Type} {ε : Type} {x : Except ε Unit} {f : Unit → Except ε β} {b : β} :
    (x >>= f) = .ok b ↔ x = .ok () ∧ f () = .ok b := by
  cases x with
  | error e => exact ⟨nofun, fun h => nomatch h.1⟩
  | ok u => exact ⟨fun h => ⟨rfl, h⟩, fun h => h.2⟩

/-- A computation that `isOk` returns a value. -/
theorem ok_of_isOk {α : Type u} {x : Except ε α} (h : x.isOk = true) : ∃ a, x = .ok a := by
  cases x with
  | error e => cases h
  | ok a => exact ⟨a, rfl⟩

variable {body : ℕ → σ → Except ε σ}

@[simp] theorem forRange_zero (lo : ℕ) (s : σ) : forRange body lo 0 s = .ok s := rfl

theorem forRange_succ (lo n : ℕ) (s : σ) :
    forRange body lo (n + 1) s = (body lo s).bind (forRange body (lo + 1) n) := rfl

theorem forRange_succ_of_ok {lo n : ℕ} {s s' : σ} (h : body lo s = .ok s') :
    forRange body lo (n + 1) s = forRange body (lo + 1) n s' := by
  rw [forRange_succ, h]
  rfl

theorem forRange_succ_of_error {lo n : ℕ} {s : σ} {e : ε} (h : body lo s = .error e) :
    forRange body lo (n + 1) s = .error e := by
  rw [forRange_succ, h]
  rfl

/-- A loop whose body keeps no state succeeds exactly when the body succeeds
at every index of the range. -/
theorem forRange_unit_eq_ok_iff {body : ℕ → Unit → Except ε Unit} :
    ∀ {lo n : ℕ}, forRange body lo n () = .ok () ↔ ∀ i, lo ≤ i → i < lo + n → body i () = .ok ()
  | lo, 0 => by
    rw [forRange_zero]
    exact ⟨fun _ i hlo hhi => absurd hhi (by omega), fun _ => rfl⟩
  | lo, n + 1 => by
    cases h₁ : body lo () with
    | error e =>
      rw [forRange_succ_of_error h₁]
      refine ⟨nofun, fun hall => ?_⟩
      have hlo := hall lo le_rfl (by omega)
      rw [h₁] at hlo
      cases hlo
    | ok u =>
      cases u
      rw [forRange_succ_of_ok h₁, forRange_unit_eq_ok_iff]
      constructor
      · intro hall i hlo hhi
        rcases Nat.eq_or_lt_of_le hlo with rfl | hlt
        · exact h₁
        · exact hall i hlt (by omega)
      · intro hall i hlo hhi
        exact hall i (by omega) (by omega)

/-- Invariant rule: if every iteration in range keeps `P` and succeeds, the
loop succeeds and ends in a state satisfying `P` at index `lo + n`. -/
theorem forRange_inv (P : ℕ → σ → Prop) {lo : ℕ} :
    ∀ {n : ℕ} {s : σ},
      (∀ i s, lo ≤ i → i < lo + n → P i s → ∃ s', body i s = .ok s' ∧ P (i + 1) s') →
      P lo s → ∃ s', forRange body lo n s = .ok s' ∧ P (lo + n) s'
  | 0, s, _, hs => ⟨s, rfl, by simpa using hs⟩
  | n + 1, s, hbody, hs => by
    obtain ⟨s₁, h₁, hP₁⟩ := hbody lo s le_rfl (by omega) hs
    have hrest : ∀ i s, lo + 1 ≤ i → i < lo + 1 + n → P i s →
        ∃ s', body i s = .ok s' ∧ P (i + 1) s' :=
      fun i s hlo hhi hP => hbody i s (by omega) (by omega) hP
    obtain ⟨s', hrun, hP'⟩ := forRange_inv P hrest hP₁
    refine ⟨s', ?_, ?_⟩
    · rw [forRange_succ_of_ok h₁, hrun]
    · simpa [Nat.add_assoc, Nat.add_comm 1 n] using hP'

/-- What a fallible run satisfies: `P` of its final state, or `Q` of its
error. -/
def Outcome (P : σ → Prop) (Q : ε → Prop) : Except ε σ → Prop
  | .ok s => P s
  | .error e => Q e

@[simp] theorem outcome_ok {P : σ → Prop} {Q : ε → Prop} {s : σ} :
    Outcome P Q (.ok s) ↔ P s := Iff.rfl

@[simp] theorem outcome_error {P : σ → Prop} {Q : ε → Prop} {e : ε} :
    Outcome P Q (.error e) ↔ Q e := Iff.rfl

/-- Sequencing rule: a run ending in `P` followed by a step that takes every
state of `P` to `P'` ends in `P'`; errors of either part satisfy `Q`. -/
theorem Outcome.bind {α β : Type u} {P : α → Prop} {P' : β → Prop} {Q : ε → Prop}
    {x : Except ε α} {f : α → Except ε β} (hx : Outcome P Q x) (hf : ∀ a, P a → Outcome P' Q (f a)) :
    Outcome P' Q (x >>= f) := by
  cases x with
  | error e => exact hx
  | ok a => exact hf a hx

/-- Safety rule: if every iteration in range, from a state satisfying `P`,
ends in `P` or fails with an error satisfying `Q`, the whole loop does. -/
theorem forRange_outcome (P : ℕ → σ → Prop) (Q : ε → Prop) {lo : ℕ} :
    ∀ {n : ℕ} {s : σ},
      (∀ i s, lo ≤ i → i < lo + n → P i s → Outcome (P (i + 1)) Q (body i s)) →
      P lo s → Outcome (P (lo + n)) Q (forRange body lo n s)
  | 0, s, _, hs => hs
  | n + 1, s, hbody, hs => by
    have hfirst := hbody lo s le_rfl (by omega) hs
    rw [forRange_succ]
    cases h₁ : body lo s with
    | error e =>
      rw [h₁] at hfirst
      exact hfirst
    | ok s₁ =>
      rw [h₁] at hfirst
      have hrest : ∀ i s, lo + 1 ≤ i → i < lo + 1 + n → P i s → Outcome (P (i + 1)) Q (body i s) :=
        fun i s hlo hhi hP => hbody i s (by omega) (by omega) hP
      have hrun := forRange_outcome P Q hrest hfirst
      rw [show lo + 1 + n = lo + (n + 1) by omega] at hrun
      exact hrun

end ForLoop
