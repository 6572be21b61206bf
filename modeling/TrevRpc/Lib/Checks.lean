import Mathlib.Algebra.Order.Ring.Nat
import Mathlib.Tactic.Common

/-! # Computations that check a condition -/

namespace TrevRpc

universe u v

variable {Err : Type u} {A B : Type v} {own : Err → Prop} {c d : Prop} {P Q : A → Prop}

/-- Succeeds exactly when `cond` holds, with a result that meets `P`; its errors meet `own`. -/
def Checks (own : Err → Prop) (cond : Prop) (P : A → Prop) : Except Err A → Prop
  | .ok a => cond ∧ P a
  | .error error => ¬ cond ∧ own error

theorem Checks.pure {a : A} (h : P a) : Checks own True P (.ok a) :=
  ⟨trivial, h⟩

variable {x : Except Err A} {f : A → Except Err B}

theorem Checks.bind {R : B → Prop}
    (hx : Checks own c P x) (hf : ∀ a, P a → Checks own d R (f a)) :
    Checks own (c ∧ d) R (x >>= f) := by
  cases x with
  | error error => exact ⟨fun h => hx.1 h.1, hx.2⟩
  | ok a =>
    have hfa := hf a hx.2
    change Checks own (c ∧ d) R (f a)
    cases hb : f a with
    | error error =>
      rw [hb] at hfa
      exact ⟨fun h => hfa.1 h.2, hfa.2⟩
    | ok b =>
      rw [hb] at hfa
      exact ⟨⟨hx.1, hfa.1⟩, hfa.2⟩

theorem Checks.imp (hx : Checks own c P x) (hcd : c ↔ d) (hPQ : ∀ a, P a → Q a) : Checks own d Q x := by
  cases x with
  | error error => exact ⟨hcd.not.mp hx.1, hx.2⟩
  | ok a => exact ⟨hcd.mp hx.1, hPQ a hx.2⟩

theorem except_map_eq_ok {f : A → B} {b : B} : x.map f = .ok b ↔ ∃ a, x = .ok a ∧ f a = b := by
  cases x with
  | error error =>
    constructor
    · rintro ⟨⟩
    · rintro ⟨_, ⟨⟩, _⟩
  | ok a =>
    constructor
    · rintro ⟨⟩
      exact ⟨a, rfl, rfl⟩
    · rintro ⟨_, ⟨⟩, rfl⟩
      rfl

theorem except_bind_eq_ok {b : B} : (x >>= f) = .ok b ↔ ∃ a, x = .ok a ∧ f a = .ok b := by
  cases x with
  | error error =>
    constructor
    · rintro ⟨⟩
    · rintro ⟨_, ⟨⟩, _⟩
  | ok a =>
    constructor
    · intro h
      exact ⟨a, rfl, h⟩
    · rintro ⟨_, ⟨⟩, h⟩
      exact h

end TrevRpc
