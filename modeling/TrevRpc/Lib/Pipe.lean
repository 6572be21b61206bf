import Mathlib.Algebra.Order.Ring.Nat
import Mathlib.Data.List.Infix

/-!
# One direction of a byte pipe, with what is in flight

What an end of the pipe has seen is a view. The chunks in flight take the receiver's view to the sender's.
-/

namespace TrevRpc.Pipe

variable {α : Type*}

inductive Ending
  | running
  | finished
  | reset
  deriving DecidableEq

/-- The elements that have passed an end of the pipe, and whether it has ended there. -/
structure View (α : Type*) where
  passed : List α := []
  ending : Ending := .running

inductive Chunk (α : Type*)
  | data (offset : Nat) (content : List α) (fin : Bool)
  | reset (finalSize : Nat)

namespace View

/-- The view after one more chunk; `none` if it does not continue the pipe. A FIN may be repeated. -/
def advance (v : View α) : Chunk α → Option (View α)
  | .data offset content fin =>
    if offset ≠ v.passed.length then none
    else
      match v.ending with
      | .running => some ⟨v.passed ++ content, if fin then .finished else .running⟩
      | .finished => if content.isEmpty && fin then some v else none
      | .reset => none
  | .reset finalSize =>
    if v.ending = .running ∧ finalSize = v.passed.length then some { v with ending := .reset } else none

/-- The view after all of `chunks`. -/
def after (v : View α) : List (Chunk α) → Option (View α)
  | [] => some v
  | c :: chunks => (v.advance c).bind fun w => w.after chunks

variable {v w : View α} {c : Chunk α} {chunks : List (Chunk α)}

theorem after_cons_eq_some : v.after (c :: chunks) = some w ↔ ∃ u, v.advance c = some u ∧ u.after chunks = some w := by
  rw [after, Option.bind_eq_some_iff]

theorem after_append (xs ys : List (Chunk α)) : v.after (xs ++ ys) = (v.after xs).bind fun u => u.after ys := by
  induction xs generalizing v with
  | nil => rfl
  | cons x xs ih =>
    rw [List.cons_append, after, after]
    cases v.advance x with
    | none => rfl
    | some u => simpa using ih

theorem after_singleton : v.after [c] = v.advance c := by
  rw [after]
  cases v.advance c <;> rfl

theorem advance_data_eq_some {o : Nat} {content : List α} {fin : Bool} :
    v.advance (.data o content fin) = some w ↔
      o = v.passed.length ∧
        (v.ending = .running ∧ w = ⟨v.passed ++ content, if fin then .finished else .running⟩ ∨
          v.ending = .finished ∧ content = [] ∧ fin = true ∧ w = v) := by
  unfold advance
  by_cases ho : o = v.passed.length
  · cases v.ending with
    | running => simp [ho, eq_comm]
    | finished =>
      simp only [ho, ne_eq, not_true_eq_false, if_false, Option.ite_none_right_eq_some,
        Bool.and_eq_true, List.isEmpty_iff, Option.some.injEq, reduceCtorEq, false_and, false_or, true_and]
      constructor
      · rintro ⟨⟨hc, hfin⟩, hvw⟩
        exact ⟨hc, hfin, hvw.symm⟩
      · rintro ⟨hc, hfin, hwv⟩
        exact ⟨⟨hc, hfin⟩, hwv.symm⟩
    | reset => simp
  · simp [ho]

theorem advance_reset_eq_some {fs : Nat} :
    v.advance (.reset fs) = some w ↔
      v.ending = .running ∧ fs = v.passed.length ∧ w = { v with ending := .reset } := by
  unfold advance
  simp only [Option.ite_none_right_eq_some, Option.some.injEq, and_assoc, eq_comm (a := w)]

theorem prefix_of_advance (h : v.advance c = some w) : v.passed <+: w.passed := by
  cases c with
  | data offset content fin =>
    rw [advance_data_eq_some] at h
    obtain ⟨-, ⟨-, rfl⟩ | ⟨-, -, -, rfl⟩⟩ := h
    · exact List.prefix_append _ _
    · exact List.prefix_rfl
  | reset finalSize =>
    rw [advance_reset_eq_some] at h
    obtain ⟨-, -, rfl⟩ := h
    exact List.prefix_rfl

theorem prefix_of_after (h : v.after chunks = some w) : v.passed <+: w.passed := by
  induction chunks generalizing v with
  | nil =>
    obtain rfl : v = w := Option.some.inj h
    exact List.prefix_rfl
  | cons c chunks ih =>
    obtain ⟨u, hu, hr⟩ := after_cons_eq_some.mp h
    exact (prefix_of_advance hu).trans (ih hr)

theorem eq_of_after_finished (hfin : v.ending = .finished) (h : v.after chunks = some w) : w = v := by
  induction chunks with
  | nil => exact (Option.some.inj h).symm
  | cons c chunks ih =>
    obtain ⟨u, hu, hr⟩ := after_cons_eq_some.mp h
    have huv : u = v := by
      cases c with
      | data offset content fin =>
        rw [advance_data_eq_some, hfin] at hu
        obtain ⟨-, ⟨hrun, -⟩ | ⟨-, -, -, heq⟩⟩ := hu
        · cases hrun
        · exact heq
      | reset finalSize =>
        rw [advance_reset_eq_some, hfin] at hu
        cases hu.1
    rw [huv] at hr
    exact ih hr

end View

end TrevRpc.Pipe
