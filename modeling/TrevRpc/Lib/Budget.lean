import Mathlib.Algebra.Order.Ring.Nat
import Mathlib.Algebra.BigOperators.Group.List.Basic

/-!
# A budget that several holders reserve from

One holder is followed; `others` is what everyone else holds.
-/

namespace TrevRpc

structure Budget where
  available : Nat
  others : Nat := 0
  deriving DecidableEq

namespace Budget

def reserve (b : Budget) (cost : Nat) : Option Budget :=
  if cost ≤ b.available then some { b with available := b.available - cost } else none

def release (b : Budget) (cost : Nat) : Budget := { b with available := b.available + cost }

def releaseAll (b : Budget) (costs : List Nat) : Budget := costs.foldl release b

/-- Someone else takes `cost`. -/
def lend (b : Budget) (cost : Nat) : Option Budget :=
  (b.reserve cost).map fun b => { b with others := b.others + cost }

/-- Someone else gives `cost` back. -/
def regain (b : Budget) (cost : Nat) : Option Budget :=
  if cost ≤ b.others then some { available := b.available + cost, others := b.others - cost } else none

/-- The holder has `held` of a budget of `total`. -/
def Balanced (total held : Nat) (b : Budget) : Prop := b.available + held + b.others = total

variable {total held cost : Nat} {b b' : Budget}

theorem Balanced.reserve (h : Balanced total held b) (hr : b.reserve cost = some b') :
    Balanced total (held + cost) b' := by
  unfold Budget.reserve at hr
  split_ifs at hr with hcost
  cases hr
  unfold Balanced at h ⊢
  simp only
  omega

theorem Balanced.release (h : Balanced total (held + cost) b) : Balanced total held (b.release cost) := by
  unfold Balanced Budget.release at *
  simp only
  omega

theorem Balanced.releaseAll {cs : List Nat} (h : Balanced total (held + cs.sum) b) :
    Balanced total held (b.releaseAll cs) := by
  induction cs generalizing b with
  | nil => exact h
  | cons cost cs ih =>
    refine ih (Balanced.release ?_)
    rw [List.sum_cons, Nat.add_comm cost, ← Nat.add_assoc] at h
    exact h

theorem Balanced.lend (h : Balanced total held b) (hl : b.lend cost = some b') : Balanced total held b' := by
  obtain ⟨b₁, hr, rfl⟩ := Option.map_eq_some_iff.mp hl
  have h₁ := h.reserve hr
  unfold Balanced at h₁ ⊢
  simp only
  omega

theorem Balanced.regain (h : Balanced total held b) (hr : b.regain cost = some b') : Balanced total held b' := by
  unfold Budget.regain at hr
  split_ifs at hr
  cases hr
  unfold Balanced at h ⊢
  simp only
  omega

end Budget

end TrevRpc
