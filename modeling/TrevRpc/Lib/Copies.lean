import TrevRpc.Lib.Budget

/-! # Copies of what was sent -/

namespace TrevRpc

structure Copies (β : Type) where
  keeping : Bool := true
  kept : List (List β) := []
  keptBytes : Nat := 0
  reservations : List Nat := []
  deriving DecidableEq

namespace Copies

variable {β : Type}

def add (cap : Nat) (item : List β) (c : Copies β) (budget : Budget) : Option (Copies β × Budget) :=
  if c.keptBytes + item.length ≤ cap then
    (budget.reserve item.length).map fun budget =>
      ({ c with
          kept := c.kept ++ [item]
          keptBytes := c.keptBytes + item.length
          reservations := c.reservations ++ [item.length] }, budget)
  else none

def settled : Copies β := ⟨false, [], 0, []⟩

/-- Gives everything back and keeps no more. -/
def settle (c : Copies β) (budget : Budget) : Copies β × Budget := (settled, budget.releaseAll c.reservations)

variable {cap total other : Nat} {item : List β} {c c' : Copies β} {budget budget' : Budget}

theorem add_kept (h : c.add cap item budget = some (c', budget')) :
    c'.kept = c.kept ++ [item] ∧ c'.keeping = c.keeping := by
  obtain ⟨-, h⟩ := Option.ite_none_right_eq_some.mp h
  obtain ⟨budget', -, heq⟩ := Option.map_eq_some_iff.mp h
  cases heq
  exact ⟨rfl, rfl⟩

@[simp] theorem settle_fst : (c.settle budget).1 = settled := rfl
@[simp] theorem settled_keeping : (settled : Copies β).keeping = false := rfl
@[simp] theorem settled_kept : (settled : Copies β).kept = [] := rfl
@[simp] theorem settled_reservations : (settled : Copies β).reservations = [] := rfl

/-! ## The accounts -/

structure Sound (cap total other : Nat) (c : Copies β) (budget : Budget) : Prop where
  bytes : c.keptBytes = (c.kept.map List.length).sum
  cap : c.keptBytes ≤ cap
  reserved : c.reservations.sum = c.keptBytes
  released : c.keeping = false → c = settled
  balanced : budget.Balanced total (c.reservations.sum + other)

namespace Sound

theorem start (budget : Budget) : Sound cap (budget.available + budget.others) 0 ({} : Copies β) budget where
  bytes := rfl
  cap := Nat.zero_le _
  reserved := rfl
  released := by simp
  balanced := rfl

theorem add (h : Sound cap total other c budget) (hk : c.keeping = true)
    (hadd : c.add cap item budget = some (c', budget')) : Sound cap total other c' budget' := by
  obtain ⟨hcap, hadd⟩ := Option.ite_none_right_eq_some.mp hadd
  obtain ⟨budget', hr, heq⟩ := Option.map_eq_some_iff.mp hadd
  cases heq
  refine ⟨?_, hcap, ?_, ?_, ?_⟩
  · simp [h.bytes]
  · simp [h.reserved]
  · simp [hk]
  · have hbal := h.balanced.reserve hr
    simpa [Nat.add_right_comm] using hbal

theorem settled (hbal : budget.Balanced total other) : Sound cap total other (Copies.settled : Copies β) budget where
  bytes := rfl
  cap := Nat.zero_le _
  reserved := rfl
  released _ := rfl
  balanced := by simpa using hbal

theorem settle (h : Sound cap total other c budget) :
    Sound cap total other (c.settle budget).1 (c.settle budget).2 := by
  have hbal := h.balanced
  rw [Nat.add_comm] at hbal
  exact settled hbal.releaseAll

end Sound

end Copies

end TrevRpc
