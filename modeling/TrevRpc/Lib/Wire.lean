import Mathlib.Algebra.Order.Ring.Nat
import Mathlib.Tactic.Common

/-! # The sending side of a stream -/

namespace TrevRpc

structure Wire (α : Type) where
  received : List α := []
  closed : Bool := false
  failed : Bool := false
  deriving DecidableEq

namespace Wire

variable {α : Type}

def write (w : Wire α) (items : List α) : Wire α := { w with received := w.received ++ items }

def close (w : Wire α) : Wire α := { w with closed := true }

def fail (w : Wire α) : Wire α := { w with failed := true }

variable (w : Wire α) (items : List α)

@[simp] theorem write_received : (w.write items).received = w.received ++ items := rfl
@[simp] theorem write_closed : (w.write items).closed = w.closed := rfl
@[simp] theorem close_received : w.close.received = w.received := rfl
@[simp] theorem close_closed : w.close.closed = true := rfl
@[simp] theorem fail_received : w.fail.received = w.received := rfl
@[simp] theorem fail_closed : w.fail.closed = w.closed := rfl
@[simp] theorem fail_failed : w.fail.failed = true := rfl

end Wire

end TrevRpc
