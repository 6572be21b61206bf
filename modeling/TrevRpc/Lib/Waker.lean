/-!
# A task and the slot it leaves its waker in

Waking takes the waker out of the slot, and notifies the task until it runs again.
-/

namespace TrevRpc

structure Task where
  registered : Bool := false
  notified : Bool := false
  deriving DecidableEq

namespace Task

variable {t : Task}

/-- The executor polls the task. -/
def polled (t : Task) : Task := { t with notified := false }

def register (t : Task) : Task := { t with registered := true }

def wake (t : Task) : Task := if t.registered then ⟨false, true⟩ else t

/-- The next wake-up will notify the task, or one has. -/
def Armed (t : Task) : Prop := t.registered = true ∨ t.notified = true

theorem armed_register (t : Task) : t.register.Armed := .inl rfl

theorem Armed.wake_notified (h : t.Armed) : t.wake.notified = true := by
  unfold wake
  split
  · rfl
  · next hr => exact h.resolve_left hr

theorem Armed.wake (h : t.Armed) : t.wake.Armed := .inr h.wake_notified

end Task

end TrevRpc
