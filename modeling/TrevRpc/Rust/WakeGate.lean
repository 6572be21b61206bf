import TrevRpc.Lib.Run
import TrevRpc.Lib.Waker

/-!
# A stream that is polled only after it woke (`wake_gate.rs`)

One task polls the gated stream, and the inner stream becomes ready on other threads. A step is one atomic operation, or
a poll of the inner stream.
-/

open TrevRpc.Run

namespace TrevRpc.Rust.WakeGate

/-- Where the task is: outside, with what the last poll returned, or in `poll_next`. -/
inductive Phase
  | outside (pending : Bool)
  | registers
  | swaps
  | polls
  | stores
  deriving DecidableEq

/-- `Gated` over an inner stream that yields `R`s. -/
structure State (R : Type) where
  woken : Bool := true
  task : Task := {}
  phase : Phase := .outside false
  -- What the inner stream has ready, and whether it has the waker of the gate.
  ready : List R := []
  waker : Bool := false
  -- The calls of `wake_by_ref` before and after they store `woken`.
  storing : Nat := 0
  waking : Nat := 0
  yielded : List R := []
  produced : List R := []

inductive Action (R : Type)
  | produce (item : R)
  -- The inner stream may also wake a waker that it has kept.
  | wakeByRef
  | storeWoken
  | wakeTask
  | pollNext
  | register
  | swap
  | pollInner
  | store

variable {R : Type}

def State.becomesReady (s : State R) (item : R) : State R :=
  { s with ready := s.ready ++ [item], produced := s.produced ++ [item], waker := false,
           storing := s.storing + if s.waker then 1 else 0 }

def State.pollInner (s : State R) : State R :=
  match s.ready with
  | item :: rest => { s with ready := rest, yielded := s.yielded ++ [item], phase := .stores }
  | [] => { s with waker := true, phase := .outside true }

def step (s : State R) : Action R → Option (State R)
  | .produce item => some (s.becomesReady item)
  | .wakeByRef => some { s with storing := s.storing + 1 }
  | .storeWoken =>
    if 0 < s.storing then some { s with storing := s.storing - 1, woken := true, waking := s.waking + 1 } else none
  | .wakeTask => if 0 < s.waking then some { s with waking := s.waking - 1, task := s.task.wake } else none
  | .pollNext =>
    match s.phase with
    | .outside _ => some { s with phase := .registers, task := s.task.polled }
    | _ => none
  | .register => if s.phase = .registers then some { s with phase := .swaps, task := s.task.register } else none
  | .swap =>
    if s.phase = .swaps then some { s with woken := false, phase := if s.woken then .polls else .outside true }
    else none
  | .pollInner => if s.phase = .polls then some s.pollInner else none
  | .store => if s.phase = .stores then some { s with woken := true, phase := .outside false } else none

def Phase.registered : Phase → Bool
  | .swaps | .polls | .stores | .outside true => true
  | _ => false

def Phase.waits : Phase → Bool
  | .polls | .outside true => true
  | _ => false

theorem Phase.registered_of_waits : ∀ {p : Phase}, p.waits = true → p.registered = true
  | .polls, _ | .outside true, _ => rfl

structure Inv (s : State R) : Prop where
  items : s.yielded ++ s.ready = s.produced
  waker : s.waker = true → s.ready = []
  -- Without the waker of the gate, the inner stream is polled next.
  gate : s.waker = true ∨ s.woken = true ∨ s.phase = .polls ∨ s.phase = .stores ∨ 0 < s.storing
  armed : s.phase.registered = true → s.task.Armed
  woken : s.phase.waits = true → s.woken = true → s.task.notified = true ∨ 0 < s.waking

namespace Inv

variable {s s' : State R} {a : Action R}

theorem start : Inv ({} : State R) :=
  ⟨rfl, by simp, .inr (.inl rfl), by simp [Phase.registered], by simp [Phase.waits]⟩

theorem becomesReady (h : Inv s) (item : R) : Inv (s.becomesReady item) := by
  have hi : s.yielded ++ (s.ready ++ [item]) = s.produced ++ [item] := by rw [← List.append_assoc, h.items]
  refine { h with items := hi, waker := nofun, gate := ?_ }
  have hg := h.gate
  cases hw : s.waker <;> simp_all [State.becomesReady]

theorem pollInner (h : Inv s) (hp : s.phase = .polls) : Inv s.pollInner := by
  have ha := h.armed (by rw [hp]; rfl)
  unfold State.pollInner
  split
  · next item rest hr =>
    have hi := h.items
    rw [hr] at hi
    have hw : s.waker ≠ true := fun hw => nomatch hr.symm.trans (h.waker hw)
    exact ⟨by simpa using hi, fun hw' => absurd hw' hw, .inr (.inr (.inr (.inl rfl))), fun _ => ha, nofun⟩
  · next hr => exact ⟨h.items, fun _ => hr, .inl rfl, fun _ => ha, fun _ => h.woken (by rw [hp]; rfl)⟩

theorem step (h : Inv s) (hs : step s a = some s') : Inv s' := by
  cases a with
  | produce item =>
    cases hs
    exact h.becomesReady item
  | wakeByRef =>
    cases hs
    exact { h with gate := .inr (.inr (.inr (.inr (Nat.succ_pos _)))) }
  | storeWoken =>
    obtain ⟨-, rfl⟩ := of_guard hs
    exact { h with gate := .inr (.inl rfl), woken := fun _ _ => .inr (Nat.succ_pos _) }
  | wakeTask =>
    obtain ⟨-, rfl⟩ := of_guard hs
    refine { h with armed := fun hr => (h.armed hr).wake, woken := fun hw _ => .inl ?_ }
    exact (h.armed (Phase.registered_of_waits hw)).wake_notified
  | pollNext =>
    simp only [WakeGate.step] at hs
    split at hs
    · next pending hp =>
      cases hs
      exact { h with gate := by simpa [hp] using h.gate, armed := nofun, woken := nofun }
    · cases hs
  | register =>
    obtain ⟨hp, rfl⟩ := of_guard hs
    exact { h with gate := by simpa [hp] using h.gate, armed := fun _ => s.task.armed_register, woken := nofun }
  | swap =>
    obtain ⟨hp, rfl⟩ := of_guard hs
    have ha := h.armed (by rw [hp]; rfl)
    refine { h with gate := ?_, armed := fun _ => ha, woken := nofun }
    have hg := h.gate
    cases hw : s.woken <;> simp_all
  | pollInner =>
    obtain ⟨hp, rfl⟩ := of_guard hs
    exact h.pollInner hp
  | store =>
    obtain ⟨-, rfl⟩ := of_guard hs
    exact { h with gate := .inr (.inl rfl), armed := nofun, woken := nofun }

end Inv

structure NeverHides (s : State R) : Prop where
  woken : s.ready ≠ [] → s.phase = .outside true →
    s.woken = true ∧ s.task.notified = true ∨ 0 < s.storing + s.waking
  items : s.yielded ++ s.ready = s.produced

/-- An inner stream that is ready behind a pending gate wakes the task, or is about to. -/
theorem gated_never_hides {actions : List (Action R)} {s : State R} (hrun : run step {} actions = some s) :
    NeverHides s := by
  have h : Inv s := run_induction (P := fun _ => Inv) .start (fun _ _ _ _ h hs => h.step hs) hrun
  refine ⟨fun hready hp => ?_, h.items⟩
  rcases h.gate with hw | hw | hw | hw | hw
  · exact absurd (h.waker hw) hready
  · rcases h.woken (by rw [hp]; rfl) hw with hn | hn
    · exact .inl ⟨hw, hn⟩
    · exact .inr (by omega)
  · exact nomatch hp.symm.trans hw
  · exact nomatch hp.symm.trans hw
  · exact .inr (by omega)

/-- The inner stream becomes ready while the task polls for another reason, and the task is polled again. -/
theorem gated_never_hides_polled :
    let actions : List (Action Nat) := [.pollNext, .register, .swap, .pollInner, .pollNext, .register, .produce 7,
      .swap, .storeWoken, .wakeTask]
    ∃ s, run step {} actions = some s ∧ s.ready = [7] ∧ s.phase = .outside true ∧ NeverHides s :=
  ⟨_, rfl, rfl, rfl, @gated_never_hides _ [.pollNext, .register, .swap, .pollInner, .pollNext, .register, .produce 7,
    .swap, .storeWoken, .wakeTask] _ rfl⟩

end TrevRpc.Rust.WakeGate
