import Mathlib.Logic.Function.Basic
import TrevRpc.Lib.Run

/-!
# The state a Rust channel publishes (`client/channel.rs`)

One slot is changed under its lock and published afterwards, in a step of its own, so two publishers can overtake each
other.
-/

open TrevRpc.Run

namespace TrevRpc.Rust.Channel

inductive ChannelPhase
  | ready
  | reconnecting
  | closed
  deriving DecidableEq

structure ChannelState where
  phase : ChannelPhase
  generation : Nat
  reconnectAttempt : Option Nat
  deriving DecidableEq

variable {Transport : Type}

structure Slot (Transport : Type) where
  state : ChannelState
  transport : Option Transport

/-! ## The locked updates -/

/-- The new slot, whose state is published next, or `none` when the update changes nothing. -/
def beginReconnect (slot : Slot Transport) : Option (Slot Transport) :=
  if slot.state.phase = .closed then none
  else some
    { state := { slot.state with phase := .reconnecting, reconnectAttempt := some 1 }
      transport := none }

def reconnectAttempt (generation attempt : Nat) (slot : Slot Transport) : Option (Slot Transport) :=
  if slot.state.phase ≠ .reconnecting ∨ slot.state.generation ≠ generation then none
  else some { slot with state := { slot.state with reconnectAttempt := some attempt } }

-- `u64::saturating_add` of the generation and `u32::saturating_add` of the attempt.
def nextGeneration (generation : Nat) : Nat := min (generation + 1) (2 ^ 64 - 1)
def nextAttempt (attempt : Nat) : Nat := min (attempt + 1) (2 ^ 32 - 1)

def install (previousGeneration : Nat) (transport : Transport) (slot : Slot Transport) :
    Option (Slot Transport) :=
  if slot.state.phase ≠ .reconnecting ∨ slot.state.generation ≠ previousGeneration then none
  else some
    { state := ⟨.ready, nextGeneration previousGeneration, none⟩
      transport := some transport }

def close (slot : Slot Transport) : Option (Slot Transport) :=
  if slot.state.phase = .closed then none
  else some
    { state := { slot.state with phase := .closed, reconnectAttempt := none }
      transport := none }

/-! ## The threads -/

/-- Where `supervise` is. A state with a `ChannelState` has not published it. -/
inductive Supervisor (Transport : Type)
  | watching
  | beginning
  | begun (state : ChannelState)
  | attempting (generation attempt : Nat)
  | attempted (generation attempt : Nat) (state : ChannelState)
  | sleeping (generation attempt : Nat)
  | dialing (generation attempt : Nat)
  | installing (generation : Nat) (transport : Transport)
  | installed (state : ChannelState)
  | stopped

def Supervisor.pending : Supervisor Transport → Option (ChannelState × Supervisor Transport)
  | .begun state => some (state, .attempting state.generation 1)
  | .attempted generation attempt state => some (state, .sleeping generation attempt)
  | .installed state => some (state, .watching)
  | _ => none

/-- Where one call of `Channel::close` is. -/
inductive Closer
  | idle
  | updated (state : ChannelState)
  | published
  | returned (closed : Bool)
  deriving DecidableEq

structure State (Transport : Type) where
  slot : Slot Transport
  watched : ChannelState
  supervisor : Supervisor Transport := .watching
  closers : Nat → Closer := fun _ => .idle
  /-- `shutdown.changed()` is ready: `true` was sent, or the channel's handles are gone. -/
  shutdown : Bool := false

def connect (transport : Transport) : State Transport where
  slot := ⟨⟨.ready, 1, none⟩, some transport⟩
  watched := ⟨.ready, 1, none⟩

inductive Action (Transport : Type)
  | lost
  | begins
  | attempts
  | slept
  | dialed (transport : Option Transport)
  | installs
  | publishes
  | stops
  | closes (caller : Nat)
  | closePublishes (caller : Nat)
  | closeReturns (caller : Nat)
  | dropsHandles

def State.update (s : State Transport) (slot : Option (Slot Transport))
    (next : ChannelState → Supervisor Transport) : State Transport :=
  match slot with
  | none => { s with supervisor := .stopped }
  | some slot => { s with slot, supervisor := next slot.state }

/-- One step of one thread. The supervisor polls `shutdown` first at each of its waits. -/
def step (s : State Transport) : Action Transport → Option (State Transport)
  | .lost =>
    match s.supervisor with
    | .watching => if s.shutdown then none else some { s with supervisor := .beginning }
    | _ => none
  | .begins =>
    match s.supervisor with
    | .beginning => some (s.update (beginReconnect s.slot) .begun)
    | _ => none
  | .attempts =>
    match s.supervisor with
    | .attempting generation attempt =>
      some (s.update (reconnectAttempt generation attempt s.slot) (.attempted generation attempt))
    | _ => none
  | .slept =>
    match s.supervisor with
    | .sleeping generation attempt =>
      if s.shutdown then none else some { s with supervisor := .dialing generation attempt }
    | _ => none
  | .dialed transport =>
    match s.supervisor, transport with
    | .dialing generation _, some transport =>
      if s.shutdown then none else some { s with supervisor := .installing generation transport }
    | .dialing generation attempt, none =>
      if s.shutdown then none
      else some { s with supervisor := .attempting generation (nextAttempt attempt) }
    | _, _ => none
  | .installs =>
    match s.supervisor with
    | .installing generation transport =>
      some (s.update (install generation transport s.slot) .installed)
    | _ => none
  | .publishes =>
    s.supervisor.pending.map fun (state, next) => { s with watched := state, supervisor := next }
  | .stops =>
    match s.supervisor with
    | .watching | .sleeping _ _ | .dialing _ _ =>
      if s.shutdown then some { s with supervisor := .stopped } else none
    | _ => none
  | .closes caller =>
    if s.closers caller = .idle then
      match close s.slot with
      | none => some { s with closers := Function.update s.closers caller (.returned false) }
      | some slot =>
        some { s with slot, closers := Function.update s.closers caller (.updated slot.state) }
    else none
  | .closePublishes caller =>
    match s.closers caller with
    | .updated state =>
      some { s with watched := state, closers := Function.update s.closers caller .published }
    | _ => none
  | .closeReturns caller =>
    if s.closers caller = .published then
      some { s with
        shutdown := true
        closers := Function.update s.closers caller (.returned true) }
    else none
  | .dropsHandles => some { s with shutdown := true }

def waitUntilReady (state : ChannelState) : Option (Except String Nat) :=
  match state.phase with
  | .ready => some (.ok state.generation)
  | .closed => some (.error "channel is closed")
  | .reconnecting => none

/-! ## What is published -/

def CloseInFlight (s : State Transport) : Prop := ∃ caller state, s.closers caller = .updated state

def Settled (s : State Transport) : Prop := s.supervisor.pending = none ∧ ¬ CloseInFlight s

/-- A settled channel shows its state. After a `close` it is `closed` for subscribers, and waiting fails. -/
def ShowsSlot (s : State Transport) : Prop :=
  (Settled s → s.watched = s.slot.state) ∧
    ∀ caller closed, s.closers caller = .returned closed → s.supervisor = .stopped → ¬ CloseInFlight s →
      s.watched.phase = .closed ∧ waitUntilReady s.watched = some (.error "channel is closed")

/-- The supervisor does not publish once a `close` has published. -/
def NotAfterClose (s : State Transport) : Action Transport → Prop
  | .publishes => s.slot.state.phase = .closed → CloseInFlight s
  | _ => True

/-! ## The invariant -/

structure Inv (s : State Transport) : Prop where
  pending_open : ∀ state next, s.supervisor.pending = some (state, next) → state.phase ≠ .closed
  idle_of_open : s.slot.state.phase ≠ .closed → ∀ caller, s.closers caller = .idle
  shown_of_open : s.slot.state.phase ≠ .closed → s.supervisor.pending = none → s.watched = s.slot.state
  pending_of_open : s.slot.state.phase ≠ .closed →
    ∀ state next, s.supervisor.pending = some (state, next) → state = s.slot.state
  closing : ∀ caller state, s.closers caller = .updated state → state = s.slot.state
  shown_of_closed : s.slot.state.phase = .closed → ¬ CloseInFlight s → s.watched = s.slot.state

variable {s s' : State Transport} {a : Action Transport}

theorem inv_connect (t : Transport) : Inv (connect t) := by
  constructor <;> simp [connect, Supervisor.pending]

variable {sup : Supervisor Transport}

theorem pending_next {next : Supervisor Transport} {st : ChannelState}
    (h : sup.pending = some (st, next)) : next.pending = none := by
  cases sup <;> simp only [Supervisor.pending, reduceCtorEq, Option.some.injEq, Prod.mk.injEq] at h
  all_goals
    obtain ⟨-, rfl⟩ := h
    rfl

theorem inv_move (h : Inv s) (hs : s.supervisor.pending = none)
    (hsup : sup.pending = none) : Inv { s with supervisor := sup } where
  __ := h
  pending_open := by simp [hsup]
  shown_of_open := fun ho _ => h.shown_of_open ho hs
  pending_of_open := by simp [hsup]

theorem inv_update {slot : Option (Slot Transport)} {next : ChannelState → Supervisor Transport}
    (h : Inv s) (hs : s.supervisor.pending = none)
    (hslot : ∀ new, slot = some new → s.slot.state.phase ≠ .closed ∧ new.state.phase ≠ .closed)
    (hn : ∀ st, ∃ af, (next st).pending = some (st, af)) : Inv (s.update slot next) := by
  cases slot with
  | none => exact inv_move h hs rfl
  | some new =>
    obtain ⟨ho, hnew⟩ := hslot new rfl
    obtain ⟨af, ha⟩ := hn new.state
    have hi := h.idle_of_open ho
    simp only [State.update]
    constructor
    · intro st n hp
      rw [ha] at hp
      cases hp
      exact hnew
    · exact fun _ => hi
    · intro _ hp
      rw [ha] at hp
      cases hp
    · intro _ st n hp
      rw [ha] at hp
      cases hp
      rfl
    · intro c st hc
      simp [hi c] at hc
    · exact fun hcl => absurd hcl hnew

variable {new slot : Slot Transport}

theorem beginReconnect_open (h : beginReconnect slot = some new) :
    slot.state.phase ≠ .closed ∧ new.state.phase ≠ .closed := by
  unfold beginReconnect at h
  split_ifs at h with hc
  cases h
  exact ⟨hc, by simp⟩

theorem reconnectAttempt_open {g attempt : Nat}
    (h : reconnectAttempt g attempt slot = some new) :
    slot.state.phase ≠ .closed ∧ new.state.phase ≠ .closed := by
  unfold reconnectAttempt at h
  split_ifs at h with hc
  push Not at hc
  cases h
  simp [hc.1]

theorem install_open {g : Nat} {t : Transport}
    (h : install g t slot = some new) :
    slot.state.phase ≠ .closed ∧ new.state.phase ≠ .closed := by
  unfold install at h
  split_ifs at h with hc
  push Not at hc
  cases h
  simp [hc.1]

theorem inv_publishes (h : Inv s) (hok : NotAfterClose s .publishes) (hs : step s .publishes = some s') : Inv s' := by
  simp only [step, Option.map_eq_some_iff] at hs
  obtain ⟨⟨st, next⟩, hp, rfl⟩ := hs
  have hn := pending_next hp
  constructor
  · simp [hn]
  · exact h.idle_of_open
  · intro ho _
    exact h.pending_of_open ho st next hp
  · simp [hn]
  · exact h.closing
  · intro hc hno
    exact absurd (hok hc) hno

variable {c : Nat}

theorem closed_of_closer (h : Inv s) (hc : s.closers c ≠ .idle) : s.slot.state.phase = .closed := by
  by_contra ho
  exact hc (h.idle_of_open ho c)

variable {ca : Nat}

theorem ne_of_update_updated {cs : Nat → Closer} {after : Closer} {state : ChannelState}
    (hafter : ∀ st, after ≠ .updated st) (h : Function.update cs ca after c = .updated state) :
    c ≠ ca ∧ cs c = .updated state := by
  by_cases hcc : c = ca
  · subst hcc
    rw [Function.update_self] at h
    exact absurd h (hafter state)
  · rw [Function.update_of_ne hcc] at h
    exact ⟨hcc, h⟩

theorem inv_of_closed (hclosed : s.slot.state.phase = .closed)
    (hp : ∀ state next, s.supervisor.pending = some (state, next) → state.phase ≠ .closed)
    (hc : ∀ caller state, s.closers caller = .updated state → state = s.slot.state)
    (hshown : ¬ CloseInFlight s → s.watched = s.slot.state) : Inv s :=
  ⟨hp, fun ho => absurd hclosed ho, fun ho => absurd hclosed ho, fun ho => absurd hclosed ho, hc, fun _ => hshown⟩

variable (h : Inv s)
include h

theorem inv_closer {caller : Nat} {after : Closer} {shutdown : Bool}
    (hclosed : s.slot.state.phase = .closed) (hf : ∀ st, s.closers caller ≠ .updated st)
    (hafter : ∀ st, after ≠ .updated st) :
    Inv { s with closers := Function.update s.closers caller after, shutdown } := by
  refine inv_of_closed hclosed h.pending_open (fun c sta hc => ?_) fun hn => ?_
  · exact h.closing c sta (ne_of_update_updated hafter hc).2
  · refine h.shown_of_closed hclosed ?_
    rintro ⟨c, sta, hin⟩
    apply hn
    have hcc : c ≠ caller := by
      rintro rfl
      exact hf sta hin
    exact ⟨c, sta, by simpa [hcc] using hin⟩

theorem inv_closes (hs : step s (.closes ca) = some s') : Inv s' := by
  simp only [step, close] at hs
  split_ifs at hs with hi hcl
  · cases hs
    exact inv_closer h hcl (by simp [hi]) (by simp)
  · cases hs
    have hall := h.idle_of_open hcl
    refine inv_of_closed rfl h.pending_open (fun c state hc => ?_) fun hn => ?_
    · by_cases hcc : c = ca
      · subst hcc
        simpa using hc.symm
      · simp [hcc, hall c] at hc
    · apply hn.elim
      exact ⟨ca, _, Function.update_self ..⟩

theorem inv_closePublishes (hs : step s (.closePublishes ca) = some s') : Inv s' := by
  simp only [step] at hs
  split at hs
  · rename_i state hup
    cases hs
    have hcl := closed_of_closer h (by rw [hup]; simp)
    refine inv_of_closed hcl h.pending_open (fun c st' hc => ?_) fun _ => h.closing ca state hup
    exact h.closing c st' (ne_of_update_updated (by simp) hc).2
  · cases hs

theorem inv_closeReturns (hs : step s (.closeReturns c) = some s') : Inv s' := by
  obtain ⟨hpub, rfl⟩ := of_guard hs
  have hc := closed_of_closer h (by rw [hpub]; simp : s.closers c ≠ .idle)
  exact inv_closer h hc (by simp [hpub]) (by simp)

theorem inv_step (hok : NotAfterClose s a) (hs : step s a = some s') : Inv s' := by
  cases a with
  | publishes => exact inv_publishes h hok hs
  | closes c => exact inv_closes h hs
  | closePublishes c => exact inv_closePublishes h hs
  | closeReturns c => exact inv_closeReturns h hs
  | dropsHandles =>
    cases hs
    exact { h with }
  | begins | attempts | installs =>
    simp only [step] at hs
    split at hs
    · rename_i hsup
      cases hs
      refine inv_update h (by simp [hsup, Supervisor.pending]) (fun _ hnew => ?_) fun _ => ⟨_, rfl⟩
      first
        | exact beginReconnect_open hnew
        | exact reconnectAttempt_open hnew
        | exact install_open hnew
    · cases hs
  | lost | slept | dialed _ | stops =>
    simp only [step] at hs
    split at hs
    all_goals try split_ifs at hs
    all_goals cases hs
    all_goals
      rename_i hsup _
      exact inv_move h (by simp [hsup, Supervisor.pending]) rfl

theorem showsSlot_of_inv : ShowsSlot s := by
  refine ⟨fun ⟨hsup, hn⟩ => ?_, fun caller closed hret _ hn => ?_⟩
  · by_cases hc : s.slot.state.phase = .closed
    · exact h.shown_of_closed hc hn
    · exact h.shown_of_open hc hsup
  · have hc := closed_of_closer h (by rw [hret]; simp)
    have hw : s.watched.phase = .closed := by rw [h.shown_of_closed hc hn, hc]
    exact ⟨hw, by simp [waitUntilReady, hw]⟩

theorem not_showsSlot_of_late (hbad : ¬ NotAfterClose s a) (hs : step s a = some s') : ¬ ShowsSlot s' := by
  cases a <;> simp only [NotAfterClose, not_true_eq_false] at hbad
  push Not at hbad
  obtain ⟨hc, hn⟩ := hbad
  simp only [step, Option.map_eq_some_iff] at hs
  obtain ⟨⟨st, next⟩, hp, rfl⟩ := hs
  intro hsh
  have hw : st = s.slot.state := hsh.1 ⟨pending_next hp, hn⟩
  exact h.pending_open st next hp (by rw [hw, hc])

omit h

/-! ## Whole runs -/

/-- Settled channels show their state, exactly if the supervisor never publishes after a `close` has. -/
theorem channel_showsSlot_iff (transport : Transport) (actions : List (Action Transport))
    (s : State Transport) (hrun : run step (connect transport) actions = some s) :
    Always (fun _ => ShowsSlot) step (connect transport) actions ↔
      Along NotAfterClose step (connect transport) actions := by
  apply always_iff_along (I := fun _ => Inv) (inv_connect transport) _ _ _ hrun
  · intro _ t h
    exact showsSlot_of_inv h
  · intro _ t a t' h hok hstep
    exact inv_step h hok hstep
  · intro _ t a t' h hbad hstep
    exact not_showsSlot_of_late h hbad hstep

theorem channel_reconnected_showsSlot :
    ∃ s, run step (connect 1)
        [.lost, .begins, .publishes, .attempts, .publishes, .slept, .dialed (some 2), .installs, .publishes,
          .closes 0, .closePublishes 0, .closeReturns 0, .stops] = some s ∧
      s.watched = ⟨.closed, 2, none⟩ ∧
      (Always (fun _ => ShowsSlot) step (connect 1)
          [.lost, .begins, .publishes, .attempts, .publishes, .slept, .dialed (some 2), .installs, .publishes,
            .closes 0, .closePublishes 0, .closeReturns 0, .stops] ↔
        Along NotAfterClose step (connect 1)
          [.lost, .begins, .publishes, .attempts, .publishes, .slept, .dialed (some 2), .installs, .publishes,
            .closes 0, .closePublishes 0, .closeReturns 0, .stops]) :=
  ⟨_, rfl, rfl, channel_showsSlot_iff 1 _ _ rfl⟩

/-- The channel is closed between the two steps of `begin_reconnect`: its subscribers wait forever. -/
theorem channel_late_publish_hides_close :
    ∃ s, run step (connect 1)
        [.lost, .begins, .closes 0, .closePublishes 0, .closeReturns 0, .publishes, .attempts] = some s ∧
      s.closers 0 = .returned true ∧ s.supervisor = .stopped ∧ s.slot.state = ⟨.closed, 1, none⟩ ∧
      s.watched = ⟨.reconnecting, 1, some 1⟩ ∧ waitUntilReady s.watched = none ∧ ¬ ShowsSlot s := by
  refine ⟨_, rfl, rfl, rfl, rfl, rfl, rfl, fun h => ?_⟩
  have hw := h.1 ⟨rfl, ?_⟩
  · cases hw
  · rintro ⟨caller, state, hc⟩
    match caller, hc with
    | 0, hc => cases hc
    | n + 1, hc => cases hc

end TrevRpc.Rust.Channel
