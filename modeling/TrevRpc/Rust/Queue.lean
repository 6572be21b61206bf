import TrevRpc.Lib.Effect
import TrevRpc.Lib.Run

/-!
# The bounded queue between tasks (`queue.rs`)

Every operation runs under the lock, and wakes the wakers that it took out of the state when it is done.
-/

open TrevRpc.Run

namespace TrevRpc.Rust.Queue

structure Limits where
  values : Nat
  bytes : Nat

/-- The other end of the queue is gone. -/
inductive Closed
  | closed

inductive TrySendError (T : Type)
  | full (value : T)
  | closed (value : T)

structure State (T W : Type) where
  queue : List (T × Nat) := []
  queuedBytes : Nat := 0
  senders : Nat := 1
  receiverOpen : Bool := true
  receiverWaker : Option W := none
  senderWakers : List W := []

structure Done (T W α : Type) where
  result : α
  state : State T W
  woken : List W := []

variable {T W : Type}

/-! ## The operations -/

namespace State

def hasRoom (limits : Limits) (s : State T W) : Bool :=
  s.queue.length < limits.values && s.queuedBytes < limits.bytes

/-- Wakes the receiver. A `usize` has 64 bits. -/
def push {α : Type} (s : State T W) (value : T) (size : Nat) (result : α) : Done T W α where
  result := result
  state :=
    { s with
      queuedBytes := min (s.queuedBytes + size) (2 ^ 64 - 1)
      queue := s.queue ++ [(value, size)]
      receiverWaker := none }
  woken := s.receiverWaker.toList

def trySend (limits : Limits) (value : T) (size : Nat) (s : State T W) : Done T W (Except (TrySendError T) Unit) :=
  if !s.receiverOpen then ⟨.error (.closed value), s, []⟩
  else if !s.hasRoom limits then ⟨.error (.full value), s, []⟩
  else s.push value size (.ok ())

def register [DecidableEq W] (wakers : List W) (waker : W) : List W :=
  if waker ∈ wakers then wakers else wakers ++ [waker]

/-- One poll of `send`, whose value is gone once it was queued. -/
def pollSend [DecidableEq W] (limits : Limits) (waker : W) (value : Option T) (size : Nat) (s : State T W) :
    Done T W (Poll (Except Closed Unit) × Option T) :=
  if !s.receiverOpen then ⟨(.ready (.error .closed), value), s, []⟩
  else if !s.hasRoom limits then
    ⟨(.pending, value), { s with senderWakers := register s.senderWakers waker }, []⟩
  else
    match value with
    | none => ⟨(.ready (.error .closed), none), s, []⟩
    | some value => s.push value size (.ready (.ok ()), none)

/-- One poll of `reserve`. The permit holds no space. -/
def pollReserve [DecidableEq W] (limits : Limits) (waker : W) (s : State T W) :
    Done T W (Poll (Except Closed Unit)) :=
  if !s.receiverOpen then ⟨.ready (.error .closed), s, []⟩
  else if s.hasRoom limits then ⟨.ready (.ok ()), s, []⟩
  else ⟨.pending, { s with senderWakers := register s.senderWakers waker }, []⟩

/-- `Permit::send` looks at no limit, and tells nobody if it drops the value. -/
def permitSend (value : T) (size : Nat) (s : State T W) : Done T W Bool :=
  if !s.receiverOpen then ⟨false, s, []⟩ else s.push value size true

def cloneSender (s : State T W) : State T W := { s with senders := min (s.senders + 1) (2 ^ 64 - 1) }

def dropSender (s : State T W) : Done T W Unit :=
  let s := { s with senders := s.senders - 1 }
  if s.senders = 0 then ⟨(), { s with receiverWaker := none }, s.receiverWaker.toList⟩ else ⟨(), s, []⟩

def pollPop (limits : Limits) (waker : Option W) (s : State T W) : Done T W (Poll (Option T)) :=
  match s.queue with
  | [] =>
    if s.senders = 0 then ⟨.ready none, s, []⟩
    else ⟨.pending, { s with receiverWaker := waker <|> s.receiverWaker }, []⟩
  | (value, size) :: queue =>
    let s := { s with queue, queuedBytes := s.queuedBytes - size }
    if s.hasRoom limits then ⟨.ready (some value), { s with senderWakers := [] }, s.senderWakers⟩
    else ⟨.ready (some value), s, []⟩

def dropReceiver (s : State T W) : Done T W Unit :=
  ⟨(), { s with receiverOpen := false, queuedBytes := 0, queue := [], senderWakers := [] }, s.senderWakers⟩

end State

/-! ## Tasks that share a queue -/

structure System (T W : Type) where
  state : State T W := {}
  sends : List (Option T × Nat) := []
  permits : Nat := 0
  accepted : List (T × Nat) := []
  received : List T := []
  /-- The tasks that a send or a reservation left pending, and that were not woken since. -/
  waiting : List W := []
  receiverWaiting : Option W := none

inductive Action (T W : Type)
  | clone
  | dropSender
  | trySend (value : T) (size : Nat)
  | send (value : T) (size : Nat)
  | pollSend (i : Nat) (waker : W)
  | pollReserve (waker : W)
  | permitSend (value : T) (size : Nat)
  | dropPermit
  | pollRecv (waker : W)
  | tryRecv
  | dropReceiver

namespace System

variable [DecidableEq W]

def after {α : Type} (s : System T W) (done : Done T W α) : System T W :=
  { s with
    state := done.state
    waiting := s.waiting.filter (· ∉ done.woken)
    receiverWaiting := s.receiverWaiting.filter (· ∉ done.woken) }

def pollSend (limits : Limits) (i : Nat) (waker : W) (value : Option T) (size : Nat) (s : System T W) : System T W :=
  let done := s.state.pollSend limits waker value size
  let s := { s.after done with sends := s.sends.set i (done.result.2, size) }
  match done.result.1, value with
  | .pending, _ => { s with waiting := waker :: s.waiting }
  | .ready (.ok ()), some value => { s with accepted := s.accepted ++ [(value, size)] }
  | .ready _, _ => s

def pollReserve (limits : Limits) (waker : W) (s : System T W) : System T W :=
  let done := s.state.pollReserve limits waker
  let s := s.after done
  match done.result with
  | .pending => { s with waiting := waker :: s.waiting }
  | .ready (.ok ()) => { s with permits := s.permits + 1 }
  | .ready (.error _) => s

def pollPop (limits : Limits) (waker : Option W) (s : System T W) : System T W :=
  let done := s.state.pollPop limits waker
  let s := s.after done
  match done.result with
  | .pending => { s with receiverWaiting := waker <|> s.receiverWaiting }
  | .ready (some value) => { s with received := s.received ++ [value] }
  | .ready none => s

end System

/-- One operation of one task. -/
def step [DecidableEq W] (limits : Limits) (s : System T W) : Action T W → Option (System T W)
  | .clone => if s.state.senders = 0 then none else some { s with state := s.state.cloneSender }
  | .dropSender => if s.state.senders = 0 then none else some (s.after s.state.dropSender)
  | .trySend value size =>
    if s.state.senders = 0 then none
    else
      let done := s.state.trySend limits value size
      match done.result with
      | .ok () => some { s.after done with accepted := s.accepted ++ [(value, size)] }
      | .error _ => some (s.after done)
  | .send value size =>
    if s.state.senders = 0 then none else some { s with sends := s.sends ++ [(some value, size)] }
  | .pollSend i waker =>
    match s.sends[i]? with
    | none => none
    | some (value, size) => if s.state.senders = 0 then none else some (s.pollSend limits i waker value size)
  | .pollReserve waker => if s.state.senders = 0 then none else some (s.pollReserve limits waker)
  | .permitSend value size =>
    if s.state.senders = 0 ∨ s.permits = 0 then none
    else
      let done := s.state.permitSend value size
      let s := { s.after done with permits := s.permits - 1 }
      if done.result then some { s with accepted := s.accepted ++ [(value, size)] } else some s
  | .dropPermit => if s.permits = 0 then none else some { s with permits := s.permits - 1 }
  | .pollRecv waker => if s.state.receiverOpen then some (s.pollPop limits (some waker)) else none
  | .tryRecv => if s.state.receiverOpen then some (s.pollPop limits none) else none
  | .dropReceiver =>
    if s.state.receiverOpen then some { s.after s.state.dropReceiver with receiverWaiting := none } else none

/-! ## What holds in every run -/

/-- A permit is used or dropped before anything else is queued. -/
def Action.OnePermit (s : System T W) : Action T W → Prop
  | .trySend .. | .pollSend .. => s.permits = 0
  | .permitSend .. => s.permits = 1
  | _ => True

/-- The bytes queued fit a `usize`. -/
def Action.Fits (s : System T W) : Action T W → Prop
  | .trySend _ size | .permitSend _ size => s.state.queuedBytes + size < 2 ^ 64
  | .pollSend i _ => ∀ send ∈ s.sends[i]?, s.state.queuedBytes + send.2 < 2 ^ 64
  | _ => True

@[simp] theorem System.after_woken_nil [DecidableEq W] {α : Type} (s : System T W) (r : α) (state : State T W) :
    s.after ⟨r, state, []⟩ = { s with state } := by
  unfold System.after
  cases s.receiverWaiting <;> simp

/-- The limits need `one` permit at a time, and the sum needs sizes that `fit`. -/
structure Inv (limits : Limits) (one fit : Prop) (s : System T W) : Prop where
  order : s.state.receiverOpen = true → s.accepted.map Prod.fst = s.received ++ s.state.queue.map Prod.fst
  received : s.received <+: s.accepted.map Prod.fst
  count : one → s.state.queue.length ≤ limits.values
  bytes : fit → s.state.queuedBytes = (s.state.queue.map Prod.snd).sum
  bytes_le : s.state.queuedBytes ≤ 2 ^ 64 - 1
  bytes_lt : one → ∀ last ∈ s.accepted.getLast?, s.state.queuedBytes < limits.bytes + last.2
  waiting : ∀ waker ∈ s.waiting, waker ∈ s.state.senderWakers
  full : s.state.senderWakers ≠ [] → s.state.hasRoom limits = false
  receiverWaiting : ∀ waker ∈ s.receiverWaiting, s.state.receiverWaker = some waker
  empty : s.state.receiverWaker ≠ none → s.state.queue = [] ∧ 0 < s.state.senders
  room : one → 0 < s.permits → s.state.receiverOpen = true → s.state.hasRoom limits = true

theorem State.hasRoom_iff {limits : Limits} {s : State T W} :
    s.hasRoom limits = true ↔ s.queue.length < limits.values ∧ s.queuedBytes < limits.bytes := by
  simp [State.hasRoom]

theorem State.hasRoom_push {α : Type} {limits : Limits} {s : State T W} (v : T) (size : Nat) (r : α)
    (hle : s.queuedBytes ≤ 2 ^ 64 - 1) (h : s.hasRoom limits = false) :
    (s.push v size r).state.hasRoom limits = false := by
  rw [← Bool.not_eq_true, hasRoom_iff] at h ⊢
  simp only [push, List.length_append, List.length_singleton]
  omega

theorem State.permitSend_queue (v : T) (size : Nat) (s : State T W) :
    (s.permitSend v size).state.queue = if s.receiverOpen then s.queue ++ [(v, size)] else s.queue := by
  unfold State.permitSend
  cases s.receiverOpen <;> rfl

@[simp] theorem State.permitSend_receiverOpen (v : T) (size : Nat) (s : State T W) :
    (s.permitSend v size).state.receiverOpen = s.receiverOpen := by
  unfold State.permitSend
  split <;> rfl

@[simp] theorem State.dropSender_queue (s : State T W) : s.dropSender.state.queue = s.queue := by
  unfold State.dropSender
  dsimp only
  split <;> rfl

@[simp] theorem State.dropSender_receiverOpen (s : State T W) : s.dropSender.state.receiverOpen = s.receiverOpen := by
  unfold State.dropSender
  dsimp only
  split <;> rfl

theorem State.mem_register [DecidableEq W] {ws : List W} {waker w : W} :
    w ∈ State.register ws waker ↔ w ∈ ws ∨ w = waker := by
  unfold State.register
  split_ifs with h
  · constructor
    · exact .inl
    · rintro (hw | rfl)
      · exact hw
      · exact h
  · simp

namespace Inv

variable {limits : Limits} {one fit : Prop} {s : System T W}

theorem start : Inv limits one fit ({} : System T W) where
  order _ := rfl
  received := List.prefix_rfl
  count _ := Nat.zero_le _
  bytes _ := rfl
  bytes_le := Nat.zero_le _
  bytes_lt := by simp
  waiting := by simp
  full := by simp
  receiverWaiting := by simp
  empty := by simp
  room := by simp

variable (h : Inv limits one fit s)
include h

theorem sends (sends : List (Option T × Nat)) : Inv limits one fit { s with sends } :=
  { h with }

theorem permits {permits : Nat} (hr : one → 0 < permits → s.state.hasRoom limits = true) :
    Inv limits one fit { s with permits } :=
  { h with room := fun ho hp _ => hr ho hp }

theorem senders {senders : Nat} (hs : 0 < senders) : Inv limits one fit { s with state := { s.state with senders } } :=
  { h with empty := fun hw => ⟨(h.empty hw).1, hs⟩ }

theorem parkReceiver (w : Option W) (hempty : s.state.queue = []) (hs : 0 < s.state.senders) :
    Inv limits one fit
      { s with
        state := { s.state with receiverWaker := w <|> s.state.receiverWaker }
        receiverWaiting := w <|> s.receiverWaiting } :=
  { h with
    receiverWaiting := by
      cases w with
      | none => exact h.receiverWaiting
      | some w => simp
    empty := fun _ => ⟨hempty, hs⟩ }

omit h

variable [DecidableEq W]

variable (h : Inv limits one fit s)
include h

theorem push {α : Type} {value : T} {size : Nat} {r : α} {permits : Nat}
    (hr : one → s.state.hasRoom limits = true) (hf : fit → s.state.queuedBytes + size < 2 ^ 64)
    (hp : one → permits = 0) :
    Inv limits one fit
      { s.after (s.state.push value size r) with accepted := s.accepted ++ [(value, size)], permits } := by
  refine ⟨?_, ?_, fun ho => ?_, fun hfit => ?_, Nat.min_le_right _ _, fun ho => ?_, ?_, ?_, ?_,
    by simp [System.after, State.push], fun ho hpos => ?_⟩
  · intro ho
    simp [System.after, State.push, h.order ho]
  · simp only [System.after, List.map_append]
    exact h.received.trans (List.prefix_append _ _)
  · have hc := (State.hasRoom_iff.mp (hr ho)).1
    simp only [System.after, State.push, List.length_append, List.length_singleton]
    omega
  · have hsum : min (s.state.queuedBytes + size) (2 ^ 64 - 1) = s.state.queuedBytes + size := by
      have := hf hfit
      omega
    simp only [System.after, State.push, hsum, List.map_append, List.sum_append, ← h.bytes hfit]
    simp
  · have hb := (State.hasRoom_iff.mp (hr ho)).2
    simp only [System.after, State.push, List.getLast?_concat, Option.mem_def, Option.some.injEq]
    rintro last rfl
    exact (Nat.min_le_left _ _).trans_lt (by simpa using hb)
  · intro w hw
    exact h.waiting w (List.mem_filter.mp hw).1
  · intro hne
    exact State.hasRoom_push value size r h.bytes_le (h.full hne)
  · intro w hw
    obtain ⟨hwa, hwo⟩ := Option.filter_eq_some_iff.mp hw
    simp [State.push, h.receiverWaiting w hwa] at hwo
  · simp [hp ho] at hpos

theorem park (waker : W) (hr : s.state.hasRoom limits = false) :
    Inv limits one fit
      { s with
        state := { s.state with senderWakers := State.register s.state.senderWakers waker }
        waiting := waker :: s.waiting } :=
  { h with
    waiting := by
      intro w hw
      rcases List.mem_cons.mp hw with rfl | hw
      · exact State.mem_register.mpr (.inr rfl)
      · exact State.mem_register.mpr (.inl (h.waiting w hw))
    full := fun _ => hr }

theorem pop (hop : s.state.receiverOpen = true) {v : T} {size : Nat} {queue : List (T × Nat)}
    (hq : s.state.queue = (v, size) :: queue) (waker : Option W) :
    Inv limits one fit { s.after (s.state.pollPop limits waker) with received := s.received ++ [v] } := by
  have hb (hfit : fit) : s.state.queuedBytes - size = (queue.map Prod.snd).sum := by
    rw [h.bytes hfit, hq]
    simp
  have hc (ho : one) : queue.length ≤ limits.values := by
    have hc := h.count ho
    rw [hq, List.length_cons] at hc
    omega
  have hn : s.state.receiverWaker = none := by
    by_contra hne
    rw [(h.empty hne).1] at hq
    cases hq
  have ho : s.accepted.map Prod.fst = (s.received ++ [v]) ++ queue.map Prod.fst := by
    rw [h.order hop, hq]
    simp
  have hnotWaiting : s.receiverWaiting = none := by
    cases hwa : s.receiverWaiting with
    | none => rfl
    | some waker => exact absurd (hn ▸ h.receiverWaiting waker hwa) (by simp)
  have hle : s.state.queuedBytes - size ≤ 2 ^ 64 - 1 := (Nat.sub_le _ _).trans h.bytes_le
  have hlt (ho : one) (last) (hl : last ∈ s.accepted.getLast?) : s.state.queuedBytes - size < limits.bytes + last.2 :=
    lt_of_le_of_lt (Nat.sub_le _ _) (h.bytes_lt ho last hl)
  have hr (ho : one) (hp : 0 < s.permits) :
      ({ s.state with queue, queuedBytes := s.state.queuedBytes - size } : State T W).hasRoom limits = true := by
    have hbefore := State.hasRoom_iff.mp (h.room ho hp hop)
    rw [hq, List.length_cons] at hbefore
    exact State.hasRoom_iff.mpr ⟨by simp; omega, by simp; omega⟩
  unfold State.pollPop
  rw [hq]
  simp only
  split_ifs with hs
  · refine ⟨fun _ => ho, ho ▸ List.prefix_append _ _, hc, hb, hle, hlt, ?_, by simp [System.after], ?_, ?_,
      fun ho hp _ => hr ho hp⟩
    · intro w hw
      obtain ⟨hwa, hwo⟩ := List.mem_filter.mp hw
      simp [h.waiting w hwa] at hwo
    · simp [System.after, hnotWaiting]
    · intro hne
      exact absurd hn hne
  · refine ⟨fun _ => ho, ho ▸ List.prefix_append _ _, hc, hb, hle, hlt, ?_, ?_, ?_, ?_, fun ho hp _ => hr ho hp⟩
    · intro w hw
      exact h.waiting w (List.mem_filter.mp hw).1
    · intro _
      simpa using hs
    · simp [System.after, hnotWaiting]
    · intro hne
      exact absurd hn hne

theorem dropSender : Inv limits one fit (s.after s.state.dropSender) := by
  unfold State.dropSender
  simp only
  split_ifs with hlast
  · refine { h with waiting := ?_, receiverWaiting := ?_, empty := by simp [System.after] }
    · intro w hw
      exact h.waiting w (List.mem_filter.mp hw).1
    · intro w hw
      obtain ⟨hwa, hwo⟩ := Option.filter_eq_some_iff.mp hw
      simp [h.receiverWaiting w hwa] at hwo
  · rw [System.after_woken_nil]
    exact h.senders (by omega)

theorem dropReceiver : Inv limits one fit { s.after s.state.dropReceiver with receiverWaiting := none } where
  order := by simp [System.after, State.dropReceiver]
  received := h.received
  count _ := Nat.zero_le _
  bytes _ := rfl
  bytes_le := Nat.zero_le _
  bytes_lt := by
    intro ho last hl
    exact lt_of_le_of_lt (Nat.zero_le _) (h.bytes_lt ho last hl)
  waiting := by
    intro w hw
    obtain ⟨hwt, hwo⟩ := List.mem_filter.mp hw
    simp [State.dropReceiver, h.waiting w hwt] at hwo
  full := by simp [System.after, State.dropReceiver]
  receiverWaiting := by simp
  empty := fun hwa => ⟨rfl, (h.empty hwa).2⟩
  room := by simp [System.after, State.dropReceiver]

theorem pollPop (ho : s.state.receiverOpen = true) (w : Option W) : Inv limits one fit (s.pollPop limits w) := by
  unfold System.pollPop
  cases hq : s.state.queue with
  | cons head queue =>
    have hpop := h.pop ho hq w
    unfold State.pollPop at hpop ⊢
    rw [hq] at hpop ⊢
    simp only at hpop ⊢
    split_ifs at hpop ⊢ <;> exact hpop
  | nil =>
    unfold State.pollPop
    rw [hq]
    simp only
    split_ifs with hs
    · simpa using h
    · simpa [hq] using h.parkReceiver w hq (Nat.pos_of_ne_zero hs)

theorem step {a : Action T W} {s' : System T W} (hone : one → a.OnePermit s) (hfit : fit → a.Fits s)
    (hs : Queue.step limits s a = some s') : Inv limits one fit s' := by
  cases a with
  | clone =>
    simp only [Queue.step] at hs
    split_ifs at hs with hse
    cases hs
    exact h.senders (Nat.lt_min.mpr ⟨Nat.succ_pos _, by omega⟩)
  | dropSender =>
    simp only [Queue.step] at hs
    split_ifs at hs
    cases hs
    exact h.dropSender
  | trySend v size =>
    simp only [Queue.step, State.trySend] at hs
    split_ifs at hs with hse hc hr
    · cases hs
      simpa using h
    · cases hs
      simpa using h
    · cases hs
      exact h.push (fun _ => by simpa using hr) hfit hone
  | send v size =>
    simp only [Queue.step] at hs
    split_ifs at hs
    cases hs
    exact h.sends _
  | pollSend i w =>
    simp only [Queue.step] at hs
    split at hs
    · cases hs
    · next v size hsn =>
      split_ifs at hs
      cases hs
      unfold System.pollSend State.pollSend
      split_ifs with hc hr
      · simpa using h.sends _
      · simpa using (h.park w (by simpa using hr)).sends _
      · cases v with
        | none => simpa using h.sends _
        | some v => exact (h.push (fun _ => by simpa using hr) (fun hf => hfit hf _ hsn) hone).sends _
  | pollReserve w =>
    simp only [Queue.step] at hs
    split_ifs at hs
    cases hs
    unfold System.pollReserve State.pollReserve
    split_ifs with hc hr
    · simpa using h
    · simpa using h.permits fun _ _ => hr
    · simpa using h.park w (by simpa using hr)
  | permitSend v size =>
    have hp (ho : one) : s.permits - 1 = 0 := by rw [show s.permits = 1 from hone ho]
    simp only [Queue.step] at hs
    cases ho : s.state.receiverOpen with
    | false =>
      have hd : s.state.permitSend v size = ⟨false, s.state, []⟩ := by simp [State.permitSend, ho]
      simp only [hd, Bool.false_eq_true, if_false] at hs
      split_ifs at hs
      cases hs
      simpa using h.permits fun ho hpos => absurd (hp ho) hpos.ne'
    | true =>
      have hps : s.state.permitSend v size = s.state.push v size true := by simp [State.permitSend, ho]
      rw [hps] at hs
      split_ifs at hs with hgone hpu
      · cases hs
        exact h.push (fun h1 => h.room h1 (Nat.pos_of_ne_zero (not_or.mp hgone).2) ho) hfit hp
      · exact absurd rfl hpu
  | dropPermit =>
    simp only [Queue.step] at hs
    split_ifs at hs with hsm
    cases hs
    exact { h with room := fun ho hp => h.room ho (by simp at hp; omega) }
  | pollRecv w | tryRecv =>
    simp only [Queue.step] at hs
    split_ifs at hs with ho
    cases hs
    exact h.pollPop ho _
  | dropReceiver =>
    simp only [Queue.step] at hs
    split_ifs at hs
    cases hs
    exact h.dropReceiver

end Inv

theorem inv_run [DecidableEq W] {limits : Limits} {actions : List (Action T W)} {one fit : Prop} {s : System T W}
    (ho : one → Along (fun s a => a.OnePermit s) (step limits) {} actions)
    (hf : fit → Along (fun s a => a.Fits s) (step limits) {} actions) (hrun : run (step limits) {} actions = some s) :
    Inv limits one fit s :=
  run_induction_along (P := fun _ => Inv limits one fit) .start (fun _ _ _ _ h hok hs => h.step hok.1 hok.2 hs)
    (along_and (along_of_imp ho) (along_of_imp hf)) hrun

/-- Nothing is lost, reordered or doubled, the limits hold, and nobody waits for what has happened. -/
theorem queue_fifo [DecidableEq W] (limits : Limits) {actions : List (Action T W)} {s : System T W}
    (hrun : run (step limits) {} actions = some s) :
    (s.state.receiverOpen = true → s.accepted.map Prod.fst = s.received ++ s.state.queue.map Prod.fst) ∧
      s.received <+: s.accepted.map Prod.fst ∧
      (Along (fun s a => a.OnePermit s) (step limits) {} actions → s.state.queue.length ≤ limits.values ∧
        ∀ last ∈ s.accepted.getLast?, s.state.queuedBytes < limits.bytes + last.2) ∧
      (Along (fun s a => a.Fits s) (step limits) {} actions →
        s.state.queuedBytes = (s.state.queue.map Prod.snd).sum) ∧
      (∀ waker ∈ s.waiting, s.state.hasRoom limits = false) ∧
      (∀ waker ∈ s.receiverWaiting, s.state.queue = [] ∧ 0 < s.state.senders) := by
  have h := inv_run id id hrun
  refine ⟨h.order, h.received, fun hone => ⟨h.count hone, h.bytes_lt hone⟩, h.bytes, fun waker hwaker => ?_,
    fun waker hwaker => ?_⟩
  · exact h.full (List.ne_nil_of_mem (h.waiting waker hwaker))
  · exact h.empty (by simp [h.receiverWaiting waker hwaker])

instance (s : System T W) : (a : Action T W) → Decidable (a.OnePermit s)
  | .trySend .. | .pollSend .. | .permitSend .. => inferInstanceAs (Decidable (_ = _))
  | .clone | .dropSender | .send _ _ | .pollReserve _ | .dropPermit | .pollRecv _ | .tryRecv | .dropReceiver =>
    isTrue trivial

def oneByOne : List (Action Nat Nat) :=
  [.clone, .trySend 1 4, .send 2 4, .pollSend 0 7, .tryRecv, .pollSend 0 7, .pollRecv 8, .pollRecv 8]

theorem queue_fifo_one_by_one :
    ∃ s, run (step ⟨1, 10⟩) {} oneByOne = some s ∧ s.received = [1, 2] ∧ s.receiverWaiting = some 8 ∧
      s.received <+: s.accepted.map Prod.fst ∧ s.state.queue.length ≤ 1 := by
  have hone : Along (fun s a => a.OnePermit s) (step ⟨1, 10⟩) {} oneByOne := by decide
  obtain ⟨s, hs⟩ : ∃ s, run (step ⟨1, 10⟩) {} oneByOne = some s := ⟨_, rfl⟩
  obtain ⟨-, hreceived, hlimits, -⟩ := queue_fifo ⟨1, 10⟩ hs
  cases hs
  exact ⟨_, rfl, rfl, rfl, hreceived, (hlimits hone).1⟩

/-- Two permits for the room of one value queue two. -/
theorem permits_exceed_limit :
    ∃ s, run (step ⟨1, 10⟩) ({} : System Nat Nat)
        [.pollReserve 7, .pollReserve 7, .permitSend 1 4, .permitSend 2 4] = some s ∧
      ¬ s.state.queue.length ≤ 1 :=
  ⟨_, rfl, by decide⟩

end TrevRpc.Rust.Queue
