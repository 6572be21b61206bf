import TrevRpc.Rust.Framing
import TrevRpc.Rust.Queue

/-!
# The request side of a call (`request_pump.rs`)

When the pump ends it stops the request side, leaves it to `discard_request`, or lets it be because it is over. A call
with a single request reads its end without a task (`UnaryRequestEnd`). A step is what a task does up to its next
`await`.
-/

open TrevRpc.Run

namespace TrevRpc.Rust.RequestPump

/-! ## Ends and failures of the request side -/

inductive TransportFailureKind
  | peerReset
  | connectionLost
  | protocol
  deriving DecidableEq

inductive ReadError
  | status (status : Status)
  | transport (kind : Option TransportFailureKind) (status : Status)
  deriving DecidableEq

inductive RequestPumpFailure
  | protocol (status : Status)
  | peerReset (status : Status)
  | connectionLost (status : Status)
  deriving DecidableEq

inductive RequestPumpOutcome
  | cleanFin
  | locallyStopped
  | peerReset
  | connectionLost
  deriving DecidableEq

inductive RequestPumpSettle
  | responseCommitted
  | responseStopped
  | serverShutdown
  | connectionLost
  deriving DecidableEq

inductive RequestTransportEvent
  | peerReset (status : Status)
  | connectionLost (status : Status)
  deriving DecidableEq

inductive RequestPumpState
  | receiving
  | failed (failure : RequestPumpFailure)
  | settled (outcome : RequestPumpOutcome)
  deriving DecidableEq

def classifyError : ReadError → RequestPumpFailure
  | .status status => .protocol status
  | .transport (some .peerReset) status => .peerReset status
  | .transport (some .protocol) status => .protocol status
  | .transport none status => if status.code = .cancelled then .peerReset status else .connectionLost status
  | .transport (some .connectionLost) status => .connectionLost status

namespace RequestPumpFailure

def status : RequestPumpFailure → Status
  | .protocol status | .peerReset status | .connectionLost status => status

def isProtocol : RequestPumpFailure → Bool
  | .protocol _ => true
  | _ => false

def outcome : RequestPumpFailure → RequestPumpOutcome
  | .peerReset _ => .peerReset
  | .connectionLost _ => .connectionLost
  | .protocol _ => .locallyStopped

end RequestPumpFailure

def RequestTransportEvent.failure : RequestTransportEvent → RequestPumpFailure
  | .peerReset status => .peerReset status
  | .connectionLost status => .connectionLost status

/-- How the request side came to its end. -/
inductive End
  | clean
  | reset
  | lost
  deriving DecidableEq

/-- A transport error that is not one of the protocol is an end, even if it says no more. -/
def ReadError.ends : ReadError → Option End
  | .status _ | .transport (some .protocol) _ => none
  | .transport (some .peerReset) _ => some .reset
  | .transport (some .connectionLost) _ | .transport none _ => some .lost

def RequestTransportEvent.ends : RequestTransportEvent → End
  | .peerReset _ => .reset
  | .connectionLost _ => .lost

def RequestPumpSettle.ends : RequestPumpSettle → Option End
  | .connectionLost => some .lost
  | _ => none

/-! ## The budget -/

structure RequestBudget where
  maxMessages : Option Nat := none
  maxBodySize : Option Nat := none
  messages : Nat := 0
  bodySize : Nat := 0
  deriving DecidableEq

namespace RequestBudget

/-- `charge_skipped`. The budget is charged even when it fails. A `usize` has 64 bits. -/
def chargeSkipped (b : RequestBudget) (wireLen : Nat) : Option Status × RequestBudget :=
  let b := { b with bodySize := min (b.bodySize + wireLen) (2 ^ 64 - 1) }
  match b.maxBodySize with
  | some max =>
    if max < b.bodySize then
      (some { code := .resourceExhausted, message := s!"request stream exceeded maximum body size of {max} bytes" }, b)
    else (none, b)
  | none => (none, b)

def chargeMessage (b : RequestBudget) (len : Nat) : Option Status × RequestBudget :=
  match b.maxMessages.filter (· ≤ b.messages) with
  | some max =>
    (some { code := .resourceExhausted, message := s!"request stream exceeded maximum of {max} messages" }, b)
  | none => { b with messages := min (b.messages + 1) (2 ^ 64 - 1) }.chargeSkipped len

def chargeAll (b : RequestBudget) : List Nat → Option Status × RequestBudget
  | [] => (none, b)
  | wireLen :: rest =>
    match b.chargeSkipped wireLen with
    | (some status, b) => (some status, b)
    | (none, b) => b.chargeAll rest

def read {α : Type} (b : RequestBudget) (skipped : List Nat) (result : Except ReadError α) :
    Except ReadError α × RequestBudget :=
  match b.chargeAll skipped with
  | (some status, b) => (.error (.status status), b)
  | (none, b) => (result, b)

end RequestBudget

/-! ## The reader -/

/-- `PumpReaderGuard`, and what was done with its reader. -/
structure PumpReaderGuard where
  settled : Bool := false
  discard : Bool := false
  stops : Nat := 0
  discards : Nat := 0
  deriving DecidableEq

namespace PumpReaderGuard

def stopTrevrpc (g : PumpReaderGuard) : PumpReaderGuard := { g with stops := g.stops + 1 }

def drop (g : PumpReaderGuard) : PumpReaderGuard :=
  if g.discard then { g with discards := g.discards + 1 } else if !g.settled then g.stopTrevrpc else g

def settleReader (g : PumpReaderGuard) : RequestPumpSettle → PumpReaderGuard × RequestPumpOutcome
  | .connectionLost => ({ g with settled := true }, .connectionLost)
  | .responseCommitted => ({ g with settled := true, discard := true }, .locallyStopped)
  | .responseStopped | .serverShutdown => ({ g with settled := true }.stopTrevrpc, .locallyStopped)

end PumpReaderGuard

def discardLimit : Nat := 2 ^ 20

inductive DiscardRead
  | data (len : Nat)
  | ended (reason : End)
  deriving DecidableEq

/-- `discard_buffered`, over what the reads return without waiting. -/
def discardBuffered (discarded : Nat) (reads : List DiscardRead) : Option End :=
  if discardLimit < discarded then none
  else
    match reads with
    | [] => none
    | .ended reason :: _ => some reason
    | .data len :: rest => discardBuffered (min (discarded + len) (2 ^ 64 - 1)) rest

/-! ## The tasks -/

abbrev Item := Except Status Bytes

/-- `queue::MESSAGES`. -/
def messages : Queue.Limits := ⟨32, 64 * 1024⟩

inductive RequestInputKind
  | unary
  | streaming
  deriving DecidableEq

/-- Where a task is; until its first poll a spawned task holds the bare reader. -/
inductive Phase
  | spawned (kind : RequestInputKind)
  | reserving
  | reading
  | readingEnd
  | validating
  | failed (failure : RequestPumpFailure)
  | endReading
  | endValidating
  | endRead
  | finished
  deriving DecidableEq

/-- The phase after the first poll, which puts the reader under its guard. -/
def RequestInputKind.pump : RequestInputKind → Phase
  | .unary => .readingEnd
  | .streaming => .reserving

/-- The call's handle of the pump. -/
inductive Owner
  | holding
  | settling
  | gone
  deriving DecidableEq

/-- `discard_request`. -/
inductive Discard
  | idle
  | reading (discarded : Nat)
  | ended
  | stopped
  deriving DecidableEq

structure State where
  phase : Phase
  guard : PumpReaderGuard := {}
  budget : RequestBudget := {}
  body : Queue.State Item Unit := {}
  published : RequestPumpState := .receiving
  owner : Owner := .holding
  /-- The cell that the call is settled through, whose value the pump has not seen yet. -/
  settle : Option RequestPumpSettle := none
  unseen : Bool := false
  closed : Bool := false
  /-- The task is aborted at its next `await`. -/
  aborting : Bool := false
  /-- The task was aborted before its first poll, which drops the bare reader. -/
  bare : Bool := false
  discard : Discard := .idle
  ended : Option End := none
  read : List Bytes := []
  refused : Option Bytes := none
  received : List Item := []

namespace State

/-- The guard is dropped at the end of a task. -/
def drop (s : State) : State :=
  { s with
    phase := .finished
    guard := s.guard.drop
    body := s.body.dropSender.state
    discard := if s.guard.discard then .reading 0 else s.discard }

def dropSpawned (s : State) : State :=
  { s with phase := .finished, body := s.body.dropSender.state, bare := true }

/-- The end of `run_request_pump`. -/
def finish (outcome : RequestPumpOutcome) (s : State) : State := { s with published := .settled outcome }.drop

def settleReader (reason : RequestPumpSettle) (s : State) : State :=
  { s with guard := (s.guard.settleReader reason).1, ended := s.ended <|> reason.ends }.finish
    (s.guard.settleReader reason).2

def settled (reason : End) (s : State) : State :=
  { s with guard := { s.guard with settled := true }, ended := some reason }

/-- What the pump hears of an error. -/
def hears (error : ReadError) (s : State) : State := { s with ended := s.ended <|> error.ends }

/-- A pump in `fail_and_wait` sees how the call was settled. -/
def endWait (failure : RequestPumpFailure) (reason : RequestPumpSettle) (s : State) : State :=
  if failure.isProtocol then s.settleReader reason else s.finish failure.outcome

def fail (failure : RequestPumpFailure) (permit : Bool) (s : State) : State :=
  { s with
    phase := .failed failure
    guard := { s.guard with settled := s.guard.settled || !failure.isProtocol }
    published := .failed failure
    body := if permit then (s.body.permitSend (Except.error failure.status) 0).state else s.body
    unseen := false }

/-- `fail_and_wait` up to its first `await`. -/
def failAndWait (failure : RequestPumpFailure) (permit : Bool) (s : State) : State :=
  match s.settle with
  | some reason => (s.fail failure permit).endWait failure reason
  | none => s.fail failure permit

def look (s : State) : Option State :=
  if s.unseen = true ∨ s.closed = true then
    let seen := { s with unseen := false }
    match s.phase with
    | .reserving | .reading | .readingEnd => some (seen.settleReader (s.settle.getD .responseStopped))
    | .failed failure =>
      if s.settle = none ∧ s.unseen = true then some seen
      else some (seen.endWait failure (s.settle.getD .responseStopped))
    | _ => none
  else none

def frame (result : Except ReadError (Option Bytes)) (s : State) : State :=
  match result with
  | .ok (some body) =>
    let charged := s.budget.chargeMessage body.length
    let s := { s with read := s.read ++ [body], budget := charged.2 }
    match charged.1 with
    | some status => { s with refused := some body }.failAndWait (.protocol status) true
    | none => { s with phase := .reserving, body := (s.body.permitSend (Except.ok body) body.length).state }
  | .ok none => { s with phase := .validating }
  | .error error => (s.hears error).failAndWait (classifyError error) true

def endFailed (error : ReadError) (s : State) : State :=
  { s.hears error with
    phase := .endRead
    guard := { s.guard with settled := !(classifyError error).isProtocol } }

def settleEnd (reason : RequestPumpSettle) (reads : List DiscardRead) (s : State) : State :=
  if s.guard.settled then s.drop
  else
    match if reason = .responseCommitted then discardBuffered 0 reads else none with
    | some ended => (s.settled ended).drop
    | none => { s with guard := (s.guard.settleReader reason).1, ended := s.ended <|> reason.ends }.drop

def recv (s : State) : State :=
  let done := s.body.pollPop messages (some ())
  match done.result with
  | .ready (some item) => { s with body := done.state, received := s.received ++ [item] }
  | _ => { s with body := done.state }

end State

inductive Action
  | poll
  /-- The first arm of each `select!`. The call may be settled after it was polled. -/
  | look
  | reserve
  | event (event : Option RequestTransportEvent)
  | frame (skipped : List Nat) (result : Except ReadError (Option Bytes))
  | readEnd (skipped : List Nat) (result : Except ReadError Unit)
  | validated (result : Except ReadError Unit)
  | abort
  | settle (reason : RequestPumpSettle)
  | dropSettling
  | dropPump
  | settleEnd (reason : RequestPumpSettle) (reads : List DiscardRead)
  | dropEnd
  | recv
  | dropBody
  | discardRead (len : Nat)
  | discardEnd
  | discardTimeout

def step (s : State) : Action → Option State
  | .poll =>
    match s.phase with
    | .spawned kind => some { s with phase := kind.pump }
    | _ => none
  | .look => s.look
  | .reserve =>
    if s.phase = .reserving then
      if s.body.receiverOpen = false then
        some ({ s with guard := { s.guard.stopTrevrpc with settled := true } }.finish .locallyStopped)
      else if s.body.hasRoom messages then some { s with phase := .reading }
      else none
    else none
  | .event event =>
    if s.phase = .reserving then
      match event with
      | none => some s
      | some event => some ((s.settled event.ends).failAndWait event.failure false)
    else none
  | .frame skipped result =>
    if s.phase = .reading then
      let read := s.budget.read skipped result
      some ({ s with budget := read.2 }.frame read.1)
    else none
  | .readEnd skipped result =>
    let read := s.budget.read skipped result
    let charged := { s with budget := read.2 }
    match s.phase, read.1 with
    | .readingEnd, .ok () => some { charged with phase := .validating }
    | .readingEnd, .error error => some ((charged.hears error).failAndWait (classifyError error) false)
    | .endReading, .ok () => some { charged with phase := .endValidating }
    | .endReading, .error error => some (charged.endFailed error)
    | _, _ => none
  | .validated result =>
    match s.phase, result with
    | .validating, .ok () => some ((s.settled .clean).finish .cleanFin)
    | .validating, .error error => some ((s.hears error).failAndWait (classifyError error) false)
    | .endValidating, .ok () => some { s.settled .clean with phase := .endRead }
    | .endValidating, .error error => some (s.endFailed error)
    | _, _ => none
  | .abort =>
    if s.aborting = true then
      match s.phase with
      | .spawned _ => some s.dropSpawned
      | .finished => none
      | _ => some s.drop
    else none
  | .settle reason =>
    if s.owner = .holding then some { s with owner := .settling, settle := some reason, unseen := true } else none
  | .dropSettling =>
    if s.owner = .settling then
      some { s with owner := .gone, settle := some .responseStopped, unseen := true, closed := true }
    else none
  | .dropPump =>
    if s.owner = .holding then
      some { s with owner := .gone, settle := some .responseStopped, unseen := true, closed := true, aborting := true }
    else none
  | .settleEnd reason reads =>
    match s.phase with
    | .endReading | .endValidating | .endRead => some (s.settleEnd reason reads)
    | _ => none
  | .dropEnd =>
    match s.phase with
    | .endReading | .endValidating | .endRead => some s.drop
    | _ => none
  | .recv => if s.body.receiverOpen then some s.recv else none
  | .dropBody => if s.body.receiverOpen then some { s with body := s.body.dropReceiver.state } else none
  | .discardRead len =>
    match s.discard with
    | .reading discarded =>
      let discarded := min (discarded + len) (2 ^ 64 - 1)
      some { s with discard := if discardLimit < discarded then .stopped else .reading discarded }
    | _ => none
  | .discardEnd =>
    match s.discard with
    | .reading _ => some { s with discard := .ended }
    | _ => none
  | .discardTimeout =>
    match s.discard with
    | .reading _ => some { s with discard := .stopped }
    | _ => none

/-- What reads a call's requests. -/
inductive Input
  | pump (kind : RequestInputKind)
  /-- `UnaryRequestEnd`, which no pump runs for. -/
  | unaryEnd
  deriving DecidableEq

def start (input : Input) (budget : RequestBudget) : State :=
  match input with
  | .pump kind => { phase := .spawned kind, budget }
  | .unaryEnd => { phase := .endReading, budget, owner := .gone }

inductive Looks (s : State) : State → Prop
  | settles (hphase : s.phase = .reserving ∨ s.phase = .reading ∨ s.phase = .readingEnd) (reason : RequestPumpSettle) :
      Looks s ({ s with unseen := false }.settleReader reason)
  | waits (failure : RequestPumpFailure) (hphase : s.phase = .failed failure) (hnone : s.settle = none) :
      Looks s { s with unseen := false }
  | ends (failure : RequestPumpFailure) (hphase : s.phase = .failed failure) (reason : RequestPumpSettle) :
      Looks s ({ s with unseen := false }.endWait failure reason)

theorem look_looks {s s' : State} (hl : s.look = some s') : Looks s s' := by
  obtain ⟨-, hl⟩ := Option.ite_none_right_eq_some.mp hl
  dsimp only at hl
  split at hl
  · rename_i hp
    exact Option.some.inj hl ▸ .settles (.inl hp) _
  · rename_i hp
    exact Option.some.inj hl ▸ .settles (.inr (.inl hp)) _
  · rename_i hp
    exact Option.some.inj hl ▸ .settles (.inr (.inr hp)) _
  · rename_i failure hp
    split at hl
    · rename_i hn
      exact Option.some.inj hl ▸ .waits failure hp hn.1
    · exact Option.some.inj hl ▸ .ends failure hp _
  · cases hl

/-! ## What becomes of the reader -/

/-- A request side that was stopped, left to `discard_request`, let be or dropped, and only one of them. -/
inductive Disposed (s : State) : Prop
  | stopped (hstops : s.guard.stops = 1) (hdiscards : s.guard.discards = 0) (hended : s.ended = none)
      (hidle : s.discard = .idle) (hbare : s.bare = false)
  | discarded (hstops : s.guard.stops = 0) (hdiscards : s.guard.discards = 1) (hended : s.ended = none)
      (hstarted : s.discard ≠ .idle) (hbare : s.bare = false)
  | letBe (hstops : s.guard.stops = 0) (hdiscards : s.guard.discards = 0) (hended : s.ended.isSome = true)
      (hidle : s.discard = .idle) (hbare : s.bare = false)
  | dropped (hstops : s.guard.stops = 0) (hdiscards : s.guard.discards = 0) (hended : s.ended = none)
      (hidle : s.discard = .idle) (hbare : s.bare = true)

structure Held (s : State) : Prop where
  guard : s.guard = { settled := s.ended.isSome }
  idle : s.discard = .idle
  bare : s.bare = false

def Phase.isOpen : Phase → Bool
  | .spawned _ | .reserving | .reading | .readingEnd | .validating | .endReading | .endValidating => true
  | .failed failure => failure.isProtocol
  | .endRead | .finished => false

theorem Phase.ne_finished_of_isOpen {phase : Phase} (h : phase.isOpen = true) : phase ≠ .finished := by
  rintro rfl
  cases h

structure Custody (s : State) : Prop where
  held : s.phase ≠ .finished → Held s
  ended : s.phase.isOpen = true → s.ended = none
  failed : ∀ failure, s.phase = .failed failure → failure.isProtocol = !s.ended.isSome
  disposed : s.phase = .finished → Disposed s

variable {s s' : State}

theorem classifyError_isProtocol (error : ReadError) : (classifyError error).isProtocol = !error.ends.isSome := by
  rcases error with status | ⟨_ | kind, status⟩
  · rfl
  · simp only [classifyError]
    split_ifs <;> rfl
  · cases kind <;> rfl

namespace Held

theorem drop (h : Held s) : Disposed s.drop := by
  cases hen : s.ended with
  | none =>
    have hg : s.guard = {} := by rw [h.guard, hen]; rfl
    exact .stopped (by rw [State.drop, hg]; rfl) (by rw [State.drop, hg]; rfl) hen
      (by simp [State.drop, hg, h.idle]) h.bare
  | some reason =>
    have hg : s.guard = { settled := true } := by rw [h.guard, hen]; rfl
    exact .letBe (by rw [State.drop, hg]; rfl) (by rw [State.drop, hg]; rfl) (by rw [State.drop, hen]; rfl)
      (by simp [State.drop, hg, h.idle]) h.bare

theorem settleReader (h : Held s) (hended : s.ended = none) (reason : RequestPumpSettle) :
    Disposed { s with guard := (s.guard.settleReader reason).1, ended := s.ended <|> reason.ends }.drop := by
  have hg : s.guard = {} := by rw [h.guard, hended]; rfl
  rw [hg, hended]
  cases reason with
  | connectionLost => exact .letBe rfl rfl rfl h.idle h.bare
  | responseCommitted => exact .discarded rfl rfl rfl nofun h.bare
  | responseStopped | serverShutdown => exact .stopped rfl rfl rfl h.idle h.bare

theorem settled (h : Held s) (reason : End) : Held (s.settled reason) where
  guard := by simp [State.settled, h.guard]
  idle := h.idle
  bare := h.bare

end Held

attribute [local simp] Phase.isOpen

namespace Custody

theorem of_finished (hp : s.phase = .finished) (h : Disposed s) : Custody s where
  held hr := absurd hp hr
  ended ho := by simp [hp] at ho
  failed failure hf := by simp [hp] at hf
  disposed _ := h

theorem of_held (h : Held s) (hr : s.phase ≠ .finished) (hended : s.phase.isOpen = true → s.ended = none)
    (hf : ∀ failure, s.phase = .failed failure → failure.isProtocol = !s.ended.isSome) : Custody s where
  held _ := h
  ended := hended
  failed := hf
  disposed hp := absurd hp hr

theorem drop (h : Held s) : Custody s.drop := of_finished rfl h.drop

theorem finish (h : Held s) (outcome : RequestPumpOutcome) : Custody (s.finish outcome) :=
  drop ⟨h.guard, h.idle, h.bare⟩

theorem dropSpawned (h : Held s) (hended : s.ended = none) : Custody s.dropSpawned := by
  have hg : s.guard = {} := by rw [h.guard, hended]; rfl
  exact of_finished rfl (.dropped (by rw [State.dropSpawned, hg]) (by rw [State.dropSpawned, hg]) hended h.idle rfl)

theorem stopped (h : Held s) (hended : s.ended = none) :
    Custody ({ s with guard := { s.guard.stopTrevrpc with settled := true } }.finish .locallyStopped) := by
  have hg : s.guard = {} := by rw [h.guard, hended]; rfl
  rw [hg]
  exact of_finished rfl (.stopped rfl rfl hended h.idle h.bare)

theorem settleReader (h : Held s) (hended : s.ended = none) (reason : RequestPumpSettle) :
    Custody (s.settleReader reason) := by
  have hh : Held { s with published := .settled (s.guard.settleReader reason).2 } := ⟨h.guard, h.idle, h.bare⟩
  exact of_finished rfl (hh.settleReader hended reason)

theorem endWait (h : Held s) {failure : RequestPumpFailure} (hended : failure.isProtocol = !s.ended.isSome)
    (reason : RequestPumpSettle) : Custody (s.endWait failure reason) := by
  unfold State.endWait
  split_ifs with hp
  · have hn : s.ended = none := by simpa [hp] using hended
    exact settleReader h hn reason
  · exact finish h failure.outcome

theorem failAndWait {failure : RequestPumpFailure} (hg : s.guard = { settled := s.guard.settled })
    (hi : s.discard = .idle) (hb : s.bare = false) (hset : (s.guard.settled || !failure.isProtocol) = s.ended.isSome)
    (hended : failure.isProtocol = !s.ended.isSome) (permit : Bool) : Custody (s.failAndWait failure permit) := by
  have hh : Held (s.fail failure permit) := by
    refine ⟨?_, hi, hb⟩
    rw [State.fail, hg]
    exact congrArg (fun settled => ({ settled } : PumpReaderGuard)) hset
  unfold State.failAndWait
  split
  · exact endWait hh hended _
  · refine of_held hh nofun (fun ho => ?_) ?_
    · have hp : failure.isProtocol = true := ho
      have hn : s.ended = none := by simpa [hp] using hended
      exact hn
    · rintro _ ⟨⟩
      exact hended

theorem protocol (h : Held s) (hended : s.ended = none) (status : Status) (permit : Bool) :
    Custody (s.failAndWait (.protocol status) permit) := by
  refine failAndWait (by rw [h.guard]) h.idle h.bare ?_ ?_ permit
  · simp [RequestPumpFailure.isProtocol, h.guard]
  · simp [RequestPumpFailure.isProtocol, hended]

theorem hears (h : Held s) (hended : s.ended = none) (error : ReadError) (permit : Bool) :
    Custody ((s.hears error).failAndWait (classifyError error) permit) := by
  have hg : s.guard = {} := by rw [h.guard, hended]; rfl
  have hk : (classifyError error).isProtocol = !(s.hears error).ended.isSome := by
    rw [classifyError_isProtocol, State.hears, hended]
    rfl
  refine failAndWait (s := s.hears error) ?_ h.idle h.bare ?_ hk permit
  · change s.guard = { settled := s.guard.settled }
    rw [hg]
  · change (s.guard.settled || _) = _
    rw [hk, Bool.not_not, hg, Bool.false_or]

theorem event (h : Held s) (event : RequestTransportEvent) (permit : Bool) :
    Custody ((s.settled event.ends).failAndWait event.failure permit) := by
  refine failAndWait (s := s.settled event.ends) ?_ h.idle h.bare rfl ?_ permit
  · change { s.guard with settled := true } = ({ settled := true } : PumpReaderGuard)
    rw [h.guard]
  · cases event <;> rfl

theorem endFailed (h : Held s) (hended : s.ended = none) (error : ReadError) : Custody (s.endFailed error) := by
  refine of_held ⟨?_, h.idle, h.bare⟩ (by simp [State.endFailed]) (by simp [State.endFailed])
    (by simp [State.endFailed])
  simp [State.endFailed, State.hears, classifyError_isProtocol, h.guard, hended]

theorem settleEnd (h : Held s) (reason : RequestPumpSettle) (reads : List DiscardRead) :
    Custody (s.settleEnd reason reads) := by
  unfold State.settleEnd
  by_cases hset : s.guard.settled = true
  · rw [if_pos hset]
    exact drop h
  · rw [if_neg hset]
    split
    · exact drop (h.settled _)
    · have hen : s.ended = none := by simpa [h.guard] using hset
      exact of_finished rfl (h.settleReader hen reason)

variable (h : Custody s)
include h

theorem look (hl : Looks s s') : Custody s' := by
  have hh (hr : s.phase ≠ .finished) : Held { s with unseen := false } :=
    ⟨(h.held hr).guard, (h.held hr).idle, (h.held hr).bare⟩
  cases hl with
  | settles hp reason =>
    refine settleReader (hh ?_) (h.ended ?_) reason
    · rcases hp with hp | hp | hp <;> simp [hp]
    · rcases hp with hp | hp | hp <;> simp [hp]
  | waits failure hp _ =>
    exact of_held (hh (by simp [hp])) (by simp [hp]) h.ended h.failed
  | ends failure hp reason => exact endWait (hh (by simp [hp])) (h.failed failure hp) reason

theorem congr (hp : s'.phase = s.phase) (hguard : s'.guard = s.guard)
    (hd : s'.discard = s.discard) (hended : s'.ended = s.ended) (hb : s'.bare = s.bare) : Custody s' := by
  refine ⟨fun hr => ?_, ?_, ?_, fun hfin => ?_⟩
  · obtain ⟨hg, hi, hbare⟩ := h.held (hp ▸ hr)
    exact ⟨by rw [hguard, hended, hg], by rw [hd, hi], by rw [hb, hbare]⟩
  · rw [hp, hended]
    exact h.ended
  · rw [hp, hended]
    exact h.failed
  · cases h.disposed (hp ▸ hfin) with
    | stopped h₁ h₂ h₃ h₄ h₅ => exact .stopped (hguard ▸ h₁) (hguard ▸ h₂) (hended ▸ h₃) (hd ▸ h₄) (hb ▸ h₅)
    | discarded h₁ h₂ h₃ h₄ h₅ => exact .discarded (hguard ▸ h₁) (hguard ▸ h₂) (hended ▸ h₃) (hd ▸ h₄) (hb ▸ h₅)
    | letBe h₁ h₂ h₃ h₄ h₅ => exact .letBe (hguard ▸ h₁) (hguard ▸ h₂) (hended ▸ h₃) (hd ▸ h₄) (hb ▸ h₅)
    | dropped h₁ h₂ h₃ h₄ h₅ => exact .dropped (hguard ▸ h₁) (hguard ▸ h₂) (hended ▸ h₃) (hd ▸ h₄) (hb ▸ h₅)

theorem goesOn (ho : s.phase.isOpen = true) (hp : s'.phase.isOpen = true)
    (hf : ∀ failure, s'.phase ≠ .failed failure) (hguard : s'.guard = s.guard) (hd : s'.discard = s.discard)
    (hended : s'.ended = s.ended) (hb : s'.bare = s.bare) : Custody s' := by
  obtain ⟨hg, hi, hbare⟩ := h.held (Phase.ne_finished_of_isOpen ho)
  exact of_held ⟨by rw [hguard, hended, hg], by rw [hd, hi], by rw [hb, hbare]⟩ (Phase.ne_finished_of_isOpen hp)
    (fun _ => hended ▸ h.ended ho) (fun failure hnow => absurd hnow (hf failure))

theorem discarding (hnow : s.discard ≠ .idle) {discard : Discard} (ht : discard ≠ .idle) :
    Custody { s with discard } := by
  have hfin : s.phase = .finished := by
    by_contra hr
    exact hnow (h.held hr).idle
  refine of_finished hfin ?_
  cases h.disposed hfin with
  | stopped _ _ _ hi _ | letBe _ _ _ hi _ | dropped _ _ _ hi _ => exact absurd hi hnow
  | discarded hs hdis hen _ hb => exact .discarded hs hdis hen ht hb

end Custody

/-! ## How the call is settled -/

structure Cell (s : State) : Prop where
  unseen : s.phase ≠ .finished → s.settle.isSome = true → s.unseen = true
  closed : s.closed = true → s.settle.isSome = true

namespace Cell

theorem of_finished (h : Cell s) (hp : s'.phase = .finished) (hc : s'.closed = s.closed)
    (hs : s'.settle = s.settle) : Cell s' where
  unseen hr := absurd hp hr
  closed := by
    rw [hc, hs]
    exact h.closed

theorem congr (h : Cell s) (hr : s.phase ≠ .finished) (hu : s'.unseen = s.unseen)
    (hc : s'.closed = s.closed) (hs : s'.settle = s.settle) : Cell s' where
  unseen _ := by
    rw [hu, hs]
    exact h.unseen hr
  closed := by
    rw [hc, hs]
    exact h.closed

theorem failAndWait (h : Cell s) (failure : RequestPumpFailure) (permit : Bool) :
    Cell (s.failAndWait failure permit) := by
  unfold State.failAndWait
  split
  · unfold State.endWait
    split_ifs <;> exact h.of_finished rfl rfl rfl
  · rename_i hn
    refine ⟨fun _ hs => ?_, h.closed⟩
    change s.settle.isSome = true at hs
    simp [hn] at hs

theorem look (h : Cell s) (hl : Looks s s') : Cell s' := by
  cases hl with
  | settles _ _ => exact h.of_finished rfl rfl rfl
  | waits _ _ hn => exact ⟨fun _ hs => absurd hs (by simp [hn]), h.closed⟩
  | ends failure _ _ =>
    unfold State.endWait
    split_ifs <;> exact h.of_finished rfl rfl rfl

end Cell

/-! ## The requests that the handler gets -/

def bodies (items : List Item) : List Bytes := items.filterMap Except.toOption

@[simp] theorem bodies_append (items items' : List Item) : bodies (items ++ items') = bodies items ++ bodies items' :=
  List.filterMap_append

structure Bodies (s : State) : Prop where
  order : bodies s.received <+: s.read
  queued : s.body.receiverOpen = true →
    s.read = bodies s.received ++ bodies (s.body.queue.map Prod.fst) ++ s.refused.toList

namespace Bodies

variable (h : Bodies s)
include h

theorem congr (ho : s'.body.receiverOpen = s.body.receiverOpen)
    (hq : bodies (s'.body.queue.map Prod.fst) = bodies (s.body.queue.map Prod.fst)) (hread : s'.read = s.read)
    (hr : s'.received = s.received) (hrefused : s'.refused = s.refused) : Bodies s' := by
  refine ⟨?_, ?_⟩
  · rw [hr, hread]
    exact h.order
  · rw [ho, hread, hr, hq, hrefused]
    exact h.queued

theorem drop : Bodies s.drop :=
  h.congr (by simp [State.drop]) (by simp [State.drop]) rfl rfl rfl

theorem dropSpawned : Bodies s.dropSpawned :=
  h.congr (by simp [State.dropSpawned]) (by simp [State.dropSpawned]) rfl rfl rfl

theorem fail (failure : RequestPumpFailure) (permit : Bool) : Bodies (s.fail failure permit) := by
  refine h.congr ?_ ?_ rfl rfl rfl
  · unfold State.fail
    dsimp only
    split <;> simp
  · unfold State.fail
    dsimp only
    split
    · rw [Queue.State.permitSend_queue]
      split <;> simp [bodies, Except.toOption]
    · rfl

theorem endWait (failure : RequestPumpFailure) (reason : RequestPumpSettle) : Bodies (s.endWait failure reason) := by
  unfold State.endWait
  split_ifs
  · exact drop { h with }
  · exact drop { h with }

theorem failAndWait (failure : RequestPumpFailure) (permit : Bool) : Bodies (s.failAndWait failure permit) := by
  unfold State.failAndWait
  split
  · exact (h.fail failure permit).endWait _ _
  · exact h.fail failure permit

theorem look (hl : Looks s s') : Bodies s' := by
  have hs : Bodies { s with unseen := false } := { h with }
  cases hl with
  | settles _ _ => exact drop { h with }
  | waits _ _ _ => exact hs
  | ends failure _ reason => exact hs.endWait failure reason

theorem recv (ho : s.body.receiverOpen = true) : Bodies s.recv := by
  unfold State.recv Queue.State.pollPop
  cases hq : s.body.queue with
  | nil =>
    dsimp only
    split_ifs
    · exact { h with }
    · exact ⟨h.order, fun hnow => by simpa [hq] using h.queued hnow⟩
  | cons entry queue =>
    obtain ⟨item, size⟩ := entry
    have hr := h.queued ho
    simp only [hq, List.map_cons] at hr
    have hnow : s.read = bodies (s.received ++ [item]) ++ bodies (queue.map Prod.fst) ++ s.refused.toList := by
      rw [hr, ← List.singleton_append, bodies_append, bodies_append]
      simp only [List.append_assoc]
    have hor : bodies (s.received ++ [item]) <+: s.read := by
      rw [hnow, List.append_assoc]
      exact List.prefix_append _ _
    dsimp only
    split_ifs
    · exact ⟨hor, fun _ => hnow⟩
    · exact ⟨hor, fun _ => hnow⟩

theorem dropBody : Bodies { s with body := s.body.dropReceiver.state } := ⟨h.order, nofun⟩

theorem refuse (hn : s.refused = none) (budget : RequestBudget) (body : Bytes) :
    Bodies { s with read := s.read ++ [body], budget, refused := some body } := by
  refine ⟨h.order.trans (List.prefix_append _ _), fun ho => ?_⟩
  rw [h.queued ho, hn]
  simp

theorem send (hn : s.refused = none) (budget : RequestBudget) (body : Bytes) :
    Bodies { s with
      read := s.read ++ [body]
      budget
      phase := .reserving
      body := (s.body.permitSend (Except.ok body) body.length).state } := by
  refine ⟨h.order.trans (List.prefix_append _ _), fun ho => ?_⟩
  rw [Queue.State.permitSend_receiverOpen] at ho
  rw [h.queued ho, Queue.State.permitSend_queue, ho, hn]
  simp [bodies, Except.toOption]

end Bodies

/-! ## Runs -/

/-- The phases of a pump that has not refused a body. -/
def Phase.takesBodies : Phase → Bool
  | .spawned _ | .reserving | .reading => true
  | _ => false

attribute [local simp] Phase.takesBodies

structure Inv (s : State) : Prop where
  custody : Custody s
  cell : Cell s
  bodies : Bodies s
  refused : s.phase.takesBodies = true → s.refused = none

theorem failAndWait_phase (failure : RequestPumpFailure) (permit : Bool) (s : State) :
    (s.failAndWait failure permit).phase = .failed failure ∨ (s.failAndWait failure permit).phase = .finished := by
  unfold State.failAndWait State.endWait
  split
  · split_ifs <;> exact .inr rfl
  · exact .inl rfl

namespace Inv

theorem failed {failure : RequestPumpFailure} {permit : Bool} (hcustody : Custody (s.failAndWait failure permit))
    (hc : Cell s) (hbodies : Bodies s) : Inv (s.failAndWait failure permit) := by
  refine ⟨hcustody, hc.failAndWait failure permit, hbodies.failAndWait failure permit, fun hr => ?_⟩
  rcases failAndWait_phase failure permit s with hp | hp <;> simp [hp] at hr

theorem finished (hp : s.phase = .finished) (hcustody : Custody s) (hc : Cell s) (hbodies : Bodies s) : Inv s :=
  ⟨hcustody, hc, hbodies, by simp [hp]⟩

theorem start (input : Input) (budget : RequestBudget) : Inv (start input budget) := by
  cases input
  all_goals
    refine ⟨Custody.of_held ⟨rfl, rfl, rfl⟩ ?_ (fun _ => rfl) ?_, ⟨nofun, nofun⟩, ?_, fun _ => rfl⟩
    · simp [RequestPump.start]
    · simp [RequestPump.start]
    · exact ⟨List.prefix_rfl, fun _ => rfl⟩

variable (h : Inv s)
include h

theorem budget (budget : RequestBudget) : Inv { s with budget } :=
  ⟨h.custody.congr rfl rfl rfl rfl rfl, { h.cell with }, { h.bodies with }, h.refused⟩

theorem drop (hr : s.phase ≠ .finished) : Inv s.drop :=
  finished rfl (.drop (h.custody.held hr)) (h.cell.of_finished rfl rfl rfl) h.bodies.drop

theorem dropSpawned (ho : s.phase.isOpen = true) : Inv s.dropSpawned := by
  have hheld := h.custody.held (Phase.ne_finished_of_isOpen ho)
  exact finished rfl (.dropSpawned hheld (h.custody.ended ho)) (h.cell.of_finished rfl rfl rfl) h.bodies.dropSpawned

theorem hears (ho : s.phase.isOpen = true) (error : ReadError) (permit : Bool) :
    Inv ((s.hears error).failAndWait (classifyError error) permit) := by
  have hr := Phase.ne_finished_of_isOpen ho
  exact failed (.hears (h.custody.held hr) (h.custody.ended ho) error permit)
    { h.cell with } { h.bodies with }

theorem event (hr : s.phase ≠ .finished) (event : RequestTransportEvent) (permit : Bool) :
    Inv ((s.settled event.ends).failAndWait event.failure permit) :=
  failed (.event (h.custody.held hr) event permit) { h.cell with }
    { h.bodies with }

theorem goesOn (ho : s.phase.isOpen = true) {phase : Phase} (hp : phase.isOpen = true)
    (hf : ∀ failure, phase ≠ .failed failure)
    (hr : phase.takesBodies = true → s.refused = none) : Inv { s with phase } :=
  ⟨h.custody.goesOn ho hp hf rfl rfl rfl rfl, h.cell.congr (Phase.ne_finished_of_isOpen ho) rfl rfl rfl,
    { h.bodies with }, hr⟩

theorem frame (hp : s.phase = .reading) (result : Except ReadError (Option Bytes)) : Inv (s.frame result) := by
  have ho : s.phase.isOpen = true := by simp [hp]
  have hr := Phase.ne_finished_of_isOpen ho
  have hn := h.refused (by simp [hp])
  unfold State.frame
  split
  · rename_i body
    dsimp only
    split
    · refine failed ?_ { h.cell with } (h.bodies.refuse hn _ body)
      apply Custody.protocol
      · exact ⟨(h.custody.held hr).guard, (h.custody.held hr).idle, (h.custody.held hr).bare⟩
      · exact h.custody.ended ho
    · exact ⟨h.custody.goesOn ho rfl (by simp) rfl rfl rfl rfl, h.cell.congr hr rfl rfl rfl,
        h.bodies.send hn _ body, fun _ => hn⟩
  · exact h.goesOn ho rfl (by simp) (by simp)
  · exact h.hears ho _ true

theorem settleEnd (hr : s.phase ≠ .finished) (reason : RequestPumpSettle)
    (reads : List DiscardRead) : Inv (s.settleEnd reason reads) := by
  have hcus := Custody.settleEnd (h.custody.held hr) reason reads
  revert hcus
  unfold State.settleEnd
  split
  · intro hcus
    exact finished rfl hcus (h.cell.of_finished rfl rfl rfl) h.bodies.drop
  · split <;> intro hcus
    all_goals
      exact finished rfl hcus (h.cell.of_finished rfl rfl rfl) (Bodies.drop { h.bodies with })

theorem endFailed (ho : s.phase.isOpen = true) (error : ReadError) : Inv (s.endFailed error) := by
  have hr := Phase.ne_finished_of_isOpen ho
  exact ⟨.endFailed (h.custody.held hr) (h.custody.ended ho) error, h.cell.congr hr rfl rfl rfl,
    { h.bodies with }, by simp [State.endFailed]⟩

theorem look (hl : Looks s s') : Inv s' := by
  refine ⟨h.custody.look hl, h.cell.look hl, h.bodies.look hl, ?_⟩
  cases hl with
  | settles _ _ => simp [State.settleReader, State.finish, State.drop]
  | waits failure hp _ => simp [hp]
  | ends failure _ _ =>
    unfold State.endWait
    split_ifs <;> simp [State.settleReader, State.finish, State.drop]

theorem step {a : Action} (hs : step s a = some s') : Inv s' := by
  cases a with
  | poll =>
    simp only [RequestPump.step] at hs
    split at hs <;> cases hs
    rename_i kind hp
    refine h.goesOn (by simp [hp]) ?_ ?_ fun _ => h.refused (by simp [hp])
    · cases kind <;> rfl
    · cases kind <;> nofun
  | look => exact h.look (look_looks hs)
  | reserve =>
    obtain ⟨hp, hs⟩ := Option.ite_none_right_eq_some.mp hs
    have ho : s.phase.isOpen = true := by simp [hp]
    split_ifs at hs <;> cases hs
    · exact finished rfl (.stopped (h.custody.held (by simp [hp])) (h.custody.ended ho))
        (h.cell.of_finished rfl rfl rfl) (Bodies.drop { h.bodies with })
    · exact h.goesOn ho rfl (by simp) (fun _ => h.refused (by simp [hp]))
  | event event =>
    obtain ⟨hp, hs⟩ := Option.ite_none_right_eq_some.mp hs
    cases event with
    | none => exact Option.some.inj hs ▸ h
    | some event => exact Option.some.inj hs ▸ h.event (by simp [hp]) event false
  | frame skipped result =>
    obtain ⟨hp, hs⟩ := Option.ite_none_right_eq_some.mp hs
    have hc := h.budget (s.budget.read skipped result).2
    exact Option.some.inj hs ▸ hc.frame hp _
  | readEnd skipped result =>
    have hc := h.budget (s.budget.read skipped result).2
    simp only [RequestPump.step] at hs
    split at hs <;> cases hs
    all_goals
      rename_i hp _
      have ho : s.phase.isOpen = true := by simp [hp]
    · exact hc.goesOn ho rfl (by simp) (by simp)
    · exact hc.hears ho _ false
    · exact hc.goesOn ho rfl (by simp) (by simp)
    · exact hc.endFailed ho _
  | validated result =>
    simp only [RequestPump.step] at hs
    split at hs <;> cases hs
    all_goals
      rename_i hp
      have ho : s.phase.isOpen = true := by simp [hp]
      have hr : s.phase ≠ .finished := by simp [hp]
      have hset := (h.custody.held hr).settled .clean
    · exact finished rfl (.finish hset .cleanFin) (h.cell.of_finished rfl rfl rfl)
        (Bodies.drop { h.bodies with })
    · exact h.hears ho _ false
    · exact ⟨.of_held ⟨hset.guard, hset.idle, hset.bare⟩ (by simp) (by simp) (by simp),
        h.cell.congr hr rfl rfl rfl, { h.bodies with }, by simp⟩
    · exact h.endFailed ho _
  | abort =>
    obtain ⟨-, hs⟩ := Option.ite_none_right_eq_some.mp hs
    split at hs <;> cases hs
    · rename_i hp
      exact h.dropSpawned (by simp [hp])
    · exact h.drop ‹_›
  | settle _ | dropSettling | dropPump =>
    obtain ⟨-, rfl⟩ := of_guard hs
    exact ⟨h.custody.congr rfl rfl rfl rfl rfl, ⟨fun _ _ => rfl, fun _ => rfl⟩,
      { h.bodies with }, h.refused⟩
  | settleEnd reason reads =>
    simp only [RequestPump.step] at hs
    split at hs <;> cases hs
    all_goals exact h.settleEnd (by simp [*]) reason reads
  | dropEnd =>
    simp only [RequestPump.step] at hs
    split at hs <;> cases hs
    all_goals exact h.drop (by simp [*])
  | recv =>
    obtain ⟨ho, rfl⟩ := of_guard hs
    have hbod := h.bodies.recv ho
    revert hbod
    unfold State.recv
    dsimp only
    split <;> intro hbod
    all_goals exact ⟨h.custody.congr rfl rfl rfl rfl rfl, { h.cell with }, hbod, h.refused⟩
  | dropBody =>
    obtain ⟨-, hs⟩ := Option.ite_none_right_eq_some.mp hs
    exact Option.some.inj hs ▸
      ⟨h.custody.congr rfl rfl rfl rfl rfl, { h.cell with }, h.bodies.dropBody, h.refused⟩
  | discardRead len =>
    simp only [RequestPump.step] at hs
    split at hs <;> cases hs
    rename_i hre
    exact ⟨h.custody.discarding (by simp [hre]) (by split_ifs <;> simp), { h.cell with },
      { h.bodies with }, h.refused⟩
  | discardEnd | discardTimeout =>
    simp only [RequestPump.step] at hs
    split at hs <;> cases hs
    rename_i hre
    exact ⟨h.custody.discarding (by simp [hre]) nofun, { h.cell with },
      { h.bodies with }, h.refused⟩

omit h

theorem of_run {input : Input} {budget : RequestBudget} {actions : List Action}
    (hrun : run RequestPump.step (RequestPump.start input budget) actions = some s) : Inv s :=
  run_induction (P := fun _ s => Inv s) (start input budget) (fun _ _ _ _ h hs => h.step hs) hrun

theorem look_finishes (h : Inv s) (hs : s.settle.isSome = true)
    (hp : s.phase = .reserving ∨ s.phase = .reading ∨ s.phase = .readingEnd ∨
      ∃ failure, s.phase = .failed failure) : ∃ s', s.look = some s' ∧ s'.phase = .finished := by
  have hr : s.phase ≠ .finished := by
    rcases hp with hp | hp | hp | ⟨failure, hp⟩ <;> simp [hp]
  have hu := h.cell.unseen hr hs
  have hso : s.settle ≠ none := Option.isSome_iff_ne_none.mp hs
  unfold State.look
  rw [if_pos (.inl hu)]
  rcases hp with hp | hp | hp | ⟨failure, hp⟩
  · exact ⟨_, by rw [hp], rfl⟩
  · exact ⟨_, by rw [hp], rfl⟩
  · exact ⟨_, by rw [hp], rfl⟩
  · simp only [hp, hso, false_and, if_false]
    refine ⟨_, rfl, ?_⟩
    unfold State.endWait
    split_ifs <;> rfl

end Inv

def State.stops (s : State) : Nat := s.guard.stops + if s.discard = .stopped then 1 else 0

def State.isOver (s : State) : Bool := s.ended.isSome || s.discard = .ended

structure DisposedOnce (s : State) : Prop where
  order : bodies s.received <+: s.read
  queued : s.body.receiverOpen = true →
    s.read = bodies s.received ++ bodies (s.body.queue.map Prod.fst) ++ s.refused.toList
  notBoth : s.guard.stops + s.guard.discards ≤ 1
  stopsOnce : s.stops ≤ 1
  stopsNone : s.isOver = true → s.stops = 0
  running : s.phase ≠ .finished → s.stops = 0 ∧ s.guard.discards = 0
  /-- One of a stop, a discard, nothing since the side is over, and the drop of a reader no poll has seen. -/
  finished : s.phase = .finished → s.guard.stops + s.guard.discards + s.ended.toList.length + s.bare.toNat = 1

theorem Inv.disposedOnce (h : Inv s) : DisposedOnce s := by
  by_cases hfin : s.phase = .finished
  · cases h.custody.disposed hfin with
    | stopped hs hdis hen hi hb =>
      refine ⟨h.bodies.order, h.bodies.queued, ?_, ?_, ?_, absurd hfin, fun _ => ?_⟩
      · omega
      · simp [State.stops, hs, hi]
      · simp [State.isOver, hen, hi]
      · simp [hs, hdis, hen, hb]
    | discarded hs hdis hen hstarted hb =>
      refine ⟨h.bodies.order, h.bodies.queued, ?_, ?_, ?_, absurd hfin, fun _ => ?_⟩
      · omega
      · rw [State.stops, hs]
        split_ifs <;> omega
      · simp only [State.isOver, State.stops, hen, hs]
        intro ho
        simp at ho
        simp [ho]
      · simp [hs, hdis, hen, hb]
    | letBe hs hdis hen hi hb =>
      obtain ⟨reason, hr⟩ := Option.isSome_iff_exists.mp hen
      have hn : s.stops = 0 := by simp [State.stops, hs, hi]
      refine ⟨h.bodies.order, h.bodies.queued, ?_, ?_, fun _ => hn, absurd hfin, fun _ => ?_⟩
      · omega
      · omega
      · simp [hs, hdis, hr, hb]
    | dropped hs hdis hen hi hb =>
      have hn : s.stops = 0 := by simp [State.stops, hs, hi]
      refine ⟨h.bodies.order, h.bodies.queued, ?_, ?_, fun _ => hn, absurd hfin, fun _ => ?_⟩
      · omega
      · omega
      · simp [hs, hdis, hen, hb]
  · obtain ⟨hg, hi, -⟩ := h.custody.held hfin
    have hn : s.stops = 0 := by simp [State.stops, hg, hi]
    have hdis : s.guard.discards = 0 := by rw [hg]
    refine ⟨h.bodies.order, h.bodies.queued, ?_, ?_, fun _ => hn, fun _ => ⟨hn, hdis⟩, (absurd · hfin)⟩
    · simp [hg]
    · omega

theorem poll_finishes (h : Inv s) (hs : s.settle.isSome = true) {kind : RequestInputKind}
    (hp : s.phase = .spawned kind) : ∃ s', run step s [.poll, .look] = some s' ∧ s'.phase = .finished := by
  have hpoll : step s .poll = some { s with phase := kind.pump } := by simp only [step, hp]
  obtain ⟨s', hlook, hfin⟩ := (h.step hpoll).look_finishes hs (by cases kind <;> simp [RequestInputKind.pump])
  refine ⟨s', ?_, hfin⟩
  simp only [run, hpoll, Option.bind_some]
  exact congrArg (Option.bind · some) hlook

theorem abort_finishes (ha : s.aborting = true) (hr : s.phase ≠ .finished) :
    ∃ s', step s .abort = some s' ∧ s'.phase = .finished := by
  simp only [step, ha, if_true]
  split
  · exact ⟨_, rfl, rfl⟩
  · contradiction
  · exact ⟨_, rfl, rfl⟩

end TrevRpc.Rust.RequestPump
