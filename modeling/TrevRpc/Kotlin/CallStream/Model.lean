import TrevRpc.Lib.Copies
import TrevRpc.Lib.Run
import TrevRpc.Lib.Wire
import TrevRpc.Rust.Framing

/-!
# The transport stream of an optimistic call (`ResponsePump.kt`)

The first response frame settles the copies of the requests or switches the call to a new stream, where a coroutine of
its own resends them. Writes happen without the lock, on the stream that was current under it, so a step is what a
coroutine does between two points where another may run.
-/

open TrevRpc.Rust

namespace TrevRpc.Kotlin.CallStream

/-- The most request bytes that a call keeps. -/
def optimisticCopyCap : Nat := 2 ^ 20

/-! ## The copies (`OptimisticStreamCompression.kt`) -/

abbrev RequestCopies := Copies UInt8

/-- Keeps the body, or the caller must wait. Once the call has settled nothing is kept. -/
def tryKeep (body : Bytes) (copies : RequestCopies) (budget : Budget) : Option (RequestCopies × Budget) :=
  if copies.keeping = false then some (copies, budget) else copies.add optimisticCopyCap body budget

/-! ## The coroutines -/

inductive ResponseFrame
  | answer (streamCompression : Bool)
  | status (refusedStreamCompression : Bool)
  | other
  deriving DecidableEq

/-- The first frame refuses the call. -/
def refused : Option ResponseFrame → Bool
  | some (.status refusedStreamCompression) => refusedStreamCompression
  | _ => false

/-- The first frame is one that may come first, if it does not refuse the call. -/
def accepted : Option ResponseFrame → Bool
  | none | some (.status _) => true
  | some (.answer streamCompression) => streamCompression
  | some .other => false

inductive Stream
  | original
  | replayed
  deriving DecidableEq

structure Target where
  stream : Stream
  generation : Nat
  deriving DecidableEq

inductive Op
  | send (body : Bytes)
  | finishSend
  deriving DecidableEq

def Op.body : Op → Option Bytes
  | .send body => some body
  | .finishSend => none

inductive Outcome
  | returned
  | failed
  | dropped
  deriving DecidableEq

/-- Where the caller is. -/
inductive Writer
  | idle
  | trying (op : Op)
  | parked (op : Op)
  | awaitingResent (op : Op)
  | awaitingSettled (op : Op)
  | running (op : Op) (target : Target)
  | failed (op : Op) (target : Target)
  | explaining (op : Op) (target : Target)
  deriving DecidableEq

/-- Where `receive` is. From `switched` to `opened` it is in `replay`, with the lock. -/
inductive Receiver
  | waiting
  | settling (accepted : Bool)
  | refused
  | switched (copies : List Bytes)
  | closedOld (copies : List Bytes)
  | opened (copies : List Bytes)
  | returning (thrown : Bool)
  | finished (thrown : Bool)
  deriving DecidableEq

def Receiver.holds : Receiver → Bool
  | .switched _ | .closedOld _ | .opened _ => true
  | _ => false

/-- Where the coroutine that resends is. -/
inductive Resend
  | idle
  | writing (copies : List Bytes) (finish : Bool)
  | failing
  | finished
  deriving DecidableEq

structure State where
  copies : RequestCopies := {}
  budget : Budget
  stream : Stream := .original
  generation : Nat := 0
  sendFinished : Bool := false
  resent : Option Bool := none
  firstFrameHandled : Bool := false
  closed : Bool := false
  writer : Writer := .idle
  receiver : Receiver := .waiting
  resend : Resend := .idle
  original : Wire Bytes := {}
  replayed : Wire Bytes := {}
  calls : List (Op × Outcome) := []
  deriving DecidableEq

/-- A stream takes an operation. -/
def perform : Op → Wire Bytes → Wire Bytes
  | .send body, w => w.write [body]
  | .finishSend, w => w.close

def takes : Op → Wire Bytes → Bool
  | .send _, w => !w.failed && !w.closed
  | .finishSend, w => !w.failed

def fails (sent : Bool) (op : Op) (w : Wire Bytes) : Wire Bytes :=
  if sent = true ∧ takes op w = true then (perform op w).fail else w.fail

namespace State

def wire (s : State) : Stream → Wire Bytes
  | .original => s.original
  | .replayed => s.replayed

def onWire (stream : Stream) (f : Wire Bytes → Wire Bytes) (s : State) : State :=
  { s with
    original := if stream = .original then f s.original else s.original
    replayed := if stream = .replayed then f s.replayed else s.replayed }

/-- The call of the caller ended. -/
def ends (op : Op) (outcome : Outcome) (s : State) : State :=
  { s with writer := .idle, calls := s.calls ++ [(op, outcome)] }

/-- What `send` and `finishSend` do with the lock. -/
def attempt (s : State) : Option State :=
  match s.writer with
  | .trying op =>
    if s.receiver.holds then none
    else if s.resent = some false then some { s with writer := .parked op }
    else
      let writer := .running op ⟨s.stream, s.generation⟩
      match op with
      | .send body =>
        match tryKeep body s.copies s.budget with
        | some (copies, budget) => some { s with copies, budget, writer }
        | none => some { s with writer := .parked op }
      | .finishSend => some { s with sendFinished := true, writer }
  | _ => none

/-- The end of `onTarget`. A failure on a stream that the call switched from was resent. -/
def explain (op : Op) (target : Target) (s : State) : State :=
  s.ends op (if target.generation = s.generation ∨ s.closed = true then .failed else .returned)

def close (s : State) : State :=
  if s.closed then { s with firstFrameHandled := true }
  else { s.onWire s.stream Wire.fail with closed := true, firstFrameHandled := true }

/-- The next step of `receive` with its first frame. To open the new stream may fail. -/
def receive (ok : Bool) (s : State) : Option State :=
  match s.receiver with
  | .waiting | .finished _ => none
  | .settling accepted =>
    let settled := s.copies.settle s.budget
    some { s with copies := settled.1, budget := settled.2, receiver := .returning !accepted }
  | .refused =>
    if s.closed then some { s with receiver := .returning true }
    else
      let settled := s.copies.settle s.budget
      some { s with
        copies := settled.1
        budget := settled.2
        generation := s.generation + 1
        resent := some false
        receiver := .switched s.copies.kept }
  | .switched copies => some { s.onWire s.stream Wire.fail with receiver := .closedOld copies }
  | .closedOld copies =>
    some (if ok then { s with stream := .replayed, replayed := {}, receiver := .opened copies }
      else { s with resent := some true, receiver := .returning true })
  | .opened copies =>
    -- The call may have closed while the stream opened.
    some (if s.closed then
        { s with replayed := s.replayed.fail, resent := some true, receiver := .returning true }
      else { s with resend := .writing copies s.sendFinished, receiver := .returning false })
  | .returning thrown => some { s with firstFrameHandled := true, receiver := .finished thrown }

/-- The next step of the coroutine that resends. An operation on the new stream may fail. -/
def resendStep (ok sent : Bool) (s : State) : Option State :=
  match s.resend with
  | .writing (body :: copies) finish =>
    if ok then
      if takes (.send body) s.replayed then
        some { s with replayed := perform (.send body) s.replayed, resend := .writing copies finish }
      else none
    else some { s with replayed := fails sent (.send body) s.replayed, resend := .failing }
  | .writing [] true =>
    if ok then
      if takes .finishSend s.replayed then
        some { s with replayed := perform .finishSend s.replayed, resend := .writing [] false }
      else none
    else some { s with replayed := fails sent .finishSend s.replayed, resend := .failing }
  | .writing [] false => some { s with resent := some true, resend := .finished }
  | _ => none

end State

inductive Action
  | send (body : Bytes)
  | finishSend
  | cancel
  | attempt
  | await
  | wake
  | complete
  | fail (cancelled sent : Bool)
  | check
  | explained (timedOut : Bool)
  | firstFrame (frame : Option ResponseFrame)
  | receiveFails
  | receive (ok : Bool)
  | resend (ok sent : Bool)
  /-- `resendFailed` returns. Either the call has ended, or this closes it. -/
  | resendFailed (ended : Bool)
  | close
  | cancelResend
  | settleClosed
  | lend (cost : Nat)
  | regain (cost : Nat)
  deriving DecidableEq

def Action.own : Action → Bool
  | .attempt | .await | .wake | .complete | .fail .. | .check | .explained _ | .receive _ | .resend ..
  | .resendFailed _ => true
  | _ => false

def step (s : State) : Action → Option State
  | .send body => if s.writer = .idle then some { s with writer := .trying (.send body) } else none
  | .finishSend => if s.writer = .idle then some { s with writer := .trying .finishSend } else none
  | .cancel =>
    match s.writer with
    | .trying op | .parked op | .awaitingResent op | .awaitingSettled op => some (s.ends op .dropped)
    | _ => none
  | .attempt => s.attempt
  | .await =>
    match s.writer with
    | .parked op =>
      some { s with
        writer := if op = .finishSend ∨ s.resent = some false then .awaitingResent op else .awaitingSettled op }
    | _ => none
  | .wake =>
    match s.writer with
    | .awaitingResent op => if s.resent = some false then none else some { s with writer := .trying op }
    | .awaitingSettled op => if s.copies.keeping then none else some { s with writer := .trying op }
    | _ => none
  | .complete =>
    match s.writer with
    | .running op target =>
      if takes op (s.wire target.stream) then some ((s.onWire target.stream (perform op)).ends op .returned) else none
    | _ => none
  | .fail cancelled sent =>
    match s.writer with
    | .running op target =>
      let s' := s.onWire target.stream (fails sent op)
      some (if cancelled then s'.ends op .failed else { s' with writer := .failed op target })
    | _ => none
  | .check =>
    match s.writer with
    | .failed op target =>
      some (if target.generation = s.generation ∧ s.closed = false then { s with writer := .explaining op target }
        else s.explain op target)
    | _ => none
  | .explained timedOut =>
    match s.writer with
    | .explaining op target => if s.firstFrameHandled = true ∨ timedOut = true then some (s.explain op target) else none
    | _ => none
  | .firstFrame frame =>
    if s.receiver = .waiting then
      some { s with receiver := if refused frame then .refused else .settling (accepted frame) }
    else none
  | .receiveFails => if s.receiver = .waiting then some { s with firstFrameHandled := true } else none
  | .receive ok => s.receive ok
  | .resend ok sent => s.resendStep ok sent
  | .resendFailed ended =>
    if s.resend = .failing then some { (if ended then s else s.close) with resent := some true, resend := .finished }
      else none
  | .close => some s.close
  | .cancelResend =>
    match s.closed, s.resend with
    | true, .writing .. | true, .failing => some { s with resent := some true, resend := .finished }
    | _, _ => none
  | .settleClosed =>
    if s.closed then
      let settled := s.copies.settle s.budget
      some { s with copies := settled.1, budget := settled.2 }
    else none
  | .lend cost => (s.budget.lend cost).map fun budget => { s with budget }
  | .regain cost => (s.budget.regain cost).map fun budget => { s with budget }

end TrevRpc.Kotlin.CallStream
