import TrevRpc.Lib.Copies
import TrevRpc.Lib.Run
import TrevRpc.Lib.Wire
import TrevRpc.Rust.Framing

/-!
# The upload of an optimistic call (`stream_optimistic.go`)

The writer writes the caller's messages in batches, and the response pump settles the call or replays it on a new
stream. One lock is for encoding and the copies, one for writing. A step is what a thread does until another may run.
-/

open TrevRpc.Rust

namespace TrevRpc.Go.Optimistic

/-- The most request bytes that a call keeps. -/
def maxOptimisticCopies : Nat := 2 ^ 20

/-- The most messages of one write. -/
def maxMessageFrameBatch : Nat := 16

inductive Generation
  | optimistic
  | replay
  deriving DecidableEq

inductive Frame
  | request (optimistic : Bool)
  | message (payload : Bytes)
  deriving DecidableEq

structure EncodedMessage where
  payload : Bytes
  generation : Generation
  deriving DecidableEq

/-! ## The copies -/

abbrev Copies := TrevRpc.Copies UInt8

/-- The first half of `encode`: keeps the message while messages are kept, or waits for room. -/
def keep (maxFrameSize : Nat) (payload : Bytes) (c : Copies) (budget : Budget) : Option (Copies × Budget) :=
  if c.keeping = true ∧ payload.length ≤ maxFrameSize then c.add maxOptimisticCopies payload budget
  else some (c, budget)

def releaseCopies (c : Copies) (budget : Budget) : Copies × Budget :=
  if c.keeping = false then (c, budget) else c.settle budget

/-! ## The two threads -/

inductive Writer
  | idle
  /-- In `encode`, waiting for the call to be settled. -/
  | parked (payload : Bytes)
  | writing
  /-- In `Close`, with the write lock. -/
  | closing
  /-- In `awaitReplay`, after a write or a close failed. -/
  | awaiting (closing : Bool)
  | finished
  | stopped
  deriving DecidableEq

def Writer.holds : Writer → Bool
  | .writing | .closing => true
  | _ => false

/-- How far `replay` is. -/
inductive Replay
  | idle
  | refused
  | cancelled
  | locked
  | switched
  | opened
  | checked
  | written
  | done
  | failed
  deriving DecidableEq

/-- It holds the write lock. -/
def Replay.holds : Replay → Bool
  | .locked | .switched | .opened | .checked | .written => true
  | _ => false

/-- It has taken the copies. -/
def Replay.took : Replay → Bool
  | .switched | .opened | .checked | .written | .done | .failed => true
  | _ => false

structure State where
  copies : Copies := {}
  generation : Generation := .optimistic
  current : Generation := .optimistic
  ended : Bool := false
  closed : Bool := false
  decided : Option Bool := none
  writer : Writer := .idle
  header : Bool := true
  batch : List EncodedMessage := []
  replay : Replay := .idle
  taken : List Bytes := []
  takenReservations : List Nat := []
  first : Wire Frame := {}
  second : Wire Frame := {}
  budget : Budget
  encoded : List Bytes := []
  deriving DecidableEq

namespace State

def stream (s : State) : Wire Frame :=
  match s.current with
  | .optimistic => s.first
  | .replay => s.second

/-- Changes the stream that the call uses. -/
def onStream (f : Wire Frame → Wire Frame) (s : State) : State :=
  { s with
    first := if s.current = .optimistic then f s.first else s.first
    second := if s.current = .replay then f s.second else s.second }

def pending (s : State) : List Bytes := (s.batch.filter (·.generation = s.generation)).map (·.payload)

/-- What `writeMessageFrames` writes now. A replay wrote the REQUEST of its call. -/
def unsent (s : State) : List Frame :=
  (if s.header = true ∧ s.generation = .optimistic then [.request true] else []) ++ s.pending.map .message

/-- The write returned. -/
def wrote (s : State) : State := { s with header := false, batch := [], writer := .idle }

def stop (s : State) : State := { s.onStream Wire.fail with writer := .stopped }

/-- The second half of `encode`. The writer does not write a message that is too large. -/
def encode (maxFrameSize : Nat) (payload : Bytes) (s : State) : State :=
  if maxFrameSize < payload.length then s.stop
  else
    { s with
      writer := .idle
      batch := s.batch ++ [⟨payload, s.generation⟩]
      encoded := s.encoded ++ [payload] }

def giveUp (closing : Bool) (s : State) : State := if closing then { s with writer := .stopped } else s.stop

def exit (result : Replay) (s : State) : State :=
  { s with replay := result, takenReservations := [], budget := s.budget.releaseAll s.takenReservations }

/-- The next step of `replay`. An operation on the new stream may fail. -/
def replayStep (ok : Bool) (s : State) : Option State :=
  match s.replay with
  | .idle | .done | .failed => none
  | .refused => some { s with first := s.first.fail, replay := .cancelled }
  | .cancelled => if s.writer.holds then none else some { s with replay := .locked }
  | .locked =>
    let released := releaseCopies { s.copies with reservations := [] } s.budget
    some { s with
      taken := s.copies.kept
      takenReservations := s.copies.reservations
      copies := released.1
      budget := released.2
      generation := .replay
      replay := .switched }
  | .switched => some (if ok then { s with current := .replay, second := {}, replay := .opened } else s.exit .failed)
  | .opened =>
    -- The call may have ended while the stream was opened.
    some (if s.ended then { s with second := s.second.fail }.exit .failed else { s with replay := .checked })
  | .checked =>
    if ok then
      if s.second.failed then none
      else some { s with second := s.second.write (.request false :: s.taken.map .message), replay := .written }
    else some ({ s with second := s.second.fail }.exit .failed)
  | .written =>
    if s.closed then
      if ok then if s.second.failed then none else some ({ s with second := s.second.close }.exit .done)
      else some ({ s with second := s.second.fail }.exit .failed)
    else some (s.exit .done)

end State

inductive Action
  | encode (payload : Bytes)
  | wake
  | beginWrite
  | endWrite (ok : Bool) (sent : Nat)
  | beginClose
  | endClose (ok : Bool)
  | resume
  | stop
  | decide (refused : Bool)
  | settle
  | ends
  | replay (ok : Bool)
  | lend (cost : Nat)
  | regain (cost : Nat)
  deriving DecidableEq

/-- The steps that a thread takes on its own. -/
def Action.own : Action → Bool
  | .wake | .beginWrite | .endWrite .. | .endClose _ | .resume | .settle | .replay _ => true
  | _ => false

variable (maxFrameSize : Nat)

def step (s : State) : Action → Option State
  | .encode payload =>
    if s.writer = .idle ∧ s.batch.length < maxMessageFrameBatch then
      match keep maxFrameSize payload s.copies s.budget with
      | some (copies, budget) => some ({ s with copies, budget }.encode maxFrameSize payload)
      | none => some { s with writer := .parked payload }
    else none
  | .wake =>
    match s.writer with
    | .parked payload => if s.copies.keeping then none else some (s.encode maxFrameSize payload)
    | _ => none
  | .beginWrite =>
    if s.writer = .idle ∧ (s.header = true ∨ s.batch ≠ []) ∧ s.replay.holds = false then
      some (if s.unsent = [] then s.wrote else { s with writer := .writing })
    else none
  | .endWrite ok sent =>
    if s.writer = .writing then
      if ok then if s.stream.failed then none else some (s.onStream (·.write s.unsent)).wrote
      else
        let s' := s.onStream fun w => (w.write (s.unsent.take sent)).fail
        some (if s.generation = .optimistic then { s' with writer := .awaiting false } else s'.stop)
    else none
  | .beginClose =>
    if s.writer = .idle ∧ s.header = false ∧ s.batch = [] ∧ s.replay.holds = false then
      some { s with closed := true, writer := .closing }
    else none
  | .endClose ok =>
    if s.writer = .closing then
      if ok then if s.stream.failed then none else some { s.onStream Wire.close with writer := .finished }
      else
        let s' := s.onStream Wire.fail
        some (if s.generation = .optimistic then { s' with writer := .awaiting true }
          else { s' with writer := .stopped })
    else none
  | .resume =>
    match s.writer, s.decided, s.replay with
    | .awaiting closing, some false, _ => some (s.giveUp closing)
    | .awaiting closing, some true, .done => some (if closing then { s with writer := .finished } else s.wrote)
    | .awaiting closing, some true, .failed => some (s.giveUp closing)
    | _, _, _ => none
  | .stop =>
    match s.writer with
    | .idle | .parked _ => some s.stop
    | .awaiting closing => some (s.giveUp closing)
    | _ => none
  | .decide refused =>
    if s.decided = none then
      some { s with decided := some refused, replay := if refused then .refused else s.replay }
    else none
  | .settle =>
    if s.copies.keeping = true ∧ (s.decided = some false ∨ s.ended = true) then
      let released := releaseCopies s.copies s.budget
      some { s with copies := released.1, budget := released.2 }
    else none
  | .ends => some { s with ended := true }
  | .replay ok => s.replayStep ok
  | .lend cost => (s.budget.lend cost).map fun budget => { s with budget }
  | .regain cost => (s.budget.regain cost).map fun budget => { s with budget }

end TrevRpc.Go.Optimistic
