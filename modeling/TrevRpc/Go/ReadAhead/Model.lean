import Mathlib.Algebra.BigOperators.Group.List.Basic
import TrevRpc.Lib.Run

/-!
# The read-ahead of a response stream (`read_ahead.go`)

A goroutine queues what it reads, and the writer takes it. A step is one operation on a channel or an atomic, or a call
of the stream; what only one of the two sees is part of the step before it.
-/

open TrevRpc.Run

namespace TrevRpc.Go.ReadAhead

def handlerReadAheadMessages : Nat := 32
def handlerReadAheadBytes : Nat := 64 * 1024

structure Message where
  frame : List UInt8 := []
  size : Nat := 0
  deriving DecidableEq

/-- What one `Recv` returned. -/
structure Item where
  message : Message := {}
  err : Option String := none
  deriving DecidableEq

/-- `readAheadIdle`, `readAheadReceiving` and `readAheadClosed`. -/
inductive Receiving
  | idle
  | receiving
  | closed
  deriving DecidableEq

/-- Where the goroutine is. -/
inductive Reader
  | top
  | demand
  | claim
  | receiving
  | received (item : Item)
  | park (item : Item)
  | push (item : Item)
  | measure
  | load
  | announce
  | recheck
  | relent
  | space
  | resume
  | ended
  | returned
  deriving DecidableEq

/-- Where the writer is. An item that it takes was polled for or waited for. -/
inductive Writer
  | idle
  | polling (wait : Bool)
  | await
  | notifying
  | awaiting
  | taking (item : Item) (polled : Bool)
  | stored (item : Item) (polled : Bool)
  | waking (item : Item) (polled : Bool)
  | taken (item : Item) (polled : Bool)
  | closing
  | swapped
  | draining
  deriving DecidableEq

structure State where
  items : List Item := []
  space : Bool := false
  demand : Bool := false
  done : Bool := false
  state : Receiving := .idle
  producerWaiting : Bool := false
  parked : Bool := false
  takenBytes : Nat := 0
  blocked : Bool := false
  abandoned : Bool := false
  closed : Bool := false
  ctxEnded : Bool := false
  reader : Reader := .top
  ahead : Bool := true
  pushedBytes : Nat := 0
  knownBytes : Nat := 0
  writer : Writer := .idle
  read : List Item := []
  delivered : List Item := []
  deriving DecidableEq

inductive Action
  | readerTop
  | readerAsked
  | readerClaims
  | recvReturns (item : Item)
  | readerReleases (ahead : Bool)
  | readerParks
  | readerPushes
  | readerMeasures
  | readerLoads
  | readerAnnounces
  | readerRechecks
  | readerRelents
  | readerWoken
  | readerResumes
  | readerQuits
  | next (wait : Bool)
  | polls
  | asks
  | notifies
  | receives
  | givesUp
  | timesOut
  | stores
  | checks
  | wakes
  | returns
  | close
  | swaps
  | closesDone
  | drains
  | ctxEnds
  deriving DecidableEq

def State.hasRoom (s : State) : Bool := s.pushedBytes - s.knownBytes < handlerReadAheadBytes

/-- The goroutine queues an item. -/
def State.push (s : State) (item : Item) (reader : Reader) : State :=
  { s with items := s.items ++ [item], pushedBytes := s.pushedBytes + item.message.size, reader := reader }

def step (s : State) : Action → Option State
  | .readerTop =>
    if s.reader = .top then
      if s.ahead = false then some { s with reader := .demand }
      else if s.ctxEnded then some { s with reader := .returned }
      else some { s with reader := .claim }
    else none
  | .readerAsked =>
    if s.reader = .demand ∧ s.demand = true then some { s with demand := false, reader := .claim } else none
  | .readerClaims =>
    if s.reader = .claim then
      if s.state = .idle then some { s with state := .receiving, reader := .receiving }
      else some { s with reader := .returned }
    else none
  | .recvReturns item =>
    if s.reader = .receiving then some { s with reader := .received item, read := s.read ++ [item] } else none
  | .readerReleases ahead =>
    match s.reader with
    | .received item =>
      if s.state = .receiving then
        if ahead = true then some { s with state := .idle, ahead := true, reader := .push item }
        else some { s with state := .idle, ahead := false, reader := .park item }
      else some { s with reader := .returned }
    | _ => none
  | .readerParks =>
    match s.reader with
    | .park item => some { s with parked := true, reader := .push item }
    | _ => none
  | .readerPushes =>
    match s.reader with
    | .push item =>
      if s.items.length < handlerReadAheadMessages - 1 then
        if item.err = none then some (s.push item .measure) else some (s.push item .ended)
      else none
    | _ => none
  | .readerMeasures =>
    if s.reader = .measure then
      if s.hasRoom then some { s with reader := .top } else some { s with reader := .load }
    else none
  | .readerLoads =>
    if s.reader = .load then
      let s := { s with knownBytes := s.takenBytes }
      if s.hasRoom then some { s with reader := .top } else some { s with reader := .announce }
    else none
  | .readerAnnounces =>
    if s.reader = .announce then some { s with producerWaiting := true, reader := .recheck } else none
  | .readerRechecks =>
    if s.reader = .recheck then
      let s := { s with knownBytes := s.takenBytes }
      if s.hasRoom then some { s with reader := .relent } else some { s with reader := .space }
    else none
  | .readerRelents =>
    if s.reader = .relent then some { s with producerWaiting := false, reader := .top } else none
  | .readerWoken =>
    if s.reader = .space ∧ s.space = true then some { s with space := false, reader := .resume } else none
  | .readerResumes =>
    if s.reader = .resume then some { s with producerWaiting := false, reader := .measure } else none
  | .readerQuits =>
    match s.reader with
    | .demand | .push _ | .space =>
      if s.done = true ∨ s.ctxEnded = true then some { s with reader := .returned } else none
    | _ => none
  | .next wait =>
    if s.writer = .idle ∧ s.abandoned = false then
      if wait = false ∨ s.blocked = false then some { s with writer := .polling wait }
      else some { s with writer := .await }
    else none
  | .polls =>
    match s.writer with
    | .polling wait =>
      match s.items with
      | item :: rest => some { s with items := rest, blocked := false, writer := .taking item true }
      | [] => if wait = true then some { s with writer := .await } else some { s with writer := .idle }
    | _ => none
  | .asks =>
    if s.writer = .await then
      if s.parked then some { s with parked := false, writer := .notifying }
      else some { s with writer := .awaiting }
    else none
  | .notifies => if s.writer = .notifying then some { s with demand := true, writer := .awaiting } else none
  | .receives =>
    if s.writer = .awaiting then
      match s.items with
      | item :: rest => some { s with items := rest, blocked := true, writer := .taking item false }
      | [] => none
    else none
  | .givesUp =>
    if s.writer = .awaiting ∧ (s.done = true ∨ s.ctxEnded = true) then
      some { s with abandoned := true, writer := .closing }
    else none
  | .timesOut => if s.writer = .awaiting then some { s with abandoned := true, writer := .closing } else none
  | .stores =>
    match s.writer with
    | .taking item polled =>
      some { s with takenBytes := s.takenBytes + item.message.size, writer := .stored item polled }
    | _ => none
  | .checks =>
    match s.writer with
    | .stored item polled =>
      if s.producerWaiting then some { s with writer := .waking item polled }
      else some { s with writer := .taken item polled }
    | _ => none
  | .wakes =>
    match s.writer with
    | .waking item polled => some { s with space := true, writer := .taken item polled }
    | _ => none
  | .returns =>
    match s.writer with
    | .taken item polled =>
      -- Whatever is queued is dropped with the call.
      if polled = true ∧ s.ctxEnded = true then some { s with abandoned := true, writer := .closing }
      else some { s with delivered := s.delivered ++ [item], writer := .idle }
    | _ => none
  | .close => if s.writer = .idle then some { s with writer := .closing } else none
  | .swaps =>
    if s.writer = .closing then
      if s.closed then some { s with writer := .idle }
      else some { s with closed := true, state := .closed, writer := .swapped }
    else none
  | .closesDone => if s.writer = .swapped then some { s with done := true, writer := .draining } else none
  | .drains =>
    if s.writer = .draining then
      match s.items with
      | _ :: rest => some { s with items := rest }
      | [] => some { s with writer := .idle }
    else none
  | .ctxEnds => some { s with ctxEnded := true }

end TrevRpc.Go.ReadAhead
