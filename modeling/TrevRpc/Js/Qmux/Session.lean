import TrevRpc.Lib.Run
import TrevRpc.Js.Qmux.Params

/-!
# A QMux session over a WebSocket (`qmux/session.js`)

JavaScript runs one piece of code at a time, from an event or a resumed `await` to the next `await`, and such a piece is
a step. The frames of a record are handled in one piece; they are steps of their own, during which nothing else runs.
-/

open TrevRpc.Varint

namespace TrevRpc.Js.Qmux

def maxRecordSize : Nat := 64 * 1024
def cancelledCode : Nat := 1
def sendBufferLimit : Nat := 1024 * 1024

inductive ErrorSource
  | session
  | stream
  deriving DecidableEq

/-- What `transportError` makes. -/
structure WebTransportError where
  message : String
  source : ErrorSource := .session
  streamErrorCode : Option Nat := none
  deriving DecidableEq

/-! ## State -/

/-- Where the `#write` of a stream is. -/
inductive Writer
  | idle
  /-- In `sendCredit`, waiting for `#wake`. -/
  | waiting (data : List UInt8)
  /-- In `sendCredit`, woken, or waiting for the timer that polls the WebSocket's buffer. -/
  | ready (data : List UInt8)
  /-- `sendCredit` has returned `allowed`, and the code after its `await` has not run. -/
  | granted (data : List UInt8) (allowed : Nat)
  deriving DecidableEq

/-- Where the `#pull` of a stream is. -/
inductive Reader
  | idle
  | parked
  | woken
  deriving DecidableEq

/-- The sending direction of a stream. -/
structure Sending where
  sendOffset : Nat := 0
  sendMax : Nat
  writeError : Option WebTransportError := none
  sendDone : Bool := false
  writer : Writer := .idle
  /-- The `WritableStream` is closed or failed: it makes no more calls to `write` and `close`. -/
  ended : Bool := false
  aborted : Bool := false

/-- The receiving direction of a stream. -/
structure Receiving where
  recvMax : Nat
  received : Nat := 0
  read : Nat := 0
  chunks : List (List UInt8) := []
  finalSize : Option Nat := none
  finReceived : Bool := false
  readError : Option WebTransportError := none
  readCancelled : Bool := false
  reader : Reader := .idle
  /-- The `ReadableStream` is closed or failed: it makes no more calls to `pull` and `cancel`. -/
  readEnded : Bool := false

structure Stream extends Sending, Receiving where
  live : Bool := true

inductive ReadyState
  | connecting
  | open
  | closing
  deriving DecidableEq

/-- The stream with the ID `4 * i` is the `i`-th of `streams`, which keeps the completed ones. -/
structure Session where
  window : Nat
  peer : Option TransportParameters := none
  streams : List Stream := []
  maxLocal : Nat := 0
  connSendMax : Nat := 0
  connSent : Nat := 0
  connRecvMax : Nat
  connReceived : Nat := 0
  connConsumed : Nat := 0
  pending : List Frame := []
  flushScheduled : Bool := false
  pingReceived : Int := -1
  closedError : Option WebTransportError := none
  readyState : ReadyState := .connecting
  incoming : List UInt8 := []
  sent : List (List Frame) := []
  queued : List Frame := []

/-- A frame header is at most 16 bytes, so the window fits one maximum-size frame. -/
def newSession (maxFrameSize : Nat) : Session :=
  { window := maxFrameSize + 16, connRecvMax := maxFrameSize + 16 }

/-! ## Streams -/

namespace Stream

def wake (st : Stream) : Stream :=
  match st.writer with
  | .waiting data => { st with writer := .ready data }
  | _ => st

def wakePull (st : Stream) : Stream :=
  if st.reader = .parked then { st with reader := .woken } else st

def maybeComplete (st : Stream) : Stream :=
  if st.sendDone ∧ st.finalSize = some st.read then { st with live := false } else st

def onSessionClosed (st : Stream) (error : WebTransportError) : Stream :=
  { st with
    readError := st.readError.or error
    writeError := st.writeError.or error
    sendDone := true
    ended := true }.wakePull

end Stream

/-! ## The text of a close reason -/

/-- A character that `TextDecoder` is in: the bytes it lacks, and the range of the next one. -/
structure Utf8Char where
  codePoint : Nat := 0
  needed : Nat := 0
  lower : Nat := 0x80
  upper : Nat := 0xbf

def replacement : Char := Char.ofNat 0xfffd

def Utf8Char.lead (byte : Nat) : List Char × Utf8Char :=
  if byte < 0x80 then ([Char.ofNat byte], {})
  else if byte < 0xc2 then ([replacement], {})
  else if byte < 0xe0 then ([], { codePoint := byte % 0x20, needed := 1 })
  else if byte < 0xf0 then
    ([], { codePoint := byte % 0x10, needed := 2, lower := if byte = 0xe0 then 0xa0 else 0x80,
           upper := if byte = 0xed then 0x9f else 0xbf })
  else if byte < 0xf5 then
    ([], { codePoint := byte % 0x08, needed := 3, lower := if byte = 0xf0 then 0x90 else 0x80,
           upper := if byte = 0xf4 then 0x8f else 0xbf })
  else ([replacement], {})

/-- A byte that does not continue the character leads the next one. -/
def Utf8Char.next (c : Utf8Char) (byte : Nat) : List Char × Utf8Char :=
  if c.needed = 0 then lead byte
  else if byte < c.lower ∨ c.upper < byte then
    let (chars, c) := lead byte
    (replacement :: chars, c)
  else
    let codePoint := c.codePoint * 0x40 + byte % 0x40
    if c.needed = 1 then ([Char.ofNat codePoint], {}) else ([], { codePoint, needed := c.needed - 1 })

def Utf8Char.decode (c : Utf8Char) : List UInt8 → List Char
  | [] => if c.needed = 0 then [] else [replacement]
  | byte :: rest =>
    let (chars, c) := c.next byte.toNat
    chars ++ c.decode rest

/-- `new TextDecoder().decode`, which takes a byte order mark away. -/
def textDecode : List UInt8 → String
  | 0xef :: 0xbb :: 0xbf :: bytes => String.ofList (Utf8Char.decode {} bytes)
  | bytes => String.ofList (Utf8Char.decode {} bytes)

/-! ## The session's own operations -/

/-- `#recordLimit`, which depends on the peer only. -/
def peerRecordLimit (peer : Option TransportParameters) : Nat :=
  min ((peer.map (·.maxRecordSize)).getD maxRecordSize) maxRecordSize

namespace Session

def modify (s : Session) (i : Nat) (f : Stream → Stream) : Session :=
  { s with streams := s.streams.modify i f }

def recordLimit (s : Session) : Nat := peerRecordLimit s.peer

/-- Writes a frame to `#pending`. -/
def queue (s : Session) (f : Frame) : Session :=
  { s with pending := s.pending ++ [f], queued := s.queued ++ [f] }

def scheduleFlush (s : Session) : Session := { s with flushScheduled := true }

/-- Sends the pending frames as one record. -/
def flush (s : Session) : Session :=
  if s.pending = [] then s
  else { s with
    pending := []
    sent := if s.readyState = .open then s.sent ++ [s.pending] else s.sent }

def wake (s : Session) : Session := { s with streams := s.streams.map Stream.wake }

def finish (s : Session) (error : WebTransportError) : Session :=
  if s.closedError.isSome then s
  else wake { s with
    closedError := some error
    streams := s.streams.map fun st =>
      if st.live then { st.onSessionClosed error with live := false } else st
    readyState := .closing }

/-- A step that may throw a protocol error, with the state in which it was thrown. -/
abbrev Handled := Except (ProtocolError × Session) Session

def received (s : Session) (length frameType : Nat) : Handled :=
  let s := { s with connReceived := s.connReceived + length }
  if s.connRecvMax < s.connReceived then
    .error (⟨.flowControlError, "connection flow control limit exceeded", frameType⟩, s)
  else .ok s

def consumed (s : Session) (length : Nat) : Session :=
  let s := { s with connConsumed := s.connConsumed + length }
  -- `connRecvMax - connConsumed <= window / 2`, over the rationals.
  if 2 * s.connRecvMax ≤ s.window + 2 * s.connConsumed then
    let s := { s with connRecvMax := s.connConsumed + s.window }
    (s.queue (.maxData s.connRecvMax)).scheduleFlush
  else s

def maxStreamData (s : Session) (i recvMax : Nat) : Session :=
  (s.queue (.maxStreamData (4 * i) recvMax)).scheduleFlush

def stopSending (s : Session) (i code : Nat) : Session :=
  (s.queue (.stopSending (4 * i) code)).scheduleFlush

def resetStream (s : Session) (i code sendOffset : Nat) : Session :=
  (s.queue (.resetStream (4 * i) code sendOffset)).scheduleFlush

inductive Credit
  | throws (error : WebTransportError)
  | returns (allowed : Nat)
  | polls
  | waits

/-- `buffered` is the WebSocket's `bufferedAmount`. A negative credit counts as none. -/
def sendCredit (s : Session) (st : Stream) (buffered : Nat) : Credit :=
  match st.writeError.or s.closedError with
  | some error => .throws error
  | none =>
    let credit := min (st.sendMax - st.sendOffset) (s.connSendMax - s.connSent)
    if 0 < credit ∧ buffered ≤ sendBufferLimit then .returns (min credit (s.recordLimit - 32))
    else if 0 < credit then .polls
    else .waits

def sendStream (s : Session) (i : Nat) (st : Stream) (data : List UInt8) (fin : Bool) : Session :=
  let overhead := streamFrameOverhead (4 * i) st.sendOffset data.length
  let s := if s.recordLimit < recordLength s.pending + overhead + data.length then s.flush else s
  let s := s.queue (.stream (4 * i) st.sendOffset data fin)
  let s := s.modify i fun st => { st with sendOffset := st.sendOffset + data.length }
  { s with connSent := s.connSent + data.length }.scheduleFlush

/-! ## The streams' operations -/

def resetSend (s : Session) (i : Nat) (st : Stream) (code : Nat) : Session :=
  if st.sendDone then s
  else
    let s := s.modify i fun st => { st with sendDone := true }
    let s := if s.closedError.isNone then s.resetStream i code st.sendOffset else s
    s.modify i Stream.maybeComplete

def onStopSending (s : Session) (i : Nat) (st : Stream) (code : Nat) : Session :=
  if st.sendDone then s
  else
    let error : WebTransportError :=
      { message := s!"stream stopped by peer with code {code}", source := .stream, streamErrorCode := some code }
    let s := s.modify i fun st => { st with writeError := some error }
    let s := s.resetSend i st code
    s.modify i fun st => { st with ended := true }

def abortSend (s : Session) (i : Nat) (st : Stream) (reason : String) : Session :=
  if st.sendDone then s
  else
    let error : WebTransportError :=
      { message := s!"stream aborted: {reason}", source := .stream, streamErrorCode := some cancelledCode }
    let s := s.modify i fun st => { st with writeError := st.writeError.or error }
    (s.resetSend i st cancelledCode).wake

def finishSend (s : Session) (i : Nat) (st : Stream) : Session :=
  if st.sendDone then s
  else if s.closedError.isSome then s
  else
    let s := s.modify i fun st => { st with sendDone := true }
    (s.sendStream i st [] true).modify i Stream.maybeComplete

/-- `#write` from the head of its loop to its next `await`, or to its end. -/
def write (s : Session) (i : Nat) (data : List UInt8) (buffered : Nat) : Session :=
  if data = [] then s.modify i fun st => { st with writer := .idle }
  else
    match s.streams[i]? with
    | none => s
    | some st =>
      match s.sendCredit st buffered with
      | .throws _ => s.modify i fun st => { st with writer := .idle, ended := true }
      | .returns allowed => s.modify i fun st => { st with writer := .granted data allowed }
      | .polls => s.modify i fun st => { st with writer := .ready data }
      | .waits => s.modify i fun st => { st with writer := .waiting data }

/-- `#write` after its `sendCredit` has returned `allowed`. -/
def writePiece (s : Session) (i : Nat) (st : Stream) (data : List UInt8) (allowed buffered : Nat) :
    Session :=
  let piece := data.take allowed
  (s.sendStream i st piece false).write i (data.drop piece.length) buffered

def onData (s : Session) (i : Nat) (st : Stream) (offset : Nat) (data : List UInt8) (fin : Bool) :
    Handled :=
  let id := 4 * i
  let stop := offset + data.length
  if st.finalSize.any fun size => size < stop ∨ (fin ∧ stop ≠ size) then
    .error (⟨.finalSizeError, s!"stream {id} data beyond its final size", FrameType.stream⟩, s)
  else if offset ≠ st.received then
    .error (⟨.protocolViolation, s!"stream {id} data out of order", FrameType.stream⟩, s)
  else if st.recvMax < stop then
    .error (⟨.flowControlError, s!"stream {id} exceeds its flow control limit", FrameType.stream⟩, s)
  else do
    let s ← s.received data.length FrameType.stream
    let s := s.modify i fun st => { st with
      received := stop
      finalSize := if fin then some stop else st.finalSize
      finReceived := st.finReceived || fin }
    let s :=
      if st.readCancelled ∨ st.readError.isSome then
        (s.modify i fun st => { st with read := stop }).consumed data.length
      else if data ≠ [] then s.modify i fun st => { st with chunks := st.chunks ++ [data] }
      else s
    return s.modify i fun st => st.wakePull.maybeComplete

def onReset (s : Session) (i : Nat) (st : Stream) (code finalSize : Nat) : Handled :=
  let id := 4 * i
  if st.finReceived ∧ st.finalSize = some finalSize then .ok s
  else if (st.finalSize.any (· ≠ finalSize)) ∨ finalSize < st.received then
    .error (⟨.finalSizeError, s!"stream {id} reset with an inconsistent final size",
      FrameType.resetStream⟩, s)
  else if st.recvMax < finalSize then
    .error (⟨.flowControlError, s!"stream {id} final size exceeds its flow control limit",
      FrameType.resetStream⟩, s)
  else do
    let s ← s.received (finalSize - st.received) FrameType.resetStream
    let error : WebTransportError :=
      { message := s!"stream reset by peer with code {code}", source := .stream, streamErrorCode := some code }
    let s := s.modify i fun st => { st with
      received := finalSize
      finalSize := some finalSize
      readError := if st.readCancelled then st.readError else st.readError.or error }
    let s := s.consumed (finalSize - st.read)
    return s.modify i fun st => { st with read := finalSize, chunks := [] }.wakePull.maybeComplete

/-- The `#consumed` of a stream. -/
def streamConsumed (s : Session) (i : Nat) (st : Stream) (length : Nat) : Session :=
  let read := st.read + length
  let s := s.modify i fun st => { st with read := read }
  let s :=
    if st.finalSize = none ∧ 2 * st.recvMax ≤ s.window + 2 * read then
      (s.modify i fun st => { st with recvMax := read + s.window }).maxStreamData i (read + s.window)
    else s
  (s.consumed length).modify i Stream.maybeComplete

/-- `#pull` from the head of its loop to its next `await`, or to its end. -/
def pull (s : Session) (i : Nat) (st : Stream) : Session :=
  if st.readError.isSome then s.modify i fun st => { st with reader := .idle, readEnded := true }
  else
    match st.chunks with
    | chunk :: chunks =>
      let s := s.modify i fun st => { st with chunks := chunks, reader := .idle }
      s.streamConsumed i st chunk.length
    | [] =>
      if st.finReceived ∧ st.finalSize = some st.read then
        s.modify i fun st => { st with reader := .idle, readEnded := true }
      else s.modify i fun st => { st with reader := .parked }

def cancelRead (s : Session) (i : Nat) (st : Stream) : Session :=
  let s := s.modify i fun st => { st with readEnded := true }
  if st.readCancelled ∨ st.readError.isSome ∨ (st.finReceived ∧ st.finalSize = some st.read) then s
  else
    let s := s.modify i fun st => { st with readCancelled := true, chunks := [], read := st.received }
    let s := s.consumed (st.received - st.read)
    let s :=
      if st.finalSize = none ∧ s.closedError.isNone then s.stopSending i cancelledCode else s
    s.modify i Stream.maybeComplete

/-! ## Records from the peer -/

def stream (s : Session) (id frameType : Nat) : Except (ProtocolError × Session) (Option (Nat × Stream)) :=
  if id % 4 ≠ 0 then
    .error (⟨.streamLimitError, s!"stream {id} exceeds the stream limit", frameType⟩, s)
  else
    match s.streams[id / 4]? with
    | none => .error (⟨.streamStateError, s!"stream {id} was never opened", frameType⟩, s)
    | some st => .ok (if st.live then some (id / 4, st) else none)

/-- `#stream(frame)?.f(...)` -/
def onStream (s : Session) (id frameType : Nat) (f : Nat → Stream → Handled) : Handled := do
  match ← s.stream id frameType with
  | none => return s
  | some (i, st) => f i st

def parameters (s : Session) (params : List UInt8) : Handled :=
  if s.peer.isSome then
    .error (⟨.protocolViolation, "repeated QX_TRANSPORT_PARAMETERS", FrameType.transportParameters⟩, s)
  else
    match decodeTransportParameters params with
    | .error e => .error (e, s)
    | .ok peer => .ok { s with
        peer := some peer
        maxLocal := peer.initialMaxStreamsBidi
        connSendMax := peer.initialMaxData }

def onMaxData (s : Session) (maximum : Nat) : Session :=
  if s.connSendMax < maximum then { s with connSendMax := maximum }.wake else s

def onMaxStreamData (s : Session) (i : Nat) (st : Stream) (maximum : Nat) : Session :=
  if st.sendMax < maximum then (s.modify i fun st => { st with sendMax := maximum }).wake else s

/-- Only a MAX_STREAMS for bidirectional streams counts. -/
def onStreamCount (s : Session) (frameType maximum : Nat) : Handled :=
  if 2 ^ 60 < maximum then
    .error (⟨.frameEncodingError, "stream count exceeds 2^60", frameType⟩, s)
  else if frameType = FrameType.maxStreamsBidi ∧ s.maxLocal < maximum then
    .ok { s with maxLocal := maximum }.wake
  else .ok s

def onPing (s : Session) (sequence : Nat) : Handled :=
  if (sequence : Int) ≤ s.pingReceived then
    .error (⟨.protocolViolation, "QX_PING sequence is not increasing", FrameType.ping⟩, s)
  else
    .ok (({ s with pingReceived := sequence }.queue
      (.ping FrameType.pingResponse sequence)).scheduleFlush)

/-- The error of a closed session; the reason is given as its bytes. -/
def closedByPeer (code : Nat) (reason : List UInt8) : WebTransportError :=
  let text := textDecode reason
  { message := if text = "" then s!"session closed by peer with code {code}"
      else s!"session closed by peer with code {code}: {text}" }

def handle (s : Session) (frame : Received) : Handled :=
  match frame with
  | .transportParameters params => s.parameters params
  | .padding => .ok s
  | .dataBlocked _ => .ok s
  | .resetStream id code finalSize =>
    s.onStream id frame.type fun i st => s.onReset i st code finalSize
  | .stopSending id code => s.onStream id frame.type fun i st => .ok (s.onStopSending i st code)
  | .maxData maximum => .ok (s.onMaxData maximum)
  | .maxStreamData id maximum =>
    s.onStream id frame.type fun i st => .ok (s.onMaxStreamData i st maximum)
  | .maxStreamsBidi maximum => s.onStreamCount frame.type maximum
  | .maxStreamsUni maximum => s.onStreamCount frame.type maximum
  | .streamsBlockedBidi maximum => s.onStreamCount frame.type maximum
  | .streamsBlockedUni maximum => s.onStreamCount frame.type maximum
  | .streamDataBlocked id _ => s.onStream id frame.type fun _ _ => .ok s
  | .connectionClose code _ reason => .ok (s.finish (closedByPeer code reason))
  | .applicationClose code reason => .ok (s.finish (closedByPeer code reason))
  | .ping sequence => s.onPing sequence
  | .pingResponse _ =>
    .error (⟨.protocolViolation, "QX_PING response was never requested", frame.type⟩, s)
  | .stream _ id offset data fin =>
    s.onStream id frame.type fun i st => s.onData i st offset data fin

/-- The `catch` of `#received`. -/
def fail (s : Session) (error : ProtocolError) : Session :=
  let message := error.message
  let s := { s with incoming := [] }.queue (.connectionClose error.code.code error.frameType [])
  s.flush.finish { message := s!"QMux protocol error: {message}" }

/-- `#received` up to its loop; `none` is a text message. -/
def message (s : Session) (data : Option (List UInt8)) : Session :=
  if s.closedError.isSome then s
  else
    match data with
    | none => s.fail ⟨.protocolViolation, "text message", 0⟩
    | some record =>
      if maxRecordSize < record.length then
        s.fail ⟨.frameEncodingError, "record exceeds max_record_size", 0⟩
      else { s with incoming := record }

/-- One round of the loop in `#received`. -/
def nextFrame (s : Session) : Session :=
  match FrameParser.next.run s.incoming with
  | .error e => s.fail e
  | .ok (frame, rest) =>
    if s.closedError.isSome then { s with incoming := [] }
    else if s.peer.isNone ∧ frame.type ≠ FrameType.transportParameters then
      s.fail ⟨.protocolViolation, "first frame is not QX_TRANSPORT_PARAMETERS", frame.type⟩
    else
      match { s with incoming := rest }.handle frame with
      | .ok s => s
      | .error (e, s) => s.fail e

/-! ## Opening and closing -/

def opened (s : Session) (protocol : Bool) (name : String) : Session :=
  let s := { s with readyState := .open }
  if protocol then
    match writeTransportParameters
        { initialMaxData := s.window, initialMaxStreamDataBidiLocal := s.window, maxRecordSize } with
    | some frame => (s.queue frame).flush
    | none => s
  else s.finish { message := "server selected WebSocket subprotocol \"" ++ name ++ "\"" }

def createBidirectionalStream (s : Session) (peer : TransportParameters) : Session :=
  { s with streams := s.streams ++
      [{ sendMax := peer.initialMaxStreamDataBidiRemote, recvMax := s.window }] }

/-- `reason` is given as its bytes in UTF-8. -/
def close (s : Session) (code : Nat) (reason : List UInt8) : Session :=
  if s.closedError.isSome then s
  else
    (s.queue (.applicationClose code (reason.take 256))).flush.finish
      { message := "session closed locally" }

end Session

/-! ## Steps -/

inductive Action
  | opened (protocol : Bool) (name : String)
  | message (data : Option (List UInt8))
  | nextFrame
  | create
  | write (i : Nat) (data : List UInt8) (buffered : Nat)
  | resume (i buffered : Nat)
  | writePiece (i buffered : Nat)
  | closeWriter (i : Nat)
  | abortSignal (i : Nat) (reason : String)
  | abortSink (i : Nat)
  | pull (i : Nat)
  | resumePull (i : Nat)
  | cancelRead (i : Nat)
  | flush
  | close (code : Nat) (reason : List UInt8)
  | finish (error : WebTransportError)
  deriving DecidableEq

open Session

def onStream (s : Session) (i : Nat) (guard : Stream → Bool) (f : Stream → Session) : Option Session :=
  match s.streams[i]? with
  | some st => if guard st then some (f st) else none
  | none => none

def task (s : Session) : Action → Option Session
  | .opened protocol name =>
    -- A WebSocket delivers no message before it opens.
    if s.readyState = .connecting ∧ s.peer.isNone then some (s.opened protocol name) else none
  | .message data => if s.readyState = .open then some (s.message data) else none
  | .nextFrame => none
  | .create =>
    match s.peer with
    | some peer =>
      if s.closedError.isNone ∧ s.streams.length < s.maxLocal then
        some (s.createBidirectionalStream peer)
      else none
    | none => none
  | .write i data buffered =>
    onStream s i (fun st => st.writer = .idle ∧ ¬ st.ended) fun _ => s.write i data buffered
  | .resume i buffered =>
    match s.streams[i]? with
    | some st =>
      match st.writer with
      | .ready data => some (s.write i data buffered)
      | _ => none
    | none => none
  | .writePiece i buffered =>
    match s.streams[i]? with
    | some st =>
      match st.writer with
      | .granted data allowed => some (s.writePiece i st data allowed buffered)
      | _ => none
    | none => none
  | .closeWriter i =>
    onStream s i (fun st => st.writer = .idle ∧ ¬ st.ended) fun st =>
      (s.finishSend i st).modify i fun st => { st with ended := true }
  | .abortSignal i reason =>
    onStream s i (fun st => ¬ st.aborted) fun st =>
      (s.abortSend i st reason).modify i fun st => { st with aborted := true, ended := true }
  | .abortSink i =>
    onStream s i (fun st => st.aborted ∧ st.writer = .idle) fun st => s.resetSend i st cancelledCode
  | .pull i => onStream s i (fun st => st.reader = .idle ∧ ¬ st.readEnded) fun st => s.pull i st
  | .resumePull i => onStream s i (fun st => st.reader = .woken) fun st => s.pull i st
  | .cancelRead i => onStream s i (fun st => ¬ st.readEnded) fun st => s.cancelRead i st
  | .flush => if s.flushScheduled then some { s with flushScheduled := false }.flush else none
  | .close code reason => some (s.close code reason)
  | .finish error => some (s.finish error)

def step (s : Session) (a : Action) : Option Session :=
  if s.incoming = [] then task s a
  else if a = .nextFrame then some s.nextFrame
  else none

def smallServer : List UInt8 :=
  [0xff, 0x51, 0x53, 0x30, 0x0d, 0x0a, 0x0d, 0x0a, 10, 4, 1, 10, 6, 2, 64, 100, 8, 1, 2]

example : FrameParser.next.run smallServer =
    .ok (.transportParameters [4, 1, 10, 6, 2, 64, 100, 8, 1, 2], []) := rfl

end TrevRpc.Js.Qmux
