import TrevRpc.Go.Qmux.Params
import Mathlib.Logic.Function.Basic

/-!
# The QMux session of the Go implementation (`internal/qmux/{session,stream}.go`)

Each function runs under the session's lock. Counters are `Nat` for `uint64`. What is sent and opened stays within the
credit of the peer, and the credit, like every offset, size and final size that arrives, is a varint below 2^62: `sent`,
`connSent`, `openedLocal`, and the sums with the length of a frame, cannot wrap. `recvMax`, `connRecvMax`, `maxRemote`
and `pingSent` are written as varints whenever they have grown, so `quicvarint.Append` panics at 2^62 before they could;
they bound `received`, `connReceived`, `read`, `connConsumed` and `openedRemote`. Deadlines, contexts and the channels
that wake blocked calls are left out; a call that would block changes nothing.
-/

open TrevRpc.Varint

namespace TrevRpc.Go.Qmux

inductive Role
  | client
  | server
  deriving DecidableEq

namespace Role

def other : Role → Role
  | client => server
  | server => client

def toNat : Role → Nat
  | client => 0
  | server => 1

@[simp] theorem other_other (r : Role) : r.other.other = r := by cases r <;> rfl

@[simp] theorem other_ne (r : Role) : r.other ≠ r := by cases r <;> decide

theorem eq_or_eq_other (r r' : Role) : r' = r ∨ r' = r.other := by cases r <;> cases r' <;> simp [other]

end Role

structure StreamID where
  opener : Role
  num : Nat
  deriving DecidableEq

namespace StreamID

/-- The ID on the wire, `num<<2 | role`. -/
def toNat (id : StreamID) : Nat := id.num * 4 + id.opener.toNat

def ofNat (id : Nat) : StreamID := ⟨if id % 2 = 0 then .client else .server, id / 4⟩

theorem toNat_mod (id : StreamID) : id.toNat % 2 = id.opener.toNat := by
  unfold toNat
  cases id.opener <;> simp only [Role.toNat] <;> omega

theorem toNat_div (id : StreamID) : id.toNat / 4 = id.num := by
  unfold toNat
  cases id.opener <;> simp only [Role.toNat] <;> omega

@[simp] theorem ofNat_toNat (id : StreamID) : ofNat id.toNat = id := by
  unfold ofNat
  rw [toNat_mod, toNat_div]
  obtain ⟨o, num⟩ := id
  cases o <;> rfl

theorem toNat_bidirectional (id : StreamID) : ¬ id.toNat / 2 % 2 = 1 := by
  unfold toNat
  cases id.opener <;> simp only [Role.toNat] <;> omega

theorem toNat_inj {id id' : StreamID} : id.toNat = id'.toNat ↔ id = id' := by
  constructor
  · intro h
    rw [← ofNat_toNat id, h, ofNat_toNat]
  · rintro rfl
    rfl

end StreamID

structure StreamError where
  streamID : Nat
  errorCode : Nat
  remote : Bool := false
  deriving DecidableEq

structure ApplicationError where
  remote : Bool := false
  errorCode : Nat
  errorMessage : List UInt8
  deriving DecidableEq

/-- Why a session ended. -/
inductive SessionError
  | application (e : ApplicationError)
  | transport (e : TransportError)
  deriving DecidableEq

/-- Why `Write` fails. -/
inductive WriteError
  | closed
  | cancelled (e : StreamError)
  deriving DecidableEq

inductive CloseMode
  | modeOpen
  | modeClose
  | modeQuiet
  | modeAbort
  deriving DecidableEq

/-! ## Streams -/

structure Stream where
  recvBuf : List UInt8 := []
  recvCap : Nat := 0
  recvHead : Nat := 0
  received : Nat := 0
  read : Nat := 0
  recvMax : Nat
  recvWindow : Nat
  finalKnown : Bool := false
  finalSize : Nat := 0
  finReceived : Bool := false
  resetReceived : Option StreamError := none
  readCancelled : Bool := false
  readCode : Nat := 0
  sendBuf : List UInt8 := []
  sendCap : Nat := 0
  sendHead : Nat := 0
  sent : Nat := 0
  sendMax : Nat
  finRequested : Bool := false
  finSent : Bool := false
  resetSent : Bool := false
  writeErr : Option WriteError := none
  inReady : Bool := false
  removed : Bool := false
  -- History, which the code does not keep: the bytes that `Write` accepted, that arrived, and that
  -- `Read` returned.
  accepted : List UInt8 := []
  arrived : List UInt8 := []
  returned : List UInt8 := []
  deriving DecidableEq

namespace Stream

def new (sendMax recvWindow : Nat) : Stream :=
  { sendMax := sendMax, recvMax := recvWindow, recvWindow := recvWindow }

def sendDone (st : Stream) : Bool := st.finSent || st.resetSent

def recvDone (st : Stream) : Bool := st.finalKnown && st.read == st.finalSize

/-- What `Read` has not returned yet. -/
def unread (st : Stream) : List UInt8 := st.recvBuf.drop st.recvHead

/-- What has not been framed yet. -/
def unsent (st : Stream) : List UInt8 := st.sendBuf.drop st.sendHead

/-- `appendReceivedLocked`. -/
def appendReceived (st : Stream) (data : List UInt8) : Stream :=
  let st :=
    if st.recvCap < st.recvBuf.length + data.length then
      if st.unread.length + data.length ≤ st.recvCap / 2 then
        { st with recvBuf := st.unread, recvHead := 0 }
      else
        { st with
          recvBuf := st.unread, recvHead := 0
          recvCap := max (2 * st.recvCap) (st.unread.length + data.length) }
    else st
  { st with recvBuf := st.recvBuf ++ data }

/-- Counts `data` that ends at `last`. -/
def arrive (st : Stream) (last : Nat) (data : List UInt8) (fin : Bool) : Stream :=
  let st := { st with received := last, arrived := st.arrived ++ data }
  if fin then { st with finalKnown := true, finalSize := last, finReceived := true } else st

/-- Ends the stream at `finalSize`. `Read` returns the error unless it has another. -/
def endByReset (st : Stream) (finalSize : Nat) (err : StreamError) : Stream :=
  let st := { st with received := finalSize, finalKnown := true, finalSize := finalSize }
  if !st.readCancelled && st.resetReceived.isNone then { st with resetReceived := some err } else st

/-- A round of `Write`'s loop copies `n` bytes of `p`. How far `append` grows a slice is up to Go: `grown`. -/
def appendSend (st : Stream) (space n : Nat) (p : List UInt8) (grown : Nat) : Stream :=
  let st :=
    if 0 < st.sendHead ∧ st.sendCap - st.sendBuf.length < space then
      { st with sendBuf := st.unsent, sendHead := 0 }
    else st
  let sendBuf := st.sendBuf ++ p.take n
  { st with
    sendBuf := sendBuf
    sendCap := if sendBuf.length ≤ st.sendCap then st.sendCap else max grown sendBuf.length
    accepted := st.accepted ++ p.take n }

def advanceSend (st : Stream) (n : Nat) : Stream :=
  let st := { st with sendHead := st.sendHead + n, sent := st.sent + n }
  if st.sendHead = st.sendBuf.length then { st with sendBuf := [], sendHead := 0 } else st

def takeUnread (st : Stream) (size : Nat) : Stream :=
  let data := st.unread.take size
  let st := { st with recvHead := st.recvHead + data.length, returned := st.returned ++ data }
  if st.recvHead = st.recvBuf.length then { st with recvBuf := [], recvHead := 0 } else st

end Stream

/-! ## Sessions -/

def defaultStreamSendBuffer : Nat := 64 * 1024

def maxSendRecordSize : Nat := 64 * 1024

def streamQuantum : Nat := 16 * 1024

structure Session where
  role : Role
  version : Version
  localParams : Parameters
  peer : Parameters := { maxRecordSize := defaultMaxRecordSize }
  sendBuffer : Nat
  closeErr : Option SessionError := none
  mode : CloseMode := .modeOpen
  closeFrame : Option Frame := none
  -- The streams that each side opened, also those that have completed.
  streams : Role → List Stream := fun _ => []
  maxLocal : Nat := 0
  maxRemote : Nat
  sendMaxStreams : Bool := false
  acceptQueue : List StreamID := []
  connSendMax : Nat := 0
  connSent : Nat := 0
  connRecvMax : Nat
  connRecvWindow : Nat
  connReceived : Nat := 0
  connConsumed : Nat := 0
  sendMaxData : Bool := false
  control : List Frame := []
  ready : List StreamID := []
  pingSent : Nat := 0
  pingReceived : Nat := 0
  receivedPing : Bool := false
  sendPing : Bool := false
  sendPingReply : Bool := false
  paramsReceived : Bool := false
  -- The token in the channel that wakes the writer.
  wake : Bool := false

/-- A session with its parameters queued; `none` is the panic of `quicvarint.Append`. -/
def newSession (role : Role) (version : Version) (params : Parameters) (streamSendBuffer : Nat) :
    Option Session := do
  let frame ← appendTransportParameters version params
  return {
    role := role
    version := version
    localParams := params
    sendBuffer := if streamSendBuffer = 0 then defaultStreamSendBuffer else streamSendBuffer
    maxRemote := params.initialMaxStreamsBidi
    connRecvMax := params.initialMaxData
    connRecvWindow := params.initialMaxData
    control := [frame]
    wake := true }

namespace Session

def openedLocal (s : Session) : Nat := (s.streams s.role).length

def openedRemote (s : Session) : Nat := (s.streams s.role.other).length

def isLocal (s : Session) (id : StreamID) : Bool := id.opener = s.role

def get (s : Session) (id : StreamID) : Option Stream := (s.streams id.opener)[id.num]?

def set (s : Session) (id : StreamID) (st : Stream) : Session :=
  { s with streams := Function.update s.streams id.opener ((s.streams id.opener).set id.num st) }

/-- The entry of the map `streams`, which forgets a stream that has completed. -/
def live (s : Session) (id : StreamID) : Option Stream := (s.get id).filter (!·.removed)

def wakeWriter (s : Session) : Session := { s with wake := true }

def queueControl (s : Session) (f : Frame) : Session := { s with control := s.control ++ [f] }.wakeWriter

def consumed (s : Session) (n : Nat) : Session :=
  let s := { s with connConsumed := s.connConsumed + n }
  if s.connRecvMax - s.connConsumed ≤ s.connRecvWindow / 2 then
    { s with connRecvMax := s.connConsumed + s.connRecvWindow, sendMaxData := true }.wakeWriter
  else s

def streamCompleted (s : Session) (id : StreamID) : Session :=
  if s.isLocal id then s
  else { s with maxRemote := s.maxRemote + 1, sendMaxStreams := true }.wakeWriter

def maybeRemove (s : Session) (id : StreamID) : Session :=
  match s.get id with
  | none => s
  | some st =>
    if !st.removed && st.sendDone && st.recvDone then
      (s.set id { st with removed := true }).streamCompleted id
    else s

def markReady (s : Session) (id : StreamID) : Session :=
  match s.get id with
  | none => s
  | some st =>
    if st.resetSent then s
    else if st.inReady then s.wakeWriter
    else { s.set id { st with inReady := true } with ready := s.ready ++ [id] }.wakeWriter

/-- `Stream.consumedLocked`: returns `n` bytes of credit of the stream `st`. -/
def streamConsumed (s : Session) (id : StreamID) (st : Stream) (n : Nat) : Session :=
  let st := { st with read := st.read + n }
  let s :=
    if !st.finalKnown ∧ st.recvMax - st.read ≤ st.recvWindow / 2 then
      let recvMax := st.read + st.recvWindow
      (s.set id { st with recvMax := recvMax }).queueControl (.maxStreamData id.toNat recvMax)
    else s.set id st
  (s.consumed n).maybeRemove id

/-- `resetSendLocked`: discards unsent data and queues RESET_STREAM. -/
def resetSend (s : Session) (id : StreamID) (st : Stream) (code : Nat) : Session :=
  let s := s.set id { st with sendBuf := [], sendCap := 0, sendHead := 0, resetSent := true }
  (s.queueControl (.resetStream id.toNat code st.sent)).maybeRemove id

/-! ## Calls of the application -/

def openStreamSync (s : Session) : Session × Option StreamID :=
  if s.closeErr.isNone ∧ s.openedLocal < s.maxLocal then
    let st := Stream.new s.peer.initialMaxStreamDataBidiRemote s.localParams.initialMaxStreamDataBidiLocal
    ({ s with streams := Function.update s.streams s.role (s.streams s.role ++ [st]) },
      some ⟨s.role, s.openedLocal⟩)
  else (s, none)

def acceptStream (s : Session) : Session × Option StreamID :=
  match s.acceptQueue with
  | [] => (s, none)
  | id :: rest => ({ s with acceptQueue := rest }, some id)

inductive ReadResult
  | data (bytes : List UInt8)
  | eof
  | streamError (e : StreamError)
  | sessionError (e : SessionError)
  | wait
  deriving DecidableEq

/-- `Read` into a buffer of `size` bytes. -/
def read (s : Session) (id : StreamID) (st : Stream) (size : Nat) : Session × ReadResult :=
  if st.readCancelled then (s, .streamError ⟨id.toNat, st.readCode, false⟩)
  else
    match st.resetReceived with
    | some e => (s, .streamError e)
    | none =>
      if 0 < st.unread.length then
        let data := st.unread.take size
        (s.streamConsumed id (st.takeUnread size) data.length, .data data)
      else if st.finalKnown ∧ st.read = st.finalSize then (s, .eof)
      else
        match s.closeErr with
        | some e => (s, .sessionError e)
        | none => if size = 0 then (s, .data []) else (s, .wait)

/-- `Write` up to where it returns or waits: how many bytes it took. -/
def write (s : Session) (id : StreamID) (st : Stream) (p : List UInt8) (grown : Nat) : Session × Nat :=
  if st.writeErr.isSome ∨ s.closeErr.isSome ∨ p.length = 0 then (s, 0)
  else
    let space := s.sendBuffer - st.unsent.length
    if 0 < space then
      let n := min space p.length
      ((s.set id (st.appendSend space n p grown)).markReady id, n)
    else (s, 0)

def close (s : Session) (id : StreamID) (st : Stream) : Session :=
  if st.finRequested || st.resetSent then s
  else (s.set id { st with finRequested := true, writeErr := some .closed }).markReady id

def cancelWrite (s : Session) (id : StreamID) (st : Stream) (code : Nat) : Session :=
  if st.sendDone then s
  else s.resetSend id { st with writeErr := some (.cancelled ⟨id.toNat, code, false⟩) } code

def cancelRead (s : Session) (id : StreamID) (st : Stream) (code : Nat) : Session :=
  if st.readCancelled || st.resetReceived.isSome || st.recvDone then s
  else
    let unread := st.received - st.read
    let st := { st with readCancelled := true, readCode := code }
    let s :=
      if 0 < unread then
        (s.set id { st with read := st.received, recvBuf := [], recvCap := 0, recvHead := 0 }).consumed unread
      else s.set id st
    let s := if st.finalKnown then s else s.queueControl (.stopSending id.toNat code)
    s.maybeRemove id

/-! ## Closing -/

/-- Ends the session once. `frame` is the CONNECTION_CLOSE of `modeClose`. -/
def closeWith (s : Session) (err : SessionError) (frame : Option Frame) (mode : CloseMode) : Session :=
  if s.closeErr.isSome then s
  else { s with closeErr := some err, mode := mode, closeFrame := frame.or s.closeFrame }.wakeWriter

def closeWithError (s : Session) (code : Nat) (message : List UInt8) : Session :=
  s.closeWith (.application ⟨false, code, message⟩) (some (.applicationClose code message)) .modeClose

def fail (s : Session) (err : TransportError) : Session :=
  s.closeWith (.transport err)
    (some (.connectionClose err.errorCode err.frameType (err.errorMessage.take 256))) .modeClose

/-! ## Records that arrive -/

abbrev Handled := Session × Option TransportError

def handleParameters (s : Session) (params : List UInt8) : Handled :=
  if s.paramsReceived then
    (s, some (protocolError .protocolViolation s.version.transportParametersType
      "repeated QX_TRANSPORT_PARAMETERS"))
  else
    match decodeParameters s.version params with
    | .error e => (s, some e)
    | .ok peer =>
      ({ s with
          paramsReceived := true, peer := peer
          maxLocal := peer.initialMaxStreamsBidi, connSendMax := peer.initialMaxData }, none)

def handleConnectionClose (s : Session) (err : SessionError) : Handled :=
  (s.closeWith err none .modeQuiet, none)

def openRemote (s : Session) (num : Nat) : Session :=
  let st := Stream.new s.peer.initialMaxStreamDataBidiLocal s.localParams.initialMaxStreamDataBidiRemote
  let remote := s.role.other
  let count := num + 1 - s.openedRemote
  { s with
    streams := Function.update s.streams remote (s.streams remote ++ List.replicate count st)
    acceptQueue := s.acceptQueue ++ (List.range count).map fun i => ⟨remote, s.openedRemote + i⟩ }

/-- `streamLocked`: the stream that a frame is about. -/
def stream (s : Session) (id frameType : Nat) : Except TransportError (Session × StreamID) :=
  let sid := StreamID.ofNat id
  let limit := s.maxRemote
  if id / 2 % 2 = 1 then
    if s.isLocal sid then
      .error (protocolError .streamStateError frameType s!"unidirectional stream {id} was never opened")
    else .error (protocolError .streamLimitError frameType "unidirectional streams are not allowed")
  else if s.isLocal sid then
    if s.openedLocal ≤ sid.num then
      .error (protocolError .streamStateError frameType s!"stream {id} was never opened")
    else .ok (s, sid)
  else if sid.num < s.openedRemote then .ok (s, sid)
  else if limit ≤ sid.num then
    .error (protocolError .streamLimitError frameType s!"stream {id} exceeds the stream limit {limit}")
  else .ok (s.openRemote sid.num, sid)

def onStream (s : Session) (id frameType : Nat) (handle : Session → StreamID → Stream → Handled) : Handled :=
  match s.stream id frameType with
  | .error e => (s, some e)
  | .ok (s, sid) =>
    match s.live sid with
    | none => (s, none)
    | some st => handle s sid st

/-- `handleStreamLocked`. -/
def handleStream (typ id offset : Nat) (data : List UInt8) (fin : Bool) (s : Session) (sid : StreamID)
    (st : Stream) : Handled :=
  let last := offset + data.length
  let received := st.received
  if st.finalKnown ∧ (st.finalSize < last ∨ fin ∧ last ≠ st.finalSize) then
    (s, some (protocolError .finalSizeError typ s!"stream {id} data beyond its final size"))
  else if offset ≠ received then
    (s, some (protocolError .protocolViolation typ
      s!"stream {id} data at offset {offset}, expected {received}"))
  else if st.recvMax < last then
    (s, some (protocolError .flowControlError typ s!"stream {id} exceeds its flow control limit"))
  else
    let s := { s with connReceived := s.connReceived + data.length }
    if s.connRecvMax < s.connReceived then
      (s, some (protocolError .flowControlError typ "connection flow control limit exceeded"))
    else
      let st := st.arrive last data fin
      let s :=
        if st.readCancelled || st.resetReceived.isSome then
          (s.set sid { st with read := last }).consumed data.length
        else s.set sid (st.appendReceived data)
      (s.maybeRemove sid, none)

/-- `handleResetStreamLocked`. -/
def handleResetStream (id errorCode finalSize : Nat) (s : Session) (sid : StreamID) (st : Stream) : Handled :=
  let typ := FrameType.resetStream
  if st.finReceived ∧ finalSize = st.finalSize then (s, none)
  else if st.finalKnown ∧ finalSize ≠ st.finalSize ∨ finalSize < st.received then
    (s, some (protocolError .finalSizeError typ s!"stream {id} reset with an inconsistent final size"))
  else if st.recvMax < finalSize then
    (s, some (protocolError .flowControlError typ s!"stream {id} final size exceeds its flow control limit"))
  else
    let s := { s with connReceived := s.connReceived + (finalSize - st.received) }
    if s.connRecvMax < s.connReceived then
      (s, some (protocolError .flowControlError typ "connection flow control limit exceeded"))
    else
      let st := st.endByReset finalSize ⟨id, errorCode, true⟩
      let unread := finalSize - st.read
      let s :=
        if 0 < unread then
          (s.consumed unread).set sid { st with read := finalSize, recvBuf := [], recvHead := 0 }
        else s.set sid st
      (s.maybeRemove sid, none)

/-- `handleStopSendingLocked`. -/
def handleStopSending (id errorCode : Nat) (s : Session) (sid : StreamID) (st : Stream) : Handled :=
  if st.sendDone then (s, none)
  else (s.resetSend sid { st with writeErr := some (.cancelled ⟨id, errorCode, true⟩) } errorCode, none)

/-- `handleMaxStreamDataLocked`. -/
def handleMaxStreamData (maximum : Nat) (s : Session) (sid : StreamID) (st : Stream) : Handled :=
  if st.sendMax < maximum then ((s.set sid { st with sendMax := maximum }).markReady sid, none)
  else (s, none)

def handlePing (s : Session) (sequence : Nat) : Handled :=
  if s.receivedPing ∧ sequence ≤ s.pingReceived then
    (s, some (protocolError .protocolViolation s.version.pingType
      s!"QX_PING sequence number {sequence} is not increasing"))
  else
    ({ s with pingReceived := sequence, receivedPing := true, sendPingReply := true }.wakeWriter, none)

def handlePingResponse (s : Session) (sequence : Nat) : Handled :=
  if s.pingSent < sequence then
    (s, some (protocolError .protocolViolation s.version.pingResponseType
      s!"QX_PING response {sequence} was never requested"))
  else (s, none)

/-- A limit of streams may not be above 2^60. -/
def checkStreams (s : Session) (typ : Nat) (name : String) (maximum : Nat) (ok : Handled) : Handled :=
  if maxStreamsLimit < maximum then
    (s, some (protocolError .frameEncodingError typ s!"{name} {maximum} exceeds 2^60"))
  else ok

/-- `handleFrameLocked`. -/
def handleFrame (s : Session) (f : Frame) : Handled :=
  match f with
  | .transportParameters params => s.handleParameters params
  | .padding => (s, none)
  | .stream typ id offset data fin => s.onStream id typ (handleStream typ id offset data fin)
  | .resetStream id errorCode finalSize =>
    s.onStream id FrameType.resetStream (handleResetStream id errorCode finalSize)
  | .stopSending id errorCode => s.onStream id FrameType.stopSending (handleStopSending id errorCode)
  | .maxData maximum =>
    if s.connSendMax < maximum then ({ s with connSendMax := maximum }.wakeWriter, none) else (s, none)
  | .maxStreamData id maximum => s.onStream id FrameType.maxStreamData (handleMaxStreamData maximum)
  | .maxStreamsBidi maximum =>
    s.checkStreams FrameType.maxStreamsBidi "MAX_STREAMS" maximum
      (if s.maxLocal < maximum then ({ s with maxLocal := maximum }, none) else (s, none))
  | .maxStreamsUni maximum => s.checkStreams FrameType.maxStreamsUni "MAX_STREAMS" maximum (s, none)
  | .streamsBlockedBidi maximum =>
    s.checkStreams FrameType.streamsBlockedBidi "STREAMS_BLOCKED" maximum (s, none)
  | .streamsBlockedUni maximum =>
    s.checkStreams FrameType.streamsBlockedUni "STREAMS_BLOCKED" maximum (s, none)
  | .dataBlocked _ => (s, none)
  | .streamDataBlocked id _ => s.onStream id FrameType.streamDataBlocked fun s _ _ => (s, none)
  | .connectionClose errorCode frameType reason =>
    s.handleConnectionClose (.transport ⟨true, errorCode, frameType, reason⟩)
  | .applicationClose errorCode reason =>
    s.handleConnectionClose (.application ⟨true, errorCode, reason⟩)
  | .ping sequence => s.handlePing sequence
  | .pingResponse sequence => s.handlePingResponse sequence

/-- The loop of `handleRecord`. A frame takes a byte or more, so the record's length is enough `rounds`. -/
def handleFrames (s : Session) : Nat → List UInt8 → Handled
  | _, [] => (s, none)
  | 0, _ => (s, none)
  | rounds + 1, buf =>
    match FrameParser.next s.version buf with
    | .error e => (s, some e)
    | .ok (f, rest) =>
      if !s.paramsReceived ∧ f.typ s.version ≠ s.version.transportParametersType then
        (s, some (protocolError .protocolViolation (f.typ s.version)
          "first frame is not QX_TRANSPORT_PARAMETERS"))
      else
        match s.handleFrame f with
        | (s, some e) => (s, some e)
        | (s, none) => if s.closeErr.isSome then (s, none) else s.handleFrames rounds rest

def handleRecord (s : Session) (record : List UInt8) : Handled :=
  if s.closeErr.isSome then (s, none) else s.handleFrames record.length record

/-! ## Building records -/

/-- Takes control frames while they fit. -/
def takeControl (v : Version) (limit : Nat) : List Frame → List Frame → List Frame × List Frame
  | b, [] => (b, [])
  | b, f :: control =>
    if limit < recordLength v b + f.length v then (b, f :: control)
    else takeControl v limit (b ++ [f]) control

abbrev Building := Session × List Frame

def maxFrame : Nat := 1 + 8 + 8

def appendMaxData (limit : Nat) : Building → Building
  | (s, b) =>
    if s.sendMaxData ∧ recordLength s.version b + maxFrame ≤ limit then
      ({ s with sendMaxData := false }, b ++ [.maxData s.connRecvMax])
    else (s, b)

def appendMaxStreams (limit : Nat) : Building → Building
  | (s, b) =>
    if s.sendMaxStreams ∧ recordLength s.version b + maxFrame ≤ limit then
      ({ s with sendMaxStreams := false }, b ++ [.maxStreamsBidi s.maxRemote])
    else (s, b)

def appendPingReply (limit : Nat) : Building → Building
  | (s, b) =>
    if s.sendPingReply ∧ recordLength s.version b + maxFrame + 8 ≤ limit then
      ({ s with sendPingReply := false }, b ++ [.pingResponse s.pingReceived])
    else (s, b)

def appendPing (limit : Nat) : Building → Building
  | (s, b) =>
    if s.sendPing ∧ recordLength s.version b + maxFrame + 8 ≤ limit then
      ({ s with pingSent := s.pingSent + 1, sendPing := false }, b ++ [.ping (s.pingSent + 1)])
    else (s, b)

/-- `appendFlowControlLocked`. -/
def appendFlowControl (limit : Nat) (b : Building) : Building :=
  appendPing limit (appendPingReply limit (appendMaxStreams limit (appendMaxData limit b)))

inductive Turn
  | dropped
  | retained
  | again
  deriving DecidableEq

def turnSize (s : Session) (limit used : Nat) (id : StreamID) (st : Stream) : Nat :=
  let credit := min (st.sendMax - st.sent) (s.connSendMax - s.connSent)
  let n := min (min st.unsent.length credit) streamQuantum
  let room := limit - used - streamFrameOverhead id.toNat st.sent n
  min n room

/-- The end of a turn that sends `n` bytes. -/
def sendFrame (s : Session) (b : List Frame) (id : StreamID) (st : Stream) (n : Nat) (fin : Bool) :
    Building × Turn :=
  let b := b ++ [appendStreamFrame id.toNat st.sent (st.unsent.take n) fin]
  let st := st.advanceSend n
  let s := { s with connSent := s.connSent + n }
  if fin then
    (((s.set id { st with finSent := true, inReady := false }).maybeRemove id, b), .dropped)
  else if 0 < st.unsent.length ∨ st.finRequested then ((s.set id st, b), .again)
  else ((s.set id { st with inReady := false }, b), .dropped)

/-- One round of the loop of `appendStreamDataLocked`. -/
def sendTurn (limit : Nat) (id : StreamID) (b : Building) : Building × Turn :=
  match b.1.get id with
  | none => (b, .dropped)
  | some st =>
    if st.resetSent then ((b.1.set id { st with inReady := false }, b.2), .dropped)
    else
      let pending := st.unsent.length
      let n := b.1.turnSize limit (recordLength b.1.version b.2) id st
      let fin := st.finRequested && n == pending
      if n = 0 ∧ !fin then
        if pending = 0 ∨ st.sent = st.sendMax then
          ((b.1.set id { st with inReady := false }, b.2), .dropped)
        else (b, .retained)
      else b.1.sendFrame b.2 id st n fin

def minFrame : Nat := 32

/-- The loop of `appendStreamDataLocked`: the streams that stay, those that go last, and whether room ran out. -/
def sendReady (limit : Nat) : List StreamID → Building → Building × List StreamID × List StreamID × Bool
  | [], b => (b, [], [], false)
  | id :: ready, b =>
    if limit - recordLength b.1.version b.2 < minFrame then (b, id :: ready, [], true)
    else
      let (b, turn) := sendTurn limit id b
      let (b, retained, again, full) := sendReady limit ready b
      match turn with
      | .dropped => (b, retained, again, full)
      | .retained => (b, id :: retained, again, full)
      | .again => (b, retained, id :: again, full)

/-- `appendStreamDataLocked`. -/
def appendStreamData (limit : Nat) (b : Building) : Building × Bool :=
  let ((s, b), retained, again, full) := sendReady limit b.1.ready b
  (({ s with ready := retained ++ again }, b), full || !again.isEmpty)

def recordLimit (s : Session) : Nat := min s.peer.effectiveMaxRecordSize maxSendRecordSize

/-- `buildRecordLocked`: the frames, whether there is more to send, and whether the session is then done. -/
def buildRecord (s : Session) : Session × List Frame × Bool × CloseMode :=
  let limit := s.recordLimit
  if s.mode = .modeAbort then (s, [], false, .modeAbort)
  else if s.mode = .modeQuiet then (s, [], false, .modeQuiet)
  else
    let (b, control) := takeControl s.version limit [] s.control
    let s := { s with control := control }
    if control ≠ [] then (s, b, true, .modeOpen)
    else
      let ((s, b), full) := appendStreamData limit (appendFlowControl limit (s, b))
      if full ∨ s.mode = .modeOpen then (s, b, full, .modeOpen)
      else
        let closing := s.closeFrame.toList
        if limit < recordLength s.version b + recordLength s.version closing then (s, b, true, .modeOpen)
        else (s, b ++ closing, false, .modeClose)

end Session

end TrevRpc.Go.Qmux
