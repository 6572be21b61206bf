import TrevRpc.Rust.Datagram

/-!
# Serving one call (`server_transport.rs`, with the response stream of `server.rs`)

A phase is a place where `handle_stream` awaits, and an event is what it awaited.
-/

namespace TrevRpc.Rust.ServerTransport

inductive RpcKind
  | unary
  | clientStreaming
  | serverStreaming
  | bidirectionalStreaming
  deriving DecidableEq

def RpcKind.hasSingleRequestMessage : RpcKind → Bool
  | .unary | .serverStreaming => true
  | .clientStreaming | .bidirectionalStreaming => false

inductive CancellationSource
  | deadline
  | peerReset
  | connectionLost
  | serverShutdown
  deriving DecidableEq

inductive RequestPumpFailure
  | protocol (status : Status)
  | peerReset (status : Status)
  | connectionLost (status : Status)
  deriving DecidableEq

def RequestPumpFailure.status : RequestPumpFailure → Status
  | .protocol status | .peerReset status | .connectionLost status => status

def RequestPumpFailure.cancellationSource : RequestPumpFailure → Option CancellationSource
  | .peerReset _ => some .peerReset
  | .connectionLost _ => some .connectionLost
  | .protocol _ => none

def RequestPumpFailure.responseWritable : RequestPumpFailure → Bool
  | .protocol _ => true
  | _ => false

/-! ## The handler's response stream -/

def saturatingAdd (a b : Nat) : Nat := min (a + b) (2 ^ 64 - 1)

structure StreamLimits where
  maxMessages : Option Nat
  maxBodySize : Option Nat
  deriving DecidableEq

/-- A message, an error or a timeout as its status, or the end with trailing metadata. -/
inductive Polled
  | body (bytes : Bytes)
  | failed (status : Status)
  | ended (trailers : Metadata)
  deriving DecidableEq

structure ServerResponseStream where
  headers : Option Metadata
  limits : StreamLimits
  messages : Nat := 0
  responseBodyLen : Nat := 0
  done : Bool := false
  deriving DecidableEq

def resourceExhausted (message : String) : Status := { code := .resourceExhausted, message }

/-- `check_stream_limits` for a response: the new counts, or the status that ends the stream. -/
def checkStreamLimits (limits : StreamLimits) (messages bodySize itemLen : Nat) :
    Except Status (Nat × Nat) :=
  match limits.maxMessages.filter fun max => messages ≥ max with
  | some max => .error (resourceExhausted s!"response stream exceeded maximum of {max} messages")
  | none =>
    let bodySize := saturatingAdd bodySize itemLen
    match limits.maxBodySize.filter fun max => bodySize > max with
    | some max =>
      .error (resourceExhausted s!"response stream exceeded maximum body size of {max} bytes")
    | none => .ok (saturatingAdd messages 1, bodySize)

def ServerResponseStream.pollNext (s : ServerResponseStream) (polled : Polled) :
    Option ResponseFrame × ServerResponseStream :=
  if s.done then (none, s)
  else match s.headers with
    | some headers => (some (.headers headers), { s with headers := none })
    | none =>
      match polled with
      | .body body =>
        match checkStreamLimits s.limits s.messages s.responseBodyLen body.length with
        | .error status => (some (.status status), { s with done := true })
        | .ok (messages, responseBodyLen) =>
          (some (.message body), { s with messages, responseBodyLen })
      | .failed status => (some (.status status), { s with done := true })
      | .ended trailers =>
        (some (.status { code := .ok, message := "", metadata := trailers }), { s with done := true })

inductive Response
  | stream (s : ServerResponseStream)
  | lone (status : Option Status)
  deriving DecidableEq

def Response.next (r : Response) (polled : Polled) : Option ResponseFrame × Response :=
  match r with
  | .stream s => ((s.pollNext polled).1, .stream (s.pollNext polled).2)
  | .lone none => (none, .lone none)
  | .lone (some status) => (some (.status status), .lone none)

def Response.isReady : Response → Bool
  | .stream s => s.done || s.headers.isSome
  | .lone _ => true

structure ResponseBatch where
  frames : List ResponseFrame := []
  terminal : Bool := false
  deriving DecidableEq

def pushResponseFrame (batch : ResponseBatch) (frame : ResponseFrame) : ResponseBatch where
  frames := batch.frames ++ [frame]
  terminal := frame.isStatus

def messageFrameBatch : Nat := 32

variable {Dict Stream : Type}

def bodyOf : ResponseFrame → Option Bytes
  | .message body => some body
  | _ => none

/-! ## The call -/

/-- What a call is given, with what the server decides about it before its handler runs. -/
structure Call (Dict Stream : Type) where
  wire : Wire Dict Stream
  maxFrameSize : Nat
  kind : RpcKind
  /-- `server.admit`, which only a streaming call awaits here. -/
  admission : Except Status Unit
  refusesOptimistic : Bool
  codec : ResponseCodec Dict Stream
  acquiresRequest : Bool
  answersAtDispatch : Bool
  limits : StreamLimits
  datagrams : Option (FlowSender Dict)

/-- What a successful unary handler returns. -/
structure ResponseEnvelope where
  body : Bytes
  headers : Metadata
  metadata : Metadata
  deriving DecidableEq

def unaryResponseFrames : Except Status ResponseEnvelope → List ResponseFrame
  | .ok response =>
    (if response.headers.isEmpty then [] else [.headers response.headers]) ++
      [.message response.body, .status { code := .ok, message := "", metadata := response.metadata }]
  | .error status => [.status status]

/-- What a write is for. -/
inductive Write
  | reject
  | refuse
  | unary
  | answer
  | headers (response : Response) (frames : List ResponseFrame) (terminal : Bool)
  | batch (response : Response) (terminal : Bool)
  deriving DecidableEq

inductive Phase
  | writing (frames : List ResponseFrame) (write : Write)
  | draining
  | serving
  | dispatching
  | receiving (response : Response)
  | batching (response : Response) (batch : ResponseBatch)
  | packing (response : Response) (frames : List ResponseFrame) (terminal : Bool)
  /-- The permits are given back, and `reset` is called next. -/
  | resetting
  | finishing
  | returned
  deriving DecidableEq

structure State (Dict Stream : Type) where
  phase : Phase
  codec : ResponseCodec Dict Stream := {}
  streamPermit : Bool := true
  requestPermit : Bool := false
  cancelled : Option CancellationSource := none
  headersFlushed : Bool := false
  sentAny : Bool := false
  written : List ResponseFrame := []
  datagrams : List (List Bytes) := []
  finished : Bool := false
  reset : Bool := false
  stopped : Bool := false
  writeError : Option Error := none

def State.release (s : State Dict Stream) : State Dict Stream :=
  { s with streamPermit := false, requestPermit := false }

def State.cancel (source : Option CancellationSource) (s : State Dict Stream) : State Dict Stream :=
  { s with cancelled := s.cancelled.or source }

def cancelFromTransportError (error : Error) : Option CancellationSource :=
  error.transportCode.map fun code => if code = .cancelled then .peerReset else .connectionLost

/-- `handle_stream` up to its first await, for the `admit` it gets. -/
def handleStream (call : Call Dict Stream) : State Dict Stream :=
  let admitted : Except Status Bool := match call.kind, call.admission with
    | .unary, _ => .ok false
    | _, .ok () => .ok true
    | _, .error status => .error status
  match admitted with
  | .error status => { phase := .writing [.status status] .reject, streamPermit := false }
  | .ok streaming =>
    if call.refusesOptimistic then
      { phase := .writing [.status .refused] .refuse, streamPermit := false }
    else if !call.acquiresRequest then
      { phase := .writing [.status { code := .unavailable, message := "too many concurrent RPCs" }] .reject
        codec := call.codec
        streamPermit := false }
    else
      { phase :=
          if !streaming then .serving
          else if call.answersAtDispatch then .writing [] .answer
          else .dispatching
        codec := call.codec
        requestPermit := true }

inductive Event
  | write (result : Except Error Unit)
  | drained
  | reset
  | finish
  | handlerReturns (response : Except Status ResponseEnvelope)
  | streamReturns (headers : Metadata)
  | streamFails (status : Status)
  | pumpFails (failure : RequestPumpFailure)
  | peerStops (stopped : Except Error Unit)
  | shutdown
  | next (polled : Polled)
  | ready (polled : Polled)
  | notReady
  | sendBatch (maxSize : Option Nat) (accepted : List Bool)

/-- The branches of each `select!` that end the call without a response, up to their `reset`. -/
def State.resetBy (source : Option CancellationSource) (s : State Dict Stream) : State Dict Stream :=
  { (s.cancel source).release with phase := .resetting }

def State.stopBy (stopped : Except Error Unit) (s : State Dict Stream) : State Dict Stream :=
  let source := match stopped with
    | .ok () => .peerReset
    | .error _ => .connectionLost
  { (s.cancel (some source)).release with stopped := true, phase := .returned }

/-- Where a complete batch goes, and `ResponseDatagrams::write` up to its first await. -/
def State.writeBatch (call : Call Dict Stream) (response : Response) (batch : ResponseBatch)
    (s : State Dict Stream) : State Dict Stream :=
  let s := if batch.terminal then s.release else s
  match call.datagrams with
  | none => { s with phase := .writing batch.frames (.batch response batch.terminal) }
  | some _ =>
    let hasMessage := batch.frames.any fun frame => (bodyOf frame).isSome
    match hasMessage && !s.headersFlushed, batch.frames with
    | true, .headers headers :: rest =>
      { s with phase := .writing [.headers headers] (.headers response rest batch.terminal) }
    | true, frames => { s with phase := .writing [.headers []] (.headers response frames batch.terminal) }
    | false, .headers headers :: rest =>
      { s with
        headersFlushed := true
        phase := .packing response (.headers headers :: rest) batch.terminal }
    | false, frames =>
      { s with
        headersFlushed := s.headersFlushed || hasMessage
        phase := .packing response frames batch.terminal }

def State.push (call : Call Dict Stream) (response : Response) (batch : ResponseBatch)
    (frame : ResponseFrame) (s : State Dict Stream) : State Dict Stream :=
  let batch := pushResponseFrame batch frame
  if batch.terminal || batch.frames.length ≥ messageFrameBatch then s.writeBatch call response batch
  else { s with phase := .batching response batch }

/-- What follows the write of a batch. -/
def State.afterBatch (response : Response) (terminal : Bool) (s : State Dict Stream) :
    State Dict Stream :=
  { s with phase := if terminal then .finishing else .receiving response }

/-- What follows a write that succeeded. -/
def State.afterWrite (call : Call Dict Stream) (write : Write) (s : State Dict Stream) :
    State Dict Stream :=
  match write with
  | .reject => { s with phase := if call.kind.hasSingleRequestMessage then .draining else .finishing }
  | .refuse | .unary => { s with phase := .finishing }
  | .answer => { s with phase := .dispatching }
  | .headers response frames terminal =>
    { s with headersFlushed := true, phase := .packing response frames terminal }
  | .batch response terminal => s.afterBatch response terminal

/-- A write that failed ends the call. -/
def State.failWrite (write : Write) (error : Error) (s : State Dict Stream) : State Dict Stream :=
  let s := match write with
    | .reject | .refuse => s
    | _ => s.cancel (cancelFromTransportError error)
  { s with writeError := some error, phase := .returned }

/-- `write_frames`. Without anything to write the transport is not asked. -/
def State.writeFrames (call : Call Dict Stream) (frames : List ResponseFrame) (write : Write)
    (result : Except Error Unit) (s : State Dict Stream) : Option (State Dict Stream) :=
  match writeResponseFrames call.wire call.maxFrameSize s.codec frames, result with
  | .error error, _ => some (s.failWrite write error)
  | .ok (_, codec), .ok () =>
    some ({ s with codec, written := s.written ++ frames }.afterWrite call write)
  | .ok (some _, codec), .error error => some ({ s with codec }.failWrite write error)
  | .ok (none, _), .error _ => none

/-- `ResponseDatagrams::write` from the sending of its datagrams on. -/
def State.sendBatch (call : Call Dict Stream) (sender : FlowSender Dict) (maxSize : Option Nat)
    (accepted : List Bool) (response : Response) (frames : List ResponseFrame) (terminal : Bool)
    (s : State Dict Stream) : State Dict Stream :=
  let messages := frames.filterMap bodyOf
  let other := frames.filter fun frame => (bodyOf frame).isNone
  let packing := sender.sendBatch call.wire maxSize accepted messages
  let onStream := packing.onStream.map .message ++ other
  let s := { s with
    sentAny := s.sentAny || !messages.isEmpty
    datagrams := s.datagrams ++ packing.sent }
  if onStream.isEmpty then s.afterBatch response terminal
  else { s with phase := .writing onStream (.batch response terminal) }

/-- `none` where that event is not awaited. A poll that is ready goes before the peer's stop and the shutdown. -/
def step (call : Call Dict Stream) (s : State Dict Stream) (e : Event) : Option (State Dict Stream) :=
  match s.phase, e with
  | .writing frames write, .write result => s.writeFrames call frames write result
  | .draining, .drained => some { s with phase := .finishing }
  | .resetting, .reset => some { s with reset := true, phase := .returned }
  | .finishing, .finish => some { s with finished := true, phase := .returned }
  | .serving, .handlerReturns response =>
    some { s.release with phase := .writing (unaryResponseFrames response) .unary }
  | .serving, .pumpFails failure =>
    if failure.responseWritable then
      some { (s.cancel failure.cancellationSource).release with
        phase := .writing (unaryResponseFrames (.error failure.status)) .unary }
    else some (s.resetBy failure.cancellationSource)
  | .serving, .peerStops stopped | .dispatching, .peerStops stopped => some (s.stopBy stopped)
  | .serving, .shutdown | .dispatching, .shutdown => some (s.resetBy (some .serverShutdown))
  | .dispatching, .streamReturns headers =>
    some { s with
      phase := .receiving (.stream
        { headers := if headers.isEmpty then none else some headers, limits := call.limits }) }
  | .dispatching, .streamFails status => some { s with phase := .receiving (.lone (some status)) }
  | .dispatching, .pumpFails failure =>
    if failure.responseWritable then
      some { s.cancel failure.cancellationSource with phase := .receiving (.lone (some failure.status)) }
    else some (s.resetBy failure.cancellationSource)
  | .receiving response, .pumpFails failure =>
    if failure.responseWritable then
      some ((s.cancel failure.cancellationSource).push call response {} (.status failure.status))
    else some (s.resetBy failure.cancellationSource)
  | .receiving response, .next polled =>
    match response.next polled with
    | (none, _) => some { s.release with phase := .finishing }
    | (some frame, response) => some (s.push call response {} frame)
  | .receiving response, .peerStops stopped =>
    if response.isReady then none else some (s.stopBy stopped)
  | .receiving response, .shutdown =>
    if response.isReady then none else some (s.resetBy (some .serverShutdown))
  | .batching response batch, .ready polled =>
    match response.next polled with
    | (none, response) => some (s.writeBatch call response batch)
    | (some frame, response) => some (s.push call response batch frame)
  | .batching response batch, .notReady =>
    if response.isReady then none else some (s.writeBatch call response batch)
  | .packing response frames terminal, .sendBatch maxSize accepted =>
    match call.datagrams with
    | none => none
    | some sender => some (s.sendBatch call sender maxSize accepted response frames terminal)
  | _, _ => none

end TrevRpc.Rust.ServerTransport
