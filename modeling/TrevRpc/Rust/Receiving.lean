import TrevRpc.Rust.Compression
import TrevRpc.Rust.Parsing

/-! # Reading messages and responses (the readers of `framed.rs`) -/

open TrevRpc.Effect

namespace TrevRpc.Rust

variable {Enc Dec ρ σ : Type}

/-! ## Requests -/

def requestFrameRefused (frameType : Nat) (stream : Option (Inflater Dec)) : Option Error :=
  let refused (message : String) := some (Error.status (.invalidArgument message))
  if frameType = FrameType.message ∨ frameType = FrameType.zstdMessage then none
  else if frameType = FrameType.zstdStreamMessage then
    if stream.isSome then none else refused "stream-compressed message where stream compression is not enabled"
  else if frameType = FrameType.request then refused "request stream contained a second REQUEST"
  else if frameType = FrameType.headers then refused "request stream contained a HEADERS frame"
  else if frameType = FrameType.status then refused "request stream contained a STATUS frame"
  else refused "request stream contained an ANSWER frame"

def readRequestFrame [FrameRead ρ] (z : Libzstd Enc Dec) (maxFrameSize : Nat) (accept : Accept)
    (onSkipped : σ → Nat → Except Error σ) (skipped : σ) (stream : Option (Inflater Dec)) (r : ρ) :
    Except Error (Option Bytes × σ) × Option (Inflater Dec) × ρ :=
  match nextKnownHeader maxFrameSize onSkipped skipped r with
  | (.error error, r) => (.error error, stream, r)
  | (.ok (none, skipped), r) => (.ok (none, skipped), stream, r)
  | (.ok (some header, skipped), r) =>
    match requestFrameRefused header.frameType stream with
    | some error => (.error error, stream, r)
    | none =>
      match readPayload header.payloadLen r with
      | (.error error, r) => (.error error, stream, r)
      | (.ok payload, r) =>
        match decodeMessage z accept .invalidArgument header.frameType payload maxFrameSize stream with
        | (.error error, stream) => (.error error, stream, r)
        | (.ok message, stream) => (.ok (some message, skipped), stream, r)

/-! ## Responses -/

def Code.asU32 : Code → Nat
  | .ok => 0
  | .cancelled => 1
  | .unknown => 2
  | .invalidArgument => 3
  | .deadlineExceeded => 4
  | .notFound => 5
  | .alreadyExists => 6
  | .permissionDenied => 7
  | .resourceExhausted => 8
  | .failedPrecondition => 9
  | .aborted => 10
  | .outOfRange => 11
  | .unimplemented => 12
  | .internal => 13
  | .unavailable => 14
  | .dataLoss => 15
  | .unauthenticated => 16

def Code.fromU32 : Nat → Code
  | 0 => .ok
  | 1 => .cancelled
  | 3 => .invalidArgument
  | 4 => .deadlineExceeded
  | 5 => .notFound
  | 6 => .alreadyExists
  | 7 => .permissionDenied
  | 8 => .resourceExhausted
  | 9 => .failedPrecondition
  | 10 => .aborted
  | 11 => .outOfRange
  | 12 => .unimplemented
  | 13 => .internal
  | 14 => .unavailable
  | 15 => .dataLoss
  | 16 => .unauthenticated
  | _ => .unknown

theorem Code.fromU32_asU32 (code : Code) : fromU32 code.asU32 = code := by
  cases code <;> rfl

/-- A STATUS as it is on the wire. -/
structure RpcStatus where
  code : Nat
  message : String
  metadata : Metadata
  refusedStreamCompression : Bool
  deriving DecidableEq

def RpcStatus.ofStatus (status : Status) : RpcStatus where
  code := status.code.asU32
  message := status.message
  metadata := status.metadata
  refusedStreamCompression := status.refusedStreamCompression

def Status.ofRpcStatus (status : RpcStatus) : Status where
  code := .fromU32 status.code
  message := status.message
  metadata := status.metadata

theorem Status.ofRpcStatus_ofStatus (status : Status) :
    ofRpcStatus (.ofStatus status) = { status with refusedStreamCompression := false } := by
  simp [ofRpcStatus, RpcStatus.ofStatus, Code.fromU32_asU32]

structure Payloads where
  headers : Bytes → Except Error Metadata
  status : Bytes → Except Error RpcStatus
  answer : Bytes → Except Error RpcAnswer

/-- How a call reads: `learned` is for its connection, `settled` for its replay. -/
structure ResponseReading (Dec : Type) where
  accept : Accept
  stream : Option (Inflater Dec) := none
  replay : Bool := false
  settled : Bool := false
  refused : Bool := false
  learned : Option RpcAnswer := none
  answerClosed : Bool := false

namespace ResponseReading

def start (isStatus : Bool) : Effect Error (ResponseReading Dec) Unit := fun reading =>
  if reading.answerClosed then (.ok (), reading)
  else if reading.replay && !isStatus then
    (.error (.status (.internal "optimistic call responded without an ANSWER")), { reading with answerClosed := true })
  else (.ok (), { reading with answerClosed := true })

/-- Learns the call's ANSWER, which settles an optimistic call. -/
def answer (answer : RpcAnswer) : Effect Error (ResponseReading Dec) Unit := fun reading =>
  if reading.answerClosed then
    (.error (.status (.internal "response stream contained an ANSWER after its first frame")), reading)
  else
    let reading := { reading with answerClosed := true, learned := some answer }
    if reading.replay then
      if answer.streamCompression then (.ok (), { reading with replay := false, settled := true })
      else
        (.error (.status (.internal "optimistic call answered without accepting stream compression")),
          { reading with replay := false })
    else (.ok (), reading)

/-- A STATUS before any ANSWER refuses an optimistic call, or settles it. -/
def status (refuses : Bool) : Effect Error (ResponseReading Dec) Unit := fun reading =>
  if reading.replay then
    if refuses then (.ok (), { reading with replay := false, refused := true })
    else (.ok (), { reading with replay := false, settled := true })
  else (.ok (), reading)

def message (z : Libzstd Enc Dec) (frameType : Nat) (payload : Bytes) (maxFrameSize : Nat) :
    Effect Error (ResponseReading Dec) Bytes := fun reading =>
  match decodeMessage z reading.accept .internal frameType payload maxFrameSize reading.stream with
  | (result, stream) => (result, { reading with stream := stream })

end ResponseReading

def decodeResponseFrame (payloads : Payloads) (z : Libzstd Enc Dec) (frameType : Nat) (payload : Bytes)
    (maxFrameSize : Nat) : Effect Error (ResponseReading Dec) (Option ResponseFrame) :=
  if frameType = FrameType.answer then do
    let answer ← lift (payloads.answer payload)
    ResponseReading.answer answer
    return none
  else do
    ResponseReading.start (frameType = FrameType.status)
    if FrameType.IsMessage frameType then
      let body ← ResponseReading.message z frameType payload maxFrameSize
      return some (.message body)
    else if frameType = FrameType.headers then
      let metadata ← lift (payloads.headers payload)
      return some (.headers metadata)
    else if frameType = FrameType.status then
      let status ← lift (payloads.status payload)
      ResponseReading.status status.refusedStreamCompression
      return some (.status (.ofRpcStatus status))
    else fail (.status (.internal "response stream contained a REQUEST frame"))

/-- What a response may start with: an optimistic call that is not answered, only with its STATUS. -/
def ResponseReading.MayStart (reading : ResponseReading Dec) (isStatus : Bool) : Prop :=
  reading.answerClosed = true ∨ reading.replay = false ∨ isStatus = true

variable {reading : ResponseReading Dec}

theorem ResponseReading.start_eq {i : Bool} (h : reading.MayStart i) :
    reading.start i = (.ok (), { reading with answerClosed := true }) := by
  obtain ⟨accept, stream, rp, settled, refused, learned, answerClosed⟩ := reading
  cases answerClosed <;> cases rp <;> cases i <;> simp_all [start, MayStart]

variable {maxFrameSize : Nat} {payloads : Payloads} {z : Libzstd Enc Dec} {p : Bytes}

theorem decodeResponseFrame_message {frameType : Nat}
    {body : Bytes} {stream : Option (Inflater Dec)}
    (hmessage : FrameType.IsMessage frameType) (hst : reading.MayStart false)
    (hdec : decodeMessage z reading.accept .internal frameType p maxFrameSize reading.stream = (.ok body, stream)) :
    decodeResponseFrame payloads z frameType p maxFrameSize reading =
      (.ok (some (.message body)), { reading with answerClosed := true, stream := stream }) := by
  have hs : decide (frameType = FrameType.status) = false := by
    rcases hmessage with rfl | rfl | rfl <;> rfl
  have hr : ResponseReading.message z frameType p maxFrameSize { reading with answerClosed := true } =
      (.ok body, { reading with answerClosed := true, stream := stream }) := by
    simp only [ResponseReading.message, hdec]
  rw [decodeResponseFrame, if_neg (Nat.ne_of_lt hmessage.lt), hs, bind_ok (ResponseReading.start_eq hst),
    if_pos hmessage, bind_ok hr]
  rfl

theorem decodeResponseFrame_headers
    {m : Metadata} (hs : reading.MayStart false)
    (hdec : payloads.headers p = .ok m) :
    decodeResponseFrame payloads z FrameType.headers p maxFrameSize reading =
      (.ok (some (.headers m)), { reading with answerClosed := true }) := by
  refine (bind_ok (ResponseReading.start_eq hs)).trans ?_
  refine (bind_ok (a := m) ?_).trans rfl
  rw [lift, hdec]

def ResponseReading.Started (reading reading' : ResponseReading Dec) : Prop :=
  reading'.answerClosed = true ∧ reading'.accept = reading.accept ∧ reading'.stream = reading.stream

theorem decodeResponseFrame_status
    {status : RpcStatus} (hdec : payloads.status p = .ok status) :
    ∃ reading', decodeResponseFrame payloads z FrameType.status p maxFrameSize reading =
        (.ok (some (.status (.ofRpcStatus status))), reading') ∧ reading.Started reading' := by
  have hsta : reading.MayStart true := .inr (.inr rfl)
  have hd : ∃ reading', ResponseReading.status status.refusedStreamCompression
      { reading with answerClosed := true } = (.ok (), reading') ∧ reading.Started reading' := by
    unfold ResponseReading.status
    split_ifs <;> exact ⟨_, rfl, rfl, rfl, rfl⟩
  obtain ⟨reading', hst, hs⟩ := hd
  refine ⟨reading', ?_, hs⟩
  refine (bind_ok (ResponseReading.start_eq hsta)).trans ?_
  refine (bind_ok (a := status) ?_).trans ((bind_ok hst).trans rfl)
  rw [lift, hdec]

theorem decodeResponseFrame_answer
    {answer : RpcAnswer} (hdec : payloads.answer p = .ok answer)
    (hf : reading.answerClosed = false) (haccepts : reading.replay = true → answer.streamCompression = true) :
    ∃ reading', decodeResponseFrame payloads z FrameType.answer p maxFrameSize reading = (.ok none, reading') ∧
      reading.Started reading' := by
  have hl : ∃ reading', reading.answer answer = (.ok (), reading') ∧ reading.Started reading' := by
    unfold ResponseReading.answer
    simp only [hf, Bool.false_eq_true, if_false]
    split_ifs with hr ha
    · exact ⟨_, rfl, rfl, rfl, rfl⟩
    · exact absurd (haccepts hr) ha
    · exact ⟨_, rfl, rfl, rfl, rfl⟩
  obtain ⟨reading', han, hs⟩ := hl
  refine ⟨reading', ?_, hs⟩
  refine (bind_ok (a := answer) ?_).trans ((bind_ok han).trans rfl)
  rw [lift, hdec]

section FrameRead

variable [FrameRead ρ]

/-- The payload of a REQUEST is not read. -/
def responsePayload (header : FrameHeader) : Reading ρ Bytes :=
  if header.frameType = FrameType.request then return [] else readPayload header.payloadLen

theorem within_responsePayload (header : FrameHeader) : Within left (responsePayload (ρ := ρ) header) :=
  .ite (.pure _) (within_readPayload _)

def readResponseFrame (payloads : Payloads) (z : Libzstd Enc Dec) (maxFrameSize : Nat) (reading : ResponseReading Dec)
    (r : ρ) : Except Error (Option ResponseFrame) × ResponseReading Dec × ρ :=
  match h : nextKnownHeader maxFrameSize (fun _ _ => .ok ()) () r with
  | (.error error, r₁) => (.error error, reading, r₁)
  | (.ok (none, _), r₁) => (.ok none, reading, r₁)
  | (.ok (some header, _), r₁) =>
    match hp : responsePayload header r₁ with
    | (.error error, r₂) => (.error error, reading, r₂)
    | (.ok payload, r₂) =>
      match decodeResponseFrame payloads z header.frameType payload maxFrameSize reading with
      | (.error error, reading) => (.error error, reading, r₂)
      | (.ok (some frame), reading) => (.ok (some frame), reading, r₂)
      | (.ok none, reading) =>
        have := (within_responsePayload header _ _ _ hp).trans_lt (nextKnownHeader_left h)
        readResponseFrame payloads z maxFrameSize reading r₂
termination_by left r

end FrameRead

/-! ## Frames that were written -/

theorem varint_varintBytes {v : Nat} (h : v ≤ Varint.maxValue) (rest : Bytes) (fault : Option Error) :
    Input.varint ⟨varintBytes v ++ rest, fault⟩ = (.ok (v, Varint.encodedLen v), ⟨rest, fault⟩) := by
  obtain ⟨bs, hb⟩ := Option.isSome_iff_exists.mp ((Varint.encode_isSome_iff v).mpr h)
  have hd : (bs ++ rest).drop (Varint.encodedLen v) = rest := by
    rw [← Varint.length_of_encode hb, List.drop_left]
  simp only [varintBytes, hb, Option.getD_some, Input.varint, Varint.decode_encode hb, Input.drop, hd]

theorem frameBytes_ne_nil {f : RawFrame} (ht : f.1 ≤ Varint.maxValue) : frameBytes f ≠ [] := by
  obtain ⟨bytes, hb⟩ := Option.isSome_iff_exists.mp ((Varint.encode_isSome_iff f.1).mpr ht)
  have hpos := Varint.encodedLen_pos f.1
  rw [← Varint.length_of_encode hb, List.length_pos_iff] at hpos
  simp [frameBytes, varintBytes, hb, hpos]

theorem parseHeader_frameBytes {f : RawFrame} (ht : f.1 ≤ Varint.maxValue)
    (hf : Fits maxFrameSize f.2.length) (rest : Bytes) (fault : Option Error) :
    ∃ len, parseHeader maxFrameSize ⟨frameBytes f ++ rest, fault⟩ =
      (.ok (some ⟨f.1, f.2.length, len⟩), ⟨f.2 ++ rest, fault⟩) := by
  have hne : frameBytes f ++ rest ≠ [] := List.append_ne_nil_of_left_ne_nil (frameBytes_ne_nil ht) rest
  have hh : Input.typeAndLength ⟨frameBytes f ++ rest, fault⟩ =
      (.ok (f.1, f.2.length, Varint.encodedLen f.1 + Varint.encodedLen f.2.length),
        ⟨f.2 ++ rest, fault⟩) := by
    rw [frameBytes, List.append_assoc, List.append_assoc]
    exact (bind_ok (varint_varintBytes ht _ fault)).trans (bind_ok (varint_varintBytes hf.2 _ fault))
  refine ⟨Varint.encodedLen f.1 + Varint.encodedLen f.2.length, ?_⟩
  simp only [parseHeader, if_neg hne, hh, if_neg (Nat.not_lt.mpr hf.1)]

section FrameRead

variable [FrameRead ρ] {r : ρ} {rest : Bytes} {fault : Option Error} {f : RawFrame} {maxFrameSize : Nat}

theorem nextKnownHeader_frameBytes (onSkipped : σ → Nat → Except Error σ)
    (skipped : σ) (hr : unread r = ⟨frameBytes f ++ rest, fault⟩) (hk : f.1 ≤ FrameType.answer)
    (hf : Fits maxFrameSize f.2.length) :
    ∃ len r', nextKnownHeader maxFrameSize onSkipped skipped r =
        (.ok (some ⟨f.1, f.2.length, len⟩, skipped), r') ∧ unread r' = ⟨f.2 ++ rest, fault⟩ := by
  have ht : f.1 ≤ Varint.maxValue := hk.trans (by decide)
  obtain ⟨len, hp⟩ := parseHeader_frameBytes ht hf rest fault
  rcases hre : readFrameHeader maxFrameSize r with ⟨result, r'⟩
  have hs := (sees_readFrameHeader maxFrameSize).eq hre
  rw [hr, hp] at hs
  obtain ⟨rfl, hr'⟩ := Prod.mk.inj hs
  refine ⟨len, r', ?_, hr'.symm⟩
  rw [nextKnownHeader]
  split
  · simp_all
  · simp_all
  · next heq =>
    cases hre.symm.trans heq
    rw [if_pos (by simpa [isKnownFrameType] using hk)]

theorem readPayload_append {p : Bytes} (hr : unread r = ⟨p ++ rest, fault⟩) :
    ∃ r', readPayload p.length r = (.ok p, r') ∧ unread r' = ⟨rest, fault⟩ := by
  rcases hre : readPayload p.length r with ⟨result, r'⟩
  have hs := (sees_readPayload p.length).eq hre
  have hexa : Input.exact p.length ⟨p ++ rest, fault⟩ = (.ok p, ⟨rest, fault⟩) := by
    simp [Input.exact, Input.drop]
  rw [hr, hexa] at hs
  obtain ⟨rfl, hr'⟩ := Prod.mk.inj hs
  exact ⟨r', rfl, hr'.symm⟩

variable {z : Libzstd Enc Dec}

theorem readRequestFrame_frameBytes {a : Accept}
    {onSkipped : σ → Nat → Except Error σ} {skipped : σ} {st s' : Option (Inflater Dec)} {body : Bytes}
    (hr : unread r = ⟨frameBytes f ++ rest, fault⟩) (hmessage : FrameType.IsMessage f.1)
    (hf : Fits maxFrameSize f.2.length)
    (hdec : decodeMessage z a .invalidArgument f.1 f.2 maxFrameSize st = (.ok body, s')) :
    ∃ r', readRequestFrame z maxFrameSize a onSkipped skipped st r = (.ok (some body, skipped), s', r') ∧
      unread r' = ⟨rest, fault⟩ := by
  have ha : requestFrameRefused f.1 st = none := by
    unfold requestFrameRefused
    rcases hmessage with ht | ht | ht
    · simp [ht]
    · simp [ht]
    · cases st with
      | none =>
        rw [ht] at hdec
        cases hdec
      | some inflater => simp [ht]
  obtain ⟨len, r₁, hh, hr₁⟩ := nextKnownHeader_frameBytes onSkipped skipped hr hmessage.lt.le hf
  obtain ⟨r₂, hp, hr₂⟩ := readPayload_append hr₁
  refine ⟨r₂, ?_, hr₂⟩
  simp only [readRequestFrame, hh, ha, hp, hdec]

theorem readResponseFrame_frameBytes {payloads : Payloads}
    {reading : ResponseReading Dec} (hr : unread r = ⟨frameBytes f ++ rest, fault⟩)
    (hk : f.1 ≤ FrameType.answer) (hrequest : f.1 ≠ FrameType.request)
    (hf : Fits maxFrameSize f.2.length) :
    ∃ r', unread r' = ⟨rest, fault⟩ ∧ readResponseFrame payloads z maxFrameSize reading r =
      match decodeResponseFrame payloads z f.1 f.2 maxFrameSize reading with
      | (.error error, reading) => (.error error, reading, r')
      | (.ok (some f), reading) => (.ok (some f), reading, r')
      | (.ok none, reading) => readResponseFrame payloads z maxFrameSize reading r' := by
  obtain ⟨len, r₁, hh, hr₁⟩ := nextKnownHeader_frameBytes (fun _ _ => .ok ()) () hr hk hf
  obtain ⟨r₂, hp, hr₂⟩ := readPayload_append hr₁
  refine ⟨r₂, hr₂, ?_⟩
  rw [readResponseFrame]
  split
  · simp_all
  · simp_all
  · next heq =>
    cases hh.symm.trans heq
    have hp' : responsePayload ⟨f.1, f.2.length, len⟩ r₁ = (.ok f.2, r₂) := by
      rw [responsePayload, if_neg hrequest, hp]
    split
    · simp_all
    · next heq =>
      cases hp'.symm.trans heq
      rfl

end FrameRead

end TrevRpc.Rust
