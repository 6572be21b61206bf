import TrevRpc.Lib.Checks
import TrevRpc.Lib.Varint

/-!
# Frames of the Rust runtime (`framing.rs`, `varint.rs` and the writers of `framed.rs`)

A batch of frames becomes the chunks of one write, or an error before anything reaches the transport.
-/

namespace TrevRpc.Rust

abbrev Bytes := List UInt8

abbrev Metadata := List (String × Bytes)

inductive Code
  | ok | cancelled | unknown | invalidArgument | deadlineExceeded | notFound | alreadyExists
  | permissionDenied | resourceExhausted | failedPrecondition | aborted | outOfRange | unimplemented
  | internal | unavailable | dataLoss | unauthenticated
  deriving DecidableEq

structure Status where
  code : Code
  message : String
  metadata : Metadata := []
  refusedStreamCompression : Bool := false
  deriving DecidableEq

def Status.internal (message : String) : Status := { code := .internal, message }

def Status.invalidArgument (message : String) : Status := { code := .invalidArgument, message }

def Status.refused : Status :=
  { code := .resourceExhausted, message := "", refusedStreamCompression := true }

/-- A text in quotes. Of the characters beyond ASCII, the ones that are not printable stay as they are too. -/
def quoteWith (escapes : List (Nat × String)) (control : Nat → String) (text : String) : String :=
  let escape (c : Char) := match escapes.lookup c.toNat with
    | some escaped => escaped
    | none => if c.toNat < 0x20 ∨ c.toNat = 0x7f then control c.toNat else c.toString
  "\"" ++ String.join (text.toList.map escape) ++ "\""

def hex (n : Nat) : String := String.ofList (Nat.toDigits 16 n)

/-- The format `{:?}` of a `str`. -/
def debug : String → String :=
  quoteWith [(0, "\\0"), (9, "\\t"), (10, "\\n"), (13, "\\r"), (0x22, "\\\""), (0x5c, "\\\\")]
    fun n => "\\u\x7b" ++ hex n ++ "\x7d"

/-- The runtime's error; a transport error is modelled by the status code it is classified as. -/
inductive Error
  | status (status : Status)
  | encode
  | decode
  | frameTooLarge (len max : Nat)
  | transport (code : Code)
  deriving DecidableEq

def Error.transportCode : Error → Option Code
  | .transport code => some code
  | _ => none

structure RpcAnswer where
  dictionaries : List (Nat × Bytes)
  streamCompression : Bool
  connectionMetadata : Nat
  deriving DecidableEq

inductive ResponseFrame
  | headers (metadata : Metadata)
  | message (body : Bytes)
  | status (status : Status)
  deriving DecidableEq

def ResponseFrame.isStatus : ResponseFrame → Bool
  | .status _ => true
  | _ => false

/-- The type and the payload of a frame. -/
abbrev RawFrame := Nat × Bytes

/-! ## Frame headers -/

namespace FrameType

def message : Nat := 0
def request : Nat := 1
def headers : Nat := 2
def status : Nat := 3
def zstdMessage : Nat := 4
def zstdStreamMessage : Nat := 5
def answer : Nat := 6

/-- A frame that carries a message. -/
abbrev IsMessage (frameType : Nat) : Prop :=
  frameType = message ∨ frameType = zstdMessage ∨ frameType = zstdStreamMessage

theorem IsMessage.lt {frameType : Nat} (h : IsMessage frameType) : frameType < answer := by
  rcases h with rfl | rfl | rfl <;> decide

theorem IsMessage.ne_request {frameType : Nat} (h : IsMessage frameType) : frameType ≠ request := by
  rcases h with rfl | rfl | rfl <;> decide

end FrameType

/-- `varint::push`. -/
def push (out : Bytes) (value : Nat) : Except Error Bytes :=
  match Varint.encode value with
  | some bytes => .ok (out ++ bytes)
  | none => .error (.status { code := .internal, message := "varint exceeds 2^62 - 1" })

def validatePayloadLen (len maxFrameSize : Nat) : Except Error Unit :=
  if len > maxFrameSize then .error (.frameTooLarge len maxFrameSize) else .ok ()

def putFrameHeader (out : Bytes) (frameType payloadLen maxFrameSize : Nat) : Except Error Bytes := do
  validatePayloadLen payloadLen maxFrameSize
  let out ← push out frameType
  push out payloadLen

def putProtobufFrame (out : Bytes) (frameType : Nat) (message : Bytes) (maxFrameSize : Nat) :
    Except Error Bytes := do
  let out ← putFrameHeader out frameType message.length maxFrameSize
  return out ++ message

/-! ## Writers -/

structure Wire (Dict Stream : Type) where
  headers : Metadata → Bytes
  status : Status → Bytes
  answer : RpcAnswer → Bytes
  isPlain : Dict → Bool
  compress : Dict → Bytes → Option Bytes
  streamEncode : Stream → Bytes → Option Dict → Option Bytes × Stream

variable {Dict Stream : Type}

structure MessageEncoder (Dict Stream : Type) where
  dict : Option Dict := none
  stream : Option Stream := none

def MessageEncoder.encodePlain (wire : Wire Dict Stream) (encoder : MessageEncoder Dict Stream)
    (body : Bytes) : Nat × Bytes :=
  match encoder.dict.bind fun dict => wire.compress dict body with
  | some compressed => (FrameType.zstdMessage, compressed)
  | none => (FrameType.message, body)

def MessageEncoder.encode (wire : Wire Dict Stream) (encoder : MessageEncoder Dict Stream)
    (body : Bytes) : (Nat × Bytes) × MessageEncoder Dict Stream :=
  let seed := encoder.dict.filter fun dict => !wire.isPlain dict
  match encoder.stream with
  | none => (encoder.encodePlain wire body, encoder)
  | some stream =>
    match wire.streamEncode stream body seed with
    | (some payload, stream) => ((FrameType.zstdStreamMessage, payload), { encoder with stream := stream })
    | (none, stream) => (encoder.encodePlain wire body, { encoder with stream := stream })

def coalesceMax : Nat := 2048

structure FrameChunks where
  scratch : Bytes := []
  chunks : List Bytes := []
  maxFrameSize : Nat

def FrameChunks.sealScratch (c : FrameChunks) : FrameChunks :=
  if c.scratch.isEmpty then c else { c with scratch := [], chunks := c.chunks ++ [c.scratch] }

def FrameChunks.protobuf (c : FrameChunks) (frameType : Nat) (message : Bytes) :
    Except Error FrameChunks := do
  let scratch ← putProtobufFrame c.scratch frameType message c.maxFrameSize
  return { c with scratch }

def FrameChunks.message (wire : Wire Dict Stream) (c : FrameChunks) (body : Bytes)
    (encoder : MessageEncoder Dict Stream) : Except Error (FrameChunks × MessageEncoder Dict Stream) := do
  -- The limit is on the uncompressed message, which is what the receiver decompresses.
  validatePayloadLen body.length c.maxFrameSize
  let ((frameType, body), encoder) := encoder.encode wire body
  let scratch ← putFrameHeader c.scratch frameType body.length c.maxFrameSize
  let c := { c with scratch }
  if body.length ≤ coalesceMax then return ({ c with scratch := c.scratch ++ body }, encoder)
  else
    let c := c.sealScratch
    return ({ c with chunks := c.chunks ++ [body] }, encoder)

def FrameChunks.responseFrame (wire : Wire Dict Stream) (c : FrameChunks) (frame : ResponseFrame)
    (encoder : MessageEncoder Dict Stream) : Except Error (FrameChunks × MessageEncoder Dict Stream) :=
  match frame with
  | .message body => c.message wire body encoder
  | .headers metadata => do
    let c ← c.protobuf FrameType.headers (wire.headers metadata)
    return (c, encoder)
  | .status status => do
    let c ← c.protobuf FrameType.status (wire.status status)
    return (c, encoder)

def FrameChunks.responseFrames (wire : Wire Dict Stream) (c : FrameChunks)
    (encoder : MessageEncoder Dict Stream) :
    List ResponseFrame → Except Error (FrameChunks × MessageEncoder Dict Stream)
  | [] => .ok (c, encoder)
  | frame :: rest => do
    let (c, encoder) ← c.responseFrame wire frame encoder
    c.responseFrames wire encoder rest

def FrameChunks.messages (wire : Wire Dict Stream) (c : FrameChunks)
    (encoder : MessageEncoder Dict Stream) :
    List Bytes → Except Error (FrameChunks × MessageEncoder Dict Stream)
  | [] => .ok (c, encoder)
  | body :: rest => do
    let (c, encoder) ← c.message wire body encoder
    c.messages wire encoder rest

def writeRequest (wire : Wire Dict Stream) (maxFrameSize : Nat) (encoder : MessageEncoder Dict Stream)
    (request : Bytes) (messages : List Bytes) :
    Except Error (List Bytes × MessageEncoder Dict Stream) := do
  let chunks : FrameChunks := { maxFrameSize }
  let chunks ← chunks.protobuf FrameType.request request
  let (chunks, encoder) ← chunks.messages wire encoder messages
  return (chunks.sealScratch.chunks, encoder)

def writeMessageFrames (wire : Wire Dict Stream) (maxFrameSize : Nat)
    (encoder : MessageEncoder Dict Stream) (messages : List Bytes) :
    Except Error (List Bytes × MessageEncoder Dict Stream) := do
  let chunks : FrameChunks := { maxFrameSize }
  let (chunks, encoder) ← chunks.messages wire encoder messages
  return (chunks.sealScratch.chunks, encoder)

structure ResponseCodec (Dict Stream : Type) where
  encoder : MessageEncoder Dict Stream := {}
  answer : Option RpcAnswer := none

/-- The ANSWER that goes out with `frames`: not with a lone STATUS. -/
def ResponseCodec.answerWith (codec : ResponseCodec Dict Stream) (frames : List ResponseFrame) :
    Option RpcAnswer :=
  if frames.isEmpty || !frames.all ResponseFrame.isStatus then codec.answer else none

/-- The chunks of the one write, or `none` when there is nothing to write, and the codec. -/
def writeResponseFrames (wire : Wire Dict Stream) (maxFrameSize : Nat)
    (codec : ResponseCodec Dict Stream) (frames : List ResponseFrame) :
    Except Error (Option (List Bytes) × ResponseCodec Dict Stream) :=
  let answer := codec.answerWith frames
  if frames.isEmpty && answer.isNone then .ok (none, codec)
  else do
    let chunks : FrameChunks := { maxFrameSize }
    let chunks ← match answer with
      | some answer => chunks.protobuf FrameType.answer (wire.answer answer)
      | none => .ok chunks
    let (chunks, encoder) ← chunks.responseFrames wire codec.encoder frames
    return (some chunks.sealScratch.chunks,
      { encoder, answer := if answer.isSome then none else codec.answer })

/-! ## When frames can be written -/

/-- A payload of `len` bytes fits a frame. -/
def Fits (maxFrameSize len : Nat) : Prop := len ≤ maxFrameSize ∧ len ≤ Varint.maxValue

def FramesFit (wire : Wire Dict Stream) (maxFrameSize : Nat) (encoder : MessageEncoder Dict Stream) :
    List ResponseFrame → Prop
  | [] => True
  | .headers metadata :: rest =>
    Fits maxFrameSize (wire.headers metadata).length ∧ FramesFit wire maxFrameSize encoder rest
  | .status status :: rest =>
    Fits maxFrameSize (wire.status status).length ∧ FramesFit wire maxFrameSize encoder rest
  | .message body :: rest =>
    (body.length ≤ maxFrameSize ∧ Fits maxFrameSize (encoder.encode wire body).1.2.length) ∧
      FramesFit wire maxFrameSize (encoder.encode wire body).2 rest

def WriteFits (wire : Wire Dict Stream) (maxFrameSize : Nat) (codec : ResponseCodec Dict Stream)
    (frames : List ResponseFrame) : Prop :=
  (∀ answer, codec.answerWith frames = some answer → Fits maxFrameSize (wire.answer answer).length) ∧
    FramesFit wire maxFrameSize codec.encoder frames

/-! ## What is written -/

/-- The encoding of a value that has one. -/
def varintBytes (value : Nat) : Bytes := (Varint.encode value).getD []

def frameBytes (frame : RawFrame) : Bytes :=
  varintBytes frame.1 ++ varintBytes frame.2.length ++ frame.2

def ResponseFrame.raw (wire : Wire Dict Stream) (encoder : MessageEncoder Dict Stream) :
    ResponseFrame → RawFrame × MessageEncoder Dict Stream
  | .headers metadata => ((FrameType.headers, wire.headers metadata), encoder)
  | .status s => ((FrameType.status, wire.status s), encoder)
  | .message body => encoder.encode wire body

def rawFrames (wire : Wire Dict Stream) (encoder : MessageEncoder Dict Stream) :
    List ResponseFrame → List RawFrame × MessageEncoder Dict Stream
  | [] => ([], encoder)
  | frame :: rest =>
    let (raw, encoder) := frame.raw wire encoder
    let (raws, encoder) := rawFrames wire encoder rest
    (raw :: raws, encoder)

def ResponseCodec.raws (wire : Wire Dict Stream) (codec : ResponseCodec Dict Stream) (frames : List ResponseFrame) :
    List RawFrame :=
  ((codec.answerWith frames).map fun answer => (FrameType.answer, wire.answer answer)).toList ++
    (rawFrames wire codec.encoder frames).1

/-- The codec after `frames` are written. -/
def ResponseCodec.after (wire : Wire Dict Stream) (codec : ResponseCodec Dict Stream) (frames : List ResponseFrame) :
    ResponseCodec Dict Stream where
  encoder := (rawFrames wire codec.encoder frames).2
  answer := if (codec.answerWith frames).isSome then none else codec.answer

def FrameChunks.bytes (c : FrameChunks) : Bytes := c.chunks.flatten ++ c.scratch

theorem FrameChunks.bytes_sealScratch (c : FrameChunks) : c.sealScratch.chunks.flatten = c.bytes := by
  unfold sealScratch bytes
  split_ifs with h
  · simp [List.isEmpty_iff.mp h]
  · simp

def Error.IsLocal (error : Error) : Prop := error.transportCode = none

theorem push_checks (out : Bytes) (v : Nat) :
    Checks Error.IsLocal (v ≤ Varint.maxValue) (fun out' => out' = out ++ varintBytes v) (push out v) := by
  have hs := Varint.encode_isSome_iff v
  unfold push varintBytes
  cases h : Varint.encode v with
  | none => exact ⟨by simpa [h] using hs, rfl⟩
  | some bytes => exact ⟨by simpa [h] using hs, rfl⟩

theorem validatePayloadLen_checks (len maxFrameSize : Nat) :
    Checks Error.IsLocal (len ≤ maxFrameSize) (fun _ => True) (validatePayloadLen len maxFrameSize) := by
  unfold validatePayloadLen
  split_ifs with h
  · exact ⟨by omega, rfl⟩
  · exact ⟨by omega, trivial⟩

theorem putFrameHeader_checks (out : Bytes) (frameType payloadLen maxFrameSize : Nat)
    (ht : frameType ≤ Varint.maxValue) :
    Checks Error.IsLocal (Fits maxFrameSize payloadLen)
      (fun out' => out' = out ++ (varintBytes frameType ++ varintBytes payloadLen))
      (putFrameHeader out frameType payloadLen maxFrameSize) := by
  have hp : Checks Error.IsLocal (frameType ≤ Varint.maxValue ∧ payloadLen ≤ Varint.maxValue)
      (fun out' => out' = out ++ (varintBytes frameType ++ varintBytes payloadLen))
      (do let out ← push out frameType; push out payloadLen) := by
    refine (push_checks out frameType).bind ?_
    rintro _ rfl
    exact (push_checks _ payloadLen).imp Iff.rfl (fun _ h => by rw [h, List.append_assoc])
  refine ((validatePayloadLen_checks payloadLen maxFrameSize).bind fun _ _ => hp).imp ?_ (fun _ h => h)
  simp [Fits, ht]

/-- `raws` were added to `c`. -/
def FrameChunks.Extends (c c' : FrameChunks) (raws : List RawFrame) : Prop :=
  c'.maxFrameSize = c.maxFrameSize ∧ c'.bytes = c.bytes ++ raws.flatMap frameBytes

theorem FrameChunks.Extends.append {c c' c'' : FrameChunks} {raws raws' : List RawFrame} (h : c.Extends c' raws)
    (h' : c'.Extends c'' raws') : c.Extends c'' (raws ++ raws') :=
  ⟨h'.1.trans h.1, by rw [h'.2, h.2, List.flatMap_append, List.append_assoc]⟩

theorem FrameChunks.Extends.written {c : FrameChunks} {maxFrameSize : Nat} {raws : List RawFrame}
    (h : ({ maxFrameSize } : FrameChunks).Extends c raws) : c.sealScratch.chunks.flatten = raws.flatMap frameBytes := by
  rw [bytes_sealScratch, h.2]
  rfl

theorem protobuf_checks (c : FrameChunks) (frameType : Nat) (m : Bytes)
    (ht : frameType ≤ Varint.maxValue) :
    Checks Error.IsLocal (Fits c.maxFrameSize m.length)
      (fun c' => c.Extends c' [(frameType, m)]) (c.protobuf frameType m) := by
  have hf : Checks Error.IsLocal (Fits c.maxFrameSize m.length ∧ True)
      (fun sc => sc = c.scratch ++ frameBytes (frameType, m))
      (putProtobufFrame c.scratch frameType m c.maxFrameSize) := by
    refine (putFrameHeader_checks c.scratch frameType m.length c.maxFrameSize ht).bind ?_
    rintro _ rfl
    exact .pure (by simp [frameBytes])
  refine (hf.bind (d := True) ?_).imp (by simp) (fun _ h => h)
  rintro _ rfl
  exact .pure (P := fun c' => c.Extends c' [(frameType, m)]) ⟨rfl, by simp [FrameChunks.bytes]⟩

theorem encodePlain_isMessage (wire : Wire Dict Stream) (e : MessageEncoder Dict Stream) (body : Bytes) :
    FrameType.IsMessage (e.encodePlain wire body).1 := by
  unfold MessageEncoder.encodePlain
  split
  · exact .inr (.inl rfl)
  · exact .inl rfl

theorem encode_isMessage (wire : Wire Dict Stream) (e : MessageEncoder Dict Stream) (body : Bytes) :
    FrameType.IsMessage (e.encode wire body).1.1 := by
  simp only [MessageEncoder.encode]
  split
  · exact encodePlain_isMessage ..
  · split
    · exact .inr (.inr rfl)
    · exact encodePlain_isMessage ..

theorem message_checks (wire : Wire Dict Stream) (c : FrameChunks) (body : Bytes)
    (e : MessageEncoder Dict Stream) :
    Checks Error.IsLocal (body.length ≤ c.maxFrameSize ∧ Fits c.maxFrameSize (e.encode wire body).1.2.length)
      (fun r => c.Extends r.1 [(e.encode wire body).1] ∧ r.2 = (e.encode wire body).2)
      (c.message wire body e) := by
  have ht : (e.encode wire body).1.1 ≤ Varint.maxValue :=
    (encode_isMessage wire e body).lt.le.trans (by decide)
  unfold FrameChunks.message
  generalize e.encode wire body = encoded at ht ⊢
  obtain ⟨⟨ft, p⟩, encoder'⟩ := encoded
  refine (validatePayloadLen_checks body.length c.maxFrameSize).bind fun _ _ => ?_
  refine ((putFrameHeader_checks c.scratch ft p.length c.maxFrameSize ht).bind
    (d := True) ?_).imp (by simp) (fun _ h => h)
  rintro _ rfl
  split_ifs
  · exact .pure ⟨⟨rfl, by simp [FrameChunks.bytes, frameBytes]⟩, rfl⟩
  · refine .pure ⟨⟨?_, ?_⟩, rfl⟩
    · unfold FrameChunks.sealScratch
      split_ifs <;> rfl
    · have hs (c : FrameChunks) : c.sealScratch.scratch = [] := by
        unfold FrameChunks.sealScratch
        split_ifs with h
        · exact List.isEmpty_iff.mp h
        · rfl
      simp [FrameChunks.bytes, FrameChunks.bytes_sealScratch, hs, frameBytes]

def ResponseFrame.FitsIn (wire : Wire Dict Stream) (maxFrameSize : Nat) (encoder : MessageEncoder Dict Stream)
    (frame : ResponseFrame) : Prop :=
  (∀ body, frame = .message body → body.length ≤ maxFrameSize) ∧ Fits maxFrameSize (frame.raw wire encoder).1.2.length

theorem framesFit_cons {wire : Wire Dict Stream} {maxFrameSize : Nat} {e : MessageEncoder Dict Stream}
    {f : ResponseFrame} {rest : List ResponseFrame} :
    FramesFit wire maxFrameSize e (f :: rest) ↔
      f.FitsIn wire maxFrameSize e ∧ FramesFit wire maxFrameSize (f.raw wire e).2 rest := by
  cases f <;> simp [FramesFit, ResponseFrame.FitsIn, ResponseFrame.raw]

theorem responseFrame_checks (wire : Wire Dict Stream) (c : FrameChunks) (f : ResponseFrame)
    (e : MessageEncoder Dict Stream) :
    Checks Error.IsLocal (f.FitsIn wire c.maxFrameSize e)
      (fun r => c.Extends r.1 [(f.raw wire e).1] ∧ r.2 = (f.raw wire e).2)
      (c.responseFrame wire f e) := by
  have protobuf (ft : Nat) (message : Bytes) (ht : ft ≤ Varint.maxValue) :
      Checks Error.IsLocal (Fits c.maxFrameSize message.length ∧ True)
        (fun r : FrameChunks × MessageEncoder Dict Stream =>
          c.Extends r.1 [(ft, message)] ∧ r.2 = e)
        (do let c ← c.protobuf ft message; return (c, e)) :=
    (protobuf_checks c ft message ht).bind fun _ h => .pure ⟨h, rfl⟩
  cases f with
  | headers m =>
    exact (protobuf FrameType.headers (wire.headers m) (by decide)).imp
      (by simp [ResponseFrame.FitsIn, ResponseFrame.raw]) (fun _ h => h)
  | status status =>
    exact (protobuf FrameType.status (wire.status status) (by decide)).imp
      (by simp [ResponseFrame.FitsIn, ResponseFrame.raw]) (fun _ h => h)
  | message body =>
    exact (message_checks wire c body e).imp
      (by simp [ResponseFrame.FitsIn, ResponseFrame.raw]) (fun _ h => h)

theorem responseFrames_checks (wire : Wire Dict Stream) (fs : List ResponseFrame) (c : FrameChunks)
    (e : MessageEncoder Dict Stream) :
    Checks Error.IsLocal (FramesFit wire c.maxFrameSize e fs)
      (fun r => c.Extends r.1 (rawFrames wire e fs).1 ∧ r.2 = (rawFrames wire e fs).2)
      (c.responseFrames wire e fs) := by
  induction fs generalizing c e with
  | nil => exact .pure ⟨⟨rfl, by simp [rawFrames]⟩, rfl⟩
  | cons f rest ih =>
    rw [framesFit_cons]
    refine (responseFrame_checks wire c f e).bind ?_
    rintro ⟨c', _⟩ ⟨hc', rfl⟩
    refine (ih c' _).imp (by rw [hc'.1]) ?_
    rintro r ⟨hr, hen⟩
    exact ⟨hc'.append hr, hen⟩

theorem writeResponseFrames_checks (wire : Wire Dict Stream) (maxFrameSize : Nat)
    (codec : ResponseCodec Dict Stream) (fs : List ResponseFrame) :
    Checks Error.IsLocal (WriteFits wire maxFrameSize codec fs)
      (fun r => (r.1.getD []).flatten = (codec.raws wire fs).flatMap frameBytes ∧ r.2 = codec.after wire fs)
      (writeResponseFrames wire maxFrameSize codec fs) := by
  unfold writeResponseFrames WriteFits ResponseCodec.raws ResponseCodec.after
  cases hans : codec.answerWith fs with
  | none =>
    by_cases hem : fs.isEmpty = true
    · obtain rfl := List.isEmpty_iff.mp hem
      exact ⟨by simp [FramesFit], by simp [rawFrames], rfl⟩
    · simp only [hem, Option.isNone_none, Bool.and_true, Bool.false_eq_true, if_false]
      refine ((responseFrames_checks wire fs { maxFrameSize } codec.encoder).bind
        (d := True) ?_).imp (by simp) (fun _ h => h)
      rintro ⟨c, _⟩ ⟨hc, rfl⟩
      exact .pure ⟨hc.written, rfl⟩
  | some a =>
    simp only [Option.isNone_some, Bool.and_false, Bool.false_eq_true, if_false, Option.some.injEq,
      forall_eq']
    refine (protobuf_checks { maxFrameSize } FrameType.answer (wire.answer a) (by decide)).bind ?_
    intro c ha
    refine ((responseFrames_checks wire fs c codec.encoder).bind
      (d := True) ?_).imp (by simp [ha.1]) (fun _ h => h)
    rintro ⟨c', _⟩ ⟨hc', rfl⟩
    have hall := ha.append hc'
    exact .pure ⟨hall.written, rfl⟩

end TrevRpc.Rust
