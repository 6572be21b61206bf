import TrevRpc.Lib.Varint

/-!
# QMux frames of the JavaScript client (`qmux/frames.js`)

A frame is a row of varints and the bytes after them. Numbers are `Nat`; the parser refuses what a JavaScript number
cannot hold.
-/

open TrevRpc.Varint

namespace TrevRpc.Js.Qmux

namespace FrameType

@[match_pattern] abbrev padding : Nat := 0x00
@[match_pattern] abbrev resetStream : Nat := 0x04
@[match_pattern] abbrev stopSending : Nat := 0x05
-- Through 0x0f: the three low bits are flags.
@[match_pattern] abbrev stream : Nat := 0x08
@[match_pattern] abbrev maxData : Nat := 0x10
@[match_pattern] abbrev maxStreamData : Nat := 0x11
@[match_pattern] abbrev maxStreamsBidi : Nat := 0x12
@[match_pattern] abbrev maxStreamsUni : Nat := 0x13
@[match_pattern] abbrev dataBlocked : Nat := 0x14
@[match_pattern] abbrev streamDataBlocked : Nat := 0x15
@[match_pattern] abbrev streamsBlockedBidi : Nat := 0x16
@[match_pattern] abbrev streamsBlockedUni : Nat := 0x17
@[match_pattern] abbrev connectionClose : Nat := 0x1c
@[match_pattern] abbrev applicationClose : Nat := 0x1d
@[match_pattern] abbrev transportParameters : Nat := 0x3f5153300d0a0d0a
@[match_pattern] abbrev ping : Nat := 0x348c67529ef8c7bd
@[match_pattern] abbrev pingResponse : Nat := 0x348c67529ef8c7be

end FrameType

inductive TransportError
  | noError
  | internalError
  | flowControlError
  | streamLimitError
  | streamStateError
  | finalSizeError
  | frameEncodingError
  | transportParameterError
  | protocolViolation
  deriving DecidableEq

def TransportError.code : TransportError → Nat
  | .noError => 0x00
  | .internalError => 0x01
  | .flowControlError => 0x03
  | .streamLimitError => 0x04
  | .streamStateError => 0x05
  | .finalSizeError => 0x06
  | .frameEncodingError => 0x07
  | .transportParameterError => 0x08
  | .protocolViolation => 0x0a

/-- A `QMuxProtocolError`, which closes the session with a transport CONNECTION_CLOSE. -/
structure ProtocolError where
  code : TransportError
  message : String
  frameType : Nat
  deriving DecidableEq

/-! ## Writing -/

/-- The frames that the session writes. -/
inductive Frame
  | transportParameters (body : List UInt8)
  | stream (streamId offset : Nat) (data : List UInt8) (fin : Bool)
  | resetStream (streamId code finalSize : Nat)
  | stopSending (streamId code : Nat)
  | maxData (maximum : Nat)
  | maxStreamData (streamId maximum : Nat)
  | connectionClose (code frameType : Nat) (reason : List UInt8)
  | applicationClose (code : Nat) (reason : List UInt8)
  | ping (type sequence : Nat)
  deriving DecidableEq

namespace Frame

def streamType (offset : Nat) (fin : Bool) : Nat :=
  FrameType.stream + 2 + (if 0 < offset then 4 else 0) + (if fin then 1 else 0)

def varints : Frame → List Nat
  | transportParameters body => [FrameType.transportParameters, body.length]
  | stream streamId offset data fin =>
    [streamType offset fin, streamId] ++ (if 0 < offset then [offset] else []) ++ [data.length]
  | resetStream streamId code finalSize => [FrameType.resetStream, streamId, code, finalSize]
  | stopSending streamId code => [FrameType.stopSending, streamId, code]
  | maxData maximum => [FrameType.maxData, maximum]
  | maxStreamData streamId maximum => [FrameType.maxStreamData, streamId, maximum]
  | connectionClose code frameType reason =>
    [FrameType.connectionClose, code, frameType, reason.length]
  | applicationClose code reason => [FrameType.applicationClose, code, reason.length]
  | ping type sequence => [type, sequence]

def bytes : Frame → List UInt8
  | transportParameters body => body
  | stream _ _ data _ => data
  | connectionClose _ _ reason => reason
  | applicationClose _ reason => reason
  | _ => []

/-- The frame on the wire; `none` is the `RangeError`. -/
def encode (f : Frame) : Option (List UInt8) := (encodeAll f.varints).map (· ++ f.bytes)

def length (f : Frame) : Nat := encodedLenAll f.varints + f.bytes.length

end Frame

def streamFrameOverhead (streamId offset length : Nat) : Nat :=
  1 + encodedLen streamId + encodedLen length + (if 0 < offset then encodedLen offset else 0)

theorem streamFrameOverhead_le (streamId o l : Nat) : streamFrameOverhead streamId o l ≤ 25 := by
  have h1 := encodedLen_le streamId
  have h2 := encodedLen_le l
  have h3 := encodedLen_le o
  unfold streamFrameOverhead
  split_ifs <;> omega

theorem length_stream (streamId o : Nat) (data : List UInt8) (fin : Bool) :
    (Frame.stream streamId o data fin).length =
      streamFrameOverhead streamId o data.length + data.length := by
  have ht : encodedLen (Frame.streamType o fin) = 1 := by
    unfold Frame.streamType
    split_ifs <;> rfl
  unfold Frame.length Frame.varints Frame.bytes streamFrameOverhead
  split_ifs with hoff <;> simp [encodedLenAll, ht, hoff] <;> omega

/-- The length of the record that `FrameWriter.take` makes of `frames`. -/
def recordLength (frames : List Frame) : Nat := (frames.map Frame.length).sum

@[simp] theorem recordLength_nil : recordLength [] = 0 := rfl

@[simp] theorem recordLength_append (xs ys : List Frame) :
    recordLength (xs ++ ys) = recordLength xs + recordLength ys := by
  simp [recordLength]

@[simp] theorem recordLength_singleton (f : Frame) : recordLength [f] = f.length := by
  simp [recordLength]

/-! ## Parsing -/

/-- The frames that a parser returns. -/
inductive Received
  | padding
  | transportParameters (params : List UInt8)
  | ping (sequence : Nat)
  | pingResponse (sequence : Nat)
  | resetStream (streamId code finalSize : Nat)
  | stopSending (streamId code : Nat)
  | maxData (maximum : Nat)
  | dataBlocked (maximum : Nat)
  | maxStreamsBidi (maximum : Nat)
  | maxStreamsUni (maximum : Nat)
  | streamsBlockedBidi (maximum : Nat)
  | streamsBlockedUni (maximum : Nat)
  | maxStreamData (streamId maximum : Nat)
  | streamDataBlocked (streamId maximum : Nat)
  | connectionClose (code frameType : Nat) (reason : List UInt8)
  | applicationClose (code : Nat) (reason : List UInt8)
  | stream (type streamId offset : Nat) (data : List UInt8) (fin : Bool)
  deriving DecidableEq

def Received.type : Received → Nat
  | padding => FrameType.padding
  | transportParameters _ => FrameType.transportParameters
  | ping _ => FrameType.ping
  | pingResponse _ => FrameType.pingResponse
  | resetStream .. => FrameType.resetStream
  | stopSending .. => FrameType.stopSending
  | maxData _ => FrameType.maxData
  | dataBlocked _ => FrameType.dataBlocked
  | maxStreamsBidi _ => FrameType.maxStreamsBidi
  | maxStreamsUni _ => FrameType.maxStreamsUni
  | streamsBlockedBidi _ => FrameType.streamsBlockedBidi
  | streamsBlockedUni _ => FrameType.streamsBlockedUni
  | maxStreamData .. => FrameType.maxStreamData
  | streamDataBlocked .. => FrameType.streamDataBlocked
  | connectionClose .. => FrameType.connectionClose
  | applicationClose .. => FrameType.applicationClose
  | stream type .. => type

/-- `Number.MAX_SAFE_INTEGER`. -/
def maxSafe : Nat := 2 ^ 53 - 1

def hex (n : Nat) : String := String.ofList (Nat.toDigits 16 n)

namespace FrameParser

/-- The state is what is left of the record. -/
abbrev Parser := StateT (List UInt8) (Except ProtocolError)

def truncated (frameType : Nat) : ProtocolError :=
  ⟨.frameEncodingError, "truncated frame", frameType⟩

def varint (frameType : Nat) : Parser Nat := do
  match decode (← get) with
  | none => throw (truncated frameType)
  | some (value, length) =>
    modify (·.drop length)
    return value

def number (frameType : Nat) : Parser Nat := do
  let value ← varint frameType
  if maxSafe < value then
    throw ⟨.frameEncodingError, "value exceeds what this endpoint supports", frameType⟩
  return value

def take (frameType length : Nat) : Parser (List UInt8) := do
  let bytes ← get
  if bytes.length < length then
    throw (truncated frameType)
  set (bytes.drop length)
  return bytes.take length

def stream (type : Nat) : Parser Received := do
  let streamId ← number type
  let offset ← if type.testBit 2 then number type else pure 0
  let length ← if type.testBit 1 then number type else List.length <$> get
  let data ← take type length
  return .stream type streamId offset data (type.testBit 0)

def notAllowed (type frameType : Nat) : ProtocolError :=
  let digits := hex type
  ⟨.frameEncodingError, s!"frame type 0x{digits} is not allowed in QMux", frameType⟩

/-- A frame of a type that is a number. -/
def small (type : Nat) : Parser Received := do
  match type with
  | FrameType.padding => return .padding
  | FrameType.resetStream => return .resetStream (← number type) (← number type) (← number type)
  | FrameType.stopSending => return .stopSending (← number type) (← number type)
  | FrameType.maxData => return .maxData (← number type)
  | FrameType.maxStreamData => return .maxStreamData (← number type) (← number type)
  | FrameType.maxStreamsBidi => return .maxStreamsBidi (← number type)
  | FrameType.maxStreamsUni => return .maxStreamsUni (← number type)
  | FrameType.dataBlocked => return .dataBlocked (← number type)
  | FrameType.streamDataBlocked => return .streamDataBlocked (← number type) (← number type)
  | FrameType.streamsBlockedBidi => return .streamsBlockedBidi (← number type)
  | FrameType.streamsBlockedUni => return .streamsBlockedUni (← number type)
  | FrameType.connectionClose =>
    return .connectionClose (← number type) (← varint type) (← take type (← number type))
  | FrameType.applicationClose => return .applicationClose (← number type) (← take type (← number type))
  | _ =>
    if FrameType.stream ≤ type ∧ type ≤ FrameType.stream + 7 then stream type
    else throw (notAllowed type type)

def next : Parser Received := do
  let type ← varint 0
  if maxSafe < type then
    if type = FrameType.transportParameters then
      return .transportParameters (← take type (← number type))
    else if type = FrameType.ping then return .ping (← number type)
    else if type = FrameType.pingResponse then return .pingResponse (← number type)
    else throw (notAllowed type 0)
  else small type

end FrameParser

end TrevRpc.Js.Qmux
