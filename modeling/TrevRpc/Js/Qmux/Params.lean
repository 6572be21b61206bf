import TrevRpc.Js.Qmux.Frames

/-!
# Transport parameters of the JavaScript client (`qmux/params.js`)
-/

open TrevRpc.Varint

namespace TrevRpc.Js.Qmux

/-- The max_record_size a peer may assume until told otherwise, and the smallest it may set. -/
def defaultMaxRecordSize : Nat := 16382

namespace Param

@[match_pattern] abbrev maxIdleTimeout : Nat := 0x01
@[match_pattern] abbrev initialMaxData : Nat := 0x04
@[match_pattern] abbrev initialMaxStreamDataBidiLocal : Nat := 0x05
@[match_pattern] abbrev initialMaxStreamDataBidiRemote : Nat := 0x06
@[match_pattern] abbrev initialMaxStreamDataUni : Nat := 0x07
@[match_pattern] abbrev initialMaxStreamsBidi : Nat := 0x08
@[match_pattern] abbrev initialMaxStreamsUni : Nat := 0x09
@[match_pattern] abbrev maxRecordSize : Nat := 0x0571c59429cd0845

def forbidden : List Nat := [0x00, 0x02, 0x03, 0x0a, 0x0b, 0x0c, 0x0d, 0x0e, 0x0f, 0x10]

end Param

structure TransportParameters where
  maxIdleTimeoutMs : Nat := 0
  initialMaxData : Nat := 0
  initialMaxStreamDataBidiLocal : Nat := 0
  initialMaxStreamDataBidiRemote : Nat := 0
  initialMaxStreamDataUni : Nat := 0
  initialMaxStreamsBidi : Nat := 0
  initialMaxStreamsUni : Nat := 0
  maxRecordSize : Nat := defaultMaxRecordSize
  deriving DecidableEq

namespace TransportParameters

def fields (params : TransportParameters) : List (Nat × Nat) :=
  [(Param.maxIdleTimeout, params.maxIdleTimeoutMs),
   (Param.initialMaxData, params.initialMaxData),
   (Param.initialMaxStreamDataBidiLocal, params.initialMaxStreamDataBidiLocal),
   (Param.initialMaxStreamDataBidiRemote, params.initialMaxStreamDataBidiRemote),
   (Param.initialMaxStreamDataUni, params.initialMaxStreamDataUni),
   (Param.initialMaxStreamsBidi, params.initialMaxStreamsBidi),
   (Param.initialMaxStreamsUni, params.initialMaxStreamsUni),
   (Param.maxRecordSize, params.maxRecordSize)]

def setField (params : TransportParameters) (id value : Nat) : Option TransportParameters :=
  match id with
  | Param.maxIdleTimeout => some { params with maxIdleTimeoutMs := value }
  | Param.initialMaxData => some { params with initialMaxData := value }
  | Param.initialMaxStreamDataBidiLocal => some { params with initialMaxStreamDataBidiLocal := value }
  | Param.initialMaxStreamDataBidiRemote => some { params with initialMaxStreamDataBidiRemote := value }
  | Param.initialMaxStreamDataUni => some { params with initialMaxStreamDataUni := value }
  | Param.initialMaxStreamsBidi => some { params with initialMaxStreamsBidi := value }
  | Param.initialMaxStreamsUni => some { params with initialMaxStreamsUni := value }
  | Param.maxRecordSize => some { params with maxRecordSize := value }
  | _ => none

/-- The varints of the body: an ID, a length and a value for each field that is not zero. -/
def body (params : TransportParameters) : List Nat :=
  (params.fields.filter (·.2 ≠ 0)).flatMap fun (id, value) => [id, encodedLen value, value]

theorem length_body_le (params : TransportParameters) : params.body.length ≤ 24 := by
  have hcount : (params.fields.filter (·.2 ≠ 0)).length ≤ 8 := List.length_filter_le ..
  have hbody : params.body.length = 3 * (params.fields.filter (·.2 ≠ 0)).length := by
    simp [body, List.length_flatMap]
    omega
  omega

end TransportParameters

/-- The frame; `none` is the `RangeError` of a value without a varint. -/
def writeTransportParameters (params : TransportParameters) : Option Frame :=
  (encodeAll params.body).map .transportParameters

def parameterError (message : String) : ProtocolError :=
  ⟨.transportParameterError, message, FrameType.transportParameters⟩

def readParameter (bytes : List UInt8) : Except ProtocolError (Nat × List UInt8 × List UInt8) :=
  match decode bytes with
  | none => .error (parameterError "truncated transport parameters")
  | some (id, idLength) =>
    let bytes := bytes.drop idLength
    match decode bytes with
    | none => .error (parameterError "truncated transport parameters")
    | some (length, lengthLength) =>
      let bytes := bytes.drop lengthLength
      if maxSafe < length ∨ bytes.length < length then
        .error (parameterError "truncated transport parameters")
      else .ok (id, bytes.take length, bytes.drop length)

/-- Sets a parameter; a limit beyond 2^53 is as good as unlimited. -/
def applyParameter (params : TransportParameters) (seen : List Nat) (id : Nat) (value : List UInt8) :
    Except ProtocolError TransportParameters :=
  let digits := hex id
  if id ∈ seen then .error (parameterError s!"duplicate transport parameter 0x{digits}")
  else if id ∈ Param.forbidden then
    .error (parameterError s!"transport parameter 0x{digits} is not allowed in QMux")
  else if (params.setField id 0).isNone then .ok params
  else
    match decode value with
    | none => .error (parameterError s!"malformed transport parameter 0x{digits}")
    | some (parsed, length) =>
      if length ≠ value.length then
        .error (parameterError s!"malformed transport parameter 0x{digits}")
      else .ok ((params.setField id (min parsed maxSafe)).getD params)

/-- The loop over the body. A parameter takes two bytes or more, so its length is enough `rounds`. -/
def decodeFields : Nat → TransportParameters → List Nat → List UInt8 →
    Except ProtocolError TransportParameters
  | _, params, _, [] => .ok params
  | 0, params, _, _ => .ok params
  | rounds + 1, params, seen, bytes => do
    let (id, value, rest) ← readParameter bytes
    let params ← applyParameter params seen id value
    decodeFields rounds params (id :: seen) rest

def decodeTransportParameters (bytes : List UInt8) : Except ProtocolError TransportParameters := do
  let params ← decodeFields bytes.length {} [] bytes
  let maxRecordSize := params.maxRecordSize
  let minimum := defaultMaxRecordSize
  if maxRecordSize < minimum then
    .error (parameterError s!"max_record_size {maxRecordSize} is below {minimum}")
  else if 2 ^ 60 < params.initialMaxStreamsBidi then
    .error (parameterError "initial_max_streams_bidi exceeds 2^60")
  else .ok params

theorem le_maxRecordSize_of_decode {bs : List UInt8} {params : TransportParameters}
    (h : decodeTransportParameters bs = .ok params) : defaultMaxRecordSize ≤ params.maxRecordSize := by
  unfold decodeTransportParameters at h
  cases hd : decodeFields bs.length {} [] bs with
  | error e =>
    rw [hd] at h
    cases h
  | ok decoded =>
    rw [hd] at h
    simp only [bind, Except.bind] at h
    split_ifs at h
    cases h
    omega

end TrevRpc.Js.Qmux
