import Mathlib.Data.Finmap
import TrevRpc.Lib.Proto.Message
import TrevRpc.Rust.Framing

/-!
# The direct codec of the wire messages (`wire_codec.go`, `wire.go`) and the preflight of others (`framing.go`)

The direct decoder leaves everything that no conforming sender produces to the protobuf runtime.
-/

open TrevRpc.Rust TrevRpc.Proto

namespace TrevRpc.Go

/-! ## The messages -/

abbrev Metadata := Finmap fun _ : Bytes => Bytes

structure DictionaryInfo where
  id : UInt32 := 0
  fingerprint : Bytes := []
  deriving DecidableEq

structure ConnectionMetadataInfo where
  id : UInt32 := 0
  metadata : Metadata := ∅
  deriving DecidableEq

structure WireRequest where
  method : Bytes := []
  metadata : Metadata := ∅
  kind : Int32 := 0
  timeoutNanos : UInt64 := 0
  datagramFlow : UInt64 := 0
  acceptDictionaries : List UInt32 := []
  dictionaryQuery : List DictionaryInfo := []
  streamCompression : Int32 := 0
  connectionMetadata : Option ConnectionMetadataInfo := none
  deriving DecidableEq

structure WireHeaders where
  metadata : Metadata := ∅
  deriving DecidableEq

structure WireAnswer where
  dictionaries : List DictionaryInfo := []
  streamCompression : Bool := false
  connectionMetadata : UInt32 := 0
  deriving DecidableEq

structure WireStatus where
  code : UInt32 := 0
  message : Bytes := []
  metadata : Metadata := ∅
  refusedStreamCompression : Bool := false
  deriving DecidableEq

/-! ### Field numbers -/

abbrev requestMethodField : Nat := 1
abbrev requestMetadataField : Nat := 2
abbrev requestKindField : Nat := 3
abbrev requestTimeoutField : Nat := 4
abbrev requestDatagramField : Nat := 5
abbrev requestAcceptField : Nat := 6
abbrev requestQueryField : Nat := 7
abbrev requestStreamField : Nat := 8
abbrev requestConnectionField : Nat := 9
abbrev headersMetadataField : Nat := 1
abbrev answerDictionaryField : Nat := 1
abbrev answerStreamField : Nat := 2
abbrev answerConnectionField : Nat := 3
abbrev connectionIDField : Nat := 1
abbrev connectionEntriesField : Nat := 2
abbrev dictionaryIDField : Nat := 1
abbrev dictionaryFingerField : Nat := 2
abbrev statusCodeField : Nat := 1
abbrev statusMessageField : Nat := 2
abbrev statusMetadataField : Nat := 3
abbrev statusRefusedField : Nat := 4
abbrev mapEntryKeyField : Nat := 1
abbrev mapEntryValueField : Nat := 2

/-! ### Their fields, as the protobuf runtime reads them from the struct tags -/

def DictionaryInfo.schema : Schema DictionaryInfo :=
  [(1, .uint32 fun id m => { m with id }), (2, .bytes fun fingerprint m => { m with fingerprint })]

def ConnectionMetadataInfo.schema : Schema ConnectionMetadataInfo :=
  [(1, .uint32 fun id m => { m with id }),
    (2, Schema.map fun key value m => { m with metadata := m.metadata.insert key value })]

def WireRequest.schema : Schema WireRequest :=
  [(1, .string fun method m => { m with method }),
    (2, Schema.map fun key value m => { m with metadata := m.metadata.insert key value }),
    (3, .enum fun kind m => { m with kind }),
    (4, .uint64 fun timeoutNanos m => { m with timeoutNanos }),
    (5, .uint64 fun datagramFlow m => { m with datagramFlow }),
    (6, .uint32s fun id m => { m with acceptDictionaries := m.acceptDictionaries ++ [id] }),
    (7, DictionaryInfo.schema.repeated {} fun info m => { m with dictionaryQuery := m.dictionaryQuery ++ [info] }),
    (8, .enum fun streamCompression m => { m with streamCompression }),
    (9, ConnectionMetadataInfo.schema.singular {} (·.connectionMetadata)
      fun info m => { m with connectionMetadata := some info })]

def WireHeaders.schema : Schema WireHeaders :=
  [(1, Schema.map fun key value m => { m with metadata := m.metadata.insert key value })]

def WireAnswer.schema : Schema WireAnswer :=
  [(1, DictionaryInfo.schema.repeated {} fun info m => { m with dictionaries := m.dictionaries ++ [info] }),
    (2, .bool fun streamCompression m => { m with streamCompression }),
    (3, .uint32 fun connectionMetadata m => { m with connectionMetadata })]

def WireStatus.schema : Schema WireStatus :=
  [(1, .uint32 fun code m => { m with code }),
    (2, .string fun message m => { m with message }),
    (3, Schema.map fun key value m => { m with metadata := m.metadata.insert key value }),
    (4, .bool fun refusedStreamCompression m => { m with refusedStreamCompression })]

/-! ## The preflight -/

def protobufWireType : Kind → WireType
  | .double | .fixed64 | .sfixed64 => .fixed64
  | .string | .bytes | .message _ => .bytes
  | .group _ => .startGroup
  | .float | .fixed32 | .sfixed32 => .fixed32
  | _ => .varint

def isPackableProtobufKind : Kind → Bool
  | .string | .bytes | .message _ | .group _ => false
  | _ => true

def preflightPackedValues (data : Bytes) (wireType : WireType) : Bool :=
  (consumeAll (fun (_ : Unit) data =>
    match wireType with
    | .varint => need () ((consumeVarint data).map fun (_, rest) => ((), rest))
    | .fixed64 => need () ((consumeFixed 8 data).map fun rest => ((), rest))
    | .fixed32 => need () ((consumeFixed 4 data).map fun rest => ((), rest))
    | _ => .error ()) () data).toOption.isSome

def consumeGroup (num : Nat) (b : Bytes) : Option (Bytes × Bytes) :=
  match consumeFieldValue num .startGroup b with
  | none => none
  | some rest =>
    let group := (b.take (b.length - rest.length)).reverse
    -- The end tag may be longer than needed.
    let group := (group.dropWhile fun byte => byte.toNat % 128 = 0).reverse
    some (group.take (group.length - sizeTag num), rest)

/-- The round of the loop of `preflightWireMessageDepth` after a tag. -/
def preflightField (nested : Descriptor → Bytes → Except String Unit) (descriptor : Descriptor) (_ : Unit)
    (fieldNumber : Nat) (wireType : WireType) (data : Bytes) : Except String (Unit × Bytes) :=
  match descriptor.byNumber fieldNumber with
  | none => do
    let data ← need ("invalid protobuf field " ++ toString fieldNumber) (consumeFieldValue fieldNumber wireType data)
    .ok ((), data)
  | some (isList, kind) =>
    let expected := protobufWireType kind
    let packed := isList && isPackableProtobufKind kind && wireType = .bytes
    if wireType ≠ expected ∧ packed = false then
      .error ("known field " ++ toString fieldNumber ++ " used wire type " ++ toString wireType.toNat ++
        "; expected " ++
        toString expected.toNat)
    else if packed then
      match consumeBytes data with
      | none => .error ("invalid packed protobuf field " ++ toString fieldNumber)
      | some (packedData, data) =>
        if preflightPackedValues packedData expected then .ok ((), data)
        else .error ("invalid packed protobuf field " ++ toString fieldNumber)
    else
      match kind with
      | .message fields => do
        let message := "invalid protobuf message field " ++ toString fieldNumber
        let (contents, data) ← need message (consumeBytes data)
        (nested fields contents).mapError fun err => message ++ ": " ++ err
        .ok ((), data)
      | .group fields => do
        let message := "invalid protobuf group field " ++ toString fieldNumber
        let (contents, data) ← need message (consumeGroup fieldNumber data)
        (nested fields contents).mapError fun err => message ++ ": " ++ err
        .ok ((), data)
      | _ => do
        let data ← need ("invalid protobuf field " ++ toString fieldNumber)
          (consumeFieldValue fieldNumber wireType data)
        .ok ((), data)

/-- With so many levels of messages left. -/
def preflightWireMessageDepth : Nat → Descriptor → Bytes → Except String Unit
  | 0, _, _ => .error "protobuf message nesting exceeded limit"
  | levels + 1, descriptor, data =>
    eachField "invalid protobuf field tag" (preflightField (preflightWireMessageDepth levels) descriptor) () data

def maxPreflightMessageDepth : Nat := 100

def preflightWireMessage (descriptor : Descriptor) (data : Bytes) : Except String Unit :=
  preflightWireMessageDepth (maxPreflightMessageDepth + 1) descriptor data

inductive FrameDecodeError
  | preflight (err : String)
  | unmarshal

/-- `decodePayload` into an empty message. -/
def decodePayload {σ : Type} (schema : Schema σ) (zero : σ) (payload : Bytes) : Except FrameDecodeError σ :=
  match preflightWireMessage schema.descriptor payload with
  | .error err => .error (.preflight err)
  | .ok () => (schema.unmarshal zero payload).mapError fun _ => .unmarshal

/-! ## The direct decoder -/

inductive NotHandled
  | notHandled
  deriving DecidableEq, Inhabited

inductive Case (σ : Type)
  | varint (number : Nat) (set : Nat → σ → Except NotHandled σ)
  | bytes (number : Nat) (set : Bytes → σ → Except NotHandled σ)

namespace Case

variable {σ : Type}

def number : Case σ → Nat
  | varint number _ | bytes number _ => number

def wireType : Case σ → WireType
  | varint .. => .varint
  | bytes .. => .bytes

def consume (b : Bytes) (m : σ) : Case σ → Except NotHandled (σ × Bytes)
  | varint _ set => do
    let (value, b) ← need .notHandled (consumeVarint b)
    let m ← set value m
    .ok (m, b)
  | bytes _ set => do
    let (data, b) ← need .notHandled (consumeBytes b)
    let m ← set data m
    .ok (m, b)

end Case

/-- A round of a decoder's loop. No case is for `known`, and other fields are skipped. -/
def decodeField {σ : Type} (cases : List (Case σ)) (known : List Nat) (m : σ) (num : Nat) (typ : WireType) (b : Bytes) :
    Except NotHandled (σ × Bytes) :=
  if maxValidNumber < num then .error .notHandled
  else
    match cases.find? fun case => case.number = num && case.wireType = typ with
    | some case => case.consume b m
    | none =>
      if num ∈ known then .error .notHandled
      else do
        let b ← need .notHandled (consumeFieldValue num typ b)
        .ok (m, b)

def consumeMapEntry (entry : Bytes) : Except NotHandled (Bytes × Bytes) :=
  eachField .notHandled (fun (key, value) num typ entry =>
    if typ ≠ .bytes then .error .notHandled
    else do
      let (data, entry) ← need .notHandled (consumeBytes entry)
      if num = mapEntryKeyField then if validUtf8 data then .ok ((data, value), entry) else .error .notHandled
      else if num = mapEntryValueField then .ok ((key, data), entry)
      else .error .notHandled) ([], []) entry

def consumeMetadataEntry (metadata : Metadata) (data : Bytes) : Except NotHandled Metadata := do
  let (key, value) ← consumeMapEntry data
  .ok (metadata.insert key value)

/-- A number of 32 bits. -/
def smallNumber (value : Nat) : Except NotHandled UInt32 :=
  if 2 ^ 32 - 1 < value then .error .notHandled else .ok (.ofNat value)

def consumeConnectionMetadata (data : Bytes) : Except NotHandled ConnectionMetadataInfo :=
  eachField .notHandled (decodeField
    [.varint connectionIDField fun value info => do
        let id ← smallNumber value
        .ok { info with id },
      .bytes connectionEntriesField fun entry info => do
        let metadata ← consumeMetadataEntry info.metadata entry
        .ok { info with metadata }]
    [connectionIDField, connectionEntriesField]) {} data

def WireRequest.decodeFast (b : Bytes) : Except NotHandled WireRequest :=
  eachField .notHandled (decodeField
    [.bytes requestMethodField fun data m =>
        if validUtf8 data then .ok { m with method := data } else .error .notHandled,
      .bytes requestMetadataField fun data m => do
        let metadata ← consumeMetadataEntry m.metadata data
        .ok { m with metadata },
      .varint requestKindField fun value m => .ok { m with kind := .ofNat value },
      .varint requestTimeoutField fun value m => .ok { m with timeoutNanos := .ofNat value },
      .varint requestDatagramField fun value m => .ok { m with datagramFlow := .ofNat value },
      .bytes requestAcceptField fun data m =>
        consumeAll (fun m data => do
          let (value, data) ← need .notHandled (consumeVarint data)
          let id ← smallNumber value
          .ok ({ m with acceptDictionaries := m.acceptDictionaries ++ [id] }, data)) m data,
      .varint requestStreamField fun value m => .ok { m with streamCompression := .ofNat value },
      .bytes requestConnectionField fun data m =>
        -- A second one is left to the runtime, which merges it.
        if m.connectionMetadata ≠ none then .error .notHandled
        else do
          let info ← consumeConnectionMetadata data
          .ok { m with connectionMetadata := some info }]
    [requestMethodField, requestMetadataField, requestKindField, requestTimeoutField, requestDatagramField,
      requestAcceptField, requestQueryField, requestStreamField, requestConnectionField]) {} b

def WireHeaders.decodeFast (b : Bytes) : Except NotHandled WireHeaders :=
  eachField .notHandled (decodeField
    [.bytes headersMetadataField fun data m => do
        let metadata ← consumeMetadataEntry m.metadata data
        .ok { m with metadata }]
    [headersMetadataField]) {} b

def WireAnswer.decodeFast (b : Bytes) : Except NotHandled WireAnswer :=
  eachField .notHandled (decodeField
    [.varint answerStreamField fun value m => .ok { m with streamCompression := value ≠ 0 },
      .varint answerConnectionField fun value m => do
        let id ← smallNumber value
        .ok { m with connectionMetadata := id }]
    [answerDictionaryField, answerStreamField, answerConnectionField]) {} b

def WireStatus.decodeFast (b : Bytes) : Except NotHandled WireStatus :=
  eachField .notHandled (decodeField
    [.varint statusCodeField fun value m => .ok { m with code := .ofNat value },
      .bytes statusMessageField fun data m =>
        if validUtf8 data then .ok { m with message := data } else .error .notHandled,
      .bytes statusMetadataField fun data m => do
        let metadata ← consumeMetadataEntry m.metadata data
        .ok { m with metadata },
      .varint statusRefusedField fun value m => .ok { m with refusedStreamCompression := value ≠ 0 }]
    [statusCodeField, statusMessageField, statusMetadataField, statusRefusedField]) {} b

/-! ## Both -/

def decodeFrame {σ : Type} (decodeFast : Bytes → Except NotHandled σ) (schema : Schema σ) (zero : σ) (payload : Bytes) :
    Except FrameDecodeError σ :=
  match decodeFast payload with
  | .ok m => .ok m
  | .error _ => decodePayload schema zero payload

def decodeRequest (payload : Bytes) : Except FrameDecodeError WireRequest :=
  decodeFrame WireRequest.decodeFast WireRequest.schema {} payload

/-- The wire message of `decodeStatus`. -/
def decodeStatus (payload : Bytes) : Except FrameDecodeError WireStatus :=
  if payload.length = 0 then .ok {} else decodeFrame WireStatus.decodeFast WireStatus.schema {} payload

def decodeHeaders (payload : Bytes) : Except FrameDecodeError Metadata :=
  if payload.length = 0 then .ok ∅
  else (decodeFrame WireHeaders.decodeFast WireHeaders.schema {} payload).map (·.metadata)

def decodeAnswer (payload : Bytes) : Except FrameDecodeError WireAnswer :=
  decodeFrame WireAnswer.decodeFast WireAnswer.schema {} payload

end TrevRpc.Go
