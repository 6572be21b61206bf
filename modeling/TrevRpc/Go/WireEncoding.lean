import TrevRpc.Lib.Frames
import TrevRpc.Lib.Proto.Encoding
import TrevRpc.Go.WireDecoding

/-!
# The direct encoder of the wire messages (`wire_codec.go`) and its frames (`framing.go`)

The loops over a map visit its entries in an order of their own, every time.
-/

open TrevRpc.Proto
open TrevRpc.Rust (Bytes)

namespace TrevRpc.Go

/-- The entries of a map, in the order of one loop over it. -/
def Range (metadata : Metadata) : Type :=
  { entries : List (Bytes × Bytes) //
    (entries.map Prod.fst).Nodup ∧ ∀ key value, (key, value) ∈ entries ↔ metadata.lookup key = some value }

/-- The order that one loop takes, for whichever map it is over. -/
abbrev Loop := (metadata : Metadata) → Range metadata

/-! ## Sizes and fields -/

/-- Both fields are always encoded, even when empty. -/
def mapEntrySize (key value : Bytes) : Nat := 1 + sizeBytes key.length + 1 + sizeBytes value.length

/-- The encoded size of the map field `num`. -/
def metadataFieldSize (range : Loop) (num : Nat) (metadata : Metadata) : Nat :=
  (range metadata).1.foldl (fun size (key, value) => size + (sizeTag num + sizeBytes (mapEntrySize key value))) 0

/-- The keys are strings, so they must be UTF-8. -/
def metadataValid (range : Loop) (metadata : Metadata) : Bool :=
  (range metadata).1.all fun (key, _) => validUtf8 key

def appendTag (b : Bytes) (num : Nat) (typ : WireType) : Bytes := b ++ tagBytes num typ

def appendVarint (b : Bytes) (value : Nat) : Bytes := b ++ varintBytes value

/-- `AppendBytes` and `AppendString`. -/
def appendBytes (b data : Bytes) : Bytes := b ++ lengthDelimited data

/-- One length-delimited entry for each key. -/
def appendMetadataField (range : Loop) (b : Bytes) (num : Nat) (metadata : Metadata) : Bytes :=
  (range metadata).1.foldl (fun b (key, value) =>
    let b := appendTag b num .bytes
    let b := appendVarint b (mapEntrySize key value)
    let b := appendTag b mapEntryKeyField .bytes
    let b := appendBytes b key
    let b := appendTag b mapEntryValueField .bytes
    appendBytes b value) b

/-- The payload of a packed field. -/
def packedUint32sSize (values : List UInt32) : Nat := values.foldl (fun size value => size + sizeVarint value.toNat) 0

/-- An empty list is not encoded. -/
def appendPackedUint32s (b : Bytes) (num : Nat) (values : List UInt32) : Bytes :=
  if values.length = 0 then b
  else
    let b := appendTag b num .bytes
    let b := appendVarint b (packedUint32sSize values)
    values.foldl (fun b value => appendVarint b value.toNat) b

def packedUint32sFieldSize (num : Nat) (values : List UInt32) : Nat :=
  if values.length = 0 then 0 else sizeTag num + sizeBytes (packedUint32sSize values)

/-- Zero values are not encoded. -/
def dictionaryInfoSize (info : DictionaryInfo) : Nat :=
  let size := 0
  let size := if info.id ≠ 0 then size + (sizeTag dictionaryIDField + sizeVarint info.id.toNat) else size
  if 0 < info.fingerprint.length then size + (sizeTag dictionaryFingerField + sizeBytes info.fingerprint.length)
  else size

def dictionaryInfosFieldSize (num : Nat) (infos : List DictionaryInfo) : Nat :=
  infos.foldl (fun size info => size + (sizeTag num + sizeBytes (dictionaryInfoSize info))) 0

def appendDictionaryInfos (b : Bytes) (num : Nat) (infos : List DictionaryInfo) : Bytes :=
  infos.foldl (fun b info =>
    let b := appendTag b num .bytes
    let b := appendVarint b (dictionaryInfoSize info)
    let b := if info.id ≠ 0 then appendVarint (appendTag b dictionaryIDField .varint) info.id.toNat else b
    if 0 < info.fingerprint.length then appendBytes (appendTag b dictionaryFingerField .bytes) info.fingerprint
    else b) b

def connectionMetadataInfoSize (range : Loop) (info : ConnectionMetadataInfo) : Nat :=
  let size := metadataFieldSize range connectionEntriesField info.metadata
  if info.id ≠ 0 then size + (sizeTag connectionIDField + sizeVarint info.id.toNat) else size

/-- An absent message has no field, an empty one does. -/
def connectionMetadataFieldSize (range : Loop) (num : Nat) : Option ConnectionMetadataInfo → Nat
  | none => 0
  | some info => sizeTag num + sizeBytes (connectionMetadataInfoSize range info)

/-- `sizeRange` is the loop that sizes the message. -/
def appendConnectionMetadata (sizeRange range : Loop) (b : Bytes) (num : Nat) : Option ConnectionMetadataInfo → Bytes
  | none => b
  | some info =>
    let b := appendTag b num .bytes
    let b := appendVarint b (connectionMetadataInfoSize sizeRange info)
    let b := if info.id ≠ 0 then appendVarint (appendTag b connectionIDField .varint) info.id.toNat else b
    appendMetadataField range b connectionEntriesField info.metadata

/-! ## Payloads

The runs of the loops of a function are numbered in the order in which it starts them. -/

/-- `uint64(value)`, which extends the sign. -/
def toUint64 (value : Int32) : Nat := (value.toInt % 2 ^ 64).toNat

namespace WireRequest

/-- `none`: not UTF-8, left to the protobuf runtime. -/
def payloadSize (range : Nat → Loop) (m : WireRequest) : Option Nat :=
  if (!validUtf8 m.method || !metadataValid (range 0) m.metadata) = true then none
  else if m.connectionMetadata.any (fun info => !metadataValid (range 1) info.metadata) = true then none
  else
    let size := metadataFieldSize (range 2) requestMetadataField m.metadata
    let size := if m.method ≠ [] then size + (sizeTag requestMethodField + sizeBytes m.method.length) else size
    let size := if m.kind ≠ 0 then size + (sizeTag requestKindField + sizeVarint (toUint64 m.kind)) else size
    let size := if m.timeoutNanos ≠ 0 then size + (sizeTag requestTimeoutField + sizeVarint m.timeoutNanos.toNat)
      else size
    let size := if m.datagramFlow ≠ 0 then size + (sizeTag requestDatagramField + sizeVarint m.datagramFlow.toNat)
      else size
    let size := size + packedUint32sFieldSize requestAcceptField m.acceptDictionaries
    let size := size + dictionaryInfosFieldSize requestQueryField m.dictionaryQuery
    let size := if m.streamCompression ≠ 0
      then size + (sizeTag requestStreamField + sizeVarint (toUint64 m.streamCompression)) else size
    some (size + connectionMetadataFieldSize (range 3) requestConnectionField m.connectionMetadata)

/-- The fields in the order of their numbers, zero values left out. -/
def appendPayload (range : Nat → Loop) (m : WireRequest) (b : Bytes) : Bytes :=
  let b := if m.method ≠ [] then appendBytes (appendTag b requestMethodField .bytes) m.method else b
  let b := appendMetadataField (range 0) b requestMetadataField m.metadata
  let b := if m.kind ≠ 0 then appendVarint (appendTag b requestKindField .varint) (toUint64 m.kind) else b
  let b := if m.timeoutNanos ≠ 0 then appendVarint (appendTag b requestTimeoutField .varint) m.timeoutNanos.toNat
    else b
  let b := if m.datagramFlow ≠ 0 then appendVarint (appendTag b requestDatagramField .varint) m.datagramFlow.toNat
    else b
  let b := appendPackedUint32s b requestAcceptField m.acceptDictionaries
  let b := appendDictionaryInfos b requestQueryField m.dictionaryQuery
  let b := if m.streamCompression ≠ 0
    then appendVarint (appendTag b requestStreamField .varint) (toUint64 m.streamCompression) else b
  appendConnectionMetadata (range 1) (range 2) b requestConnectionField m.connectionMetadata

end WireRequest

namespace WireHeaders

def payloadSize (range : Nat → Loop) (m : WireHeaders) : Option Nat :=
  if (!metadataValid (range 0) m.metadata) = true then none
  else some (metadataFieldSize (range 1) headersMetadataField m.metadata)

def appendPayload (range : Nat → Loop) (m : WireHeaders) (b : Bytes) : Bytes :=
  appendMetadataField (range 0) b headersMetadataField m.metadata

end WireHeaders

namespace WireAnswer

def payloadSize (m : WireAnswer) : Nat :=
  let size := dictionaryInfosFieldSize answerDictionaryField m.dictionaries
  let size := if m.streamCompression then size + (sizeTag answerStreamField + 1) else size
  if m.connectionMetadata ≠ 0 then size + (sizeTag answerConnectionField + sizeVarint m.connectionMetadata.toNat)
  else size

def appendPayload (m : WireAnswer) (b : Bytes) : Bytes :=
  let b := appendDictionaryInfos b answerDictionaryField m.dictionaries
  let b := if m.streamCompression then appendVarint (appendTag b answerStreamField .varint) 1 else b
  if m.connectionMetadata ≠ 0 then appendVarint (appendTag b answerConnectionField .varint) m.connectionMetadata.toNat
  else b

end WireAnswer

namespace WireStatus

/-- `none`: not UTF-8. -/
def payloadSize (range : Nat → Loop) (m : WireStatus) : Option Nat :=
  if (!validUtf8 m.message || !metadataValid (range 0) m.metadata) = true then none
  else
    let size := metadataFieldSize (range 1) statusMetadataField m.metadata
    let size := if m.code ≠ 0 then size + (sizeTag statusCodeField + sizeVarint m.code.toNat) else size
    let size := if m.message ≠ [] then size + (sizeTag statusMessageField + sizeBytes m.message.length) else size
    some (if m.refusedStreamCompression then size + (sizeTag statusRefusedField + 1) else size)

def appendPayload (range : Nat → Loop) (m : WireStatus) (b : Bytes) : Bytes :=
  let b := if m.code ≠ 0 then appendVarint (appendTag b statusCodeField .varint) m.code.toNat else b
  let b := if m.message ≠ [] then appendBytes (appendTag b statusMessageField .bytes) m.message else b
  let b := appendMetadataField (range 0) b statusMetadataField m.metadata
  if m.refusedStreamCompression then appendVarint (appendTag b statusRefusedField .varint) 1 else b

end WireStatus

/-! ## Frames -/

abbrev frameTypeRequest : Nat := 1
abbrev frameTypeHeaders : Nat := 2
abbrev frameTypeStatus : Nat := 3
abbrev frameTypeAnswer : Nat := 6

/-- Why a frame is not written. -/
inductive AppendError
  | frameTooLarge (len max : Nat)
  /-- `quicvarint.Append` panics. -/
  | panicked
  | marshal (err : String)

/-- The type and the length of the payload. -/
def appendFrameHeader (dst : Bytes) (typ length : Nat) : Except AppendError Bytes :=
  match Varint.encode typ, Varint.encode length with
  | some typ, some length => .ok (dst ++ typ ++ length)
  | _, _ => .error .panicked

/-- Checks the limit before anything is written. -/
def appendDirectFrameHeader (dst : Bytes) (typ size maxFrameSize : Nat) : Except AppendError Bytes :=
  if size > maxFrameSize then .error (.frameTooLarge size maxFrameSize) else appendFrameHeader dst typ size

/-! The protobuf runtime writes what the codec does not handle, in `appendLimitedProtoFrame`. -/

def appendRequestFrame (appendLimitedProtoFrame : Bytes → Nat → WireRequest → Nat → Except AppendError Bytes)
    (sizeRange range : Nat → Loop) (dst : Bytes) (request : WireRequest) (maxFrameSize : Nat) :
    Except AppendError Bytes :=
  match request.payloadSize sizeRange with
  | none => appendLimitedProtoFrame dst frameTypeRequest request maxFrameSize
  | some size => do
    let dst ← appendDirectFrameHeader dst frameTypeRequest size maxFrameSize
    .ok (request.appendPayload range dst)

def appendAnswerFrame (dst : Bytes) (answer : WireAnswer) (maxFrameSize : Nat) : Except AppendError Bytes := do
  let dst ← appendDirectFrameHeader dst frameTypeAnswer answer.payloadSize maxFrameSize
  .ok (answer.appendPayload dst)

def appendHeadersFrame (appendLimitedProtoFrame : Bytes → Nat → WireHeaders → Nat → Except AppendError Bytes)
    (sizeRange range : Nat → Loop) (dst : Bytes) (metadata : Metadata) (maxFrameSize : Nat) :
    Except AppendError Bytes :=
  let headers : WireHeaders := { metadata }
  match headers.payloadSize sizeRange with
  | none => appendLimitedProtoFrame dst frameTypeHeaders headers maxFrameSize
  | some size => do
    let dst ← appendDirectFrameHeader dst frameTypeHeaders size maxFrameSize
    .ok (headers.appendPayload range dst)

/-- The OK status has an empty payload. -/
def appendStatusFrame (appendLimitedProtoFrame : Bytes → Nat → WireStatus → Nat → Except AppendError Bytes)
    (sizeRange range : Nat → Loop) (dst : Bytes) (wire : WireStatus) (maxFrameSize : Nat) :
    Except AppendError Bytes :=
  if wire.code = 0 ∧ wire.message = [] ∧ wire.metadata = ∅ ∧ wire.refusedStreamCompression = false then
    appendFrameHeader dst frameTypeStatus 0
  else
    match wire.payloadSize sizeRange with
    | none => appendLimitedProtoFrame dst frameTypeStatus wire maxFrameSize
    | some size => do
      let dst ← appendDirectFrameHeader dst frameTypeStatus size maxFrameSize
      .ok (wire.appendPayload range dst)

end TrevRpc.Go
