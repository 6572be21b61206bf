import TrevRpc.Lib.Proto.Wire

/-! # Protobuf messages of the proto3 syntax -/

namespace TrevRpc.Proto

/-! ## Descriptors -/

/-- A message or a group has fields: their numbers, whether they are lists, and their kinds. -/
inductive Kind
  | bool
  | enum
  | int32
  | sint32
  | uint32
  | int64
  | sint64
  | uint64
  | sfixed32
  | fixed32
  | float
  | sfixed64
  | fixed64
  | double
  | string
  | bytes
  | message (fields : List (Nat × Bool × Kind))
  | group (fields : List (Nat × Bool × Kind))

abbrev Descriptor := List (Nat × Bool × Kind)

def Descriptor.byNumber (descriptor : Descriptor) (num : Nat) : Option (Bool × Kind) := descriptor.lookup num

/-! ## Decoding -/

inductive DecodeError
  | decode
  deriving DecidableEq, Inhabited

/-- A string field holds valid UTF-8. -/
def validUtf8 (data : List UInt8) : Bool := ByteArray.validateUTF8 ⟨data.toArray⟩

/-- How the values of a field change a message. -/
inductive Codec (σ : Type)
  | string (set : List UInt8 → σ → σ)
  | bytes (set : List UInt8 → σ → σ)
  | bool (set : Bool → σ → σ)
  | enum (set : Int32 → σ → σ)
  | uint32 (set : UInt32 → σ → σ)
  | uint64 (set : UInt64 → σ → σ)
  | uint32s (append : UInt32 → σ → σ)
  | message (list : Bool) (descriptor : Descriptor) (merge : List UInt8 → σ → Except DecodeError σ)

namespace Codec

variable {σ τ : Type}

def isList : Codec σ → Bool
  | uint32s _ => true
  | message list _ _ => list
  | _ => false

def kind : Codec σ → Kind
  | string _ => .string
  | bytes _ => .bytes
  | bool _ => .bool
  | enum _ => .enum
  | uint32 _ | uint32s _ => .uint32
  | uint64 _ => .uint64
  | message _ descriptor _ => .message descriptor

def accepts : Codec σ → WireType → Bool
  | string _, typ | bytes _, typ | message .., typ => typ = .bytes
  | bool _, typ | enum _, typ | uint32 _, typ | uint64 _, typ => typ = .varint
  | uint32s _, typ => typ = .bytes || typ = .varint

def consume (codec : Codec σ) (typ : WireType) (b : List UInt8) (m : σ) : Except DecodeError (σ × List UInt8) :=
  match codec with
  | string set => do
    let (data, b) ← need .decode (consumeBytes b)
    if validUtf8 data then .ok (set data m, b) else .error .decode
  | bytes set => do
    let (data, b) ← need .decode (consumeBytes b)
    .ok (set data m, b)
  | bool set => do
    let (value, b) ← need .decode (consumeVarint b)
    .ok (set (value ≠ 0) m, b)
  | enum set => do
    let (value, b) ← need .decode (consumeVarint b)
    .ok (set (.ofNat value) m, b)
  | uint32 set => do
    let (value, b) ← need .decode (consumeVarint b)
    .ok (set (.ofNat value) m, b)
  | uint64 set => do
    let (value, b) ← need .decode (consumeVarint b)
    .ok (set (.ofNat value) m, b)
  | uint32s append =>
    let next (m : σ) (b : List UInt8) : Except DecodeError (σ × List UInt8) := do
      let (value, b) ← need .decode (consumeVarint b)
      .ok (append (.ofNat value) m, b)
    if typ = .bytes then do
      let (data, b) ← need .decode (consumeBytes b)
      let m ← consumeAll next m data
      .ok (m, b)
    else next m b
  | message _ _ merge => do
    let (data, b) ← need .decode (consumeBytes b)
    let m ← merge data m
    .ok (m, b)

end Codec

/-- The fields of a message. -/
abbrev Schema (σ : Type) := List (Nat × Codec σ)

namespace Schema

variable {σ τ : Type}

def descriptor (schema : Schema σ) : Descriptor := schema.map fun (num, codec) => (num, codec.isList, codec.kind)

def unmarshalField (schema : Schema σ) (m : σ) (num : Nat) (typ : WireType) (b : List UInt8) :
    Except DecodeError (σ × List UInt8) :=
  if maxValidNumber < num then .error .decode
  else
    match (schema.lookup num).filter (·.accepts typ) with
    | some codec => codec.consume typ b m
    | none => do
      let b ← need .decode (consumeFieldValue num typ b)
      .ok (m, b)

theorem unmarshalField_known {schema : Schema σ} {num : Nat} {c : Codec σ} {typ : WireType}
    (hl : schema.lookup num = some c) (ha : c.accepts typ = true) (hnum : num ≤ maxValidNumber)
    (b : List UInt8) (m : σ) : schema.unmarshalField m num typ b = c.consume typ b m := by
  rw [unmarshalField, if_neg (Nat.not_lt.mpr hnum), hl, Option.filter_some, if_pos ha]

def unmarshal (schema : Schema σ) (m : σ) (b : List UInt8) : Except DecodeError σ :=
  eachField .decode schema.unmarshalField m b

/-- A message field. -/
def singular (schema : Schema τ) (zero : τ) (get : σ → Option τ) (set : τ → σ → σ) : Codec σ :=
  .message false schema.descriptor fun data m => do
    let nested ← schema.unmarshal ((get m).getD zero) data
    .ok (set nested m)

/-- A list of messages. -/
def repeated (schema : Schema τ) (zero : τ) (append : τ → σ → σ) : Codec σ :=
  .message true schema.descriptor fun data m => do
    let nested ← schema.unmarshal zero data
    .ok (append nested m)

/-- A map from strings to bytes is a list of entries, of which the last of a key counts. -/
structure Entry where
  key : List UInt8 := []
  value : List UInt8 := []
  deriving DecidableEq

def entry : Schema Entry :=
  [(1, .string fun key e => { e with key }), (2, .bytes fun value e => { e with value })]

def map (insert : List UInt8 → List UInt8 → σ → σ) : Codec σ :=
  .message false entry.descriptor fun data m => do
    let e ← entry.unmarshal {} data
    .ok (insert e.key e.value m)

end Schema

end TrevRpc.Proto
