import TrevRpc.Lib.Varint

/-!
# QMux frames of the Go implementation (`internal/qmux/{protocol,errors,frames}.go`)

A frame is a row of varints and the bytes after them. A value without a varint makes `quicvarint.Append` panic, so that
`encode` is partial.
-/

open TrevRpc.Varint

namespace TrevRpc.Go.Qmux

/-! ## Codepoints -/

namespace FrameType

abbrev padding : Nat := 0x00
abbrev resetStream : Nat := 0x04
abbrev stopSending : Nat := 0x05
-- Through 0x0f: the three low bits are flags.
abbrev stream : Nat := 0x08
abbrev maxData : Nat := 0x10
abbrev maxStreamData : Nat := 0x11
abbrev maxStreamsBidi : Nat := 0x12
abbrev maxStreamsUni : Nat := 0x13
abbrev dataBlocked : Nat := 0x14
abbrev streamDataBlocked : Nat := 0x15
abbrev streamsBlockedBidi : Nat := 0x16
abbrev streamsBlockedUni : Nat := 0x17
abbrev connectionClose : Nat := 0x1c
abbrev applicationClose : Nat := 0x1d

end FrameType

abbrev streamFlagFin : Nat := 0x01
abbrev streamFlagLen : Nat := 0x02
abbrev streamFlagOff : Nat := 0x04

def maxStreamsLimit : Nat := 2 ^ 60

/-- A QMux draft by its codepoints, which have varints and no other meaning. -/
structure Version where
  name : String
  transportParametersType : Nat
  pingType : Nat
  pingResponseType : Nat
  maxRecordSizeParameter : Nat
  transportParametersType_fresh :
    FrameType.applicationClose < transportParametersType ∧ transportParametersType ≤ maxValue
  pingType_fresh :
    FrameType.applicationClose < pingType ∧ pingType ≤ maxValue ∧ pingType ≠ transportParametersType
  pingResponseType_fresh :
    FrameType.applicationClose < pingResponseType ∧ pingResponseType ≤ maxValue ∧
      pingResponseType ≠ transportParametersType ∧ pingResponseType ≠ pingType
  maxRecordSizeParameter_fresh :
    0x10 < maxRecordSizeParameter ∧ maxRecordSizeParameter ≤ maxValue

def draft02 : Version where
  name := "qmux-02"
  transportParametersType := 0x3f5153300d0a0d0a
  pingType := 0x348c67529ef8c7bd
  pingResponseType := 0x348c67529ef8c7be
  maxRecordSizeParameter := 0x0571c59429cd0845
  transportParametersType_fresh := by decide
  pingType_fresh := by decide
  pingResponseType_fresh := by decide
  maxRecordSizeParameter_fresh := by decide

/-! ## Errors -/

/-- A peer may report any code. -/
abbrev TransportErrorCode := Nat

namespace TransportErrorCode

abbrev noError : TransportErrorCode := 0x00
abbrev internalError : TransportErrorCode := 0x01
abbrev flowControlError : TransportErrorCode := 0x03
abbrev streamLimitError : TransportErrorCode := 0x04
abbrev streamStateError : TransportErrorCode := 0x05
abbrev finalSizeError : TransportErrorCode := 0x06
abbrev frameEncodingError : TransportErrorCode := 0x07
abbrev transportParameterError : TransportErrorCode := 0x08
abbrev protocolViolation : TransportErrorCode := 0x0a

end TransportErrorCode

structure TransportError where
  remote : Bool
  errorCode : TransportErrorCode
  frameType : Nat
  errorMessage : List UInt8
  deriving DecidableEq

def protocolError (code : TransportErrorCode) (frameType : Nat) (message : String) : TransportError :=
  ⟨false, code, frameType, message.toUTF8.toList⟩

/-- The format `%x`. -/
def hex (n : Nat) : String := String.ofList (Nat.toDigits 16 n)

/-! ## Writing -/

inductive Frame
  | padding
  | stream (typ streamID offset : Nat) (data : List UInt8) (fin : Bool)
  | resetStream (streamID errorCode finalSize : Nat)
  | stopSending (streamID errorCode : Nat)
  | maxData (maximum : Nat)
  | maxStreamData (streamID maximum : Nat)
  | maxStreamsBidi (maximum : Nat)
  | maxStreamsUni (maximum : Nat)
  | dataBlocked (maximum : Nat)
  | streamDataBlocked (streamID maximum : Nat)
  | streamsBlockedBidi (maximum : Nat)
  | streamsBlockedUni (maximum : Nat)
  | connectionClose (errorCode frameType : Nat) (reason : List UInt8)
  | applicationClose (errorCode : Nat) (reason : List UInt8)
  | transportParameters (params : List UInt8)
  | ping (sequence : Nat)
  | pingResponse (sequence : Nat)
  deriving DecidableEq

namespace Frame

def typ (v : Version) : Frame → Nat
  | padding => FrameType.padding
  | stream typ .. => typ
  | resetStream .. => FrameType.resetStream
  | stopSending .. => FrameType.stopSending
  | maxData _ => FrameType.maxData
  | maxStreamData .. => FrameType.maxStreamData
  | maxStreamsBidi _ => FrameType.maxStreamsBidi
  | maxStreamsUni _ => FrameType.maxStreamsUni
  | dataBlocked _ => FrameType.dataBlocked
  | streamDataBlocked .. => FrameType.streamDataBlocked
  | streamsBlockedBidi _ => FrameType.streamsBlockedBidi
  | streamsBlockedUni _ => FrameType.streamsBlockedUni
  | connectionClose .. => FrameType.connectionClose
  | applicationClose .. => FrameType.applicationClose
  | transportParameters _ => v.transportParametersType
  | ping _ => v.pingType
  | pingResponse _ => v.pingResponseType

/-- The varints after the type. -/
def fields : Frame → List Nat
  | padding => []
  | stream _ streamID offset data _ =>
    streamID :: ((if 0 < offset then [offset] else []) ++ [data.length])
  | resetStream streamID errorCode finalSize => [streamID, errorCode, finalSize]
  | stopSending streamID errorCode => [streamID, errorCode]
  | maxData maximum | maxStreamsBidi maximum | maxStreamsUni maximum | dataBlocked maximum
  | streamsBlockedBidi maximum | streamsBlockedUni maximum => [maximum]
  | maxStreamData streamID maximum | streamDataBlocked streamID maximum => [streamID, maximum]
  | connectionClose errorCode frameType reason => [errorCode, frameType, reason.length]
  | applicationClose errorCode reason => [errorCode, reason.length]
  | transportParameters params => [params.length]
  | ping sequence | pingResponse sequence => [sequence]

def bytes : Frame → List UInt8
  | stream _ _ _ data _ => data
  | connectionClose _ _ reason => reason
  | applicationClose _ reason => reason
  | transportParameters params => params
  | _ => []

/-- The frame on the wire; `none` is the panic of `quicvarint.Append`. -/
def encode (v : Version) (f : Frame) : Option (List UInt8) :=
  (encodeAll (f.typ v :: f.fields)).map (· ++ f.bytes)

def length (v : Version) (f : Frame) : Nat := encodedLenAll (f.typ v :: f.fields) + f.bytes.length

theorem length_of_encode {v : Version} {f : Frame} {wire : List UInt8} (h : f.encode v = some wire) :
    wire.length = f.length v := by
  simp only [encode, Option.map_eq_some_iff] at h
  obtain ⟨head, hh, rfl⟩ := h
  rw [List.length_append, length_of_encodeAll hh, length]

theorem length_pos (v : Version) (f : Frame) : 0 < f.length v := by
  have h := encodedLen_pos (f.typ v)
  rw [length, encodedLenAll_cons]
  omega

end Frame

def streamFrameType (offset : Nat) (fin : Bool) : Nat :=
  FrameType.stream ||| streamFlagLen ||| (if 0 < offset then streamFlagOff else 0) |||
    (if fin then streamFlagFin else 0)

def appendStreamFrame (streamID offset : Nat) (data : List UInt8) (fin : Bool) : Frame :=
  .stream (streamFrameType offset fin) streamID offset data fin

def streamFrameOverhead (streamID offset length : Nat) : Nat :=
  1 + encodedLen streamID + encodedLen length + (if 0 < offset then encodedLen offset else 0)

theorem streamFrameOverhead_le (streamID o l : Nat) : streamFrameOverhead streamID o l ≤ 25 := by
  have h1 := encodedLen_le streamID
  have h2 := encodedLen_le l
  have h3 := encodedLen_le o
  unfold streamFrameOverhead
  split_ifs <;> omega

theorem streamFrameOverhead_mono {streamID o m n : Nat} (h : m ≤ n) :
    streamFrameOverhead streamID o m ≤ streamFrameOverhead streamID o n := by
  have hlen := encodedLen_mono h
  unfold streamFrameOverhead
  omega

theorem length_appendStreamFrame (v : Version) (streamID o : Nat) (data : List UInt8) (fin : Bool) :
    (appendStreamFrame streamID o data fin).length v =
      streamFrameOverhead streamID o data.length + data.length := by
  have ht : encodedLen (streamFrameType o fin) = 1 := by
    unfold streamFrameType
    split_ifs <;> rfl
  unfold appendStreamFrame Frame.length Frame.typ Frame.fields Frame.bytes streamFrameOverhead
  by_cases hoff : 0 < o <;> simp [encodedLenAll, ht, hoff] <;> omega

/-! ## Records -/

/-- The frames of a record, one after another. -/
def encodeRecord (v : Version) : List Frame → Option (List UInt8)
  | [] => some []
  | f :: frames => do
    let wire ← f.encode v
    let rest ← encodeRecord v frames
    return wire ++ rest

def recordLength (v : Version) (frames : List Frame) : Nat := (frames.map (Frame.length v)).sum

@[simp] theorem recordLength_append (v : Version) (xs ys : List Frame) :
    recordLength v (xs ++ ys) = recordLength v xs + recordLength v ys := by
  simp [recordLength]

@[simp] theorem recordLength_singleton (v : Version) (f : Frame) : recordLength v [f] = f.length v := by
  simp [recordLength]

theorem encodeRecord_cons_eq_some {v : Version} {f : Frame} {fs : List Frame} {r : List UInt8} :
    encodeRecord v (f :: fs) = some r ↔
      ∃ wire rest, f.encode v = some wire ∧ encodeRecord v fs = some rest ∧ r = wire ++ rest := by
  simp only [encodeRecord, Option.bind_eq_bind, Option.bind_eq_some_iff, Option.pure_def,
    Option.some.injEq]
  constructor
  · rintro ⟨wire, hw, rest, hr, rfl⟩
    exact ⟨wire, rest, hw, hr, rfl⟩
  · rintro ⟨wire, rest, hw, hr, rfl⟩
    exact ⟨wire, hw, rest, hr, rfl⟩

theorem length_of_encodeRecord {v : Version} {frames : List Frame} {r : List UInt8}
    (h : encodeRecord v frames = some r) : r.length = recordLength v frames := by
  induction frames generalizing r with
  | nil =>
    simp only [encodeRecord, Option.some.injEq] at h
    subst h
    rfl
  | cons f frames ih =>
    obtain ⟨wire, rest, hw, hr, rfl⟩ := encodeRecord_cons_eq_some.mp h
    rw [List.length_append, Frame.length_of_encode hw, ih hr]
    simp [recordLength]

/-! ## Parsing -/

namespace FrameParser

/-- The state is what is left of the record. -/
abbrev Parser := StateT (List UInt8) (Except TransportError)

def truncated (frameType : Nat) : TransportError :=
  protocolError .frameEncodingError frameType "truncated frame"

def varint (frameType : Nat) : Parser Nat := fun buf =>
  match decode buf with
  | none => .error (truncated frameType)
  | some (value, n) => .ok (value, buf.drop n)

def bytes (frameType length : Nat) : Parser (List UInt8) := fun buf =>
  if buf.length < length then .error (truncated frameType)
  else .ok (buf.take length, buf.drop length)

def streamFrame (typ : Nat) : Parser Frame := do
  let streamID ← varint typ
  let offset ← if typ &&& streamFlagOff ≠ 0 then varint typ else pure 0
  let length ← if typ &&& streamFlagLen ≠ 0 then varint typ else List.length <$> get
  let data ← bytes typ length
  if maxValue < offset + data.length then
    throw (protocolError .frameEncodingError typ "stream data beyond the maximum offset")
  return .stream typ streamID offset data (typ &&& streamFlagFin ≠ 0)

def closeFrame (typ : Nat) : Parser Frame := do
  let errorCode ← varint typ
  if typ = FrameType.connectionClose then
    let frameType ← varint typ
    return .connectionClose errorCode frameType (← bytes typ (← varint typ))
  else return .applicationClose errorCode (← bytes typ (← varint typ))

/-- The rest of a frame of type `typ`. -/
def ofType (v : Version) (typ : Nat) : Parser Frame :=
  if typ = FrameType.padding then return .padding
  else if FrameType.stream ≤ typ ∧ typ ≤ FrameType.stream ||| 0x07 then streamFrame typ
  else if typ = FrameType.resetStream then
    return .resetStream (← varint typ) (← varint typ) (← varint typ)
  else if typ = FrameType.stopSending then return .stopSending (← varint typ) (← varint typ)
  else if typ = FrameType.maxData then return .maxData (← varint typ)
  else if typ = FrameType.dataBlocked then return .dataBlocked (← varint typ)
  else if typ = FrameType.maxStreamsBidi then return .maxStreamsBidi (← varint typ)
  else if typ = FrameType.maxStreamsUni then return .maxStreamsUni (← varint typ)
  else if typ = FrameType.streamsBlockedBidi then return .streamsBlockedBidi (← varint typ)
  else if typ = FrameType.streamsBlockedUni then return .streamsBlockedUni (← varint typ)
  else if typ = FrameType.maxStreamData then return .maxStreamData (← varint typ) (← varint typ)
  else if typ = FrameType.streamDataBlocked then
    return .streamDataBlocked (← varint typ) (← varint typ)
  else if typ = FrameType.connectionClose ∨ typ = FrameType.applicationClose then closeFrame typ
  else if typ = v.transportParametersType then
    return .transportParameters (← bytes typ (← varint typ))
  else if typ = v.pingType then return .ping (← varint typ)
  else if typ = v.pingResponseType then return .pingResponse (← varint typ)
  else
    let digits := hex typ
    throw (protocolError .frameEncodingError typ s!"frame type 0x{digits} is not allowed in QMux")

def next (v : Version) : Parser Frame := do ofType v (← varint 0)

/-! ## Reading back what was written -/

def Reads {α : Type} (p : Parser α) (wire : List UInt8) (a : α) : Prop :=
  ∀ rest, p (wire ++ rest) = .ok (a, rest)

theorem Reads.pure {α : Type} (a : α) : Reads (Pure.pure a) [] a := fun _ => rfl

variable {wire : List UInt8}

theorem Reads.bind {α β : Type} {p : Parser α} {f : α → Parser β} {wire' : List UInt8} {a : α} {b : β}
    (hp : Reads p wire a) (hf : Reads (f a) wire' b) : Reads (p >>= f) (wire ++ wire') b := by
  intro rest
  have h : (p >>= f) (wire ++ (wire' ++ rest)) = p (wire ++ (wire' ++ rest)) >>= fun r => f r.1 r.2 := rfl
  rw [List.append_assoc, h, hp]
  exact hf rest

theorem Reads.last {α β : Type} {p : Parser α} {f : α → Parser β} {a : α} {b : β}
    (hp : Reads p wire a) (hf : Reads (f a) [] b) : Reads (p >>= f) wire b := by
  have h := hp.bind hf
  rwa [List.append_nil] at h

theorem Reads.varint {value : Nat} (h : encode value = some wire) (frameType : Nat) :
    Reads (varint frameType) wire value := by
  intro rest
  unfold FrameParser.varint
  rw [decode_encode h rest, ← length_of_encode h]
  simp

theorem Reads.bytes (frameType : Nat) (data : List UInt8) : Reads (bytes frameType data.length) data data := by
  intro rest
  unfold FrameParser.bytes
  rw [if_neg (by simp)]
  simp

end FrameParser

def Frame.Written : Frame → Prop
  | .stream typ _ offset data fin => typ = streamFrameType offset fin ∧ offset + data.length ≤ maxValue
  | _ => True

namespace FrameParser

variable {wire : List UInt8}

theorem Reads.one {f : Nat → Frame} {v : Nat} (h : encodeAll [v] = some wire)
    (typ : Nat) : Reads (do return f (← FrameParser.varint typ)) (wire ++ []) (f v) := by
  obtain ⟨head, tail, hh, ht, rfl⟩ := encodeAll_cons_eq_some.mp h
  obtain rfl := encodeAll_nil_eq_some.mp ht
  rw [List.append_nil, List.append_nil]
  exact (Reads.varint hh typ).last (Reads.pure _)

theorem Reads.two {f : Nat → Nat → Frame} {x y : Nat} (h : encodeAll [x, y] = some wire)
    (typ : Nat) :
    Reads (do return f (← FrameParser.varint typ) (← FrameParser.varint typ)) (wire ++ []) (f x y) := by
  obtain ⟨head, tail, hh, ht, rfl⟩ := encodeAll_cons_eq_some.mp h
  rw [List.append_assoc]
  exact (Reads.varint hh typ).bind (Reads.one ht typ)

theorem Reads.three {f : Nat → Nat → Nat → Frame} {x y z : Nat}
    (h : encodeAll [x, y, z] = some wire) (typ : Nat) :
    Reads (do return f (← FrameParser.varint typ) (← FrameParser.varint typ) (← FrameParser.varint typ))
      (wire ++ []) (f x y z) := by
  obtain ⟨head, tail, hh, ht, rfl⟩ := encodeAll_cons_eq_some.mp h
  rw [List.append_assoc]
  exact (Reads.varint hh typ).bind (Reads.two ht typ)

variable {data : List UInt8}

theorem Reads.counted {f : List UInt8 → Frame}
    (h : encodeAll [data.length] = some wire) (typ : Nat) :
    Reads (do return f (← FrameParser.bytes typ (← FrameParser.varint typ))) (wire ++ data) (f data) := by
  obtain ⟨head, tail, hh, ht, rfl⟩ := encodeAll_cons_eq_some.mp h
  obtain rfl := encodeAll_nil_eq_some.mp ht
  rw [List.append_nil]
  exact (Reads.varint hh typ).bind ((Reads.bytes typ data).last (Reads.pure _))

theorem data_reads {streamID o : Nat} {fin : Bool}
    (hend : o + data.length ≤ maxValue) (h : encodeAll [data.length] = some wire) :
    Reads (do
      let typ := streamFrameType o fin
      let length ← if typ &&& streamFlagLen ≠ 0 then FrameParser.varint typ else List.length <$> get
      let data ← FrameParser.bytes typ length
      if maxValue < o + data.length then
        throw (protocolError .frameEncodingError typ "stream data beyond the maximum offset")
      return .stream typ streamID o data (typ &&& streamFlagFin ≠ 0))
      (wire ++ data) (appendStreamFrame streamID o data fin) := by
  obtain ⟨head, tail, hh, ht, rfl⟩ := encodeAll_cons_eq_some.mp h
  obtain rfl := encodeAll_nil_eq_some.mp ht
  have hlen : streamFrameType o fin &&& streamFlagLen ≠ 0 := by
    unfold streamFrameType
    split_ifs <;> decide
  have hfin : decide (streamFrameType o fin &&& streamFlagFin ≠ 0) = fin := by
    unfold streamFrameType
    split_ifs with _ hf <;> simp_all
  rw [List.append_nil]
  simp only [if_pos hlen]
  refine (Reads.varint hh _).bind ?_
  refine (Reads.bytes _ data).last ?_
  rw [if_neg (by omega), hfin]
  exact Reads.pure _

theorem streamFrame_reads {streamID o : Nat} {fin : Bool}
    (hend : o + data.length ≤ maxValue)
    (h : encodeAll (Frame.stream 0 streamID o data fin).fields = some wire) :
    Reads (streamFrame (streamFrameType o fin)) (wire ++ data)
      (appendStreamFrame streamID o data fin) := by
  obtain ⟨idWire, wt, hid, ht, rfl⟩ := encodeAll_cons_eq_some.mp h
  rw [List.append_assoc]
  refine (Reads.varint hid _).bind ?_
  -- The flags of the type say whether an offset was written.
  by_cases hoff : 0 < o
  · rw [if_pos hoff] at ht
    obtain ⟨offWire, tail', hoffWire, hlen, rfl⟩ := encodeAll_cons_eq_some.mp ht
    have hf : streamFrameType o fin &&& streamFlagOff ≠ 0 := by
      unfold streamFrameType
      rw [if_pos hoff]
      cases fin <;> decide
    rw [if_pos hf, List.append_assoc]
    exact (Reads.varint hoffWire _).bind (data_reads hend hlen)
  · have hf : ¬ streamFrameType o fin &&& streamFlagOff ≠ 0 := by
      unfold streamFrameType
      rw [if_neg hoff]
      cases fin <;> decide
    rw [if_neg hoff] at ht
    rw [if_neg hf, show wt ++ data = [] ++ (wt ++ data) from rfl]
    obtain rfl : o = 0 := by omega
    exact (Reads.pure 0).bind (data_reads hend ht)

theorem ofType_of_fresh (v : Version) {typ : Nat} (h : FrameType.applicationClose < typ) :
    ofType v typ =
      if typ = v.transportParametersType then
        return .transportParameters (← bytes typ (← varint typ))
      else if typ = v.pingType then return .ping (← varint typ)
      else if typ = v.pingResponseType then return .pingResponse (← varint typ)
      else
        throw (protocolError .frameEncodingError typ s!"frame type 0x{hex typ} is not allowed in QMux") := by
  have hne (n : Nat) (hn : n ≤ FrameType.applicationClose) : typ ≠ n := by omega
  have hs : ¬ (FrameType.stream ≤ typ ∧ typ ≤ FrameType.stream ||| 0x07) := by
    rintro ⟨-, hle⟩
    exact absurd (h.trans_le hle) (by decide)
  have hcl : ¬ (typ = FrameType.connectionClose ∨ typ = FrameType.applicationClose) := by
    rintro (hc | hc) <;> rw [hc] at h <;> exact absurd h (by decide)
  rw [ofType, if_neg (hne 0x00 (by decide)), if_neg hs, if_neg (hne 0x04 (by decide)),
    if_neg (hne 0x05 (by decide)), if_neg (hne 0x10 (by decide)), if_neg (hne 0x14 (by decide)),
    if_neg (hne 0x12 (by decide)), if_neg (hne 0x13 (by decide)), if_neg (hne 0x16 (by decide)),
    if_neg (hne 0x17 (by decide)), if_neg (hne 0x11 (by decide)), if_neg (hne 0x15 (by decide)),
    if_neg hcl]

theorem ofType_reads (v : Version) {f : Frame} (hw : f.Written)
    (h : encodeAll f.fields = some wire) : Reads (ofType v (f.typ v)) (wire ++ f.bytes) f := by
  cases f with
  | padding =>
    obtain rfl := encodeAll_nil_eq_some.mp h
    exact Reads.pure _
  | stream typ streamID o data fin =>
    obtain ⟨rfl, hend⟩ := hw
    have hty : ofType v (streamFrameType o fin) = streamFrame (streamFrameType o fin) := by
      unfold streamFrameType
      split_ifs <;> rfl
    rw [Frame.typ, hty]
    exact streamFrame_reads hend h
  | resetStream => exact Reads.three h _
  | stopSending | maxStreamData | streamDataBlocked => exact Reads.two h _
  | maxData | maxStreamsBidi | maxStreamsUni | dataBlocked | streamsBlockedBidi | streamsBlockedUni =>
    exact Reads.one h _
  | connectionClose ec frameType r =>
    obtain ⟨head, tail, hh, ht, rfl⟩ := encodeAll_cons_eq_some.mp h
    obtain ⟨head', tail', hh', ht', rfl⟩ := encodeAll_cons_eq_some.mp ht
    rw [List.append_assoc, List.append_assoc]
    exact (Reads.varint hh _).bind ((Reads.varint hh' _).bind (Reads.counted ht' _))
  | applicationClose ec r =>
    obtain ⟨head, tail, hh, ht, rfl⟩ := encodeAll_cons_eq_some.mp h
    rw [List.append_assoc]
    exact (Reads.varint hh _).bind (Reads.counted ht _)
  | transportParameters params =>
    rw [Frame.typ, ofType_of_fresh v v.transportParametersType_fresh.1, if_pos rfl]
    exact Reads.counted h _
  | ping se =>
    have hf := v.pingType_fresh
    rw [Frame.typ, ofType_of_fresh v hf.1, if_neg hf.2.2, if_pos rfl]
    exact Reads.one h _
  | pingResponse se =>
    have hf := v.pingResponseType_fresh
    rw [Frame.typ, ofType_of_fresh v hf.1, if_neg hf.2.2.1, if_neg hf.2.2.2, if_pos rfl]
    exact Reads.one h _

theorem next_reads {v : Version} {f : Frame} (hw : f.Written) (h : f.encode v = some wire) : Reads (next v) wire f := by
  simp only [Frame.encode, Option.map_eq_some_iff] at h
  obtain ⟨varints, hv, rfl⟩ := h
  obtain ⟨head, tail, hh, ht, rfl⟩ := encodeAll_cons_eq_some.mp hv
  rw [List.append_assoc]
  exact (Reads.varint hh 0).bind (ofType_reads v hw ht)

/-! ## What is read -/

/-- Whatever `p` reads meets `P`. -/
def Yields {α : Type} (p : Parser α) (P : α → Prop) : Prop := ∀ buf a rest, p buf = .ok (a, rest) → P a

theorem Yields.pure {α : Type} {P : α → Prop} {a : α} (h : P a) : Yields (Pure.pure a) P := by
  intro buf b rest heq
  obtain rfl : a = b := congrArg Prod.fst (Except.ok.inj heq)
  exact h

theorem Yields.throw {α : Type} {P : α → Prop} (e : TransportError) : Yields (throw e : Parser α) P := by
  intro buf b rest heq
  cases heq

theorem Yields.bind {α β : Type} {p : Parser α} {f : α → Parser β} {P : β → Prop}
    (h : ∀ a, Yields (f a) P) : Yields (p >>= f) P := by
  intro buf b rest heq
  have hb : (p >>= f) buf = p buf >>= fun r => f r.1 r.2 := rfl
  rw [hb] at heq
  cases hp : p buf with
  | error e =>
    rw [hp] at heq
    cases heq
  | ok r =>
    rw [hp] at heq
    exact h r.1 r.2 b rest heq

theorem Yields.ite {α : Type} {c : Prop} [Decidable c] {p q : Parser α} {P : α → Prop} (hp : c → Yields p P)
    (hq : ¬ c → Yields q P) : Yields (if c then p else q) P := by
  by_cases h : c
  · rw [if_pos h]
    exact hp h
  · rw [if_neg h]
    exact hq h

theorem streamFrame_yields (v : Version) (typ : Nat) : Yields (streamFrame typ) fun f => f.typ v = typ := by
  refine .bind fun streamID => .ite (fun _ => .bind fun o => ?_) fun _ => .bind fun o => ?_
  -- The rest is the same with an offset and without.
  all_goals
    refine .ite (fun _ => .bind fun l => .bind fun data => ?_) fun _ => .bind fun l => .bind fun data => ?_
    all_goals exact .ite (fun _ => .bind fun _ => .pure rfl) fun _ => .pure rfl

theorem closeFrame_yields (v : Version) {typ : Nat}
    (h : typ = FrameType.connectionClose ∨ typ = FrameType.applicationClose) :
    Yields (closeFrame typ) fun f => f.typ v = typ :=
  .bind fun _ => .ite (fun hc => .bind fun _ => .bind fun _ => .bind fun _ => .pure hc.symm)
    fun hc => .bind fun _ => .bind fun _ => .pure (h.resolve_left hc).symm

theorem ofType_yields (v : Version) (typ : Nat) : Yields (ofType v typ) fun f => f.typ v = typ := by
  unfold ofType
  refine .ite (fun h => .pure h.symm) fun _ => ?_
  refine .ite (fun _ => streamFrame_yields v typ) fun _ => ?_
  refine .ite (fun h => .bind fun _ => .bind fun _ => .bind fun _ => .pure h.symm) fun _ => ?_
  refine .ite (fun h => .bind fun _ => .bind fun _ => .pure h.symm) fun _ => ?_
  -- MAX_DATA, DATA_BLOCKED, MAX_STREAMS and STREAMS_BLOCKED have one field.
  refine .ite (fun h => .bind fun _ => .pure h.symm) fun _ => ?_
  refine .ite (fun h => .bind fun _ => .pure h.symm) fun _ => ?_
  refine .ite (fun h => .bind fun _ => .pure h.symm) fun _ => ?_
  refine .ite (fun h => .bind fun _ => .pure h.symm) fun _ => ?_
  refine .ite (fun h => .bind fun _ => .pure h.symm) fun _ => ?_
  refine .ite (fun h => .bind fun _ => .pure h.symm) fun _ => ?_
  refine .ite (fun h => .bind fun _ => .bind fun _ => .pure h.symm) fun _ => ?_
  refine .ite (fun h => .bind fun _ => .bind fun _ => .pure h.symm) fun _ => ?_
  refine .ite (closeFrame_yields v) fun _ => ?_
  refine .ite (fun h => .bind fun _ => .bind fun _ => .pure h.symm) fun _ => ?_
  refine .ite (fun h => .bind fun _ => .pure h.symm) fun _ => ?_
  exact .ite (fun h => .bind fun _ => .pure h.symm) fun _ => .throw _

theorem next_yields (v : Version) :
    Yields (next v) fun f => f.typ v = v.transportParametersType → ∃ params, f = .transportParameters params := by
  refine .bind fun typ buf f rest heq htyp => ?_
  have hs : typ = v.transportParametersType := (ofType_yields v typ buf f rest heq).symm.trans htyp
  rw [hs, ofType_of_fresh v v.transportParametersType_fresh.1, if_pos rfl] at heq
  have hy : Yields (do return Frame.transportParameters (← bytes v.transportParametersType
      (← varint v.transportParametersType))) fun f => ∃ params, f = .transportParameters params :=
    .bind fun _ => .bind fun params => .pure ⟨params, rfl⟩
  exact hy buf f rest heq

end FrameParser

end TrevRpc.Go.Qmux
