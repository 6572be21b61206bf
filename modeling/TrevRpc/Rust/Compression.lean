import TrevRpc.Lib.Effect
import TrevRpc.Rust.Zstd

/-!
# Compression of messages (`compression.rs` and `compression/stream.rs`)

A message goes as the next chunk of its direction's stream context, or compressed with a dictionary when that makes it
shorter, or as it is.
-/

namespace TrevRpc.Rust

/-- libzstd, with its streaming contexts. A dictionary is passed as its data. -/
structure Libzstd (Enc Dec : Type) where
  compress2 : Int → Option Bytes → Bytes → Option Bytes
  decompress : Option Bytes → Bytes → Nat → Except String Bytes
  encoder : Int → Option Bytes → Option Enc
  encoderCost : Int → Option Bytes → Nat
  compressStream : Enc → Bytes → Bool → Option (Bytes × Enc)
  decoder : Except String Dec
  loadDictionary : Dec → Bytes → Except String Dec
  /-- At most so many bytes of a whole chunk; `none` if it is corrupt. -/
  decompressStream : Dec → Bytes → Nat → Option (Bytes × Dec)

variable {Enc Dec : Type}

/-! ## Dictionaries -/

def dictionaryMagic : Nat := 0xEC30A437

def dictionaryId (data : Bytes) : Option Nat := do
  let (magic, rest) ← Zstd.splitAtChecked data 4
  let (id, _) ← Zstd.splitAtChecked rest 4
  let magic ← Zstd.littleEndian magic
  let id ← Zstd.littleEndian id
  if magic = dictionaryMagic ∧ id ≠ 0 then some id else none

/-- A dictionary, or with ID 0 and no data compression without one. -/
structure Dict where
  id : Nat
  data : Bytes
  level : Int
  valid : id = 0 ∧ data = [] ∨ dictionaryId data = some id

def plainMinSize : Nat := 256

namespace Dict

def isPlain (d : Dict) : Bool := d.id = 0

/-- What the contexts of single messages load. -/
def loaded (d : Dict) : Option Bytes := if d.isPlain then none else some d.data

/-- `none` unless the payload is shorter than the message. -/
def compress (z : Libzstd Enc Dec) (d : Dict) (message : Bytes) : Option Bytes :=
  if d.isPlain && message.length < plainMinSize then none
  else (z.compress2 d.level d.loaded message).filter fun payload => payload.length < message.length

def decompress (z : Libzstd Enc Dec) (d : Dict) (payload : Bytes) (header : Zstd.Header) : Except String Bytes :=
  match z.decompress d.loaded payload header.contentSize with
  | .ok message =>
    if message.length = header.contentSize then .ok message
    else .error "compressed message decompressed to the wrong size"
  | .error name => .error ("compressed message is corrupt: " ++ name)

end Dict

/-- The dictionaries that a receiver accepts. -/
inductive Accept
  | none
  | one (dict : Dict)
  | all (dicts : List Dict)

def Accept.lookup : Accept → Nat → Option Dict
  | .none, _ => Option.none
  | .one dict, id => if dict.id = id then some dict else Option.none
  | .all dicts, id => dicts.find? fun dict => dict.id = id

inductive Rejected
  | tooLarge (len max : Nat)
  | invalid (message : String)

/-- `invalid` is the status of an invalid payload. -/
def Rejected.intoError (invalid : String → Status) : Rejected → Error
  | .tooLarge len max => .frameTooLarge len max
  | .invalid message => .status (invalid message)

def inflate (z : Libzstd Enc Dec) (accept : Accept) (payload : Bytes) (maxSize : Nat) : Except Rejected Bytes := do
  if let .none := accept then throw (.invalid "compressed message where no dictionary is accepted")
  let some header := Zstd.parseHeader payload | throw (.invalid "invalid ZSTD_MESSAGE payload")
  if maxSize < header.contentSize then throw (.tooLarge header.contentSize maxSize)
  let some dict := accept.lookup header.dictId
    | throw (.invalid (if header.dictId = 0 then "compressed message without a dictionary, which is not accepted"
        else "compressed message uses dictionary " ++ toString header.dictId ++ ", which is not accepted"))
  (dict.decompress z payload header).mapError .invalid

/-! ## Stream contexts of senders -/

def frameLimit : Nat := 60 * 1024

structure StreamEncoder (Enc : Type) where
  context : Enc
  inFrame : Nat
  inFrame_lt : inFrame < frameLimit

/-- The payload of a ZSTD_STREAM_MESSAGE: the length of the message, and its chunk. -/
def StreamEncoder.encode (z : Libzstd Enc Dec) (encoder : StreamEncoder Enc) (message : Bytes) :
    Option (Bytes × StreamEncoder Enc) := do
  let size ← Varint.encode message.length
  let inFrame := encoder.inFrame + message.length
  if h : inFrame < frameLimit then
    let (chunk, context) ← z.compressStream encoder.context message false
    return (size ++ chunk, { context, inFrame, inFrame_lt := h })
  else
    let (chunk, context) ← z.compressStream encoder.context message true
    return (size ++ chunk, { context, inFrame := 0, inFrame_lt := by decide })

theorem StreamEncoder.encode_eq_some {z : Libzstd Enc Dec} {e e' : StreamEncoder Enc} {m p : Bytes}
    (h : e.encode z m = some (p, e')) :
    ∃ size chunk last, Varint.encode m.length = some size ∧
      z.compressStream e.context m last = some (chunk, e'.context) ∧ (last = true → m ≠ []) ∧
      p = size ++ chunk := by
  obtain ⟨size, hs, h⟩ := Option.bind_eq_some_iff.mp h
  have hlt := e.inFrame_lt
  simp only at h
  split_ifs at h with hf
  · obtain ⟨⟨chunk, c⟩, hc, h⟩ := Option.bind_eq_some_iff.mp h
    cases h
    exact ⟨size, chunk, false, hs, hc, by simp, rfl⟩
  · obtain ⟨⟨chunk, c⟩, hc, h⟩ := Option.bind_eq_some_iff.mp h
    cases h
    refine ⟨size, chunk, true, hs, hc, fun _ hem => hf ?_, rfl⟩
    simpa [hem] using hlt

inductive SenderState (Enc : Type)
  | waiting
  | active (encoder : StreamEncoder Enc)
  | off

/-- The sender's side. The receiver enables it at any time, and others share the budget. -/
structure StreamSender (Enc : Type) where
  enabled : Bool
  available : Nat
  level : Int
  sent : Nat := 0
  state : SenderState Enc := .waiting

/-- Earlier messages go per message. -/
def firstStreamedMessage : Nat := 3

namespace StreamSender

def start (z : Libzstd Enc Dec) (sender : StreamSender Enc) (dict : Option Dict) : StreamSender Enc :=
  let data := dict.map Dict.data
  let cost := z.encoderCost sender.level data
  if cost ≤ sender.available then
    match z.encoder sender.level data with
    | some context =>
      { sender with
        available := sender.available - cost
        state := .active { context, inFrame := 0, inFrame_lt := by decide } }
    -- The reservation is given back.
    | none => { sender with state := .off }
  else { sender with state := .off }

/-- Starts the context when it is time to. -/
def ready (z : Libzstd Enc Dec) (sender : StreamSender Enc) (dict : Option Dict) : StreamSender Enc :=
  match sender.state with
  | .waiting => if firstStreamedMessage ≤ sender.sent && sender.enabled then sender.start z dict else sender
  | _ => sender

theorem ready_waiting {z : Libzstd Enc Dec} {sender : StreamSender Enc} {dict : Option Dict}
    (h : (sender.ready z dict).state = .waiting) : sender.state = .waiting := by
  unfold ready at h
  split at h
  · assumption
  · exact h

/-- `none` when the message goes per message. -/
def encode (z : Libzstd Enc Dec) (sender : StreamSender Enc) (message : Bytes) (dict : Option Dict) :
    Option Bytes × StreamSender Enc :=
  let sender := { sender with sent := sender.sent + 1 }.ready z dict
  match sender.state with
  | .active encoder =>
    match encoder.encode z message with
    | some (payload, encoder) => (some payload, { sender with state := .active encoder })
    -- The context may have changed without the receiver, so it is not used again.
    | none => (none, { sender with state := .off })
  | _ => (none, sender)

theorem encode_waiting {z : Libzstd Enc Dec} {sender s' : StreamSender Enc} {m : Bytes} {dict : Option Dict}
    {p : Option Bytes} (h : sender.encode z m dict = (p, s')) (hw : s'.state = .waiting) :
    p = none ∧ sender.state = .waiting := by
  simp only [encode] at h
  split at h
  · split at h
    · cases h
      cases hw
    · cases h
      cases hw
  · cases h
    exact ⟨rfl, @ready_waiting _ _ z { sender with sent := sender.sent + 1 } _ hw⟩

end StreamSender

/-! ## Stream contexts of receivers -/

structure Inflater (Dec : Type) where
  accept : Accept
  context : Option Dec := none
  atFrameStart : Bool := true

namespace Inflater

def frameContext (z : Libzstd Enc Dec) (inflater : Inflater Dec) (dictId : Nat) : Except Rejected Dec := do
  let context ← z.decoder.mapError .invalid
  if dictId = 0 then return context
  let some dict := inflater.accept.lookup dictId
    | throw (.invalid ("stream-compressed frame uses dictionary " ++ toString dictId ++ ", which is not accepted"))
  (z.loadDictionary context dict.data).mapError .invalid

def contextFor (z : Libzstd Enc Dec) (inflater : Inflater Dec) (chunk : Zstd.StreamChunk) : Except Rejected Dec :=
  if chunk.startsFrame then inflater.frameContext z chunk.dictId
  else
    match inflater.context with
    | some context => .ok context
    | none => .error (.invalid "invalid ZSTD_STREAM_MESSAGE payload")

def decode (z : Libzstd Enc Dec) (payload : Bytes) (maxSize : Nat) : Effect Rejected (Inflater Dec) Bytes :=
  fun inflater =>
  let invalid := Rejected.invalid "invalid ZSTD_STREAM_MESSAGE payload"
  match Varint.decode payload with
  | none => (.error invalid, inflater)
  | some (len, sizeLen) =>
    if maxSize < len then (.error (.tooLarge len maxSize), inflater)
    else
      let chunk := payload.drop sizeLen
      match Zstd.parseStreamChunk chunk inflater.atFrameStart with
      | none => (.error invalid, inflater)
      | some parsed =>
        if chunk = [] then (if len = 0 then .ok [] else .error invalid, inflater)
        else
          match inflater.contextFor z parsed with
          | .error rejected => (.error rejected, inflater)
          | .ok context =>
            -- One spare byte: a message longer than declared shows as an extra byte.
            match z.decompressStream context chunk (len + 1) with
            | none =>
              (.error (.invalid "ZSTD_STREAM_MESSAGE chunk is corrupt"), { inflater with context := none })
            | some (message, context) =>
              if message.length = len then
                (.ok message, { inflater with context := some context, atFrameStart := parsed.endsFrame })
              else
                (.error (.invalid "ZSTD_STREAM_MESSAGE decompressed to the wrong size"),
                  { inflater with context := none })

end Inflater

/-- Decodes a message frame; `invalid` makes a status of what is wrong. -/
def decodeMessage (z : Libzstd Enc Dec) (accept : Accept) (invalid : String → Status) (frameType : Nat)
    (payload : Bytes) (maxFrameSize : Nat) : Effect Error (Option (Inflater Dec)) Bytes := fun stream =>
  if frameType = FrameType.message then (.ok payload, stream)
  else if frameType = FrameType.zstdMessage then
    ((inflate z accept payload maxFrameSize).mapError (Rejected.intoError invalid), stream)
  else
    match stream with
    | none =>
      (.error (.status (invalid "stream-compressed message where stream compression is not enabled")), none)
    | some inflater =>
      match inflater.decode z payload maxFrameSize with
      | (.error rejected, inflater) => (.error (rejected.intoError invalid), some inflater)
      | (.ok message, inflater) => (.ok message, some inflater)

/-! ## Senders and receivers in step -/

namespace Libzstd

variable (z : Libzstd Enc Dec)

def wire (headers : Metadata → Bytes) (status : Status → Bytes) (answer : RpcAnswer → Bytes) :
    Wire Dict (StreamSender Enc) where
  headers := headers
  status := status
  answer := answer
  isPlain := Dict.isPlain
  compress := Dict.compress z
  streamEncode := StreamSender.encode z

def opened : Option Dict → Except String Dec
  | none => z.decoder
  | some dict => do z.loadDictionary (← z.decoder) dict.data

def Decodes (seed : Option Dict) (dec : Option Dec) (atFrameStart : Bool) (chunk message : Bytes) (context : Dec)
    (parsed : Zstd.StreamChunk) : Prop :=
  Zstd.parseStreamChunk chunk atFrameStart = some parsed ∧
    ∃ before, z.decompressStream before chunk (message.length + 1) = some (message, context) ∧
      if atFrameStart then parsed.dictId = seed.elim 0 Dict.id ∧ z.opened seed = .ok before else dec = some before

/-- libzstd gives back what it was given, to a decoder `inSync`. -/
structure Lossless (inSync : Option Dict → Enc → Option Dec → Bool → Prop) : Prop where
  message : ∀ (d : Dict) {message payload : Bytes}, z.compress2 d.level d.loaded message = some payload →
    Zstd.parseHeader payload = some ⟨d.id, message.length⟩ ∧
      z.decompress d.loaded payload message.length = .ok message
  start : ∀ {level : Int} {seed : Option Dict} {enc : Enc}, z.encoder level (seed.map Dict.data) = some enc →
    ∀ dec, inSync seed enc dec true
  chunk : ∀ {seed : Option Dict} {enc enc' : Enc} {dec : Option Dec} {atFrameStart last : Bool}
    {message chunk : Bytes}, inSync seed enc dec atFrameStart →
    z.compressStream enc message last = some (chunk, enc') → (last = true → message ≠ []) →
    chunk = [] ∧ message = [] ∧ inSync seed enc' dec atFrameStart ∨
      chunk ≠ [] ∧ ∃ context parsed, z.Decodes seed dec atFrameStart chunk message context parsed ∧
        inSync seed enc' (some context) parsed.endsFrame

variable {z} {inSync : Option Dict → Enc → Option Dec → Bool → Prop}

/-- The receiver holds the sender's dictionaries, and has read all of its stream context. -/
structure InStep (z : Libzstd Enc Dec) (inSync : Option Dict → Enc → Option Dec → Bool → Prop)
    (encoder : MessageEncoder Dict (StreamSender Enc)) (accept : Accept) (stream : Option (Inflater Dec)) : Prop where
  dict : ∀ d, encoder.dict = some d → accept.lookup d.id = some d
  waiting : ∀ sender, encoder.stream = some sender → sender.state = .waiting → sender.enabled = true →
    ∃ inflater, stream = some inflater ∧ inflater.atFrameStart = true ∧
      ∀ d, encoder.dict = some d → inflater.accept.lookup d.id = some d
  active : ∀ sender e, encoder.stream = some sender → sender.state = .active e →
    ∃ inflater seed, stream = some inflater ∧ inSync seed e.context inflater.context inflater.atFrameStart ∧
      ∀ d, seed = some d → d.id ≠ 0 ∧ inflater.accept.lookup d.id = some d

variable {body : Bytes}

theorem Lossless.inflate_compress (hz : z.Lossless inSync) {d : Dict} {accept : Accept}
    (haccept : accept.lookup d.id = some d) {payload : Bytes} (h : d.compress z body = some payload)
    {ms : Nat} (hbody : body.length ≤ ms) : inflate z accept payload ms = .ok body := by
  have hp : z.compress2 d.level d.loaded body = some payload := by
    unfold Dict.compress at h
    split_ifs at h
    exact (Option.filter_eq_some_iff.mp h).1
  obtain ⟨hh, hd⟩ := hz.message d hp
  have hs : accept ≠ .none := by
    rintro rfl
    cases haccept
  have hsi : ¬ ms < body.length := by omega
  unfold inflate
  cases accept with
  | none => exact absurd rfl hs
  | one dict | all dicts => simp [hh, hsi, haccept, Dict.decompress, hd, Except.mapError]

variable {maxFrameSize : Nat} {e : MessageEncoder Dict (StreamSender Enc)}

theorem Lossless.decode_plain (hz : z.Lossless inSync)
    (wire : Wire Dict (StreamSender Enc)) (hw : wire.compress = Dict.compress z) {accept : Accept}
    (haccept : ∀ d, e.dict = some d → accept.lookup d.id = some d)
    (hb : body.length ≤ maxFrameSize) (i : String → Status) (stream : Option (Inflater Dec)) :
    decodeMessage z accept i (e.encodePlain wire body).1 (e.encodePlain wire body).2 maxFrameSize
      stream = (.ok body, stream) := by
  unfold MessageEncoder.encodePlain
  split
  · next payload hp =>
    obtain ⟨d, hd, hc⟩ := Option.bind_eq_some_iff.mp hp
    rw [hw] at hc
    have hi := hz.inflate_compress (haccept d hd) hc hb
    simp [decodeMessage, hi, Except.mapError, FrameType.zstdMessage, FrameType.message]
  · simp [decodeMessage]

theorem frameContext_of_opened {seed : Option Dict} {i : Inflater Dec} {context : Dec}
    (hop : z.opened seed = .ok context)
    (hs : ∀ d, seed = some d → d.id ≠ 0 ∧ i.accept.lookup d.id = some d) :
    i.frameContext z (seed.elim 0 Dict.id) = .ok context := by
  unfold Inflater.frameContext
  cases seed with
  | none =>
    have hdec : z.decoder = .ok context := hop
    simp [hdec, Except.mapError]
  | some d =>
    obtain ⟨hid, hl⟩ := hs d rfl
    simp only [opened] at hop
    cases hdec : z.decoder with
    | error name =>
      rw [hdec] at hop
      cases hop
    | ok f =>
      rw [hdec] at hop
      have hlo : z.loadDictionary f d.data = .ok context := hop
      simp [hid, hl, hlo, Except.mapError, bind, Except.bind]

theorem Lossless.decode_stream (hz : z.Lossless inSync) {e e' : StreamEncoder Enc} {m p : Bytes}
    (h : e.encode z m = some (p, e')) {seed : Option Dict} {i : Inflater Dec}
    (hs : inSync seed e.context i.context i.atFrameStart)
    (hseed : ∀ d, seed = some d → d.id ≠ 0 ∧ i.accept.lookup d.id = some d) {ms : Nat}
    (hsize : m.length ≤ ms) :
    ∃ i', i.decode z p ms = (.ok m, i') ∧
      i'.accept = i.accept ∧ inSync seed e'.context i'.context i'.atFrameStart := by
  obtain ⟨size, chunk, last, hen, hch, hla, rfl⟩ := StreamEncoder.encode_eq_some h
  have hd := Varint.decode_encode hen chunk
  have hdr : (size ++ chunk).drop (Varint.encodedLen m.length) = chunk := by
    rw [← Varint.length_of_encode hen, List.drop_left]
  have hl : ¬ ms < m.length := by omega
  simp only [Inflater.decode, hd, hdr, if_neg hl]
  rcases hz.chunk hs hch hla with ⟨rfl, rfl, hs'⟩ | ⟨hne, context, pa, ⟨hp, before, hm, ho⟩, hs'⟩
  · exact ⟨i, rfl, rfl, hs'⟩
  · have hc : i.contextFor z pa = .ok before := by
      unfold Inflater.contextFor
      rw [Zstd.parseStreamChunk_startsFrame hp hne]
      split_ifs at ho ⊢
      · rw [ho.1]
        exact frameContext_of_opened ho.2 hseed
      · rw [ho]
    simp only [hp, if_neg hne, hc, hm, if_true]
    exact ⟨_, rfl, rfl, hs'⟩

variable {dict : Option Dict} {sender : StreamSender Enc} {accept : Accept} {stream : Option (Inflater Dec)}

theorem InStep.off (hs : InStep z inSync ⟨dict, some sender⟩ accept stream) {s' : StreamSender Enc}
    (hoff : s'.state = .off) : InStep z inSync ⟨dict, some s'⟩ accept stream where
  dict := hs.dict
  waiting := by
    rintro _ ⟨⟩ hst
    rw [hoff] at hst
    cases hst
  active := by
    rintro _ e ⟨⟩ hst
    rw [hoff] at hst
    cases hst

theorem InStep.start (hz : z.Lossless inSync) (hs : InStep z inSync ⟨dict, some sender⟩ accept stream)
    (hw : sender.state = .waiting) (henabled : sender.enabled = true) :
    InStep z inSync ⟨dict, some (sender.start z (dict.filter fun d => !d.isPlain))⟩ accept stream := by
  obtain ⟨i, hi, hf, hac⟩ := hs.waiting sender rfl hw henabled
  unfold StreamSender.start
  simp only
  split_ifs
  · split
    · next context hc =>
      refine ⟨hs.dict, ?_, ?_⟩
      · rintro _ ⟨⟩ hst
        cases hst
      · rintro _ e ⟨⟩ hst
        cases hst
        refine ⟨i, _, hi, hf ▸ hz.start hc i.context, ?_⟩
        intro d hd
        obtain ⟨hdi, hp⟩ := Option.filter_eq_some_iff.mp hd
        exact ⟨by simpa [Dict.isPlain] using hp, hac d hdi⟩
    · exact hs.off rfl
  · exact hs.off rfl

theorem InStep.ready (hz : z.Lossless inSync) (hs : InStep z inSync ⟨dict, some sender⟩ accept stream) :
    InStep z inSync ⟨dict, some (sender.ready z (dict.filter fun d => !d.isPlain))⟩ accept stream := by
  unfold StreamSender.ready
  split
  · next hw =>
    split_ifs with hstart
    · exact hs.start hz hw (by simp_all)
    · exact hs
  · exact hs

theorem InStep.sent (hs : InStep z inSync ⟨dict, some sender⟩ accept stream) (n : Nat) :
    InStep z inSync ⟨dict, some { sender with sent := n }⟩ accept stream where
  dict := hs.dict
  waiting := by
    rintro _ ⟨⟩
    exact hs.waiting sender rfl
  active := by
    rintro _ e ⟨⟩
    exact hs.active sender e rfl

theorem InStep.streamEncode (hz : z.Lossless inSync) (hs : InStep z inSync ⟨dict, some sender⟩ accept stream)
    (hb : body.length ≤ maxFrameSize) (i : String → Status)
    {payload : Option Bytes} {sender' : StreamSender Enc}
    (h : sender.encode z body (dict.filter fun d => !d.isPlain) = (payload, sender')) :
    ∃ s', InStep z inSync ⟨dict, some sender'⟩ accept s' ∧ (payload = none → s' = stream) ∧
      ∀ p, payload = some p →
        decodeMessage z accept i FrameType.zstdStreamMessage p maxFrameSize stream = (.ok body, s') := by
  have hr := (hs.sent (sender.sent + 1)).ready hz
  unfold StreamSender.encode at h
  simp only at h
  generalize ({ sender with sent := sender.sent + 1 } : StreamSender Enc).ready z (dict.filter fun d => !d.isPlain) =
    sender₁ at h hr
  split at h
  · next e he =>
    obtain ⟨inflater, seed, rfl, hsy, hse⟩ := hr.active sender₁ e rfl he
    split at h
    · next payload e' hen =>
      cases h
      obtain ⟨i', hd, hac, hs'⟩ := hz.decode_stream hen hsy hse hb
      refine ⟨some i', ⟨hr.dict, ?_, ?_⟩, by simp, ?_⟩
      · rintro _ ⟨⟩ hst
        cases hst
      · rintro _ _ ⟨⟩ hst
        cases hst
        exact ⟨i', seed, rfl, hs', hac ▸ hse⟩
      · rintro p ⟨⟩
        simp [decodeMessage, hd, FrameType.zstdStreamMessage, FrameType.message, FrameType.zstdMessage]
    · cases h
      exact ⟨_, hr.off rfl, fun _ => rfl, by simp⟩
  · cases h
    exact ⟨_, hr, fun _ => rfl, by simp⟩

/-- What a sender in step encodes, its receiver decodes, and they stay in step. -/
theorem InStep.encode (hz : z.Lossless inSync) {headers : Metadata → Bytes} {status : Status → Bytes}
    {a : RpcAnswer → Bytes}
    (hs : InStep z inSync e accept stream)
    (hb : body.length ≤ maxFrameSize) (i : String → Status) :
    ∃ s', decodeMessage z accept i (e.encode (z.wire headers status a) body).1.1
        (e.encode (z.wire headers status a) body).1.2 maxFrameSize stream = (.ok body, s') ∧
      InStep z inSync (e.encode (z.wire headers status a) body).2 accept s' ∧
      ∀ se', (e.encode (z.wire headers status a) body).2.stream = some se' →
        se'.state = .waiting → s' = stream ∧ ∃ sender, e.stream = some sender ∧ sender.state = .waiting := by
  have hp := hz.decode_plain (z.wire headers status a) rfl hs.dict hb i stream
  obtain ⟨dict, sender⟩ := e
  unfold MessageEncoder.encode
  cases sender with
  | none => exact ⟨stream, hp, hs, by simp⟩
  | some sender =>
    rcases hen : sender.encode z body (dict.filter fun d => !d.isPlain) with ⟨p, se'⟩
    have hwi : (z.wire headers status a).streamEncode sender body
        (dict.filter fun d => !(z.wire headers status a).isPlain d) = (p, se') := hen
    obtain ⟨s', hs', hsa, hd⟩ := hs.streamEncode hz hb i hen
    have hw (h : se'.state = .waiting) : p = none ∧ sender.state = .waiting :=
      StreamSender.encode_waiting hen h
    simp only [hwi]
    cases p with
    | some p =>
      refine ⟨s', hd p rfl, hs', ?_⟩
      rintro _ ⟨⟩ hwa
      cases (hw hwa).1
    | none =>
      obtain rfl := hsa rfl
      refine ⟨s', hp, hs', ?_⟩
      rintro _ ⟨⟩ hwa
      exact ⟨rfl, sender, rfl, (hw hwa).2⟩

end Libzstd

end TrevRpc.Rust
