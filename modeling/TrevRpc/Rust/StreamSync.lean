import TrevRpc.Rust.Delivery
import TrevRpc.Zstd.Format

/-! # Stream compression stays in sync -/

namespace TrevRpc.Rust

variable {Enc Dec : Type}

/-! ## What is assumed of libzstd -/

namespace Libzstd

section

variable (z : Libzstd Enc Dec)

/-- An encoder from `seed`, and the chunks of its open frame with their messages. -/
inductive Wrote (seed : Option Dict) : Enc → List (Bytes × Bytes) → Prop
  | start {level : Int} {enc : Enc} : z.encoder level (seed.map Dict.data) = some enc → Wrote seed enc []
  | empty {enc enc' : Enc} {frame : List (Bytes × Bytes)} : Wrote seed enc frame →
      z.compressStream enc [] false = some ([], enc') → Wrote seed enc' frame
  | flush {enc enc' : Enc} {frame : List (Bytes × Bytes)} {message chunk : Bytes} : Wrote seed enc frame →
      z.compressStream enc message false = some (chunk, enc') → chunk ≠ [] →
        Wrote seed enc' (frame ++ [(chunk, message)])
  | last {enc enc' : Enc} {frame : List (Bytes × Bytes)} {message chunk : Bytes} : Wrote seed enc frame →
      z.compressStream enc message true = some (chunk, enc') → message ≠ [] → Wrote seed enc' []

def readAll : Dec → List (Bytes × Bytes) → Option Dec
  | dec, [] => some dec
  | dec, (chunk, message) :: rest =>
    match z.decompressStream dec chunk (message.length + 1) with
    | some (read, dec) => if read = message then readAll dec rest else none
    | none => none

/-- A chunk is whole blocks of a frame, after its header if it is the first, and the frame decodes. -/
structure Ideal : Prop where
  message : ∀ (d : Dict) {message payload : Bytes}, z.compress2 d.level d.loaded message = some payload →
    (∃ frame : Zstd.Format.Frame, payload = frame.bytes ∧ frame.dictId = d.id ∧ frame.contentSize = message.length) ∧
      z.decompress d.loaded payload message.length = .ok message
  chunk : ∀ {seed : Option Dict} {enc enc' : Enc} {frame : List (Bytes × Bytes)} {last : Bool} {message chunk : Bytes},
    z.Wrote seed enc frame → z.compressStream enc message last = some (chunk, enc') → (last = true → message ≠ []) →
    chunk = [] ∧ message = [] ∨
      (∃ c : Zstd.Format.Chunk, chunk = c.bytes ∧ Zstd.Format.ends c.blocks = last ∧
        c.header.map Zstd.Format.StreamHeader.dictId = if frame = [] then some (seed.elim 0 Dict.id) else none) ∧
      ∃ fresh dec, z.opened seed = .ok fresh ∧ z.readAll fresh (frame ++ [(chunk, message)]) = some dec

def InSync (seed : Option Dict) (enc : Enc) (dec : Option Dec) (atFrameStart : Bool) : Prop :=
  ∃ frame, z.Wrote seed enc frame ∧ atFrameStart = frame.isEmpty ∧
    (frame ≠ [] → ∃ fresh context, z.opened seed = .ok fresh ∧ z.readAll fresh frame = some context ∧
      dec = some context)

end

variable {z : Libzstd Enc Dec}

theorem readAll_concat {dec dec' : Dec} {f : List (Bytes × Bytes)} {c m : Bytes}
    (h : z.readAll dec (f ++ [(c, m)]) = some dec') :
    ∃ b, z.readAll dec f = some b ∧
      z.decompressStream b c (m.length + 1) = some (m, dec') := by
  induction f generalizing dec with
  | nil =>
    simp only [List.nil_append, readAll] at h
    split at h
    · split_ifs at h with hr
      cases h
      subst hr
      exact ⟨dec, rfl, by assumption⟩
    · cases h
  | cons head f ih =>
    simp only [List.cons_append, readAll] at h ⊢
    split at h
    · split_ifs at h with hr
      obtain ⟨b, hbef, hl⟩ := ih h
      exact ⟨b, by simp [*], hl⟩
    · cases h

theorem Ideal.lossless (hz : z.Ideal) : z.Lossless z.InSync where
  message := by
    intro d message payload hp
    obtain ⟨⟨fr, rfl, hid, hsi⟩, hd⟩ := hz.message d hp
    exact ⟨by rw [fr.parse_bytes, hid, hsi], hd⟩
  start := by
    intro level seed enc henc dec
    exact ⟨[], .start henc, rfl, by simp⟩
  chunk := by
    rintro seed enc enc' dec atFrameStart last message chunk ⟨fr, hw, rfl, hr⟩ hch hl
    rcases hz.chunk hw hch hl with ⟨rfl, rfl⟩ | ⟨⟨c, rfl, hen, hh⟩, fre, co, hf, hall⟩
    · cases last with
      | true => exact absurd rfl (hl rfl)
      | false => exact .inl ⟨rfl, rfl, fr, hw.empty hch, rfl, hr⟩
    · obtain ⟨b, hbef, hm⟩ := readAll_concat hall
      have hs : c.header.isSome = fr.isEmpty := by
        rw [← Option.isSome_map (f := Zstd.Format.StreamHeader.dictId), hh]
        cases fr <;> rfl
      refine .inr ⟨c.bytes_ne_nil, co, _, ⟨hs ▸ c.parse_bytes, b, hm, ?_⟩, ?_⟩
      · cases fr with
        | nil =>
          cases hbef
          cases hc : c.header with
          | none => simp [hc] at hh
          | some header => exact ⟨by simpa [hc] using hh, hf⟩
        | cons head fr =>
          obtain ⟨fresh', context', hf', hfr, rfl⟩ := hr (by simp)
          rw [hf] at hf'
          cases hf'
          rw [hbef] at hfr
          cases hfr
          rfl
      · cases last with
        | true => exact ⟨[], hw.last hch (hl rfl), by simp [hen], by simp⟩
        | false =>
          refine ⟨_, hw.flush hch c.bytes_ne_nil, by simp [hen], fun _ => ⟨fre, co, hf, hall, rfl⟩⟩

end Libzstd

/-! ## A direction -/

/-- A message, whether its receiver has enabled streams, the budget, an encoder if libzstd has one, and a dictionary. -/
structure Turn where
  message : Bytes
  enabled : Bool
  available : Nat
  creates : Bool
  dict : Option Dict

namespace Turn

def codec (z : Libzstd Enc Dec) (t : Turn) : Libzstd Enc Dec :=
  if t.creates then z else { z with encoder := fun _ _ => none }

def prepare (t : Turn) (encoder : MessageEncoder Dict (StreamSender Enc)) : MessageEncoder Dict (StreamSender Enc) where
  dict := t.dict
  stream := encoder.stream.map fun sender =>
    { sender with enabled := sender.enabled || t.enabled, available := t.available }

end Turn

section

variable (z : Libzstd Enc Dec) (headers : Metadata → Bytes) (status : Status → Bytes) (answer : RpcAnswer → Bytes)

/-- The frames of the messages. -/
def sendAll : MessageEncoder Dict (StreamSender Enc) → List Turn → List (Nat × Bytes)
  | _, [] => []
  | encoder, t :: turns =>
    let (frame, encoder) := (t.prepare encoder).encode ((t.codec z).wire headers status answer) t.message
    frame :: sendAll encoder turns

/-- What a receiver makes of the frames. -/
def receiveAll (accept : Accept) (invalid : String → Status) (maxFrameSize : Nat) :
    Option (Inflater Dec) → List (Nat × Bytes) → List (Except Error Bytes)
  | _, [] => []
  | stream, (frameType, payload) :: frames =>
    let (result, stream) := decodeMessage z accept invalid frameType payload maxFrameSize stream
    result :: receiveAll accept invalid maxFrameSize stream frames

end

structure Synced (z : Libzstd Enc Dec) (accept : Accept) (encoder : MessageEncoder Dict (StreamSender Enc))
    (stream : Option (Inflater Dec)) : Prop where
  waiting : ∀ sender, encoder.stream = some sender → sender.state = .waiting →
    ∃ inflater, stream = some inflater ∧ inflater.atFrameStart = true ∧ inflater.accept = accept
  active : ∀ sender e, encoder.stream = some sender → sender.state = .active e →
    ∃ inflater seed, stream = some inflater ∧ z.InSync seed e.context inflater.context inflater.atFrameStart ∧
      ∀ d, seed = some d → d.id ≠ 0 ∧ inflater.accept.lookup d.id = some d

section

variable {z : Libzstd Enc Dec} {accept : Accept} {encoder : MessageEncoder Dict (StreamSender Enc)}
  {stream : Option (Inflater Dec)} {t : Turn}

theorem Turn.codec_lossless (hz : z.Ideal) (t : Turn) : (t.codec z).Lossless z.InSync := by
  have h := hz.lossless
  unfold Turn.codec
  split_ifs
  · exact h
  · exact ⟨h.message, by simp, h.chunk⟩

theorem Turn.decode_codec (t : Turn) (accept : Accept) (i : String → Status) (frameType : Nat) (p : Bytes)
    (maxFrameSize : Nat) (stream : Option (Inflater Dec)) :
    decodeMessage (t.codec z) accept i frameType p maxFrameSize stream =
      decodeMessage z accept i frameType p maxFrameSize stream := by
  unfold Turn.codec
  split_ifs <;> rfl

theorem Synced.inStep (h : Synced z accept encoder stream) (hd : ∀ d ∈ t.dict, accept.lookup d.id = some d) :
    (t.codec z).InStep z.InSync (t.prepare encoder) accept stream where
  dict := hd
  waiting := by
    intro se hs hw _
    obtain ⟨b, hbef, rfl⟩ := Option.map_eq_some_iff.mp hs
    obtain ⟨i, hi, hst, rfl⟩ := h.waiting b hbef hw
    exact ⟨i, hi, hst, hd⟩
  active := by
    intro se e hs ha
    obtain ⟨b, hbef, rfl⟩ := Option.map_eq_some_iff.mp hs
    exact h.active b e hbef ha

variable (headers : Metadata → Bytes) (status : Status → Bytes) (answer : RpcAnswer → Bytes)

theorem Synced.encode (hz : z.Ideal) (h : Synced z accept encoder stream)
    (hd : ∀ d ∈ t.dict, accept.lookup d.id = some d) {maxFrameSize : Nat} (hsize : t.message.length ≤ maxFrameSize)
    (i : String → Status) :
    ∃ stream', decodeMessage z accept i
        ((t.prepare encoder).encode ((t.codec z).wire headers status answer) t.message).1.1
        ((t.prepare encoder).encode ((t.codec z).wire headers status answer) t.message).1.2 maxFrameSize stream =
          (.ok t.message, stream') ∧
      Synced z accept ((t.prepare encoder).encode ((t.codec z).wire headers status answer) t.message).2 stream' := by
  obtain ⟨stream', hdec, hs, hwa⟩ : ∃ stream', decodeMessage (t.codec z) accept i
      ((t.prepare encoder).encode ((t.codec z).wire headers status answer) t.message).1.1 _ _ _ = (_, stream') ∧ _ ∧
        _ :=
    (h.inStep hd).encode (t.codec_lossless hz) hsize i
  rw [Turn.decode_codec] at hdec
  refine ⟨stream', hdec, ?_, hs.active⟩
  intro s' hs' hw'
  obtain ⟨rfl, sender, hse, hw⟩ := hwa s' hs' hw'
  obtain ⟨b, hbef, rfl⟩ := Option.map_eq_some_iff.mp hse
  exact h.waiting b hbef hw

theorem Synced.receiveAll (hz : z.Ideal) {ts : List Turn} (h : Synced z accept encoder stream)
    (hd : ∀ t ∈ ts, ∀ d ∈ t.dict, accept.lookup d.id = some d) {maxFrameSize : Nat}
    (hsize : ∀ t ∈ ts, t.message.length ≤ maxFrameSize) (i : String → Status) :
    Rust.receiveAll z accept i maxFrameSize stream (sendAll z headers status answer encoder ts) =
      ts.map fun t => .ok t.message := by
  induction ts generalizing encoder stream with
  | nil => rfl
  | cons t ts ih =>
    obtain ⟨stream', hdec, hs⟩ :=
      h.encode headers status answer hz (hd t (by simp)) (hsize t (by simp)) i
    simp only [sendAll, Rust.receiveAll, hdec, List.map_cons, List.cons.injEq, true_and]
    exact ih hs (fun t ht => hd t (by simp [ht])) (fun t ht => hsize t (by simp [ht]))

/-- Whenever streams are enabled, and whatever the budget and the dictionaries, messages are read in order. -/
theorem messages_read_in_order (hz : z.Ideal) {sender : Option (StreamSender Enc)}
    (hsender : ∀ s ∈ sender, s.state = .waiting) {turns : List Turn}
    (hdict : ∀ t ∈ turns, ∀ d ∈ t.dict, accept.lookup d.id = some d) {maxFrameSize : Nat}
    (hsize : ∀ t ∈ turns, t.message.length ≤ maxFrameSize) (invalid : String → Status) :
    Rust.receiveAll z accept invalid maxFrameSize (some { accept })
        (sendAll z headers status answer { stream := sender } turns) =
      turns.map fun t => .ok t.message := by
  have h : Synced z accept { stream := sender } (some { accept }) := by
    refine ⟨fun _ _ _ => ⟨_, rfl, rfl, rfl⟩, fun s e hs hactive => ?_⟩
    rw [hsender s hs] at hactive
    cases hactive
  exact h.receiveAll headers status answer hz hdict hsize invalid

end

/-! ## A codec that stores -/

theorem Libzstd.readAll_append {z : Libzstd Enc Dec} (dec : Dec) (xs ys : List (Bytes × Bytes)) :
    z.readAll dec (xs ++ ys) = (z.readAll dec xs).bind fun dec => z.readAll dec ys := by
  induction xs generalizing dec with
  | nil => rfl
  | cons x xs ih =>
    simp only [List.cons_append, readAll]
    split
    · split_ifs
      · exact ih _
      · rfl
    · rfl

def storedBlock (message : Bytes) (last : Bool) (hlen : message.length < 32) : Zstd.Format.Block :=
  ⟨.raw, message.length, last, message, by omega, rfl⟩

theorem storedBlock_bytes {message : Bytes} (hlen : message.length < 32) (last : Bool) :
    (storedBlock message last hlen).bytes = rawBlock message.length last :: 0 :: 0 :: message := by
  have hh : (storedBlock message last hlen).header = message.length * 8 + last.toNat := by
    simp only [storedBlock, Zstd.Format.Block.header, Zstd.Format.BlockType.code]
    omega
  have hlast := last.toNat_le
  have hb : (message.length * 8 + last.toNat) % 256 = message.length * 8 + last.toNat := by omega
  have hz : (message.length * 8 + last.toNat) / 256 = 0 := by omega
  simp only [Zstd.Format.Block.bytes, hh, LittleEndian.bytes, hb, hz, rawBlock]
  rfl

theorem noFlag : 0 < 4 := by decide

def storedChunk (isOpen : Bool) (message : Bytes) (last : Bool) (hlen : message.length < 32) : Zstd.Format.Chunk where
  header := if isOpen then none else some ⟨⟨0, noFlag⟩, 0x30, 0, by decide, by decide⟩
  blocks := [storedBlock message last hlen]
  inFrame := by simp [Zstd.Format.InFrame]
  nonempty := .inr (by simp)

theorem stored_chunk_eq {io io' last : Bool} {m c : Bytes}
    (h : stored.compressStream io m last = some (c, io')) :
    m = [] ∧ c = [] ∧ io' = io ∨
      ∃ hlen : m.length < 32, c = (storedChunk io m last hlen).bytes ∧ io' = !last ∧
        stored.decompressStream io c (m.length + 1) = some (m, true) := by
  simp only [stored] at h
  split_ifs at h with hem hs ho
  · cases h
    exact .inl ⟨hem, rfl, rfl⟩
  · cases h
    refine .inr ⟨hs, ?_, rfl, ?_⟩
    · simp [storedChunk, Zstd.Format.Chunk.bytes, ho, storedBlock_bytes]
    · simp [stored, ho]
  · cases h
    refine .inr ⟨hs, ?_, rfl, ?_⟩
    · simp [storedChunk, Zstd.Format.Chunk.bytes, Zstd.Format.StreamHeader.bytes, ho, storedBlock_bytes,
        Zstd.Format.dictIdLen, LittleEndian.bytes]
    · simp [stored, ho]

theorem stored_wrote {seed : Option Dict} {enc : Bool} {f : List (Bytes × Bytes)} (h : stored.Wrote seed enc f) :
    seed = none ∧ enc = !f.isEmpty ∧ stored.readAll false f = some (!f.isEmpty) := by
  induction h with
  | start henc =>
    cases seed with
    | none =>
      cases henc
      exact ⟨rfl, rfl, rfl⟩
    | some d => cases henc
  | empty _ hc ih =>
    cases hc
    exact ih
  | flush _ hc hne ih =>
    obtain ⟨hs, rfl, hr⟩ := ih
    rcases stored_chunk_eq hc with ⟨-, hnil, -⟩ | ⟨hlen, -, rfl, hdec⟩
    · exact absurd hnil hne
    · refine ⟨hs, by simp, ?_⟩
      rw [Libzstd.readAll_append, hr, Option.bind_some, Libzstd.readAll, hdec]
      simp [Libzstd.readAll]
  | last _ hc hne ih =>
    obtain ⟨hs, -, -⟩ := ih
    rcases stored_chunk_eq hc with ⟨hnil, -, -⟩ | ⟨-, -, rfl, -⟩
    · exact absurd hnil hne
    · exact ⟨hs, rfl, rfl⟩

theorem stored_ideal : stored.Ideal where
  message := by
    rintro d message payload ⟨⟩
  chunk := by
    intro seed enc enc' f last message chunk hw hc hlast
    obtain ⟨rfl, rfl, hr⟩ := stored_wrote hw
    rcases stored_chunk_eq hc with ⟨hnil, hem, -⟩ | ⟨hlen, hb, -, hdec⟩
    · exact .inl ⟨hem, hnil⟩
    · refine .inr ⟨⟨_, hb, by simp [storedChunk, storedBlock, Zstd.Format.ends], ?_⟩, false, true, rfl, ?_⟩
      · cases f <;> rfl
      · rw [Libzstd.readAll_append, hr, Option.bind_some, Libzstd.readAll, hdec]
        simp [Libzstd.readAll]

def enabledSecond : List Turn :=
  [⟨[1], false, 0, true, none⟩, ⟨[2], true, 0, true, none⟩, ⟨[3], true, 1, true, none⟩, ⟨[4], true, 1, true, none⟩]

theorem messages_read_in_order_stored :
    (sendAll stored (fun _ => []) (fun _ => []) (fun _ => [])
        { stream := some { enabled := false, available := 0, level := 1 } } enabledSecond).map Prod.fst =
      [FrameType.message, FrameType.message, FrameType.zstdStreamMessage, FrameType.zstdStreamMessage] ∧
    receiveAll stored .none .internal 16 (some { accept := .none })
        (sendAll stored (fun _ => []) (fun _ => []) (fun _ => [])
          { stream := some { enabled := false, available := 0, level := 1 } } enabledSecond) =
      [.ok [1], .ok [2], .ok [3], .ok [4]] := by
  refine ⟨rfl, ?_⟩
  exact messages_read_in_order _ _ _ stored_ideal (by rintro _ ⟨⟩; rfl) (by simp [enabledSecond])
    (by simp [enabledSecond]) .internal

end TrevRpc.Rust
