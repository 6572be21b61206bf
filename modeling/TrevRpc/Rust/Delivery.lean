import TrevRpc.Rust.Receiving

/-! # Messages within the limit -/

open TrevRpc.Effect

namespace TrevRpc.Rust

section Delivery

variable {Enc Dec : Type} {z : Libzstd Enc Dec} {inSync : Option Dict → Enc → Option Dec → Bool → Prop}
  {headers : Metadata → Bytes} {status : Status → Bytes} {answer : RpcAnswer → Bytes}
  {encoder : MessageEncoder Dict (StreamSender Enc)} {accept : Accept} {stream : Option (Inflater Dec)}

def RequestReads (z : Libzstd Enc Dec) (maxFrameSize : Nat) (accept : Accept) (stream : Option (Inflater Dec))
    (bytes body : Bytes) : Prop :=
  ∀ {ρ σ : Type} [FrameRead ρ] (onSkipped : σ → Nat → Except Error σ) (skipped : σ) (r : ρ) (rest : Bytes)
    (fault : Option Error), unread r = ⟨bytes ++ rest, fault⟩ →
    ∃ stream' r', readRequestFrame z maxFrameSize accept onSkipped skipped stream r =
      (.ok (some body, skipped), stream', r') ∧ unread r' = ⟨rest, fault⟩

def ResponseReads (z : Libzstd Enc Dec) (maxFrameSize : Nat) (accept : Accept) (stream : Option (Inflater Dec))
    (bytes body : Bytes) : Prop :=
  ∀ {ρ : Type} [FrameRead ρ] (payloads : Payloads) (reading : ResponseReading Dec) (r : ρ) (rest : Bytes)
    (fault : Option Error), reading.accept = accept → reading.stream = stream → reading.MayStart false →
    unread r = ⟨bytes ++ rest, fault⟩ →
    ∃ reading' r', readResponseFrame payloads z maxFrameSize reading r =
      (.ok (some (.message body)), reading', r') ∧ unread r' = ⟨rest, fault⟩

/-- The context that compresses the next message of the direction, if one runs. -/
def MessageEncoder.running (z : Libzstd Enc Dec) (encoder : MessageEncoder Dict (StreamSender Enc)) :
    Option (StreamEncoder Enc) :=
  encoder.stream.bind fun sender =>
    match ({ sender with sent := sender.sent + 1 }.ready z (encoder.dict.filter fun dict => !dict.isPlain)).state with
    | .active context => some context
    | _ => none

/-- The chunk that libzstd makes of the message, behind the length of the message, is within the limit. -/
def ChunkFits (z : Libzstd Enc Dec) (maxFrameSize : Nat) (encoder : MessageEncoder Dict (StreamSender Enc))
    (body : Bytes) : Prop :=
  ∀ e ∈ encoder.running z, ∀ chunk context,
    z.compressStream e.context body (frameLimit ≤ e.inFrame + body.length) = some (chunk, context) →
      Fits maxFrameSize ((varintBytes body.length).length + chunk.length)

theorem encodePlain_length_le (body : Bytes) :
    (encoder.encodePlain (z.wire headers status answer) body).2.length ≤ body.length := by
  unfold MessageEncoder.encodePlain
  split
  · next compressed hco =>
    obtain ⟨d, -, hc⟩ := Option.bind_eq_some_iff.mp hco
    simp only [Libzstd.wire, Dict.compress] at hc
    split_ifs at hc
    have hs := (Option.filter_eq_some_iff.mp hc).2
    simp only [decide_eq_true_eq] at hs
    exact hs.le
  · exact le_rfl

theorem StreamEncoder.encode_eq (e : StreamEncoder Enc) {body : Bytes} (hlen : body.length ≤ Varint.maxValue) :
    (e.encode z body).map Prod.fst =
      (z.compressStream e.context body (frameLimit ≤ e.inFrame + body.length)).map fun c =>
        varintBytes body.length ++ c.1 := by
  obtain ⟨size, hsize⟩ := Option.isSome_iff_exists.mp ((Varint.encode_isSome_iff body.length).mpr hlen)
  have hb : varintBytes body.length = size := by simp [varintBytes, hsize]
  rw [hb]
  unfold StreamEncoder.encode
  simp only [hsize, Option.bind_eq_bind, Option.bind_some]
  split_ifs with hf
  · rw [decide_eq_false (Nat.not_le.mpr hf)]
    cases z.compressStream e.context body false <;> rfl
  · rw [decide_eq_true (Nat.not_lt.mp hf)]
    cases z.compressStream e.context body true <;> rfl

theorem encode_running (body : Bytes) :
    (encoder.encode (z.wire headers status answer) body).1 =
      (((encoder.running z).bind (StreamEncoder.encode z · body)).map fun p => (FrameType.zstdStreamMessage, p.1)).getD
        (encoder.encodePlain (z.wire headers status answer) body) := by
  obtain ⟨dict, _ | sender⟩ := encoder
  · rfl
  simp only [MessageEncoder.encode, MessageEncoder.running, Libzstd.wire, StreamSender.encode, Option.bind_some]
  generalize ({ sender with sent := sender.sent + 1 } : StreamSender Enc).ready z _ = ready
  cases hstate : ready.state with
  | active e =>
    simp only [Option.bind_some]
    cases e.encode z body <;> rfl
  | waiting => rfl
  | off => rfl

/-- Only a stream context makes a message longer. -/
theorem fits_encode_iff {maxFrameSize : Nat} {body : Bytes} (hbody : body.length ≤ maxFrameSize)
    (hlen : body.length ≤ Varint.maxValue) :
    Fits maxFrameSize (encoder.encode (z.wire headers status answer) body).1.2.length ↔
      ChunkFits z maxFrameSize encoder body := by
  have hplain : Fits maxFrameSize (encoder.encodePlain (z.wire headers status answer) body).2.length :=
    ⟨(encodePlain_length_le body).trans hbody, (encodePlain_length_le body).trans hlen⟩
  rw [encode_running]
  unfold ChunkFits
  cases encoder.running z with
  | none => simpa using hplain
  | some e =>
    have he := e.encode_eq (z := z) hlen
    cases hencode : e.encode z body with
    | none =>
      rw [hencode, Option.map_none, eq_comm, Option.map_eq_none_iff] at he
      simpa [he, hencode] using hplain
    | some encoded =>
      rw [hencode, Option.map_some, eq_comm, Option.map_eq_some_iff] at he
      obtain ⟨⟨chunk, context⟩, hchunk, hpayload⟩ := he
      simp [hencode, hchunk, ← hpayload]

/-- A message within the limit is written and read back exactly if the chunk of a running context is within it too. -/
theorem message_deliverable (hz : z.Lossless inSync) (hstep : z.InStep inSync encoder accept stream) (c : FrameChunks)
    {body : Bytes} (hbody : body.length ≤ c.maxFrameSize) (hlen : body.length ≤ Varint.maxValue) :
    (∃ c' bytes, c.message (z.wire headers status answer) body encoder =
        .ok (c', (encoder.encode (z.wire headers status answer) body).2) ∧ c'.bytes = c.bytes ++ bytes ∧
      RequestReads z c.maxFrameSize accept stream bytes body ∧
      ResponseReads z c.maxFrameSize accept stream bytes body) ↔ ChunkFits z c.maxFrameSize encoder body := by
  rw [← fits_encode_iff hbody hlen]
  have hmessage := encode_isMessage (z.wire headers status answer) encoder body
  have hchecks := message_checks (z.wire headers status answer) c body encoder
  cases hwrite : c.message (z.wire headers status answer) body encoder with
  | error error =>
    rw [hwrite] at hchecks
    refine iff_of_false ?_ fun hfits => hchecks.1 ⟨hbody, hfits⟩
    rintro ⟨c', bytes, hok, -⟩
    cases hok
  | ok written =>
    rw [hwrite] at hchecks
    obtain ⟨c', encoder'⟩ := written
    obtain ⟨⟨-, hfits⟩, ⟨-, hbytes⟩, rfl⟩ := hchecks
    refine iff_of_true ?_ hfits
    refine ⟨c', frameBytes (encoder.encode (z.wire headers status answer) body).1, rfl, by simpa using hbytes, ?_, ?_⟩
    · intro ρ σ _ onSkipped skipped r rest fault hr
      obtain ⟨stream', hdecode, -, -⟩ := hstep.encode hz hbody .invalidArgument
      obtain ⟨r', hread, hr'⟩ := readRequestFrame_frameBytes hr hmessage hfits hdecode
      exact ⟨stream', r', hread, hr'⟩
    · rintro ρ _ payloads reading r rest fault rfl rfl hstart hr
      obtain ⟨stream', hdecode, -, -⟩ := hstep.encode hz hbody .internal
      obtain ⟨r', hr', hread⟩ :=
        readResponseFrame_frameBytes hr hmessage.lt.le hmessage.ne_request hfits
      rw [decodeResponseFrame_message hmessage hstart hdecode] at hread
      exact ⟨_, r', hread, hr'⟩

end Delivery

/-! ## Messages that do not shrink -/

def rawBlock (len : Nat) (last : Bool) : UInt8 := UInt8.ofNat (len * 8 + last.toNat)

/-- A libzstd that stores messages as raw blocks. Its contexts know whether a frame is open. -/
def stored : Libzstd Bool Bool where
  compress2 _ _ _ := none
  decompress _ _ _ := .error "corrupt"
  encoder _ dict := if dict.isNone then some false else none
  encoderCost _ _ := 0
  compressStream isOpen message last :=
    if message = [] then some ([], isOpen)
    else if message.length < 32 then
      some ((if isOpen then [] else [0x00, 0x30]) ++ [rawBlock message.length last, 0, 0] ++ message, !last)
    else none
  decoder := .ok false
  loadDictionary context _ := .ok context
  decompressStream isOpen chunk _ := some (chunk.drop (if isOpen then 3 else 5), true)

def StoredInSync (seed : Option Dict) (enc : Bool) (dec : Option Bool) (atFrameStart : Bool) : Prop :=
  seed = none ∧ atFrameStart = !enc ∧ (enc = true → dec = some true)

theorem parseBlocks_stored {m : Bytes} (hlen : m.length < 32) (last : Bool) :
    Zstd.parseBlocks (rawBlock m.length last :: 0 :: 0 :: m) false = some last := by
  have hby : (rawBlock m.length last).toNat = m.length * 8 + last.toNat := by
    rw [rawBlock, UInt8.toNat_ofNat']
    cases last <;> simp <;> omega
  have hlast : last.toNat < 2 := by cases last <;> decide
  have ht : (m.length * 8 + last.toNat) / 2 % 4 = 0 := by omega
  have hc : (m.length * 8 + last.toNat) / 8 = m.length := by omega
  have hp : decide ((m.length * 8 + last.toNat) % 2 = 1) = last := by
    cases last <;> simp <;> omega
  have hb : Zstd.block (rawBlock m.length last :: 0 :: 0 :: m) = some ([], last) := by
    simp [Zstd.block, Zstd.splitAtChecked, Zstd.littleEndian, hby, Zstd.contentLen, ht, hc, hp]
  rw [Zstd.parseBlocks, if_neg (List.cons_ne_nil _ _)]
  split
  · simp_all
  · next heq =>
    cases hb.symm.trans heq
    simp [Zstd.parseBlocks]

theorem stored_lossless : stored.Lossless StoredInSync where
  message := by
    rintro d message payload ⟨⟩
  start := by
    rintro level seed enc henc dec
    cases seed with
    | none =>
      cases henc
      exact ⟨rfl, rfl, by simp⟩
    | some d => cases henc
  chunk := by
    rintro seed enc enc' dec atFrameStart last message chunk ⟨rfl, rfl, hdec⟩ hc hlast
    simp only [stored] at hc
    split_ifs at hc with hem hs ho
    · cases hc
      exact .inl ⟨rfl, hem, rfl, rfl, hdec⟩
    · cases hc
      refine .inr ⟨by simp, true, ⟨false, 0, last⟩, ⟨?_, true, ?_, ?_⟩, rfl, by simp, by simp⟩
      · simp [Zstd.parseStreamChunk, Zstd.chunkBlocks, ho, parseBlocks_stored hs last]
      · simp [stored]
      · simp [ho, hdec]
    · cases hc
      have hh (rest : Bytes) : Zstd.parseFrameHeader (0x00 :: 0x30 :: rest) = some (0, rest) := by
        simp [Zstd.parseFrameHeader, Zstd.splitAtChecked, Zstd.littleEndian, Zstd.dictIdLen, Zstd.streamWindowLog]
      refine .inr ⟨by simp, true, ⟨true, 0, last⟩, ⟨?_, false, ?_, ?_⟩, rfl, by simp, by simp⟩
      · simp [Zstd.parseStreamChunk, Zstd.chunkBlocks, ho, hh, parseBlocks_stored hs last]
      · simp [stored]
      · simp [ho, Libzstd.opened, stored]

def beforeThird : MessageEncoder Dict (StreamSender Bool) where
  stream := some { enabled := true, available := 2 ^ 20, level := 1, sent := 2 }

theorem inStep_beforeThird : stored.InStep StoredInSync beforeThird .none (some { accept := .none }) where
  dict := by
    rintro d ⟨⟩
  waiting := by
    rintro _ ⟨⟩ - -
    exact ⟨_, rfl, rfl, by rintro d ⟨⟩⟩
  active := by
    rintro _ e ⟨⟩ ⟨⟩

/-- Four bytes make a payload of ten: their length, two bytes of header, a block header of three, and they. -/
theorem message_undeliverable :
    stored.Lossless StoredInSync ∧ stored.InStep StoredInSync beforeThird .none (some { accept := .none }) ∧
      [1, 2, 3, 4].length ≤ 4 ∧
      ({ maxFrameSize := 4 } : FrameChunks).message (stored.wire (fun _ => []) (fun _ => []) (fun _ => [])) [1, 2, 3, 4]
        beforeThird = .error (.frameTooLarge 10 4) :=
  ⟨stored_lossless, inStep_beforeThird, by decide, rfl⟩

theorem message_deliverable_stored :
    ∃ c' bytes, ({ maxFrameSize := 16 } : FrameChunks).message
        (stored.wire (fun _ => []) (fun _ => []) (fun _ => [])) [1, 2, 3, 4] beforeThird =
        .ok (c', (beforeThird.encode (stored.wire (fun _ => []) (fun _ => []) (fun _ => [])) [1, 2, 3, 4]).2) ∧
      c'.bytes = [] ++ bytes ∧ RequestReads stored 16 .none (some { accept := .none }) bytes [1, 2, 3, 4] ∧
      ResponseReads stored 16 .none (some { accept := .none }) bytes [1, 2, 3, 4] :=
  (message_deliverable stored_lossless inStep_beforeThird { maxFrameSize := 16 } (by decide) (by decide)).mpr
    (by rintro _ ⟨⟩ _ _ ⟨⟩; exact ⟨by decide, by decide⟩)

end TrevRpc.Rust
