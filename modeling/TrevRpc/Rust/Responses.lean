import TrevRpc.Rust.Delivery

/-! # Responses from the writer to the reader -/

open TrevRpc.Effect

namespace TrevRpc.Rust

section Writing

variable {Dict Stream : Type} {wire : Wire Dict Stream}

def writeBatches (wire : Wire Dict Stream) (maxFrameSize : Nat) (codec : ResponseCodec Dict Stream) :
    List (List ResponseFrame) → Except Error (List Bytes × ResponseCodec Dict Stream)
  | [] => .ok ([], codec)
  | batch :: rest => do
    let (chunks, codec) ← writeResponseFrames wire maxFrameSize codec batch
    let (more, codec) ← writeBatches wire maxFrameSize codec rest
    return (chunks.getD [] ++ more, codec)

/-- The frames of batches. -/
def batchRaws (wire : Wire Dict Stream) (codec : ResponseCodec Dict Stream) : List (List ResponseFrame) → List RawFrame
  | [] => []
  | batch :: rest => codec.raws wire batch ++ batchRaws wire (codec.after wire batch) rest

def BatchesFit (wire : Wire Dict Stream) (maxFrameSize : Nat) (codec : ResponseCodec Dict Stream) :
    List (List ResponseFrame) → Prop
  | [] => True
  | batch :: rest => WriteFits wire maxFrameSize codec batch ∧
      BatchesFit wire maxFrameSize (codec.after wire batch) rest

theorem writeBatches_checks (wire : Wire Dict Stream) (maxFrameSize : Nat) (bs : List (List ResponseFrame))
    (codec : ResponseCodec Dict Stream) :
    Checks Error.IsLocal (BatchesFit wire maxFrameSize codec bs)
      (fun r => r.1.flatten = (batchRaws wire codec bs).flatMap frameBytes)
      (writeBatches wire maxFrameSize codec bs) := by
  induction bs generalizing codec with
  | nil => exact .pure rfl
  | cons b rest ih =>
    refine (writeResponseFrames_checks wire maxFrameSize codec b).bind ?_
    rintro ⟨chunks, _⟩ ⟨hc, rfl⟩
    refine ((ih (codec.after wire b)).bind (d := True) ?_).imp (by simp) (fun _ h => h)
    rintro ⟨more, codec'⟩ hm
    exact .pure (by simp [batchRaws, hc, hm])

theorem rawFrames_append (encoder : MessageEncoder Dict Stream) (frames fs' : List ResponseFrame) :
    rawFrames wire encoder (frames ++ fs') =
      ((rawFrames wire encoder frames).1 ++ (rawFrames wire (rawFrames wire encoder frames).2 fs').1,
        (rawFrames wire (rawFrames wire encoder frames).2 fs').2) := by
  induction frames generalizing encoder with
  | nil => rfl
  | cons frame rest ih => simp [rawFrames, ih]

theorem framesFit_append {maxFrameSize : Nat} (encoder : MessageEncoder Dict Stream)
    (frames frames' : List ResponseFrame) :
    FramesFit wire maxFrameSize encoder (frames ++ frames') ↔
      FramesFit wire maxFrameSize encoder frames ∧
        FramesFit wire maxFrameSize (rawFrames wire encoder frames).2 frames' := by
  induction frames generalizing encoder with
  | nil => simp [FramesFit, rawFrames]
  | cons frame rest ih => simp [framesFit_cons, ih, rawFrames, and_assoc]

/-- Nothing follows a STATUS. -/
def StatusLast : List ResponseFrame → Prop
  | [] => True
  | frame :: rest => (frame.isStatus = true → rest = []) ∧ StatusLast rest

/-- A batch with which the ANSWER does not go out. -/
def isLoneStatus (batch : List ResponseFrame) : Bool := !batch.isEmpty && batch.all ResponseFrame.isStatus

/-- The ANSWER of a response that is written in `batches`: not for a lone STATUS in the only batch. -/
def ResponseCodec.answered (codec : ResponseCodec Dict Stream) (batches : List (List ResponseFrame)) :
    Option RpcAnswer :=
  if batches.all isLoneStatus then none else codec.answer

def answerRaws (wire : Wire Dict Stream) (answered : Option RpcAnswer) : List RawFrame :=
  (answered.map fun answer => (FrameType.answer, wire.answer answer)).toList

/-- Nothing follows a STATUS. An empty batch after a lone one would send the ANSWER behind it. -/
structure Batched (batches : List (List ResponseFrame)) : Prop where
  status : StatusLast batches.flatten
  lone : batches.flatten.all ResponseFrame.isStatus = true → batches.flatten ≠ [] → batches.getLast? ≠ some []

theorem batchRaws_of_none {codec : ResponseCodec Dict Stream} (hn : codec.answer = none)
    (bs : List (List ResponseFrame)) :
    batchRaws wire codec bs = (rawFrames wire codec.encoder bs.flatten).1 := by
  induction bs generalizing codec with
  | nil => rfl
  | cons b rest ih =>
    have hw : codec.answerWith b = none := by simp [ResponseCodec.answerWith, hn]
    have ha : (codec.after wire b).answer = none := by simp [ResponseCodec.after, hn]
    rw [batchRaws, ih ha]
    simp [ResponseCodec.raws, hw, rawFrames_append, ResponseCodec.after]

theorem Batched.lone_status {b : List ResponseFrame} {rest : List (List ResponseFrame)}
    (h : Batched (b :: rest)) (hlone : isLoneStatus b = true) : rest = [] := by
  simp only [isLoneStatus, Bool.and_eq_true, Bool.not_eq_true', List.isEmpty_eq_false_iff] at hlone
  obtain ⟨f, more, rfl⟩ := List.exists_cons_of_ne_nil hlone.1
  have hf : f.isStatus = true := List.all_eq_true.mp hlone.2 f (by simp)
  have hn : more ++ rest.flatten = [] := h.status.1 hf
  obtain ⟨rfl, hr⟩ := List.append_eq_nil_iff.mp hn
  have hl := h.lone (by simp [hr, hf]) (by simp)
  by_contra hne
  obtain ⟨front, last, rfl⟩ := (List.eq_nil_or_concat' rest).resolve_left hne
  have hlast : last = [] := List.flatten_eq_nil_iff.mp hr last (by simp)
  rw [← List.cons_append, List.getLast?_concat, hlast] at hl
  exact hl rfl

theorem batchRaws_eq {codec : ResponseCodec Dict Stream} {bs : List (List ResponseFrame)}
    (h : codec.answer.isSome → Batched bs) :
    batchRaws wire codec bs = answerRaws wire (codec.answered bs) ++ (rawFrames wire codec.encoder bs.flatten).1 := by
  cases han : codec.answer with
  | none => simp [batchRaws_of_none han, ResponseCodec.answered, answerRaws, han]
  | some answer =>
    cases bs with
    | nil => rfl
    | cons b rest =>
      cases hw : isLoneStatus b with
      | true =>
        obtain rfl := (h (by simp [han])).lone_status hw
        have ha : codec.answerWith b = none := by
          unfold isLoneStatus at hw
          simp_all [ResponseCodec.answerWith]
        simp [batchRaws, ResponseCodec.raws, ResponseCodec.answered, answerRaws, hw, ha]
      | false =>
        have ha : codec.answerWith b = some answer := by
          unfold isLoneStatus at hw
          rw [ResponseCodec.answerWith, if_pos, han]
          cases hem : b.isEmpty <;> simp_all
        have haf : (codec.after wire b).answer = none := by simp [ResponseCodec.after, ha]
        rw [batchRaws, batchRaws_of_none haf, ResponseCodec.answered, List.all_cons, hw, List.flatten_cons,
          rawFrames_append]
        simp [ResponseCodec.raws, answerRaws, ha, han, ResponseCodec.after]

theorem batchesFit_of_framesFit {maxFrameSize : Nat} {codec : ResponseCodec Dict Stream}
    {batches : List (List ResponseFrame)}
    (hanswer : ∀ answer, codec.answer = some answer → Fits maxFrameSize (wire.answer answer).length)
    (hf : FramesFit wire maxFrameSize codec.encoder batches.flatten) : BatchesFit wire maxFrameSize codec batches := by
  induction batches generalizing codec with
  | nil => trivial
  | cons batch rest ih =>
    obtain ⟨hb, hr⟩ := (framesFit_append _ _ _).mp hf
    refine ⟨⟨fun answer hw => hanswer answer ?_, hb⟩, ih (fun answer ha => hanswer answer ?_) hr⟩
    · unfold ResponseCodec.answerWith at hw
      split_ifs at hw
      exact hw
    · simp only [ResponseCodec.after] at ha
      split_ifs at ha
      exact ha

/-- A frame that a response may have. -/
structure OfResponse (maxFrameSize : Nat) (raw : RawFrame) : Prop where
  known : raw.1 ≤ FrameType.answer
  request : raw.1 ≠ FrameType.request
  fits : Fits maxFrameSize raw.2.length

theorem raw_lt_answer (encoder : MessageEncoder Dict Stream) (f : ResponseFrame) :
    (f.raw wire encoder).1.1 < FrameType.answer := by
  cases f with
  | headers metadata => exact (by decide : FrameType.headers < FrameType.answer)
  | status status => exact (by decide : FrameType.status < FrameType.answer)
  | message body => exact (encode_isMessage wire encoder body).lt

theorem raw_ofResponse {maxFrameSize : Nat} {encoder : MessageEncoder Dict Stream} {f : ResponseFrame}
    (hf : f.FitsIn wire maxFrameSize encoder) : OfResponse maxFrameSize (f.raw wire encoder).1 where
  known := (raw_lt_answer encoder f).le
  request := by
    cases f with
    | headers metadata => exact (by decide : FrameType.headers ≠ FrameType.request)
    | status status => exact (by decide : FrameType.status ≠ FrameType.request)
    | message body => exact (encode_isMessage wire encoder body).ne_request
  fits := hf.2

theorem rawFrames_ofResponse {maxFrameSize : Nat} {encoder : MessageEncoder Dict Stream} {frames : List ResponseFrame}
    (hfits : FramesFit wire maxFrameSize encoder frames) :
    ∀ raw ∈ (rawFrames wire encoder frames).1, OfResponse maxFrameSize raw := by
  induction frames generalizing encoder with
  | nil => simp [rawFrames]
  | cons frame rest ih =>
    obtain ⟨hf, hr⟩ := framesFit_cons.mp hfits
    rintro raw (_ | ⟨_, hraw⟩)
    · exact raw_ofResponse hf
    · exact ih hr raw hraw

theorem rawFrames_ne_answer (encoder : MessageEncoder Dict Stream) (frames : List ResponseFrame) :
    ∀ raw ∈ (rawFrames wire encoder frames).1, raw.1 ≠ FrameType.answer := by
  induction frames generalizing encoder with
  | nil => simp [rawFrames]
  | cons f rest ih =>
    rintro raw (_ | ⟨_, hraw⟩)
    · exact (raw_lt_answer encoder f).ne
    · exact ih _ raw hraw

end Writing

/-! ## Reading -/

section Reading

variable {Enc Dec ρ : Type} [FrameRead ρ] {payloads : Payloads} {z : Libzstd Enc Dec} {maxFrameSize : Nat}
  {reading reading' : ResponseReading Dec} {r r' : ρ}

theorem readResponseFrame_left {f : ResponseFrame}
    (h : readResponseFrame payloads z maxFrameSize reading r = (.ok (some f), reading', r')) : left r' < left r := by
  fun_induction readResponseFrame payloads z maxFrameSize reading r with
  | case1 | case2 | case3 | case4 => cases h
  | case5 reading r header _ r₁ hh payload r₂ hp f reading₁ hdec =>
    cases h
    exact (within_responsePayload header _ _ _ hp).trans_lt (nextKnownHeader_left hh)
  | case6 _ _ _ _ _ _ _ _ _ _ _ hlt ih => exact (ih h).trans hlt

/-- All frames of a response, and how it ends. -/
def readResponses (payloads : Payloads) (z : Libzstd Enc Dec) (maxFrameSize : Nat) (reading : ResponseReading Dec)
    (r : ρ) : (List ResponseFrame × Except Error Unit) × ResponseReading Dec × ρ :=
  match h : readResponseFrame payloads z maxFrameSize reading r with
  | (.error error, reading₁, r₁) => (([], .error error), reading₁, r₁)
  | (.ok none, reading₁, r₁) => (([], .ok ()), reading₁, r₁)
  | (.ok (some frame), reading₁, r₁) =>
    have := readResponseFrame_left h
    let rest := readResponses payloads z maxFrameSize reading₁ r₁
    ((frame :: rest.1.1, rest.1.2), rest.2)
termination_by left r

variable {rest : Bytes} {fault : Option Error}

theorem readResponses_end (hr : unread r = ⟨[], none⟩) :
    (readResponses payloads z maxFrameSize reading r).1 = ([], .ok ()) := by
  have hp : parseHeader maxFrameSize ⟨[], none⟩ = (.ok none, ⟨[], none⟩) := rfl
  rcases hh : readFrameHeader maxFrameSize r with ⟨result, r₁⟩
  have hs := (sees_readFrameHeader maxFrameSize).eq hh
  rw [hr, hp] at hs
  obtain ⟨rfl, -⟩ := Prod.mk.inj hs
  have hnext : nextKnownHeader maxFrameSize (fun _ _ => .ok ()) () r = (.ok (none, ()), r₁) := by
    rw [nextKnownHeader]
    split <;> simp_all
  have hread : readResponseFrame payloads z maxFrameSize reading r = (.ok none, reading, r₁) := by
    rw [readResponseFrame]
    split <;> simp_all
  rw [readResponses]
  split <;> simp_all

theorem readResponses_congr
    (h : readResponseFrame payloads z maxFrameSize reading r = readResponseFrame payloads z maxFrameSize reading' r') :
    readResponses payloads z maxFrameSize reading r = readResponses payloads z maxFrameSize reading' r' := by
  rw [readResponses]
  conv_rhs => rw [readResponses]
  split <;> split <;> simp_all

theorem readResponses_frame {raw : RawFrame} {f : ResponseFrame} (hr : unread r = ⟨frameBytes raw ++ rest, fault⟩)
    (hraw : OfResponse maxFrameSize raw)
    (hdec : decodeResponseFrame payloads z raw.1 raw.2 maxFrameSize reading = (.ok (some f), reading')) :
    ∃ r' : ρ, unread r' = ⟨rest, fault⟩ ∧ (readResponses payloads z maxFrameSize reading r).1 =
      (f :: (readResponses payloads z maxFrameSize reading' r').1.1,
        (readResponses payloads z maxFrameSize reading' r').1.2) := by
  obtain ⟨r', hr', hre⟩ := readResponseFrame_frameBytes hr hraw.known hraw.request hraw.fits
  refine ⟨r', hr', ?_⟩
  rw [hdec] at hre
  rw [readResponses]
  split
  · simp_all
  · simp_all
  · next heq =>
    cases hre.symm.trans heq
    rfl

theorem readResponses_answer {raw : RawFrame} (hr : unread r = ⟨frameBytes raw ++ rest, fault⟩)
    (hraw : OfResponse maxFrameSize raw)
    (hdec : decodeResponseFrame payloads z raw.1 raw.2 maxFrameSize reading = (.ok none, reading')) :
    ∃ r' : ρ, unread r' = ⟨rest, fault⟩ ∧
      readResponses payloads z maxFrameSize reading r = readResponses payloads z maxFrameSize reading' r' := by
  obtain ⟨r', hr', hre⟩ := readResponseFrame_frameBytes hr hraw.known hraw.request hraw.fits
  rw [hdec] at hre
  exact ⟨r', hr', readResponses_congr hre⟩

end Reading

/-! ## The round trip -/

def ResponseFrame.received : ResponseFrame → ResponseFrame
  | .status s => .status { s with refusedStreamCompression := false }
  | frame => frame

section RoundTrip

variable {Enc Dec : Type} {z : Libzstd Enc Dec} {inSync : Option Dict → Enc → Option Dec → Bool → Prop}
  {headers : Metadata → Bytes} {status : Status → Bytes} {answer : RpcAnswer → Bytes} {payloads : Payloads}
  {maxFrameSize : Nat} {encoder : MessageEncoder Dict (StreamSender Enc)} {reading : ResponseReading Dec}

def Payloads.Decode (payloads : Payloads) (headers : Metadata → Bytes) (status : Status → Bytes) :
    ResponseFrame → Prop
  | .headers metadata => payloads.headers (headers metadata) = .ok metadata
  | .status s => payloads.status (status s) = .ok (.ofStatus s)
  | .message _ => True

theorem decodeResponseFrame_raw (hz : z.Lossless inSync)
    (hs : z.InStep inSync encoder reading.accept reading.stream) {f : ResponseFrame}
    (hf : f.FitsIn (z.wire headers status answer) maxFrameSize encoder)
    (hv : payloads.Decode headers status f) (hst : reading.MayStart f.isStatus) :
    ∃ reading', decodeResponseFrame payloads z (f.raw (z.wire headers status answer) encoder).1.1
        (f.raw (z.wire headers status answer) encoder).1.2 maxFrameSize reading =
        (.ok (some f.received), reading') ∧ reading'.answerClosed = true ∧
      z.InStep inSync (f.raw (z.wire headers status answer) encoder).2 reading'.accept reading'.stream := by
  cases f with
  | headers metadata => exact ⟨_, decodeResponseFrame_headers hst hv, rfl, hs⟩
  | status s =>
    obtain ⟨reading', hdec, hc, ha, hstr⟩ := decodeResponseFrame_status hv
    refine ⟨reading', ?_, hc, ?_⟩
    · rw [ResponseFrame.received, ← Status.ofRpcStatus_ofStatus]
      exact hdec
    · rw [ha, hstr]
      exact hs
  | message body =>
    obtain ⟨stream', hdec, hs', -⟩ := hs.encode hz (hf.1 body rfl) .internal
    exact ⟨_, decodeResponseFrame_message (encode_isMessage _ encoder body) hst hdec, rfl, hs'⟩

theorem readResponses_rawFrames {ρ : Type} [FrameRead ρ] (hz : z.Lossless inSync) {frames : List ResponseFrame}
    (hst : z.InStep inSync encoder reading.accept reading.stream)
    (hfits : FramesFit (z.wire headers status answer) maxFrameSize encoder frames)
    (hv : ∀ f ∈ frames, payloads.Decode headers status f)
    (hs : ∀ f ∈ frames.head?, reading.MayStart f.isStatus) {r : ρ}
    (hr : unread r = ⟨(rawFrames (z.wire headers status answer) encoder frames).1.flatMap frameBytes, none⟩) :
    (readResponses payloads z maxFrameSize reading r).1 = (frames.map ResponseFrame.received, .ok ()) := by
  induction frames generalizing encoder reading r with
  | nil => exact readResponses_end hr
  | cons f rest ih =>
    obtain ⟨hf, hre⟩ := framesFit_cons.mp hfits
    obtain ⟨reading', hdec, hc, hs'⟩ :=
      decodeResponseFrame_raw hz hst hf (hv f (by simp)) (hs f (by simp))
    obtain ⟨r', hr', hrd⟩ := readResponses_frame hr (raw_ofResponse hf) hdec
    have hm := ih hs' hre (fun f hmem => hv f (by simp [hmem])) (fun _ _ => .inl hc) hr'
    rw [hrd, hm]
    rfl

theorem parseFrames_flatMap {σ : Type} {onSkipped : σ → Nat → Except Error σ} {skipped : σ} {raws : List RawFrame}
    (hr : ∀ raw ∈ raws, OfResponse maxFrameSize raw) :
    parseFrames maxFrameSize onSkipped skipped ⟨raws.flatMap frameBytes, none⟩ = ((raws, .ok skipped), ⟨[], none⟩) := by
  induction raws with
  | nil => exact parseFrames_end rfl
  | cons raw rest ih =>
    have hraw := hr raw (by simp)
    obtain ⟨len, hh⟩ := parseHeader_frameBytes (hraw.known.trans (by decide)) hraw.fits (rest.flatMap frameBytes) none
    have hp : Input.exact raw.2.length ⟨raw.2 ++ rest.flatMap frameBytes, none⟩ =
        (.ok raw.2, ⟨rest.flatMap frameBytes, none⟩) := by
      simp [Input.exact, Input.drop]
    have hk : isKnownFrameType raw.1 = true := by simpa [isKnownFrameType] using hraw.known
    rw [List.flatMap_cons, parseFrames_frame ((bind_ok hh).trans (bind_ok hp)), if_pos hk,
      ih fun raw hmem => hr raw (by simp [hmem])]

variable {answered : Option RpcAnswer} {frames : List ResponseFrame}

theorem answerRaws_ofResponse {raw : RawFrame} (hanswer : ∀ a, answered = some a → Fits maxFrameSize (answer a).length)
    (hraw : raw ∈ answerRaws (z.wire headers status answer) answered) : OfResponse maxFrameSize raw := by
  simp only [answerRaws, Option.mem_toList, Option.map_eq_some_iff] at hraw
  obtain ⟨a, ha, rfl⟩ := hraw
  exact ⟨le_rfl, (by decide : FrameType.answer ≠ FrameType.request), hanswer a ha⟩

/-- The reader of an optimistic call gets an accepting ANSWER, or none and then at most a STATUS. -/
def Answers (reading : ResponseReading Dec) (answered : Option RpcAnswer) (frames : List ResponseFrame) : Prop :=
  reading.replay = true →
    answered = none ∧ frames.all ResponseFrame.isStatus = true ∨ ∃ a, answered = some a ∧ a.streamCompression = true

theorem readResponses_answerRaws {ρ : Type} [FrameRead ρ] (hz : z.Lossless inSync)
    (hst : z.InStep inSync encoder reading.accept reading.stream)
    (hf : FramesFit (z.wire headers status answer) maxFrameSize encoder frames)
    (hv : ∀ f ∈ frames, payloads.Decode headers status f)
    (hanswer : ∀ a, answered = some a → payloads.answer (answer a) = .ok a ∧ Fits maxFrameSize (answer a).length)
    (hfirst : reading.answerClosed = false) (haccepts : Answers reading answered frames) {r : ρ}
    (hr : unread r = ⟨(answerRaws (z.wire headers status answer) answered ++
      (rawFrames (z.wire headers status answer) encoder frames).1).flatMap frameBytes, none⟩) :
    (readResponses payloads z maxFrameSize reading r).1 = (frames.map ResponseFrame.received, .ok ()) := by
  cases answered with
  | none =>
    refine readResponses_rawFrames hz hst hf hv (fun f hmem => .inr ?_) hr
    cases hrep : reading.replay with
    | false => exact .inl rfl
    | true =>
      obtain ⟨-, hall⟩ | ⟨a, ⟨⟩, -⟩ := haccepts hrep
      exact .inr (List.all_eq_true.mp hall f (List.mem_of_mem_head? hmem))
  | some a =>
    obtain ⟨hdecode, hfits⟩ := hanswer a rfl
    have hraw : OfResponse maxFrameSize (FrameType.answer, answer a) :=
      ⟨le_rfl, (by decide : FrameType.answer ≠ FrameType.request), hfits⟩
    have hacc : reading.replay = true → a.streamCompression = true := by
      intro hrep
      obtain ⟨⟨⟩, -⟩ | ⟨_, ⟨⟩, hs⟩ := haccepts hrep
      exact hs
    obtain ⟨reading', hdec, hc, haccept, hs⟩ := decodeResponseFrame_answer hdecode hfirst hacc
    obtain ⟨r', hr', hre⟩ := readResponses_answer hr hraw hdec
    rw [← haccept, ← hs] at hst
    rw [hre]
    exact readResponses_rawFrames hz hst hf hv (fun _ _ => .inl hc) hr'

variable {codec : ResponseCodec Dict (StreamSender Enc)}

/-- The frames are read back, in any batches. An ANSWER comes first, but for a lone STATUS in the only batch. -/
theorem responses_round_trip (hz : z.Lossless inSync) {batches : List (List ResponseFrame)}
    (hstep : z.InStep inSync codec.encoder reading.accept reading.stream)
    (hfits : FramesFit (z.wire headers status answer) maxFrameSize codec.encoder batches.flatten)
    (hvalid : ∀ frame ∈ batches.flatten, payloads.Decode headers status frame)
    (hanswer : ∀ a, codec.answer = some a → payloads.answer (answer a) = .ok a ∧ Fits maxFrameSize (answer a).length)
    (hbatched : codec.answer.isSome → Batched batches) (hfirst : reading.answerClosed = false)
    (haccepts : Answers reading (codec.answered batches) batches.flatten) :
    ∃ chunks codec', writeBatches (z.wire headers status answer) maxFrameSize codec batches = .ok (chunks, codec') ∧
      (∀ raw ∈ (rawFrames (z.wire headers status answer) codec.encoder batches.flatten).1, raw.1 ≠ FrameType.answer) ∧
      ∀ {ρ : Type} [FrameRead ρ] (r : ρ), unread r = ⟨chunks.flatten, none⟩ →
        (readResponses payloads z maxFrameSize reading r).1 = (batches.flatten.map ResponseFrame.received, .ok ()) ∧
        (readFrames maxFrameSize (fun _ _ => .ok ()) () r).1 =
          (answerRaws (z.wire headers status answer) (codec.answered batches) ++
            (rawFrames (z.wire headers status answer) codec.encoder batches.flatten).1, .ok ()) := by
  have hchecks := writeBatches_checks (z.wire headers status answer) maxFrameSize batches codec
  have hall := batchesFit_of_framesFit (fun a ha => (hanswer a ha).2) hfits
  have hsent (a) (ha : codec.answered batches = some a) : codec.answer = some a :=
    (Option.ite_none_left_eq_some.mp ha).2
  cases hwrite : writeBatches (z.wire headers status answer) maxFrameSize codec batches with
  | error error =>
    rw [hwrite] at hchecks
    exact absurd hall hchecks.1
  | ok written =>
    obtain ⟨chunks, codec'⟩ := written
    rw [hwrite] at hchecks
    have hbytes := hchecks.2
    rw [batchRaws_eq hbatched] at hbytes
    refine ⟨chunks, codec', rfl, rawFrames_ne_answer _ _, fun r hr => ⟨?_, ?_⟩⟩ <;> rw [hbytes] at hr
    · exact readResponses_answerRaws hz hstep hfits hvalid (fun a ha => hanswer a (hsent a ha)) hfirst haccepts hr
    · have hframes := readFrames_eq_parseFrames maxFrameSize (fun _ _ => .ok ()) () r
      rw [hr, parseFrames_flatMap ?_] at hframes
      · exact congrArg Prod.fst hframes
      · intro raw hmem
        obtain hmem | hmem := List.mem_append.mp hmem
        · exact answerRaws_ofResponse (fun a ha => (hanswer a (hsent a ha)).2) hmem
        · exact rawFrames_ofResponse hfits raw hmem

end RoundTrip

/-! ## Responses that do not come back as they went -/

def sampleStatus (status : Status) : Bytes := if status.refusedStreamCompression then [1] else [0]

def sampleWire : Wire Dict (StreamSender Bool) := stored.wire (fun _ => []) sampleStatus (fun _ => [])

def sampleAnswer : RpcAnswer := ⟨[], false, 1⟩

def samplePayloads : Payloads where
  headers _ := .ok []
  status payload := .ok (.ofStatus (if payload = [1] then .refused else { code := .ok, message := "" }))
  answer _ := .ok sampleAnswer

/-- A refusal is lost, an empty batch sends ANSWER before STATUS, and a STATUS batch sends it after. -/
theorem responses_not_inverse :
    (writeBatches sampleWire 64 {} [[.status .refused]]).map Prod.fst = .ok [[3, 1, 1]] ∧
      (readResponses samplePayloads stored 64 { accept := .none } ({ source := ⟨[[3, 1, 1]], none⟩ } : Chunked)).1 =
        ([.status { code := .resourceExhausted, message := "" }], .ok ()) ∧
      (writeBatches sampleWire 64 { answer := sampleAnswer } [[.status { code := .ok, message := "" }]]).map Prod.fst =
        .ok [[3, 1, 0]] ∧
      (writeBatches sampleWire 64 { answer := sampleAnswer } [[],
        [.status { code := .ok, message := "" }]]).map Prod.fst =
        .ok [[6, 0], [3, 1, 0]] ∧
      (writeBatches sampleWire 64 { answer := sampleAnswer }
        [[.status { code := .ok, message := "" }], [.message [7]]]).map Prod.fst = .ok [[3, 1, 0], [6, 0, 0, 1, 7]] :=
          by
  have hstep : stored.InStep StoredInSync {} .none none :=
    ⟨by rintro d ⟨⟩, by rintro _ ⟨⟩, by rintro _ e ⟨⟩⟩
  have hfits : FramesFit sampleWire 64 {} [.status .refused] := ⟨⟨by decide, by decide⟩, trivial⟩
  have hvalid : ∀ frame ∈ [.status .refused], samplePayloads.Decode (fun _ => []) sampleStatus frame := by
    rintro _ (_ | ⟨_, ⟨⟩⟩)
    rfl
  exact ⟨rfl, readResponses_rawFrames stored_lossless hstep hfits hvalid (fun _ _ => .inr (.inl rfl)) rfl, rfl, rfl,
    rfl⟩

def sampleBatches : List (List ResponseFrame) :=
  [[.headers [], .message [1]], [.message [2], .status { code := .ok, message := "" }]]

theorem responses_round_trip_sample :
    ∃ chunks codec', writeBatches sampleWire 64 { encoder := beforeThird, answer := sampleAnswer } sampleBatches =
        .ok (chunks, codec') ∧
      (∀ raw ∈ (rawFrames sampleWire beforeThird sampleBatches.flatten).1, raw.1 ≠ FrameType.answer) ∧
      ∀ {ρ : Type} [FrameRead ρ] (r : ρ), unread r = ⟨chunks.flatten, none⟩ →
        (readResponses samplePayloads stored 64 { accept := .none, stream := some { accept := .none } } r).1 =
          (sampleBatches.flatten, .ok ()) ∧
        (readFrames 64 (fun _ _ => .ok ()) () r).1 =
          ((FrameType.answer, []) :: (rawFrames sampleWire beforeThird sampleBatches.flatten).1, .ok ()) := by
  have hfits : FramesFit sampleWire 64 beforeThird sampleBatches.flatten :=
    ⟨⟨by decide, by decide⟩, ⟨by decide, by decide, by decide⟩, ⟨by decide, by decide, by decide⟩,
      ⟨by decide, by decide⟩, trivial⟩
  have hvalid : ∀ frame ∈ sampleBatches.flatten, samplePayloads.Decode (fun _ => []) sampleStatus frame := by
    rintro _ (_ | ⟨_, _ | ⟨_, _ | ⟨_, _ | ⟨_, ⟨⟩⟩⟩⟩⟩)
    · rfl
    · trivial
    · trivial
    · rfl
  have hbatched : Batched sampleBatches :=
    ⟨⟨by rintro ⟨⟩, by rintro ⟨⟩, by rintro ⟨⟩, fun _ => rfl, trivial⟩, by rintro ⟨⟩⟩
  refine responses_round_trip stored_lossless inStep_beforeThird hfits hvalid ?_ (fun _ => hbatched) rfl (by rintro ⟨⟩)
  rintro a ⟨⟩
  exact ⟨rfl, by decide, by decide⟩

end TrevRpc.Rust
