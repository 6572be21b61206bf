import TrevRpc.Lib.Frames
import TrevRpc.Rust.Compression
import TrevRpc.Rust.Datagram

/-! # The bytes of a datagram (the codec of `datagram.rs`) -/

open TrevRpc.Frames

namespace TrevRpc.Rust.Datagram

variable {Enc Dec : Type}

/-! ## Writing -/

def pushIgnoring (out : Bytes) (value : Nat) : Bytes :=
  match push out value with
  | .ok out => out
  | .error _ => out

def putMessageFrame (datagram : Bytes) (frameType : Nat) (message : Bytes) : Bytes :=
  pushIgnoring (pushIgnoring datagram frameType) message.length ++ message

def flowHeader (prefixBytes : Bytes) (flow : Nat) : Option Bytes :=
  match push prefixBytes flow with
  | .ok header => some header
  | .error _ => none

/-! ## Reading -/

def nextFrame (buf : Bytes) (offset : Nat) : Option (Nat × Nat × Nat) := do
  if buf.length < offset then none
  let rest := buf.drop offset
  let (frameType, typeLen) ← Varint.decode rest
  let (len, lengthLen) ← Varint.decode (rest.drop typeLen)
  let start := offset + typeLen + lengthLen
  let stop := start + len
  if stop ≤ buf.length then some (frameType, start, stop) else none

def slice (datagram : Bytes) (start stop : Nat) : Bytes := (datagram.drop start).take (stop - start)

structure Messages where
  datagram : Bytes
  offset : Nat

/-- What the iterator gives until it ends, `none` if it has not ended when the fuel has run out. -/
def Messages.collect : Nat → Messages → Option (List RawFrame)
  | 0, _ => none
  | fuel + 1, m =>
    match nextFrame m.datagram m.offset with
    | none => some []
    | some (frameType, start, stop) => do
      let rest ← Messages.collect fuel { m with offset := stop }
      if frameType = FrameType.message ∨ frameType = FrameType.zstdMessage then
        return (frameType, slice m.datagram start stop) :: rest
      else return rest

/-- A frame takes a byte or more, and the last call finds the end. -/
def Messages.toList (m : Messages) : Option (List RawFrame) := m.collect (m.datagram.length + 1)

/-- `none` when a message is rejected, which drops the whole datagram. -/
def Messages.inflate (z : Libzstd Enc Dec) (accept : Accept) (maxFrameSize : Nat) (m : Messages) :
    Option (List Bytes) := do
  let frames ← m.toList
  frames.mapM fun (frameType, payload) =>
    if frameType = FrameType.zstdMessage then (Rust.inflate z accept payload maxFrameSize).toOption else some payload

/-- The loop of `decode`: the frames from `offset` on fill the datagram, and none of them drops it. -/
def checkFrames (maxFrameSize : Nat) (datagram : Bytes) : Nat → Nat → Bool
  | 0, offset => datagram.length ≤ offset
  | fuel + 1, offset =>
    if offset < datagram.length then
      match nextFrame datagram offset with
      | none => false
      | some (frameType, start, stop) =>
        if frameType = FrameType.message ∧ maxFrameSize < stop - start ∨ frameType = FrameType.zstdStreamMessage then
          false
        else checkFrames maxFrameSize datagram fuel stop
    else true

def decode (datagram : Bytes) (maxFrameSize : Nat) : Option (Nat × Messages) := do
  let (flow, flowLen) ← Varint.decode datagram
  if flow = 0 then none
  if checkFrames maxFrameSize datagram datagram.length flowLen then some (flow, ⟨datagram, flowLen⟩) else none

def ownDatagram (prefixBytes datagram : Bytes) : Option Bytes :=
  if prefixBytes = [] then some datagram
  else if datagram.take prefixBytes.length = prefixBytes then some (datagram.drop prefixBytes.length)
  else none

/-! ## Frames -/

/-- A frame that carries a message. -/
def isMessage (frame : RawFrame) : Bool := frame.1 = FrameType.message || frame.1 = FrameType.zstdMessage

/-- A frame that drops the datagram. -/
def dropsDatagram (maxFrameSize : Nat) (frame : RawFrame) : Bool :=
  (frame.1 = FrameType.message && maxFrameSize < frame.2.length) || frame.1 = FrameType.zstdStreamMessage

structure FrameAt (buf : Bytes) (offset : Nat) (frame : RawFrame) (rest : Bytes) (start stop : Nat) : Prop where
  next : nextFrame buf offset = some (frame.1, start, stop)
  payload : slice buf start stop = frame.2
  length : stop - start = frame.2.length
  rest : buf.drop stop = rest
  lt : offset < stop
  le : stop ≤ buf.length

theorem nextFrame_of_read {buf rest : Bytes} {offset : Nat} {f : RawFrame}
    (h : read (buf.drop offset) = some (f, rest)) : ∃ st stop, FrameAt buf offset f rest st stop := by
  obtain ⟨⟨frameType, n⟩, ht, h⟩ := Option.bind_eq_some_iff.mp h
  obtain ⟨⟨len, m⟩, hlen, h⟩ := Option.bind_eq_some_iff.mp h
  obtain ⟨hf, h⟩ := Option.ite_none_right_eq_some.mp h
  obtain ⟨rfl, rfl⟩ := Prod.mk.inj (Option.some.inj h)
  have hn := Varint.decode_length ht
  have hm := Varint.decode_length hlen
  simp only [List.length_drop] at hn hm hf
  simp only [List.drop_drop] at hlen ⊢
  refine ⟨offset + n + m, offset + n + m + len, ?_, ?_, ?_, ?_, ?_, ?_⟩
  · have ho : ¬ buf.length < offset := by omega
    have hs : offset + n + m + len ≤ buf.length := by omega
    simp [nextFrame, ho, ht, hlen, hs]
  · rw [slice, Nat.add_sub_cancel_left, Nat.add_assoc]
  · simp only [List.length_take, List.length_drop]
    omega
  · simp [Nat.add_assoc]
  · omega
  · omega

variable {o : Nat}

theorem nextFrame_eq_none {buf : Bytes} (h : read (buf.drop o) = none) : nextFrame buf o = none := by
  by_contra hs
  obtain ⟨found, hf⟩ := Option.ne_none_iff_exists'.mp hs
  obtain ⟨hoffset, hf⟩ := Option.ite_none_left_eq_some.mp hf
  obtain ⟨⟨frameType, n⟩, ht, hf⟩ := Option.bind_eq_some_iff.mp hf
  obtain ⟨⟨len, m⟩, hlen, hf⟩ := Option.bind_eq_some_iff.mp hf
  obtain ⟨hstop, -⟩ := Option.ite_none_right_eq_some.mp hf
  have hfi : len ≤ (((buf.drop o).drop n).drop m).length := by
    simp only [List.length_drop]
    omega
  simp only [Frames.read, ht, hlen, hfi, Option.bind_eq_bind, Option.bind_some, if_true, reduceCtorEq] at h

theorem checkFrames_iff (maxFrameSize : Nat) (d : Bytes) {fuel : Nat} (hoffset : o ≤ d.length)
    (hfuel : d.length ≤ o + fuel) :
    checkFrames maxFrameSize d fuel o = true ↔
      ∃ fs, Framed (d.drop o) fs ∧ ∀ f ∈ fs, dropsDatagram maxFrameSize f = false := by
  induction fuel generalizing o with
  | zero =>
    have hend : d.drop o = [] := List.drop_eq_nil_of_le hfuel
    simp only [checkFrames, decide_eq_true_eq, hend]
    exact ⟨fun _ => ⟨[], .nil, by simp⟩, fun _ => hfuel⟩
  | succ fuel ih =>
    rw [checkFrames]
    split_ifs with hmore
    · have hne : d.drop o ≠ [] := by
        simp only [ne_eq, List.drop_eq_nil_iff]
        omega
      cases hr : read (d.drop o) with
      | none =>
        simp only [nextFrame_eq_none hr, Bool.false_eq_true, false_iff, not_exists, not_and]
        exact fun fs hf => absurd hf (not_framed hne hr)
      | some fo =>
        obtain ⟨f, rest⟩ := fo
        obtain ⟨start, stop, hat⟩ := nextFrame_of_read hr
        have hih := ih hat.le (by have := hat.lt; omega)
        rw [hat.rest] at hih
        have hd : dropsDatagram maxFrameSize f = true ↔
            f.1 = FrameType.message ∧ maxFrameSize < f.2.length ∨ f.1 = FrameType.zstdStreamMessage := by
          simp [dropsDatagram]
        simp only [hat.next, hat.length, framed_cons_iff hr, ← hd]
        split_ifs with hbad
        · simp only [false_iff]
          rintro ⟨_, ⟨os, rfl, -⟩, hg⟩
          simp [hg f List.mem_cons_self] at hbad
        · rw [hih]
          constructor
          · rintro ⟨os, hf, hg⟩
            exact ⟨_, ⟨os, rfl, hf⟩, by simpa [Bool.eq_false_iff.mpr hbad] using hg⟩
          · rintro ⟨_, ⟨os, rfl, hf⟩, hg⟩
            exact ⟨os, hf, fun ot hmem => hg ot (List.mem_cons_of_mem f hmem)⟩
    · have hend : d.drop o = [] := List.drop_eq_nil_of_le (by omega)
      simp only [hend, true_iff]
      exact ⟨[], .nil, by simp⟩

variable {d : Bytes} {fs : List RawFrame}

theorem collect_eq {bs : Bytes} (h : Framed bs fs) {fuel : Nat}
    (hb : d.drop o = bs) (hfuel : d.length - o < fuel) :
    Messages.collect fuel ⟨d, o⟩ = some (fs.filter isMessage) := by
  induction h generalizing fuel o with
  | nil =>
    cases fuel with
    | zero => omega
    | succ fuel => simp [Messages.collect, nextFrame_eq_none (hb ▸ read_nil)]
  | @cons bs rest f fs hr _ ih =>
    obtain ⟨start, stop, hat⟩ := nextFrame_of_read (hb ▸ hr)
    have hlt := hat.lt
    have hle := hat.le
    cases fuel with
    | zero => omega
    | succ fuel =>
      have hm : isMessage f = true ↔ f.1 = FrameType.message ∨ f.1 = FrameType.zstdMessage := by
        simp [isMessage]
      simp only [Messages.collect, hat.next, hat.payload, ← hm]
      rw [ih hat.rest (by omega), List.filter_cons]
      cases isMessage f <;> rfl

variable {flow : Nat}

theorem decode_eq_some {maxFrameSize : Nat} {m : Messages} :
    decode d maxFrameSize = some (flow, m) ↔ ∃ n fs, Varint.decode d = some (flow, n) ∧ flow ≠ 0 ∧
      Framed (d.drop n) fs ∧
      (∀ f ∈ fs, dropsDatagram maxFrameSize f = false) ∧ m = ⟨d, n⟩ := by
  unfold decode
  cases hd : Varint.decode d with
  | none => simp
  | some fo =>
    obtain ⟨first, n⟩ := fo
    have hc := checkFrames_iff maxFrameSize d (Varint.decode_length hd).2 (Nat.le_add_left ..)
    by_cases hz : first = 0
    · simp [hz]
      grind
    · by_cases hok : checkFrames maxFrameSize d d.length n = true
      · obtain ⟨fs, hf, hg⟩ := hc.mp hok
        simp only [hz, hok, Option.bind_eq_bind, Option.bind_some, if_true, if_false, Option.some.injEq, Prod.mk.injEq]
        grind
      · simp only [hz, hok, Option.bind_eq_bind, Option.bind_some, if_false]
        grind

theorem toList_eq {n : Nat} (hf : Framed (d.drop n) fs) :
    (⟨d, n⟩ : Messages).toList = some (fs.filter isMessage) :=
  collect_eq hf rfl (Nat.lt_succ_of_le (Nat.sub_le ..))

/-! ## What is written -/

theorem pushIgnoring_eq (out : Bytes) (value : Nat) : pushIgnoring out value = out ++ varintBytes value := by
  unfold pushIgnoring push varintBytes
  cases Varint.encode value <;> simp

theorem putMessageFrame_eq (d : Bytes) (frameType : Nat) (m : Bytes) :
    putMessageFrame d frameType m = d ++ frameBytes (frameType, m) := by
  simp [putMessageFrame, pushIgnoring_eq, frameBytes]

theorem flowHeader_eq_some {prefixBytes header : Bytes} (h : flowHeader prefixBytes flow = some header) :
    ∃ bytes, Varint.encode flow = some bytes ∧ header = prefixBytes ++ bytes := by
  unfold flowHeader push at h
  cases hen : Varint.encode flow with
  | none => simp [hen] at h
  | some bytes =>
    simp only [hen, Option.some.injEq] at h
    exact ⟨bytes, rfl, h.symm⟩

theorem write_eq_frameBytes {f : RawFrame} (ht : f.1 ≤ Varint.maxValue)
    (hlen : f.2.length ≤ Varint.maxValue) : write f = some (frameBytes f) := by
  obtain ⟨frameType, ht⟩ := Option.isSome_iff_exists.mp ((Varint.encode_isSome_iff _).mpr ht)
  obtain ⟨len, hlen⟩ := Option.isSome_iff_exists.mp ((Varint.encode_isSome_iff _).mpr hlen)
  simp [write, frameBytes, varintBytes, ht, hlen]

theorem framed_frameBytes {frames : List RawFrame}
    (h : ∀ f ∈ frames, f.1 ≤ Varint.maxValue ∧ f.2.length ≤ Varint.maxValue) :
    Framed (frames.flatMap frameBytes) frames := by
  induction frames with
  | nil => exact .nil
  | cons f frames ih =>
    obtain ⟨ht, hlen⟩ := h f List.mem_cons_self
    rw [List.flatMap_cons]
    exact .write_append (write_eq_frameBytes ht hlen) (ih fun o hmem => h o (List.mem_cons_of_mem f hmem))

theorem ownDatagram_append (prefixBytes rest : Bytes) : ownDatagram prefixBytes (prefixBytes ++ rest) = some rest := by
  unfold ownDatagram
  split_ifs with hn hown
  · simp [hn]
  · simp
  · simp at hown

theorem decode_packed {prefixBytes header : Bytes} {maxFrameSize : Nat} (hh : flowHeader prefixBytes flow = some header)
    (hz : flow ≠ 0) (hw : ∀ f ∈ fs, f.1 ≤ Varint.maxValue ∧ f.2.length ≤ Varint.maxValue)
    (hk : ∀ f ∈ fs, isMessage f = true ∧ dropsDatagram maxFrameSize f = false) :
    ∃ d m, ownDatagram prefixBytes (header ++ fs.flatMap frameBytes) = some d ∧
      decode d maxFrameSize = some (flow, m) ∧ m.toList = some fs := by
  obtain ⟨bytes, hb, rfl⟩ := flowHeader_eq_some hh
  have hf : Framed ((bytes ++ fs.flatMap frameBytes).drop (Varint.encodedLen flow)) fs := by
    rw [← Varint.length_of_encode hb, List.drop_left]
    exact framed_frameBytes hw
  have hd := Varint.decode_encode hb (fs.flatMap frameBytes)
  refine ⟨_, ⟨_, _⟩, ?_, decode_eq_some.mpr ⟨_, fs, hd, hz, hf, fun f hmem => (hk f hmem).2, rfl⟩, ?_⟩
  · rw [List.append_assoc, ownDatagram_append]
  · rw [toList_eq hf]
    exact congrArg some (List.filter_eq_self.mpr fun f hmem => (hk f hmem).1)

theorem datagrams_decode (prefixBytes : Bytes) (maxFrameSize : Nat) :
    (∀ flow frames, 0 < flow → flow ≤ Varint.maxValue →
      (∀ f ∈ frames, isMessage f = true ∧ (f.1 = FrameType.message → f.2.length ≤ maxFrameSize) ∧
        f.2.length ≤ Varint.maxValue) →
      ∃ header d m, flowHeader prefixBytes flow = some header ∧
        ownDatagram prefixBytes (frames.foldl (fun d f => putMessageFrame d f.1 f.2) header) = some d ∧
        decode d maxFrameSize = some (flow, m) ∧ m.toList = some frames) ∧
    ∀ d,
      (decode d maxFrameSize = none ↔ ∀ flow n frames, Varint.decode d = some (flow, n) → Framed (d.drop n) frames →
        flow = 0 ∨ ∃ f ∈ frames, f.1 = FrameType.message ∧ maxFrameSize < f.2.length ∨
          f.1 = FrameType.zstdStreamMessage) ∧
      ∀ flow m, decode d maxFrameSize = some (flow, m) → ∃ n frames, Varint.decode d = some (flow, n) ∧
        Framed (d.drop n) frames ∧ ∀ fuel, d.length ≤ fuel → m.collect fuel = some (frames.filter isMessage) := by
  have hdrops (f : RawFrame) : dropsDatagram maxFrameSize f = false ↔
      ¬(f.1 = FrameType.message ∧ maxFrameSize < f.2.length ∨ f.1 = FrameType.zstdStreamMessage) := by
    simp [dropsDatagram]
  refine ⟨fun flow frames hpos hmax hf => ?_, fun d => ⟨?_, fun flow m hd => ?_⟩⟩
  · obtain ⟨bytes, hb⟩ := Option.isSome_iff_exists.mp ((Varint.encode_isSome_iff flow).mpr hmax)
    have hh : flowHeader prefixBytes flow = some (prefixBytes ++ bytes) := by simp [flowHeader, push, hb]
    have hk (f : RawFrame) (hmem : f ∈ frames) : f.1 ≤ Varint.maxValue ∧ dropsDatagram maxFrameSize f = false := by
      have ht : f.1 = FrameType.message ∨ f.1 = FrameType.zstdMessage := by simpa [isMessage] using (hf f hmem).1
      have hlen := (hf f hmem).2.1
      rw [hdrops]
      rcases ht with ht | ht <;> simp_all [FrameType.message, FrameType.zstdMessage, FrameType.zstdStreamMessage,
        Varint.maxValue]
    obtain ⟨d, m, hown, hd, hm⟩ := decode_packed hh hpos.ne' (fun f hmem => ⟨(hk f hmem).1, (hf f hmem).2.2⟩)
      fun f hmem => ⟨(hf f hmem).1, (hk f hmem).2⟩
    have hfold (fs : List RawFrame) (d : Bytes) :
        fs.foldl (fun d f => putMessageFrame d f.1 f.2) d = d ++ fs.flatMap frameBytes := by
      induction fs generalizing d with
      | nil => simp
      | cons f fs ih => rw [List.foldl_cons, ih, putMessageFrame_eq, List.append_assoc, List.flatMap_cons]
    exact ⟨_, d, m, hh, by rw [hfold, hown], hd, hm⟩
  · rw [Option.eq_none_iff_forall_ne_some]
    constructor
    · intro hno flow n fs hv hf
      by_contra hnot
      obtain ⟨hz, hg⟩ := not_or.mp hnot
      refine hno (flow, ⟨d, n⟩) (decode_eq_some.mpr ⟨n, fs, hv, hz, hf, fun f hmem => ?_, rfl⟩)
      exact (hdrops f).mpr fun hbad => hg ⟨f, hmem, hbad⟩
    · rintro hall ⟨flow, m⟩ hd
      obtain ⟨n, fs, hv, hz, hf, hg, -⟩ := decode_eq_some.mp hd
      obtain ⟨f, hmem, hbad⟩ := (hall flow n fs hv hf).resolve_left hz
      exact (hdrops f).mp (hg f hmem) hbad
  · obtain ⟨n, fs, hv, -, hf, -, rfl⟩ := decode_eq_some.mp hd
    have hn := Varint.decode_length hv
    exact ⟨n, fs, hv, hf, fun fuel hfuel => collect_eq hf rfl (by omega)⟩

/-- A MESSAGE over the limit drops the datagram that it was packed into. -/
theorem oversized_message_dropped :
    (flowHeader [] 1).bind (fun header => decode (putMessageFrame header FrameType.message [7]) 0) = none := by decide

end TrevRpc.Rust.Datagram
