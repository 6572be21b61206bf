import Mathlib.Data.Finset.Basic
import TrevRpc.Rust.Datagram.Codec
import TrevRpc.Zstd.Runtimes

/-! # Received datagrams (`datagram.go`) -/

open TrevRpc.Rust TrevRpc.Frames
open TrevRpc.Rust.Datagram (isMessage)

namespace TrevRpc.Go.Datagram

variable {Enc Dec : Type}

/-! ## The frames of a datagram -/

/-- The flow of a datagram, and its frames. -/
def parseDatagram (datagram : Bytes) : Option (Nat × Bytes) :=
  match Varint.decode datagram with
  | none => none
  | some (flow, n) => if flow = 0 then none else some (flow, datagram.drop n)

/-- The frames that `fn` is called with, and what the walk reports. -/
def walkLoop : Nat → Bytes → List RawFrame × Bool
  | 0, frames => ([], frames.isEmpty)
  | fuel + 1, frames =>
    if frames.isEmpty then ([], true)
    else
      match Varint.decode frames with
      | none => ([], false)
      | some (typ, n) =>
        let frames := frames.drop n
        match Varint.decode frames with
        | none => ([], false)
        | some (length, n) =>
          let frames := frames.drop n
          if frames.length < length ∨ typ = FrameType.zstdStreamMessage then ([], false)
          else
            let (called, ok) := walkLoop fuel (frames.drop length)
            if typ = FrameType.message ∨ typ = FrameType.zstdMessage then ((typ, frames.take length) :: called, ok)
            else (called, ok)

def walkDatagramFrames (frames : Bytes) : List RawFrame × Bool := walkLoop frames.length frames

/-! ## Compressed messages -/

/-- The dictionaries of a receiver; `none` is the nil interface. -/
abbrev DictionaryLookup := Option (Nat → Option Dict)

inductive InflateError
  | frameTooLarge (len max : Nat)
  | frameDecode (message : String)

/-- `Dict.Decompress`. -/
def decompress (z : Libzstd Enc Dec) (dict : Dict) (payload : Bytes) (header : Rust.Zstd.Header) :
    Except String Bytes :=
  match z.decompress dict.loaded payload header.contentSize with
  | .ok message => if message.length ≠ header.contentSize then .error Zstd.errInvalid else .ok message
  | .error _ => .error Zstd.errInvalid

def checkCompressed (dicts : DictionaryLookup) (payload : Bytes) (maxSize : Nat) :
    Except InflateError (Rust.Zstd.Header × Dict) :=
  match dicts with
  | none => .error (.frameDecode "compressed message where no dictionary is accepted")
  | some lookup =>
    match Zstd.parseHeader payload with
    | .error err => .error (.frameDecode err)
    | .ok header =>
      if maxSize < header.contentSize then .error (.frameTooLarge (min header.contentSize (2 ^ 63 - 1)) maxSize)
      else
        match lookup header.dictId with
        | none =>
          .error (.frameDecode
            ("compressed message uses dictionary " ++ toString header.dictId ++ ", which is not accepted"))
        | some dict => .ok (header, dict)

def inflateMessage (z : Libzstd Enc Dec) (dicts : DictionaryLookup) (payload : Bytes) (maxSize : Nat) :
    Except InflateError Bytes :=
  match checkCompressed dicts payload maxSize with
  | .error err => .error err
  | .ok (header, dict) => (decompress z dict payload header).mapError .frameDecode

/-! ## Sinks -/

def datagramSinkMessages : Nat := 128

def datagramSinkBytes : Nat := 64 * 1024

structure DatagramSink where
  maxMessage : Nat
  inflate : DictionaryLookup
  queue : List Bytes := []
  bytes : Nat := 0
  closed : Bool := false

namespace DatagramSink

def pushLocked (sink : DatagramSink) (message : Bytes) : DatagramSink :=
  if sink.closed || sink.queue.length = datagramSinkMessages || sink.maxMessage < message.length ||
      (0 < sink.queue.length && datagramSinkBytes < sink.bytes + message.length) then sink
  else { sink with queue := sink.queue ++ [message], bytes := sink.bytes + message.length }

def payload (z : Libzstd Enc Dec) (sink : DatagramSink) (frame : RawFrame) : Option Bytes :=
  if frame.1 = FrameType.zstdMessage then (inflateMessage z sink.inflate frame.2 sink.maxMessage).toOption
  else some frame.2

/-- Queues the messages of checked frames, all or none. -/
def pushFrames (z : Libzstd Enc Dec) (frames : Bytes) (sink : DatagramSink) : DatagramSink :=
  let compressed := (walkDatagramFrames frames).1.any fun frame => frame.1 = FrameType.zstdMessage
  if compressed then
    match (walkDatagramFrames frames).1.mapM (sink.payload z) with
    | none => sink
    | some messages => messages.foldl pushLocked sink
  else ((walkDatagramFrames frames).1.map Prod.snd).foldl pushLocked sink

end DatagramSink

/-! ## The multiplexer -/

structure HeldDatagram where
  flow : Nat
  frames : Bytes
  size : Nat
  deadline : Nat

structure DatagramMux where
  server : Bool
  flows : Nat → Option (Option DatagramSink)
  ended : Finset Nat
  held : List HeldDatagram
  heldBytes : Nat
  holdMessages : Nat
  holdBytes : Nat
  holdTime : Nat

def DatagramMux.dispatch (z : Libzstd Enc Dec) (datagram : Bytes) (now : Nat) (m : DatagramMux) : DatagramMux :=
  match parseDatagram datagram with
  | none => m
  | some (id, frames) =>
    if !(walkDatagramFrames frames).2 then m
    else
      match m.flows id with
      | some none => m
      | some (some sink) => { m with flows := Function.update m.flows id (some (some (sink.pushFrames z frames))) }
      | none =>
        if !m.server || id ∈ m.ended || m.holdMessages ≤ m.held.length ||
            m.holdBytes < m.heldBytes + datagram.length then m
        else
          { m with
            held := m.held ++ [⟨id, frames, datagram.length, now + m.holdTime⟩]
            heldBytes := m.heldBytes + datagram.length }

/-! ## What a walk finds -/

theorem walkLoop_succ (fuel : Nat) {bs : Bytes} (hne : bs ≠ []) :
    walkLoop (fuel + 1) bs =
      match read bs with
      | none => ([], false)
      | some (f, rest) =>
        if f.1 = FrameType.zstdStreamMessage then ([], false)
        else if isMessage f then (f :: (walkLoop fuel rest).1, (walkLoop fuel rest).2)
        else walkLoop fuel rest := by
  rw [walkLoop, if_neg (by simpa using hne)]
  unfold Frames.read
  cases htype : Varint.decode bs with
  | none => rfl
  | some d =>
    obtain ⟨typ, n⟩ := d
    cases hlen : Varint.decode (bs.drop n) with
    | none => simp [hlen]
    | some d =>
      obtain ⟨l, m⟩ := d
      by_cases hf : l ≤ ((bs.drop n).drop m).length
      · simp only [hlen, hf, not_lt.mpr hf, isMessage, Option.bind_eq_bind, Option.bind_some, if_true, false_or,
          Bool.or_eq_true, decide_eq_true_eq]
      · simp only [hlen, hf, not_le.mp hf, Option.bind_eq_bind, Option.bind_some, if_false, if_true, true_or]

theorem walkLoop_spec {fuel : Nat} {bs : Bytes} (hfuel : bs.length ≤ fuel) :
    (walkLoop fuel bs).2 = true ↔
      ∃ fs, Framed bs fs ∧ ∀ f ∈ fs, f.1 ≠ FrameType.zstdStreamMessage := by
  induction fuel generalizing bs with
  | zero =>
    obtain rfl := List.length_eq_zero_iff.mp (Nat.le_zero.mp hfuel)
    exact ⟨fun _ => ⟨[], .nil, by simp⟩, fun _ => rfl⟩
  | succ fuel ih =>
    rcases eq_or_ne bs [] with rfl | hne
    · exact ⟨fun _ => ⟨[], .nil, by simp⟩, fun _ => rfl⟩
    rw [walkLoop_succ fuel hne]
    cases hr : read bs with
    | none =>
      simp only [Bool.false_eq_true, false_iff, not_exists, not_and]
      exact fun fs hf => absurd hf (not_framed hne hr)
    | some fo =>
      obtain ⟨f, rest⟩ := fo
      have hih := @ih rest (by have := read_length hr; omega)
      simp only [framed_cons_iff hr]
      by_cases hs : f.1 = FrameType.zstdStreamMessage
      · simp only [if_pos hs, Bool.false_eq_true, false_iff]
        rintro ⟨_, ⟨os, rfl, -⟩, hg⟩
        exact hg f List.mem_cons_self hs
      · have hok : (if isMessage f then (f :: (walkLoop fuel rest).1, (walkLoop fuel rest).2)
            else walkLoop fuel rest).2 = (walkLoop fuel rest).2 := by split_ifs <;> rfl
        rw [if_neg hs, hok, hih]
        constructor
        · rintro ⟨os, hf, hg⟩
          exact ⟨_, ⟨os, rfl, hf⟩, by simpa [hs] using hg⟩
        · rintro ⟨_, ⟨os, rfl, hf⟩, hg⟩
          exact ⟨os, hf, fun o hmem => hg o (List.mem_cons_of_mem f hmem)⟩

theorem walkLoop_fst {fuel : Nat} {bs : Bytes} {fs : List RawFrame} (h : Framed bs fs)
    (hg : ∀ f ∈ fs, f.1 ≠ FrameType.zstdStreamMessage) (hfuel : bs.length ≤ fuel) :
    (walkLoop fuel bs).1 = fs.filter isMessage := by
  induction h generalizing fuel with
  | nil => cases fuel <;> rfl
  | @cons bs rest f fs hre _ ih =>
    have hlen := read_length hre
    have hne : bs ≠ [] := List.ne_nil_of_length_pos (by omega)
    obtain ⟨fuel, rfl⟩ := Nat.exists_eq_add_one_of_ne_zero (show fuel ≠ 0 by omega)
    have hr := @ih fuel (fun o hmem => hg o (List.mem_cons_of_mem f hmem)) (by omega)
    rw [walkLoop_succ fuel hne, hre, List.filter_cons]
    simp only [if_neg (hg f List.mem_cons_self)]
    split_ifs
    · rw [hr]
    · exact hr

/-! ## What a sink takes -/

namespace DatagramSink

variable {z : Libzstd Enc Dec} {sink : DatagramSink}

theorem mapM_payload {fs : List RawFrame} (h : ∀ f ∈ fs, f.1 ≠ FrameType.zstdMessage) :
    fs.mapM (sink.payload z) = some (fs.map Prod.snd) := by
  induction fs with
  | nil => rfl
  | cons f rest ih =>
    have hp : sink.payload z f = some f.2 := if_neg (h f List.mem_cons_self)
    rw [List.mapM_cons, ih fun o hmem => h o (List.mem_cons_of_mem f hmem), hp]
    rfl

theorem pushFrames_eq (z : Libzstd Enc Dec) (fs : Bytes) (sink : DatagramSink) :
    sink.pushFrames z fs =
      (((walkDatagramFrames fs).1.mapM (sink.payload z)).getD []).foldl pushLocked sink := by
  unfold pushFrames
  generalize (walkDatagramFrames fs).1 = walked
  by_cases hc : (walked.any fun f => f.1 = FrameType.zstdMessage) = true
  · simp only [if_pos hc]
    cases walked.mapM (sink.payload z) <;> rfl
  · simp only [if_neg hc]
    have hp : ∀ f ∈ walked, f.1 ≠ FrameType.zstdMessage := fun f hmem ht =>
      hc (List.any_eq_true.mpr ⟨f, hmem, decide_eq_true ht⟩)
    rw [mapM_payload hp, Option.getD_some]

theorem pushLocked_eq {m : Bytes} (ho : sink.closed = false)
    (hc : sink.queue.length < datagramSinkMessages) (hb : sink.bytes + m.length ≤ datagramSinkBytes) :
    sink.pushLocked m =
      if m.length ≤ sink.maxMessage then
        { sink with queue := sink.queue ++ [m], bytes := sink.bytes + m.length }
      else sink := by
  have hc' : sink.queue.length ≠ datagramSinkMessages := hc.ne
  unfold pushLocked
  by_cases hlen : m.length ≤ sink.maxMessage
  · simp [ho, hc', hlen, hb]
  · simp [hlen]

theorem foldl_pushLocked (ms : List Bytes) (ho : sink.closed = false)
    (hc : sink.queue.length + ms.length ≤ datagramSinkMessages)
    (hb : sink.bytes + (ms.map List.length).sum ≤ datagramSinkBytes) :
    (ms.foldl pushLocked sink).queue =
      sink.queue ++ ms.filter fun m => m.length ≤ sink.maxMessage := by
  induction ms generalizing sink with
  | nil => simp
  | cons m rest ih =>
    simp only [List.length_cons, List.map_cons, List.sum_cons] at hc hb
    rw [List.foldl_cons, List.filter_cons, pushLocked_eq ho (by omega) (by omega)]
    by_cases hlen : m.length ≤ sink.maxMessage
    · have hr := @ih { sink with queue := sink.queue ++ [m], bytes := sink.bytes + m.length } ho
        (by simp only [List.length_append, List.length_singleton]; omega) (by dsimp only; omega)
      rw [if_pos hlen, hr]
      simp [hlen]
    · rw [if_neg hlen, ih ho (by omega) (by omega)]
      simp [hlen]

end DatagramSink

/-! ## Compressed messages are inflated as in Rust -/

def lookupOrNil : Accept → DictionaryLookup
  | .none => none
  | accept => some accept.lookup

theorem parseHeader_eq (payload : Bytes) : (Zstd.parseHeader payload).toOption = Rust.Zstd.parseHeader payload := by
  rw [Zstd.parseHeader, TrevRpc.Zstd.toOption_elim, TrevRpc.Zstd.nextBlock_eq.1]
  have ha (l : Nat) (hl : 2 ^ 32 ≤ l) :=
    TrevRpc.Zstd.parseHeader_agree (TrevRpc.Zstd.orShifted_exact l) hl payload
  generalize TrevRpc.Zstd.parseHeader _ _ payload = parsed at ha ⊢
  cases hr : Rust.Zstd.parseHeader payload with
  | none =>
    cases parsed with
    | none => rfl
    | some header => simpa [hr, TrevRpc.Zstd.Agree] using ha (2 ^ 32) le_rfl
  | some rust =>
    cases parsed with
    | none => simpa [hr, TrevRpc.Zstd.Agree] using ha (2 ^ 32) le_rfl
    | some header =>
      -- The reads are exact up to any limit, also one above the content size.
      obtain ⟨hid, hs⟩ := hr ▸ ha (2 ^ 32 + rust.contentSize + 1) (by omega)
      have hs := hs (by omega)
      cases rust
      cases header
      simp_all

theorem decompress_eq (z : Libzstd Enc Dec) (dict : Dict) (p : Bytes) (header : Rust.Zstd.Header) :
    (decompress z dict p header).toOption = (dict.decompress z p header).toOption := by
  unfold decompress Dict.decompress
  cases z.decompress dict.loaded p header.contentSize with
  | error => rfl
  | ok m =>
    by_cases hlen : m.length = header.contentSize
    · simp [hlen]
    · simp only [hlen, ne_eq, not_false_eq_true, if_true, if_false]
      rfl

theorem toOption_mapError {ε ε' α : Type*} (f : ε → ε') (e : Except ε α) : (e.mapError f).toOption = e.toOption := by
  cases e <;> rfl

/-- What both make of a payload. -/
def inflated (z : Libzstd Enc Dec) (accept : Accept) (payload : Bytes) (maxSize : Nat) : Option Bytes :=
  (Rust.Zstd.parseHeader payload).bind fun header =>
    if maxSize < header.contentSize then none
    else (accept.lookup header.dictId).bind fun dict => (dict.decompress z payload header).toOption

theorem rust_inflate_eq (z : Libzstd Enc Dec) (a : Accept) (p : Bytes) (maxSize : Nat) :
    (Rust.inflate z a p maxSize).toOption = inflated z a p maxSize := by
  unfold Rust.inflate inflated
  cases Rust.Zstd.parseHeader p with
  | none => cases a <;> rfl
  | some header =>
    by_cases hs : maxSize < header.contentSize
    · cases a <;> simp [hs] <;> rfl
    · cases hl : a.lookup header.dictId with
      | none => cases a <;> simp [hs, hl] <;> rfl
      | some dict =>
        cases a with
        | none => cases hl
        | one | all =>
          simp only [hs, hl, if_false, Option.bind_some]
          exact toOption_mapError _ _

theorem inflateMessage_eq (z : Libzstd Enc Dec) (a : Accept) (p : Bytes) (maxSize : Nat) :
    (inflateMessage z (lookupOrNil a) p maxSize).toOption = inflated z a p maxSize := by
  unfold inflateMessage checkCompressed inflated
  rw [← parseHeader_eq]
  rcases eq_or_ne a .none with rfl | hs
  · cases (Zstd.parseHeader p).toOption <;> simp [lookupOrNil, Accept.lookup] <;> rfl
  have hl : lookupOrNil a = some a.lookup := by cases a <;> first | rfl | exact absurd rfl hs
  rw [hl]
  cases Zstd.parseHeader p with
  | error err => rfl
  | ok header =>
    simp only [Except.toOption, Option.bind_some]
    split_ifs
    · rfl
    · cases a.lookup header.dictId with
      | none => rfl
      | some dict => exact (toOption_mapError _ _).trans (decompress_eq z dict p header)

end TrevRpc.Go.Datagram
