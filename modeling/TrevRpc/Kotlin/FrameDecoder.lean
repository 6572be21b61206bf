import Mathlib.Data.List.Infix
import TrevRpc.Lib.Varint

/-!
# The frame decoder (`Framing.kt`)

When `feed` throws, the frames that it has collected are lost. So how a stream ends does not depend on its chunks, but
the frames before an oversized one do.
-/

namespace TrevRpc.Kotlin

inductive Phase
  | type
  | length
  | payload
  | skip
  deriving DecidableEq

structure Frame where
  type : Nat
  payload : List UInt8
  deriving DecidableEq

/-- The status of a `TrevRpcException`. -/
inductive DecodeError
  | resourceExhausted (message : String)
  | internal (message : String)
  deriving DecidableEq

def FrameType.isKnown (type : Nat) : Bool := type ≤ 6

/-- Of the arrays `varint` and `payload`, the bytes that were copied there. -/
structure FrameDecoder where
  maxFrameSize : Nat
  varint : List UInt8 := []
  varintLength : Nat := 0
  phase : Phase := .type
  type : Nat := 0
  payload : List UInt8 := []
  payloadSize : Nat := 0
  skipRemaining : Nat := 0
  failure : Option DecodeError := none
  deriving DecidableEq

namespace FrameDecoder

def resetFrame (d : FrameDecoder) : FrameDecoder :=
  { d with phase := .type, payload := [], payloadSize := 0, skipRemaining := 0 }

def takeVarint (d : FrameDecoder) : Nat × FrameDecoder :=
  ((Varint.decode d.varint).elim 0 (·.1), { d with varint := [], varintLength := 0 })

def startPayload (declared : Nat) (d : FrameDecoder) : Except DecodeError (FrameDecoder × List Frame) :=
  if d.maxFrameSize < declared then
    .error (.resourceExhausted
      ("declared frame payload is " ++ toString declared ++ " bytes, maximum is " ++ toString d.maxFrameSize))
  else if declared = 0 then .ok (d.resetFrame, if FrameType.isKnown d.type then [⟨d.type, []⟩] else [])
  else if FrameType.isKnown d.type then .ok ({ d with payload := [], payloadSize := declared, phase := .payload }, [])
  else .ok ({ d with skipRemaining := declared, phase := .skip }, [])

def readLength (d : FrameDecoder) (first : UInt8) : Nat :=
  if d.varintLength = 0 then Varint.lenFromFirstByte first else d.varintLength

def missing (d : FrameDecoder) (first : UInt8) : Nat :=
  match d.phase with
  | .type | .length => d.readLength first - d.varint.length
  | .payload => d.payloadSize - d.payload.length
  | .skip => d.skipRemaining

def copyInto (d : FrameDecoder) (first : UInt8) (copied : List UInt8) : FrameDecoder :=
  match d.phase with
  | .type | .length => { d with varintLength := d.readLength first, varint := d.varint ++ copied }
  | .payload => { d with payload := d.payload ++ copied }
  | .skip => { d with skipRemaining := d.skipRemaining - copied.length }

/-- What a round of `feed` does with the bytes it has copied: the frames it adds. -/
def settle (d : FrameDecoder) : Except DecodeError (FrameDecoder × List Frame) :=
  match d.phase with
  | .type =>
    if d.varintLength ≠ 0 ∧ d.varint.length = d.varintLength then
      let (type, d) := d.takeVarint
      .ok ({ d with type, phase := .length }, [])
    else .ok (d, [])
  | .length =>
    if d.varintLength ≠ 0 ∧ d.varint.length = d.varintLength then
      let (declared, d) := d.takeVarint
      d.startPayload declared
    else .ok (d, [])
  | .payload => if d.payload.length = d.payloadSize then .ok (d.resetFrame, [⟨d.type, d.payload⟩]) else .ok (d, [])
  | .skip => .ok (if d.skipRemaining = 0 then d.resetFrame else d, [])

/-- The loop of `feed`, with no more rounds than bytes. -/
def loop : Nat → FrameDecoder → List UInt8 → Except DecodeError (FrameDecoder × List Frame)
  | _, d, [] => .ok (d, [])
  | 0, d, _ :: _ => .ok (d, [])
  | rounds + 1, d, first :: rest => do
    let copied := min (d.missing first) (rest.length + 1)
    let (d, frames) ← (d.copyInto first ((first :: rest).take copied)).settle
    let (d, more) ← loop rounds d ((first :: rest).drop copied)
    return (d, frames ++ more)

def feed (d : FrameDecoder) (chunk : List UInt8) : FrameDecoder × Except DecodeError (List Frame) :=
  match d.failure with
  | some error => (d, .error error)
  | none =>
    match d.loop chunk.length chunk with
    | .error error => ({ d with failure := some error }, .error error)
    | .ok (d, frames) => (d, .ok frames)

def finish (d : FrameDecoder) : Except DecodeError Unit :=
  match d.failure with
  | some error => .error error
  | none =>
    if d.phase ≠ .type ∨ d.varint.length ≠ 0 then .error (.internal "framed stream ended with a partial frame")
    else .ok ()

/-- The frames of the calls of `feed` up to one that throws, and the end of the stream. -/
def feedAll : FrameDecoder → List (List UInt8) → List Frame × Except DecodeError Unit
  | d, [] => ([], d.finish)
  | d, chunk :: chunks =>
    match d.feed chunk with
    | (_, .error error) => ([], .error error)
    | (d, .ok frames) => (frames ++ (feedAll d chunks).1, (feedAll d chunks).2)

/-! ## One byte at a time -/

structure Sane (maxFrameSize : Nat) (d : FrameDecoder) : Prop where
  maxFrameSize : d.maxFrameSize = maxFrameSize
  varint : d.varint.length < d.varintLength ∨ d.varint = [] ∧ d.varintLength = 0
  payload : d.phase = .payload → d.payload.length < d.payloadSize
  skip : d.phase = .skip → 0 < d.skipRemaining
  failure : d.failure = none

variable {maxFrameSize : Nat} {d d' : FrameDecoder} {first : UInt8} {rest : List UInt8} {frames : List Frame}

theorem Sane.missing_pos (h : d.Sane maxFrameSize) (first : UInt8) : 0 < d.missing first := by
  have hl := Varint.lenFromFirstByte_pos first
  obtain ⟨-, hv, hp, hs, -⟩ := h
  cases hphase : d.phase <;> grind [missing, readLength]

theorem Sane.copy (h : d.Sane maxFrameSize) (hm : 1 < d.missing first) :
    (d.copyInto first [first]).Sane maxFrameSize := by
  obtain ⟨hm', hv, hp, hs, hf⟩ := h
  cases hphase : d.phase <;> constructor <;> grind [missing, readLength, copyInto]

theorem settle_more (h : d.Sane maxFrameSize) (hm : 1 < d.missing first) :
    (d.copyInto first [first]).settle = .ok (d.copyInto first [first], []) := by
  obtain ⟨hm', hv, hp, hs, hf⟩ := h
  cases hphase : d.phase <;> grind [missing, readLength, copyInto, settle]

theorem copy_more (next : UInt8) (more : List UInt8) :
    (d.copyInto first [first]).missing next = d.missing first - 1 ∧
      (d.copyInto first [first]).copyInto next more = d.copyInto first (first :: more) := by
  have hz : d.readLength first ≠ 0 := by
    have hl := Varint.lenFromFirstByte_pos first
    grind [readLength]
  have hl (e : FrameDecoder) (he : e.varintLength = d.readLength first) : e.readLength next = d.readLength first := by
    rw [readLength, he, if_neg hz]
  cases hphase : d.phase <;> simp [missing, copyInto, hphase, hl, Nat.sub_sub, Nat.add_comm]

theorem sane_settle (h : d.Sane maxFrameSize) (hm : d.missing first = 1)
    (hs : (d.copyInto first [first]).settle = .ok (d', frames)) : d'.Sane maxFrameSize := by
  obtain ⟨hm', hv, hp, hsk, hf⟩ := h
  cases hphase : d.phase <;> constructor <;>
    grind [missing, readLength, copyInto, settle, startPayload, takeVarint, resetFrame]

variable {T : Type}

/-- Frames that came before a result. -/
def prepend (frames : List Frame) (r : List Frame × T) : List Frame × T := (frames ++ r.1, r.2)

@[simp] theorem prepend_mk (more : List Frame) (r : T) : prepend frames (more, r) = (frames ++ more, r) := rfl

@[simp] theorem prepend_nil (r : List Frame × T) : prepend [] r = r := rfl

@[simp] theorem prepend_prepend (more : List Frame) (r : List Frame × T) :
    prepend frames (prepend more r) = prepend (frames ++ more) r := by
  simp [prepend]

/-- The decoder, one byte at a time. -/
def scan : FrameDecoder → List UInt8 → List Frame × Except DecodeError FrameDecoder
  | d, [] => ([], .ok d)
  | d, first :: rest =>
    match (d.copyInto first [first]).settle with
    | .error error => ([], .error error)
    | .ok (d, frames) => prepend frames (scan d rest)

theorem scan_append (d : FrameDecoder) (xs ys : List UInt8) :
    d.scan (xs ++ ys) = match d.scan xs with
      | (frames, .error error) => (frames, .error error)
      | (frames, .ok d) => prepend frames (d.scan ys) := by
  induction xs generalizing d with
  | nil => rfl
  | cons first rest ih =>
    simp only [List.cons_append, scan]
    split
    · rfl
    · next d frames _ =>
      rw [ih]
      rcases d.scan rest with ⟨more, error | d⟩ <;> simp

theorem byte_scan (h : d.Sane maxFrameSize) (first : UInt8) :
    match (d.copyInto first [first]).settle with
    | .error error => d.scan [first] = ([], .error error)
    | .ok (d', frames) => d'.Sane maxFrameSize ∧ d.scan [first] = (frames, .ok d') := by
  split
  · next hset => simp [scan, hset]
  · next hset =>
    refine ⟨?_, by simp [scan, hset]⟩
    rcases Nat.lt_or_eq_of_le (h.missing_pos first) with hm | hm
    · cases (settle_more h hm).symm.trans hset
      exact h.copy hm
    · exact sane_settle h hm.symm hset

theorem scan_short {bytes : List UInt8} (h : d.Sane maxFrameSize) (hlt : bytes.length < d.missing (bytes.headD 0)) :
    ∃ d', d.scan bytes = ([], .ok d') := by
  induction bytes generalizing d with
  | nil => exact ⟨d, rfl⟩
  | cons first rest ih =>
    rw [List.headD_cons, List.length_cons] at hlt
    have hm : 1 < d.missing first := by omega
    obtain ⟨d', hrest⟩ := ih (h.copy hm) (by rw [(copy_more _ []).1]; omega)
    exact ⟨d', by simp [scan, settle_more h hm, hrest]⟩

theorem round_scan (h : d.Sane maxFrameSize) (first : UInt8) (rest : List UInt8) :
    match (d.copyInto first ((first :: rest).take (min (d.missing first) (rest.length + 1)))).settle with
    | .error error =>
      d.scan ((first :: rest).take (min (d.missing first) (rest.length + 1))) = ([], .error error)
    | .ok (d', frames) => d'.Sane maxFrameSize ∧
      d.scan ((first :: rest).take (min (d.missing first) (rest.length + 1))) = (frames, .ok d') := by
  have hpos := h.missing_pos first
  induction rest generalizing d first with
  | nil =>
    rw [show min (d.missing first) (List.length [] + 1) = 1 by simp; omega]
    exact byte_scan h first
  | cons next rest ih =>
    rcases Nat.lt_or_eq_of_le hpos with hm | hm
    · have hnext := h.copy hm
      obtain ⟨hmiss, hcopy⟩ := @copy_more d first next
        ((next :: rest).take (min (d.missing first - 1) (rest.length + 1)))
      have hround := ih hnext next (hnext.missing_pos next)
      rw [hmiss, hcopy] at hround
      rw [show min (d.missing first) ((next :: rest).length + 1) = min (d.missing first - 1) (rest.length + 1) + 1 by
        simp; omega, List.take_succ_cons]
      simpa [scan, settle_more h hm] using hround
    · rw [show min (d.missing first) ((next :: rest).length + 1) = 1 by omega]
      exact byte_scan h first

theorem scan_round (h : d.Sane maxFrameSize) (first : UInt8) (rest : List UInt8) {n : Nat}
    (hn : n = min (d.missing first) (rest.length + 1)) :
    match (d.copyInto first ((first :: rest).take n)).settle with
    | .error error => d.scan (first :: rest) = ([], .error error)
    | .ok (d', frames) => d'.Sane maxFrameSize ∧
        d.scan (first :: rest) = prepend frames (d'.scan ((first :: rest).drop n)) := by
  have hround := round_scan h first rest
  have happend := scan_append d ((first :: rest).take n) ((first :: rest).drop n)
  rw [List.take_append_drop] at happend
  rw [← hn] at hround
  rcases hset : (d.copyInto first ((first :: rest).take n)).settle with error | ⟨d', frames⟩
  · simp only [hset] at hround
    rw [happend, hround]
  · simp only [hset] at hround
    refine ⟨hround.1, ?_⟩
    rw [happend, hround.2]

theorem loop_scan {rounds : Nat} {bs : List UInt8} (h : d.Sane maxFrameSize) (hr : bs.length ≤ rounds) :
    match d.scan bs with
    | (_, .error error) => d.loop rounds bs = .error error
    | (frames, .ok d') => d'.Sane maxFrameSize ∧ d.loop rounds bs = .ok (d', frames) := by
  induction rounds generalizing d bs with
  | zero =>
    obtain rfl := List.eq_nil_of_length_eq_zero (Nat.le_zero.mp hr)
    exact ⟨h, rfl⟩
  | succ rounds ih =>
    cases bs with
    | nil => exact ⟨h, rfl⟩
    | cons first rest =>
      have hpos := h.missing_pos first
      simp only [loop]
      generalize hn : min (d.missing first) (rest.length + 1) = n
      have hround := scan_round h first rest hn.symm
      rcases hset : (d.copyInto first ((first :: rest).take n)).settle with error | ⟨d', frames⟩
      · simp only [hset] at hround
        simp [hround, bind, Except.bind]
      · simp only [hset] at hround
        have hrest := @ih d' ((first :: rest).drop n) hround.1 (by simp at hr ⊢; omega)
        simp only [hround.2, bind, Except.bind]
        rcases hsc : d'.scan ((first :: rest).drop n) with ⟨more, error | d''⟩
        · simp only [hsc] at hrest
          simp [hrest]
        · simp only [hsc] at hrest
          simp [hrest, pure, Except.pure]

/-! ## Chunks -/

variable {chunk : List UInt8} {error : DecodeError}

theorem feed_ok (h : d.Sane maxFrameSize) (hs : d.scan chunk = (frames, .ok d')) :
    d'.Sane maxFrameSize ∧ d.feed chunk = (d', .ok frames) := by
  have hl := loop_scan h (le_refl chunk.length)
  rw [hs] at hl
  exact ⟨hl.1, by simp [feed, h.failure, hl.2]⟩

theorem feed_error (h : d.Sane maxFrameSize) (hs : d.scan chunk = (frames, .error error)) :
    d.feed chunk = ({ d with failure := some error }, .error error) := by
  have hl := loop_scan h (le_refl chunk.length)
  rw [hs] at hl
  simp [feed, h.failure, hl]

theorem feedAll_scan (h : d.Sane maxFrameSize) (cs : List (List UInt8)) :
    match d.scan cs.flatten with
    | (frames, .error error) =>
      (d.feedAll cs).1 <+: frames ∧ (d.feedAll cs).2 = .error error
    | (frames, .ok d') => d.feedAll cs = (frames, d'.finish) := by
  induction cs generalizing d with
  | nil => rfl
  | cons chunk cs ih =>
    rw [List.flatten_cons, scan_append]
    rcases hs : d.scan chunk with ⟨frames, error | d'⟩
    · simp [feedAll, feed_error h hs]
    · obtain ⟨hsane, hfeed⟩ := feed_ok h hs
      have hrest := ih hsane
      simp only [feedAll, hfeed]
      split at hrest
      · next hsc => simpa [hsc] using hrest
      · next hsc => simp [hsc, hrest]

theorem feedAll_bytes (h : d.Sane maxFrameSize) (bs : List UInt8) :
    (d.feedAll (bs.map ([·]))).1 = (d.scan bs).1 := by
  induction bs generalizing d with
  | nil => rfl
  | cons first rest ih =>
    simp only [List.map_cons, feedAll]
    cases hset : (d.copyInto first [first]).settle with
    | error error =>
      have hs : d.scan [first] = ([], .error error) := by simp [scan, hset]
      simp [feed_error h hs, scan, hset]
    | ok r =>
      have hs : d.scan [first] = (r.2, .ok r.1) := by simp [scan, hset]
      obtain ⟨hsane, hfeed⟩ := feed_ok h hs
      simp [hfeed, scan, hset, prepend, ih hsane]

/-! ## Frames in a byte string

What the format says of the bytes, without a decoder. -/

/-- The type and the declared length at the start of the bytes, and what follows them. -/
def header (bytes : List UInt8) : Option (Nat × Nat × List UInt8) := do
  let (type, n) ← Varint.decode bytes
  let (declared, m) ← Varint.decode (bytes.drop n)
  return (type, declared, (bytes.drop n).drop m)

/-- A frame of an unknown type is dropped. -/
def known (type : Nat) (payload : List UInt8) : List Frame :=
  if FrameType.isKnown type then [⟨type, payload⟩] else []

/-- After whole frames, of which `frames` are known, the bytes have the header of one that is too large. -/
inductive Overflows (maxFrameSize : Nat) : List UInt8 → List Frame → Prop
  | here {bytes type declared rest} (hheader : header bytes = some (type, declared, rest))
      (hlarge : maxFrameSize < declared) : Overflows maxFrameSize bytes []
  | after {bytes type declared rest frames} (hheader : header bytes = some (type, declared, rest))
      (hfits : declared ≤ maxFrameSize) (hwhole : declared ≤ rest.length)
      (hrest : Overflows maxFrameSize (rest.drop declared) frames) :
      Overflows maxFrameSize bytes (known type (rest.take declared) ++ frames)

/-- No varint has been begun. -/
structure Fresh (maxFrameSize : Nat) (d : FrameDecoder) : Prop where
  sane : d.Sane maxFrameSize
  varintLength : d.varintLength = 0

variable {bytes : List UInt8}

theorem Fresh.varint (h : d.Fresh maxFrameSize) : d.varint = [] := by
  have hv := h.sane.varint
  rw [h.varintLength] at hv
  exact (hv.resolve_left (Nat.not_lt_zero _)).1

theorem Fresh.missing (h : d.Fresh maxFrameSize) (hp : d.phase = .type ∨ d.phase = .length) (first : UInt8) :
    d.missing first = Varint.lenFromFirstByte first := by
  rcases hp with hp | hp <;> simp [FrameDecoder.missing, hp, readLength, h.varintLength, h.varint]

theorem scan_no_varint (h : d.Fresh maxFrameSize) (hp : d.phase = .type ∨ d.phase = .length)
    (hdec : Varint.decode bytes = none) : ∃ d', d.scan bytes = ([], .ok d') := by
  cases bytes with
  | nil => exact ⟨d, rfl⟩
  | cons first rest =>
    refine scan_short h.sane ?_
    rw [List.headD_cons, h.missing hp, ← not_le, ← Varint.decode_isSome_iff, hdec]
    nofun

/-- A varint that is there as a whole ends the phase. -/
theorem scan_varint (h : d.Fresh maxFrameSize) {v n : Nat} (hdec : Varint.decode bytes = some (v, n)) :
    match d.phase with
    | .type => d.scan bytes = { d with type := v, phase := .length }.scan (bytes.drop n)
    | .length =>
      match d.startPayload v with
      | .error error => d.scan bytes = ([], .error error)
      | .ok (d', frames) => d'.Sane maxFrameSize ∧ d.scan bytes = prepend frames (d'.scan (bytes.drop n))
    | _ => True := by
  obtain ⟨first, rest, rfl⟩ := List.exists_cons_of_ne_nil (l := bytes) (by rintro rfl; cases hdec)
  obtain ⟨hpos, hle⟩ := Varint.decode_length hdec
  have hlen := Varint.decode_snd hdec
  have hround (hp : d.phase = .type ∨ d.phase = .length) := scan_round h.sane first rest (n := n)
    (by rw [h.missing hp, ← hlen]; exact (min_eq_left hle).symm)
  have hwhole : n ≠ 0 ∧ ((first :: rest).take n).length = n := ⟨hpos.ne', List.length_take_of_le hle⟩
  have htake := Varint.decode_take hdec
  split
  · next hp =>
    have hround := hround (.inl hp)
    simp only [copyInto, hp, settle, readLength, h.varintLength, h.varint, ← hlen, if_true, List.nil_append,
      if_pos hwhole, takeVarint, htake] at hround
    rw [hround.2, h.varintLength, h.varint]
    rfl
  · next hp =>
    have hround := hround (.inr hp)
    have hd : { d with varintLength := 0, varint := [], phase := .length } = d := by
      simp [← h.varintLength, ← h.varint, ← hp]
    simpa only [copyInto, hp, settle, readLength, h.varintLength, h.varint, ← hlen, if_true, List.nil_append,
      if_pos hwhole, takeVarint, htake, Option.elim_some, hd] using hround
  · trivial

/-- A payload, or what is skipped of an unknown frame. -/
theorem scan_body (ended : List UInt8 → List Frame) (h : d.Fresh maxFrameSize) {declared : Nat}
    (hmissing : ∀ first, d.missing first = declared)
    (hkept : ∀ first copied, (d.copyInto first copied).varintLength = 0)
    (hended : ∀ first (copied : List UInt8), copied.length = declared →
      (d.copyInto first copied).settle = .ok ((d.copyInto first copied).resetFrame, ended copied))
    (bytes : List UInt8) :
    if declared ≤ bytes.length then ∃ d' : FrameDecoder, d'.Fresh maxFrameSize ∧ d'.phase = .type ∧
      d.scan bytes = prepend (ended (bytes.take declared)) (d'.scan (bytes.drop declared))
    else ∃ d', d.scan bytes = ([], .ok d') := by
  split
  · next hle =>
    have hpos := h.sane.missing_pos 0
    rw [hmissing] at hpos
    obtain ⟨first, rest, rfl⟩ := List.exists_cons_of_length_pos (hpos.trans_le hle)
    have hround := scan_round h.sane first rest (n := declared) (by rw [hmissing]; exact (min_eq_left hle).symm)
    rw [hended first _ (List.length_take_of_le hle)] at hround
    exact ⟨_, ⟨hround.1, hkept _ _⟩, rfl, hround.2⟩
  · next hlt => exact scan_short h.sane (by rw [hmissing]; exact not_le.mp hlt)

theorem scan_started {declared : Nat} (h : d.Fresh maxFrameSize) (hsane : d'.Sane maxFrameSize)
    (hstart : d.startPayload declared = .ok (d', frames)) (bytes : List UInt8) :
    declared ≤ d.maxFrameSize ∧
    if declared ≤ bytes.length then ∃ e : FrameDecoder, e.Fresh maxFrameSize ∧ e.phase = .type ∧
      prepend frames (d'.scan bytes) =
        prepend (known d.type (bytes.take declared)) (e.scan (bytes.drop declared))
    else ∃ e, prepend frames (d'.scan bytes) = ([], .ok e) := by
  have hl := h.varintLength
  unfold startPayload at hstart
  split_ifs at hstart with hlarge hzero hknown hknown <;> cases hstart <;> refine ⟨not_lt.mp hlarge, ?_⟩
  · rw [hzero, if_pos (Nat.zero_le _)]
    exact ⟨_, ⟨hsane, hl⟩, rfl, by simp [known, hknown]⟩
  · rw [hzero, if_pos (Nat.zero_le _)]
    exact ⟨_, ⟨hsane, hl⟩, rfl, by simp [known, hknown]⟩
  · simpa [known, hknown] using scan_body (fun copied => [⟨d.type, copied⟩]) ⟨hsane, hl⟩ (fun _ => rfl)
      (fun _ _ => hl) (fun first copied hc => by simp [copyInto, settle, hc]) bytes
  · simpa [known, hknown] using scan_body (fun _ => []) ⟨hsane, hl⟩ (fun _ => rfl) (fun _ _ => hl)
      (fun first copied hc => by simp [copyInto, settle, hc]) bytes

/-- The decoder against `header`, one frame at a time. -/
theorem scan_frame (h : d.Fresh maxFrameSize) (hp : d.phase = .type) (bytes : List UInt8) :
    match header bytes with
    | none => ∃ d', d.scan bytes = ([], .ok d')
    | some (type, declared, rest) =>
      if maxFrameSize < declared then ∃ error, d.scan bytes = ([], .error error)
      else if declared ≤ rest.length then ∃ d' : FrameDecoder, d'.Fresh maxFrameSize ∧ d'.phase = .type ∧
        d.scan bytes = prepend (known type (rest.take declared)) (d'.scan (rest.drop declared))
      else ∃ d', d.scan bytes = ([], .ok d') := by
  obtain rfl := h.sane.maxFrameSize
  unfold header
  cases htype : Varint.decode bytes with
  | none => exact scan_no_varint h (.inl hp) htype
  | some r =>
    obtain ⟨type, n⟩ := r
    have hscan := scan_varint h htype
    rw [hp] at hscan
    have hnext : Fresh d.maxFrameSize { d with type, phase := .length } :=
      ⟨⟨rfl, h.sane.varint, nofun, nofun, h.sane.failure⟩, h.varintLength⟩
    simp only [Option.bind_eq_bind, Option.bind_some, hscan]
    cases hlen : Varint.decode (bytes.drop n) with
    | none => exact scan_no_varint hnext (.inr rfl) hlen
    | some r =>
      obtain ⟨declared, m⟩ := r
      have hscan := scan_varint hnext hlen
      simp only [Option.bind_some, pure] at hscan ⊢
      split at hscan
      · next error hstart =>
        unfold startPayload at hstart
        split_ifs at hstart with hlarge
        rw [if_pos hlarge]
        exact ⟨error, hscan⟩
      · next hstart =>
        obtain ⟨hle, hstarted⟩ := scan_started hnext hscan.1 hstart ((bytes.drop n).drop m)
        rw [if_neg (not_lt.mpr hle), hscan.2]
        exact hstarted

theorem header_length {type declared : Nat} (h : header bytes = some (type, declared, rest)) :
    rest.length < bytes.length := by
  simp only [header, Option.bind_eq_bind, Option.bind_eq_some_iff, Prod.exists, pure, Option.some.injEq] at h
  obtain ⟨type, n, htype, declared, m, -, h⟩ := h
  cases h
  have hn := Varint.decode_length htype
  simp only [List.length_drop]
  omega

theorem overflows_of_scan (h : d.Fresh maxFrameSize) (hp : d.phase = .type)
    (hs : d.scan bytes = (frames, .error error)) : Overflows maxFrameSize bytes frames := by
  induction hn : bytes.length using Nat.strong_induction_on generalizing d bytes frames with
  | _ n ih =>
    have hscan := scan_frame h hp bytes
    rw [hs] at hscan
    split at hscan
    · obtain ⟨_, hok⟩ := hscan
      cases hok
    · next hheader =>
      split_ifs at hscan with hlarge hwhole
      · obtain ⟨_, herr⟩ := hscan
        cases herr
        exact .here hheader hlarge
      · obtain ⟨d', hfresh, hphase, hrest⟩ := hscan
        obtain ⟨rfl, herr⟩ := Prod.mk.inj hrest
        have hlength := header_length hheader
        exact .after hheader (not_lt.mp hlarge) hwhole
          (ih _ (by simp only [List.length_drop]; omega) hfresh hphase (Prod.ext rfl herr.symm) rfl)
      · obtain ⟨_, hok⟩ := hscan
        cases hok

theorem scan_of_overflows (h : d.Fresh maxFrameSize) (hp : d.phase = .type) (ho : Overflows maxFrameSize bytes frames) :
    ∃ error, d.scan bytes = (frames, .error error) := by
  induction ho generalizing d with
  | @here bytes _ _ _ hheader hlarge =>
    have hscan := scan_frame h hp bytes
    rw [hheader] at hscan
    simpa only [if_pos hlarge] using hscan
  | @after bytes _ _ _ _ hheader hfits hwhole _ ih =>
    have hscan := scan_frame h hp bytes
    rw [hheader] at hscan
    simp only [if_neg (not_lt.mpr hfits), if_pos hwhole] at hscan
    obtain ⟨d', hfresh, hphase, hscan⟩ := hscan
    obtain ⟨error, herr⟩ := ih hfresh hphase
    exact ⟨error, by rw [hscan, herr, prepend_mk]⟩

end FrameDecoder

open FrameDecoder

def decode (maxFrameSize : Nat) (chunks : List (List UInt8)) : List Frame × Except DecodeError Unit :=
  feedAll { maxFrameSize } chunks

/-- The chunks never change the outcome, and the frames only where known ones come before an oversized one. -/
theorem chunking_is_irrelevant_iff (maxFrameSize : Nat) (bytes : List UInt8) :
    (∀ cs cs', cs.flatten = bytes → cs'.flatten = bytes →
      (decode maxFrameSize cs).2 = (decode maxFrameSize cs').2) ∧
    ((∀ cs cs', cs.flatten = bytes → cs'.flatten = bytes → decode maxFrameSize cs = decode maxFrameSize cs') ↔
      ∀ frames, Overflows maxFrameSize bytes frames → frames = []) := by
  have hfresh : Fresh maxFrameSize { maxFrameSize } := ⟨⟨rfl, .inr ⟨rfl, rfl⟩, nofun, nofun, rfl⟩, rfl⟩
  have hall (cs : List (List UInt8)) := feedAll_scan hfresh.sane cs
  unfold decode
  rcases hs : scan { maxFrameSize } bytes with ⟨frames, error | d⟩
  · have herr (cs : List (List UInt8)) (h : cs.flatten = bytes) :
        (feedAll { maxFrameSize } cs).1 <+: frames ∧ (feedAll { maxFrameSize } cs).2 = .error error := by
      simpa [h, hs] using hall cs
    refine ⟨fun cs cs' h h' => by rw [(herr cs h).2, (herr cs' h').2], fun hsame more hmore => ?_,
      fun hnone cs cs' h h' => ?_⟩
    · obtain ⟨_, hscan⟩ := scan_of_overflows hfresh rfl hmore
      cases hs.symm.trans hscan
      -- Single bytes lose nothing, and of all bytes at once the call that throws is the first.
      have hbytes := feedAll_bytes hfresh.sane bytes
      have honce : (feedAll { maxFrameSize } [bytes]).1 = [] := by simp [feedAll, feed_error hfresh.sane hs]
      rw [hs, hsame _ [bytes] (by rw [← List.flatMap_def, List.flatMap_singleton']) (by simp), honce] at hbytes
      exact hbytes.symm
    · obtain rfl := hnone frames (overflows_of_scan hfresh rfl hs)
      have hempty (cs : List (List UInt8)) (h : cs.flatten = bytes) :
          feedAll { maxFrameSize } cs = ([], .error error) :=
        Prod.ext (List.prefix_nil.mp (herr cs h).1) (herr cs h).2
      rw [hempty cs h, hempty cs' h']
  · have hok (cs : List (List UInt8)) (h : cs.flatten = bytes) :
        feedAll { maxFrameSize } cs = (frames, d.finish) := by
      simpa [h, hs] using hall cs
    refine ⟨fun cs cs' h h' => by rw [hok _ h, hok _ h'], fun _ more hmore => ?_,
      fun _ cs cs' h h' => by rw [hok _ h, hok _ h']⟩
    obtain ⟨_, hscan⟩ := scan_of_overflows hfresh rfl hmore
    cases hs.symm.trans hscan

/-- A MESSAGE without a payload, and one that is declared with a byte too many. -/
theorem frame_lost_with_chunk :
    decode 0 [[0, 0], [0, 1]] ≠ decode 0 [[0, 0, 0, 1]] ∧
      [[0, 0], [0, 1]].flatten = [[0, 0, 0, (1 : UInt8)]].flatten := by
  decide +kernel

end TrevRpc.Kotlin
