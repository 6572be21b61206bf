import TrevRpc.Lib.Effect
import TrevRpc.Rust.Framing

/-!
# Reading frames (`framed.rs` and `varint.rs`)

A transport hands out its bytes in chunks of any size. Frames of an unknown type are skipped. A `usize` has 64 bits.
-/

open TrevRpc.Effect

namespace TrevRpc.Rust

def unexpectedEof : Error := .transport .unavailable

def atEnd {α : Type} : Option Error → Except Error (Option α)
  | none => .ok none
  | some error => .error error

abbrev Reading (ρ α : Type) : Type := Effect Error ρ α

/-- `ok_or_else(unexpected_eof)`: the stream must not end here. -/
def okOrEof {ρ α : Type} (m : Reading ρ (Option α)) : Reading ρ α := do
  let some a ← m | fail unexpectedEof
  return a

section Reading

variable {ρ α : Type} {m : Reading ρ (Option α)}

theorem within_okOrEof {size : ρ → Nat} (hm : Within size m) : Within size (okOrEof m) := by
  refine hm.bind ?_
  rintro (_ | a)
  · exact .fail _
  · exact .pure _

theorem sees_okOrEof {τ : Type} {view : ρ → τ} {n : Reading τ (Option α)} (hm : Sees view m n) :
    Sees view (okOrEof m) (okOrEof n) := by
  refine hm.bind ?_
  rintro (_ | a)
  · exact .fail _
  · exact .pure _

end Reading

/-! ## Streams of bytes -/

/-- The bytes of a stream that are still to come, and the error after them, if it does not end. -/
structure Input where
  bytes : Bytes
  fault : Option Error := none

namespace Input

/-- The error of a frame that is not complete. -/
def eof (i : Input) : Error := i.fault.getD unexpectedEof

def drop (i : Input) (n : Nat) : Input := { i with bytes := i.bytes.drop n }

def exactOrEof (n : Nat) : Reading Input (Option Bytes) := fun i =>
  if n ≤ i.bytes.length then (.ok (some (i.bytes.take n)), i.drop n)
  else (if i.bytes = [] then atEnd i.fault else .error i.eof, { i with bytes := [] })

def exact (n : Nat) : Reading Input Bytes := fun i =>
  if n ≤ i.bytes.length then (.ok (i.bytes.take n), i.drop n) else (.error i.eof, { i with bytes := [] })

end Input

/-- Some of the next bytes, or that there are none; bytes at most `left` times. -/
inductive Delivers {ρ : Type} (unread : ρ → Input) (left : ρ → Nat) (r : ρ) (n : Nat) :
    Except Error (Option Bytes) → ρ → Prop
  | some {bytes : Bytes} {r' : ρ} : bytes.length ≤ n →
    unread r = { unread r' with bytes := bytes ++ (unread r').bytes } → left r' < left r →
    Delivers unread left r n (.ok (some bytes)) r'
  | none {result : Except Error (Option Bytes)} {r' : ρ} : result = atEnd (unread r).fault →
    (unread r).bytes = [] → unread r' = unread r → left r' ≤ left r → Delivers unread left r n result r'

/-- `FrameRead::read_frame_bytes`, of a stream that delivers its bytes in their order. -/
class ByteRead (ρ : Type) where
  readFrameBytes : Nat → Reading ρ (Option Bytes)
  unread : ρ → Input
  left : ρ → Nat
  delivers : ∀ (r : ρ) {n : Nat}, 0 < n →
    Delivers unread left r n (readFrameBytes n r).1 (readFrameBytes n r).2

export ByteRead (readFrameBytes unread left delivers)

section ByteRead

variable {ρ : Type} [ByteRead ρ] {r r' : ρ} {n : Nat}

theorem read_some {bytes : Bytes} (hn : 0 < n) (h : readFrameBytes n r = (.ok (some bytes), r')) :
    bytes.length ≤ n ∧ unread r = { unread r' with bytes := bytes ++ (unread r').bytes } ∧ left r' < left r := by
  have hd := delivers r hn
  rw [h] at hd
  cases hd with
  | some hle heq hlt => exact ⟨hle, heq, hlt⟩
  | none hres =>
    unfold atEnd at hres
    split at hres <;> cases hres

theorem read_none (hn : 0 < n) (h : readFrameBytes n r = (.ok none, r')) :
    unread r = ⟨[], none⟩ ∧ unread r' = unread r ∧ left r' ≤ left r := by
  have hd := delivers r hn
  rw [h] at hd
  cases hd with
  | none hres hb hs hle =>
    refine ⟨?_, hs, hle⟩
    generalize unread r = i at hres hb ⊢
    obtain ⟨bytes, _ | error⟩ := i
    · exact congrArg (Input.mk · none) hb
    · cases hres

theorem read_error {error : Error} (hn : 0 < n) (h : readFrameBytes n r = (.error error, r')) :
    unread r = ⟨[], some error⟩ ∧ unread r' = unread r := by
  have hd := delivers r hn
  rw [h] at hd
  cases hd with
  | none hres hb hs =>
    refine ⟨?_, hs⟩
    generalize unread r = i at hres hb ⊢
    obtain ⟨bytes, _ | error'⟩ := i
    · cases hres
    · cases hres
      exact congrArg (Input.mk · (some error)) hb

end ByteRead

section ByteRead

variable {ρ : Type} [ByteRead ρ]

def readExact (got : Bytes) (remaining : Nat) (r : ρ) : Except Error (Option Bytes) × ρ :=
  if hdone : remaining = 0 then (.ok (some got), r)
  else
    match h : readFrameBytes remaining r with
    | (.error error, r') => (.error error, r')
    | (.ok none, r') => if got = [] then (.ok none, r') else (.error unexpectedEof, r')
    | (.ok (some bytes), r') =>
      have := (read_some (Nat.pos_of_ne_zero hdone) h).2.2
      readExact (got ++ bytes) (remaining - bytes.length) r'
termination_by left r

def readExactOrEof (len : Nat) : Reading ρ (Option Bytes) := readExact [] len

def readExactBody (len : Nat) : Reading ρ Bytes := okOrEof (readExactOrEof len)

def readPayloadCopy (len : Nat) : Reading ρ Bytes := readExactBody len

end ByteRead

/-- `FrameRead`: a stream that holds a payload already may hand it over without copying. -/
class FrameRead (ρ : Type) extends ByteRead ρ where
  readPayloadBytes : Nat → Reading ρ Bytes := readPayloadCopy
  payload_within : ∀ n, Within left (readPayloadBytes n)
  payload_sees : ∀ n, Sees unread (readPayloadBytes n) (Input.exact n)

export FrameRead (readPayloadBytes payload_within payload_sees)

section ByteRead

variable {ρ : Type} [ByteRead ρ] {r r' : ρ}

theorem readExact_left {got : Bytes} {n : Nat} {result : Option Bytes} (h : readExact got n r = (.ok result, r')) :
    left r' ≤ left r ∧ (0 < n → result.isSome → left r' < left r) := by
  fun_induction readExact got n r with
  | case1 =>
    cases h
    exact ⟨le_rfl, fun hn => absurd hn (Nat.lt_irrefl 0)⟩
  | case2 | case4 => cases h
  | case3 n r hd r₁ hr =>
    cases h
    exact ⟨(read_none (Nat.pos_of_ne_zero hd) hr).2.2, fun _ hs => by cases hs⟩
  | case5 got n r hd bytes r₁ hr hlt ih =>
    have hle := (ih h).1
    exact ⟨by omega, fun _ _ => by omega⟩

theorem within_readExactOrEof (len : Nat) : Within left (readExactOrEof (ρ := ρ) len) :=
  fun _ _ _ h => (readExact_left h).1

theorem within_readExactBody (len : Nat) : Within left (readExactBody (ρ := ρ) len) :=
  within_okOrEof (within_readExactOrEof len)

/-! ## Headers -/

/-- The buffer has room for the longest integer, and zeros after it. -/
def decodeBuffer (buf : Bytes) : Except Error (Nat × Nat) :=
  match Varint.decode (buf ++ List.replicate (8 - buf.length) 0) with
  | some result => .ok result
  | none => .error (.status { code := .internal, message := "invalid varint prefix" })

/-- `varint::read_continued`: an integer whose first bytes are in `start`. -/
def readContinued (start : Bytes) : Reading ρ (Nat × Nat) := do
  let invalid := Error.status { code := .internal, message := "invalid varint prefix" }
  match start with
  | [] => fail invalid
  | first :: _ =>
    let len := Varint.lenFromFirstByte first
    if 8 < start.length then fail invalid
    else if start.length < len then do
      let rest ← okOrEof (readExactOrEof (len - start.length))
      lift (decodeBuffer (start ++ rest))
    else lift (decodeBuffer start)

def readVarint : Reading ρ (Option (Nat × Nat)) := do
  match ← readExactOrEof 1 with
  | some [first] => return some (← readContinued [first])
  | _ => return none

structure FrameHeader where
  frameType : Nat
  payloadLen : Nat
  headerLen : Nat
  deriving DecidableEq

def FrameHeader.wireLen (header : FrameHeader) : Nat := header.headerLen + header.payloadLen

def isKnownFrameType (frameType : Nat) : Bool := frameType ≤ FrameType.answer

/-- The length that starts with `second`. -/
def readLength (second : UInt8) : Reading ρ (Nat × Nat) :=
  if Varint.lenFromFirstByte second = 1 then return (second.toNat, 1) else readContinued [second]

/-- A frame's type and length, and the length of the header that `first` and `second` start. -/
def readTypeAndLength (first second : UInt8) : Reading ρ (Nat × Nat × Nat) := do
  if Varint.lenFromFirstByte first = 1 then
    let (length, lengthLen) ← readLength second
    return (first.toNat, length, lengthLen + 1)
  else
    let (frameType, typeLen) ← readContinued [first, second]
    let (length, lengthLen) ← okOrEof readVarint
    return (frameType, length, typeLen + lengthLen)

def readFrameHeader (maxFrameSize : Nat) : Reading ρ (Option FrameHeader) := do
  -- Every header has at least two bytes, and most have exactly two.
  match ← readExactOrEof 2 with
  | some [first, second] =>
    let (frameType, length, headerLen) ← readTypeAndLength first second
    lift (validatePayloadLen length maxFrameSize)
    return some { frameType := frameType, payloadLen := length, headerLen := headerLen }
  | _ => return none

theorem within_readContinued (st : Bytes) : Within left (readContinued (ρ := ρ) st) := by
  unfold readContinued
  cases st with
  | nil => exact .fail _
  | cons first st =>
    exact .ite (.fail _) (.ite ((within_readExactBody _).bind fun _ => .lift _) (.lift _))

theorem within_readVarint : Within left (readVarint (ρ := ρ)) := by
  refine (within_readExactOrEof 1).bind fun head => ?_
  split
  · next first => exact (within_readContinued [first]).bind fun _ => .pure _
  · exact .pure _

theorem within_readLength (second : UInt8) : Within left (readLength (ρ := ρ) second) :=
  .ite (.pure _) (within_readContinued _)

theorem within_readTypeAndLength (first second : UInt8) : Within left (readTypeAndLength (ρ := ρ) first second) := by
  refine .ite ?_ ?_
  · exact (within_readLength second).bind fun _ => .pure _
  · exact (within_readContinued _).bind fun _ => (within_okOrEof within_readVarint).bind fun _ => .pure _

theorem readFrameHeader_left {maxFrameSize : Nat} {header : FrameHeader}
    (h : readFrameHeader maxFrameSize r = (.ok (some header), r')) : left r' < left r := by
  obtain ⟨head, r₁, hre, h⟩ := bind_eq_ok.mp h
  split at h
  · next first se =>
    have hr := ((within_readTypeAndLength first se).bind fun _ => (Within.lift _).bind fun _ => .pure _) r₁ _ r' h
    exact hr.trans_lt ((readExact_left hre).2 (by decide) rfl)
  · cases h

/-! ## Payloads -/

def discardChunk : Nat := 4096

def discardPayload (remaining : Nat) (r : ρ) : Except Error Unit × ρ :=
  if hdone : remaining = 0 then (.ok (), r)
  else
    match h : readFrameBytes (min remaining discardChunk) r with
    | (.error error, r') => (.error error, r')
    | (.ok none, r') => (.error unexpectedEof, r')
    | (.ok (some bytes), r') =>
      have := (read_some (Nat.lt_min.mpr ⟨Nat.pos_of_ne_zero hdone, by decide⟩) h).2.2
      discardPayload (remaining - bytes.length) r'
termination_by left r

theorem within_discardPayload (len : Nat) : Within left (discardPayload (ρ := ρ) len) := by
  intro r _ r' h
  fun_induction discardPayload len r with
  | case1 =>
    cases h
    exact le_rfl
  | case2 | case3 => cases h
  | case4 _ _ _ _ _ _ hlt ih => exact (ih h).trans hlt.le

/-- The next header of a known type. `onSkipped` counts others, and may fail the read. -/
def nextKnownHeader {σ : Type} (maxFrameSize : Nat) (onSkipped : σ → Nat → Except Error σ) (skipped : σ) (r : ρ) :
    Except Error (Option FrameHeader × σ) × ρ :=
  match h : readFrameHeader maxFrameSize r with
  | (.error error, r₁) => (.error error, r₁)
  | (.ok none, r₁) => (.ok (none, skipped), r₁)
  | (.ok (some header), r₁) =>
    if isKnownFrameType header.frameType then (.ok (some header, skipped), r₁)
    else
      match hd : discardPayload header.payloadLen r₁ with
      | (.error error, r₂) => (.error error, r₂)
      | (.ok (), r₂) =>
        match onSkipped skipped header.wireLen with
        | .error error => (.error error, r₂)
        | .ok skipped =>
          have := (within_discardPayload _ _ _ _ hd).trans_lt (readFrameHeader_left h)
          nextKnownHeader maxFrameSize onSkipped skipped r₂
termination_by left r

theorem nextKnownHeader_left {σ : Type} {maxFrameSize : Nat} {onSkipped : σ → Nat → Except Error σ}
    {skipped s' : σ} {header : FrameHeader}
    (h : nextKnownHeader maxFrameSize onSkipped skipped r = (.ok (some header, s'), r')) :
    left r' < left r := by
  fun_induction nextKnownHeader maxFrameSize onSkipped skipped r with
  | case1 | case2 | case4 | case5 => cases h
  | case3 _ _ _ _ hh =>
    cases h
    exact readFrameHeader_left hh
  | case6 _ _ _ _ _ _ _ _ _ _ hlt ih => exact (ih h).trans hlt

end ByteRead

section FrameRead

variable {ρ : Type} [FrameRead ρ]

def readPayload (len : Nat) : Reading ρ Bytes := if len = 0 then return [] else readPayloadBytes len

theorem within_readPayload (len : Nat) : Within left (readPayload (ρ := ρ) len) :=
  .ite (.pure _) (payload_within len)

def readFrames {σ : Type} (maxFrameSize : Nat) (onSkipped : σ → Nat → Except Error σ) (skipped : σ) (r : ρ) :
    (List RawFrame × Except Error σ) × ρ :=
  match h : nextKnownHeader maxFrameSize onSkipped skipped r with
  | (.error error, r₁) => (([], .error error), r₁)
  | (.ok (none, skipped), r₁) => (([], .ok skipped), r₁)
  | (.ok (some header, skipped), r₁) =>
    match hp : readPayload header.payloadLen r₁ with
    | (.error error, r₂) => (([], .error error), r₂)
    | (.ok payload, r₂) =>
      have := (within_readPayload _ _ _ _ hp).trans_lt (nextKnownHeader_left h)
      let ((frames, outcome), r₃) := readFrames maxFrameSize onSkipped skipped r₂
      (((header.frameType, payload) :: frames, outcome), r₃)
termination_by left r

end FrameRead

/-! ## What is read -/

section ByteRead

variable {ρ : Type} [ByteRead ρ]

theorem seen_readExact (got : Bytes) (n : Nat) (r : ρ) :
    seen unread (readExact got n r) =
      if n ≤ (unread r).bytes.length then (.ok (some (got ++ (unread r).bytes.take n)), (unread r).drop n)
      else (if got = [] ∧ (unread r).bytes = [] then atEnd (unread r).fault else .error (unread r).eof,
        { unread r with bytes := [] }) := by
  fun_induction readExact got n r with
  | case1 got r => simp [seen, Input.drop]
  | case2 got n r hd error r' hre =>
    obtain ⟨hr, hs⟩ := read_error (Nat.pos_of_ne_zero hd) hre
    simp [seen, hs, hr, hd, atEnd, Input.eof]
  | case3 n r hd r' hre =>
    obtain ⟨hr, hs, -⟩ := read_none (Nat.pos_of_ne_zero hd) hre
    simp [seen, hs, hr, hd, atEnd]
  | case4 got n r hd r' hre hgot =>
    obtain ⟨hr, hs, -⟩ := read_none (Nat.pos_of_ne_zero hd) hre
    simp [seen, hs, hr, hd, hgot, Input.eof]
  | case5 got n r hd bytes r' hre hlt ih =>
    obtain ⟨hle, hr, -⟩ := read_some (Nat.pos_of_ne_zero hd) hre
    rw [ih, hr]
    generalize unread r' = i
    obtain ⟨rest, fault⟩ := i
    have hiff : n - bytes.length ≤ rest.length ↔ n ≤ (bytes ++ rest).length := by
      rw [List.length_append]
      omega
    simp only [hiff, List.append_eq_nil_iff, and_assoc, Input.drop, Input.eof]
    split_ifs
    · rw [List.take_append, List.drop_append, List.take_of_length_le hle, List.drop_of_length_le hle, List.nil_append,
        List.append_assoc]
    · rfl
    · rfl

theorem sees_readExactOrEof (n : Nat) : Sees unread (readExactOrEof (ρ := ρ) n) (Input.exactOrEof n) := by
  intro r
  rw [readExactOrEof, seen_readExact]
  simp [Input.exactOrEof]

theorem Input.okOrEof_exactOrEof (n : Nat) : okOrEof (Input.exactOrEof n) = Input.exact n := by
  funext i
  by_cases hen : n ≤ i.bytes.length
  · have hexa : i.exactOrEof n = _ := if_pos hen
    rw [Input.exact, if_pos hen, okOrEof, bind_ok hexa]
    rfl
  · have hexa : i.exactOrEof n = _ := if_neg hen
    rw [Input.exact, if_neg hen]
    obtain ⟨bs, f⟩ := i
    by_cases hem : bs = []
    · rw [if_pos hem] at hexa
      cases f with
      | none => exact bind_ok hexa
      | some error => exact bind_error hexa
    · rw [if_neg hem] at hexa
      exact bind_error hexa

theorem sees_readExactBody (n : Nat) : Sees unread (readExactBody (ρ := ρ) n) (Input.exact n) :=
  Input.okOrEof_exactOrEof n ▸ sees_okOrEof (sees_readExactOrEof n)

end ByteRead

/-! ## Transports -/

/-- A transport: the chunks that it delivers, and the error after them, if it does not end. -/
structure ChunkSource where
  chunks : List Bytes
  fault : Option Error := none

namespace ChunkSource

def nextChunk : Reading ChunkSource (Option Bytes) := fun s =>
  match s.chunks with
  | [] => (atEnd s.fault, s)
  | chunk :: chunks => (.ok (some chunk), { s with chunks := chunks })

/-- A read of at most `len` bytes. -/
def readInto (len : Nat) : Reading ChunkSource (Option Bytes) := fun s =>
  match s.chunks with
  | [] => (atEnd s.fault, s)
  | chunk :: chunks =>
    (.ok (some (chunk.take len)), { s with chunks := if chunk.length ≤ len then chunks else chunk.drop len :: chunks })

def after (s : ChunkSource) (held : Bytes) : Input := ⟨held ++ s.chunks.flatten, s.fault⟩

/-- Each chunk counts once more than its bytes, so that taking an empty one counts. -/
def left (s : ChunkSource) (held : Bytes) : Nat := held.length + (s.chunks.map fun chunk => chunk.length + 1).sum

end ChunkSource

def bufferedReadMax : Nat := 16

/-- The reader of the native transports, which keeps what is left of the latest chunk. -/
structure Chunked where
  source : ChunkSource
  pending : Bytes := []

namespace Chunked

def readFrameBytes (len : Nat) : Reading Chunked (Option Bytes) := fun c =>
  if c.pending = [] then
    if bufferedReadMax < len then
      match c.source.readInto len with
      | (result, source) => (result, { c with source := source })
    else
      match c.source.nextChunk with
      | (.ok (some chunk), source) => (.ok (some (chunk.take len)), { source := source, pending := chunk.drop len })
      | (result, source) => (result, { c with source := source })
  else (.ok (some (c.pending.take len)), { c with pending := c.pending.drop len })

def unread (c : Chunked) : Input := c.source.after c.pending

def left (c : Chunked) : Nat := c.source.left c.pending

theorem delivers (c : Chunked) {n : Nat} (hn : 0 < n) :
    Delivers unread left c n (readFrameBytes n c).1 (readFrameBytes n c).2 := by
  obtain ⟨⟨cs, f⟩, p⟩ := c
  unfold readFrameBytes
  by_cases hp : p = []
  · subst hp
    cases cs with
    | nil =>
      have hne : ChunkSource.nextChunk ⟨[], f⟩ = (atEnd f, ⟨[], f⟩) := rfl
      simp only [if_true, hne]
      split_ifs
      · exact .none rfl rfl rfl le_rfl
      · cases f <;> exact .none rfl rfl rfl le_rfl
    | cons chunk cs =>
      simp only [if_true, ChunkSource.nextChunk, ChunkSource.readInto]
      by_cases hl : bufferedReadMax < n
      · simp only [if_pos hl]
        refine .some (List.length_take_le ..) ?_ ?_
        · simp only [unread, ChunkSource.after, List.nil_append, List.flatten_cons]
          split_ifs with hall
          · rw [List.take_of_length_le hall]
          · rw [List.flatten_cons, ← List.append_assoc, List.take_append_drop]
        · simp only [left, ChunkSource.left, List.length_nil, List.map_cons, List.sum_cons]
          split_ifs
          · omega
          · simp only [List.map_cons, List.sum_cons, List.length_drop]
            omega
      · simp only [if_neg hl]
        refine .some (List.length_take_le ..) ?_ ?_
        · simp only [unread, ChunkSource.after, List.nil_append, List.flatten_cons]
          rw [← List.append_assoc, List.take_append_drop]
        · simp only [left, ChunkSource.left, List.length_nil, List.map_cons, List.sum_cons, List.length_drop]
          omega
  · have hpos := List.length_pos_iff.mpr hp
    simp only [hp, if_false]
    refine .some (List.length_take_le ..) ?_ ?_
    · simp only [unread, ChunkSource.after]
      rw [← List.append_assoc, List.take_append_drop]
    · simp only [left, ChunkSource.left, List.length_drop]
      omega

instance : ByteRead Chunked where
  readFrameBytes := readFrameBytes
  unread := unread
  left := left
  delivers := delivers

def readPayloadBytes (len : Nat) : Reading Chunked Bytes := fun c =>
  if len ≤ c.pending.length then (.ok (c.pending.take len), { c with pending := c.pending.drop len })
  else readPayloadCopy len c

theorem within_readPayloadBytes (len : Nat) : Within left (readPayloadBytes len) := by
  intro c p c' h
  unfold readPayloadBytes at h
  split_ifs at h
  · cases h
    simp only [left, ChunkSource.left, List.length_drop]
    omega
  · exact within_readExactBody len c p c' h

theorem sees_readPayloadBytes (len : Nat) : Sees unread (readPayloadBytes len) (Input.exact len) := by
  intro c
  unfold readPayloadBytes
  split_ifs with hh
  · have hen : len ≤ c.unread.bytes.length := by
      simp only [unread, ChunkSource.after, List.length_append]
      omega
    rw [Input.exact, if_pos hen]
    simp only [seen, unread, ChunkSource.after, Input.drop, List.take_append_of_le_length hh,
      List.drop_append_of_le_length hh]
  · exact sees_readExactBody len c

instance : FrameRead Chunked where
  readPayloadBytes := readPayloadBytes
  payload_within := within_readPayloadBytes
  payload_sees := sees_readPayloadBytes

end Chunked

/-- The reader of a request body, which copies each payload. -/
structure BodyReader where
  source : ChunkSource
  chunk : Bytes := []

namespace BodyReader

def readFrameBytes (len : Nat) (b : BodyReader) : Except Error (Option Bytes) × BodyReader :=
  if b.chunk = [] then
    match h : b.source.chunks with
    | [] => (atEnd b.source.fault, b)
    | chunk :: chunks =>
      have : chunks.length < b.source.chunks.length := h ▸ Nat.lt_succ_self _
      readFrameBytes len { source := { b.source with chunks := chunks }, chunk := chunk }
  else (.ok (some (b.chunk.take len)), { b with chunk := b.chunk.drop len })
termination_by b.source.chunks.length

def unread (b : BodyReader) : Input := b.source.after b.chunk

def left (b : BodyReader) : Nat := b.source.left b.chunk

theorem delivers (b : BodyReader) {n : Nat} (hn : 0 < n) :
    Delivers unread left b n (readFrameBytes n b).1 (readFrameBytes n b).2 := by
  fun_induction readFrameBytes n b with
  | case1 b hc hch =>
    refine .none rfl ?_ rfl le_rfl
    simp [unread, ChunkSource.after, hc, hch]
  | case2 b hc chunk chunks hch _ ih =>
    have hun : b.unread = unread ⟨{ b.source with chunks := chunks }, chunk⟩ := by
      simp [unread, ChunkSource.after, hc, hch]
    have hl : left ⟨{ b.source with chunks := chunks }, chunk⟩ < b.left := by
      simp only [left, ChunkSource.left, hc, hch, List.length_nil, List.map_cons, List.sum_cons]
      omega
    generalize readFrameBytes n { source := { b.source with chunks := chunks }, chunk := chunk } = x at ih ⊢
    obtain ⟨result, b'⟩ := x
    cases ih with
    | some hle heq hlt => exact .some hle (hun.trans heq) (hlt.trans hl)
    | none hres hb hs hle =>
      exact .none (hun ▸ hres) (hun ▸ hb) (hs.trans hun.symm) (hle.trans hl.le)
  | case3 b hc =>
    have hpos := List.length_pos_iff.mpr hc
    refine .some (List.length_take_le ..) ?_ ?_
    · simp only [unread, ChunkSource.after]
      rw [← List.append_assoc, List.take_append_drop]
    · simp only [left, ChunkSource.left, List.length_drop]
      omega

instance : ByteRead BodyReader where
  readFrameBytes := readFrameBytes
  unread := unread
  left := left
  delivers := delivers

instance : FrameRead BodyReader where
  payload_within := within_readExactBody
  payload_sees := sees_readExactBody

end BodyReader

end TrevRpc.Rust
