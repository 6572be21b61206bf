import TrevRpc.Rust.Framing

/-!
# What receivers check of zstd data (`compression.rs` and `compression/stream.rs`)

A ZSTD_MESSAGE is one magicless frame with its content size, and a ZSTD_STREAM_MESSAGE the next whole blocks of a frame
that has none. The contents of the blocks are left to libzstd.
-/

namespace TrevRpc.Rust.Zstd

/-- Reads an integer of up to 8 bytes. -/
def littleEndian (bytes : Bytes) : Option Nat :=
  if bytes.length ≤ 8 then some (bytes.foldr (fun byte value => byte.toNat + 256 * value) 0) else none

def splitAtChecked (bytes : Bytes) (n : Nat) : Option (Bytes × Bytes) :=
  if n ≤ bytes.length then some (bytes.take n, bytes.drop n) else none

theorem splitAtChecked_eq_some {bs head rest : Bytes} {n : Nat} :
    splitAtChecked bs n = some (head, rest) ↔ bs = head ++ rest ∧ head.length = n := by
  unfold splitAtChecked
  constructor
  · intro h
    split_ifs at h with hle
    cases h
    exact ⟨(List.take_append_drop n bs).symm, List.length_take_of_le hle⟩
  · rintro ⟨rfl, rfl⟩
    rw [if_pos (by simp), List.take_left, List.drop_left]

def dictIdLen (descriptor : UInt8) : Nat :=
  match (descriptor &&& 0x03).toNat with
  | 0 => 0
  | 1 => 1
  | 2 => 2
  | _ => 4

/-- The bytes after the header of a block. -/
def contentLen (header : Nat) : Option Nat :=
  match header / 2 % 4 with
  -- Raw_Block and Compressed_Block.
  | 0 | 2 => some (header / 8)
  -- RLE_Block.
  | 1 => some 1
  | _ => none

def block (data : Bytes) : Option (Bytes × Bool) := do
  let (head, after) ← splitAtChecked data 3
  let header ← littleEndian head
  let (_, rest) ← splitAtChecked after (← contentLen header)
  return (rest, header % 2 = 1)

theorem block_length {data rest : Bytes} {last : Bool} (h : block data = some (rest, last)) :
    rest.length < data.length := by
  simp only [block, Option.bind_eq_bind, Option.bind_eq_some_iff, Prod.exists] at h
  obtain ⟨head, after, hh, header, -, len, -, content, rest', hc, h⟩ := h
  cases h
  obtain ⟨rfl, hlen⟩ := splitAtChecked_eq_some.mp hh
  obtain ⟨rfl, -⟩ := splitAtChecked_eq_some.mp hc
  simp only [List.length_append]
  omega

/-! ## Frames of one message -/

structure Header where
  dictId : Nat
  contentSize : Nat
  deriving DecidableEq

/-- What follows the last block of a frame. -/
def afterBlocks (data : Bytes) : Option Bytes :=
  match h : block data with
  | none => none
  | some (rest, true) => some rest
  | some (rest, false) =>
    have := block_length h
    afterBlocks rest
termination_by data.length

theorem afterBlocks_eq (data : Bytes) :
    afterBlocks data = (block data).bind fun (rest, last) => if last then some rest else afterBlocks rest := by
  rw [afterBlocks]
  split <;> simp_all

def contentSizeLen (descriptor : UInt8) (singleSegment : Bool) : Nat :=
  match (descriptor >>> 6).toNat, singleSegment with
  | 0, true => 1
  | 0, false => 0
  | 1, _ => 2
  | 2, _ => 4
  | _, _ => 8

/-- `parse_header`: the payload is exactly one frame. -/
def parseHeader (payload : Bytes) : Option Header := do
  let descriptor :: rest := payload | none
  let singleSegment := descriptor &&& 0x20 != 0
  -- The reserved bit.
  if descriptor &&& 0x08 != 0 then none
  let checksum := descriptor &&& 0x04 != 0
  let sizeLen := contentSizeLen descriptor singleSegment
  if sizeLen = 0 then none
  -- The Window_Descriptor.
  let (_, rest) ← splitAtChecked rest (if singleSegment then 0 else 1)
  let (dictId, rest) ← splitAtChecked rest (dictIdLen descriptor)
  let (contentSize, rest) ← splitAtChecked rest sizeLen
  let dictId ← littleEndian dictId
  let contentSize ← littleEndian contentSize
  let contentSize := if sizeLen = 2 then contentSize + 256 else contentSize
  let rest ← afterBlocks rest
  let (_, rest) ← splitAtChecked rest (if checksum then 4 else 0)
  if rest = [] then some { dictId, contentSize } else none

/-! ## Chunks of a stream -/

def streamWindowLog : Nat := 16

/-- What validating a chunk reveals about it. -/
structure StreamChunk where
  startsFrame : Bool := false
  dictId : Nat := 0
  endsFrame : Bool := false
  deriving DecidableEq

def parseFrameHeader (chunk : Bytes) : Option (Nat × Bytes) := do
  let descriptor :: window :: rest := chunk | none
  -- No content size, single segment, reserved bit or checksum.
  if descriptor &&& 0xEC != 0 then none
  let base := 2 ^ ((window >>> 3).toNat + 10)
  if base + base / 8 * (window &&& 7).toNat > 2 ^ streamWindowLog then none
  let (dictId, rest) ← splitAtChecked rest (dictIdLen descriptor)
  let dictId ← littleEndian dictId
  return (dictId, rest)

/-- Whether the last block of `data` ends the frame; only that one may. -/
def parseBlocks (data : Bytes) (endsFrame : Bool) : Option Bool :=
  if data = [] then some endsFrame
  else
    match h : block data with
    | none => none
    | some (rest, last) =>
      have := block_length h
      if last ∧ rest ≠ [] then none else parseBlocks rest last
termination_by data.length

theorem parseBlocks_eq {data : Bytes} (hne : data ≠ []) (endsFrame : Bool) :
    parseBlocks data endsFrame =
      (block data).bind fun (rest, last) => if last ∧ rest ≠ [] then none else parseBlocks rest last := by
  rw [parseBlocks, if_neg hne]
  split <;> simp_all

/-- The blocks of a chunk, and the `Dictionary_ID` before them if it starts a frame. -/
def chunkBlocks (chunk : Bytes) (atFrameStart : Bool) : Option (Nat × Bytes) :=
  if atFrameStart then parseFrameHeader chunk else some (0, chunk)

/-- An empty chunk is an empty message and changes nothing. -/
def parseStreamChunk (chunk : Bytes) (atFrameStart : Bool) : Option StreamChunk := do
  if chunk = [] then return {}
  else
    let (dictId, blocks) ← chunkBlocks chunk atFrameStart
    let endsFrame ← parseBlocks blocks false
    return { startsFrame := atFrameStart, dictId, endsFrame }

theorem parseStreamChunk_startsFrame {c : Bytes} {atFrameStart : Bool} {p : StreamChunk}
    (h : parseStreamChunk c atFrameStart = some p) (hne : c ≠ []) :
    p.startsFrame = atFrameStart := by
  simp only [parseStreamChunk, if_neg hne, Option.bind_eq_bind, Option.bind_eq_some_iff] at h
  obtain ⟨_, -, _, -, h⟩ := h
  cases h
  rfl

end TrevRpc.Rust.Zstd
