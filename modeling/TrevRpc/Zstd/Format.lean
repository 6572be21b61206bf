import Mathlib.Data.Fintype.Prod
import TrevRpc.Lib.LittleEndian
import TrevRpc.Rust.Zstd

/-! # Zstd frames without a magic number -/

open TrevRpc.Rust

namespace TrevRpc.Zstd.Format

/-! ## Blocks -/

inductive BlockType
  | raw
  | rle
  | compressed
  deriving DecidableEq

def BlockType.code : BlockType → Nat
  | .raw => 0
  | .rle => 1
  | .compressed => 2

structure Block where
  type : BlockType
  size : Nat
  last : Bool
  content : Bytes
  size_lt : size < 2 ^ 21
  length_content : content.length = if type = .rle then 1 else size

def Block.header (b : Block) : Nat := b.last.toNat + 2 * b.type.code + 8 * b.size

def Block.bytes (b : Block) : Bytes := LittleEndian.bytes 3 b.header ++ b.content

theorem Block.header_lt (b : Block) : b.header < 256 ^ 3 := by
  have hsize := b.size_lt
  have hlast := b.last.toNat_le
  have hcode : b.type.code ≤ 2 := by cases b.type <;> decide
  unfold Block.header
  omega

theorem Block.contentLen_header (b : Block) : Rust.Zstd.contentLen b.header = some b.content.length := by
  have hlast := b.last.toNat_le
  have hcode : b.type.code ≤ 2 := by cases b.type <;> decide
  have ht : b.header / 2 % 4 = b.type.code := by
    unfold Block.header
    omega
  have hs : b.header / 8 = b.size := by
    unfold Block.header
    omega
  rw [Rust.Zstd.contentLen, ht, hs, b.length_content]
  cases b.type <;> rfl

theorem Block.header_mod (b : Block) : decide (b.header % 2 = 1) = b.last := by
  unfold Block.header
  cases b.last
  · simp
    omega
  · simp
    omega

theorem littleEndian_bytes {size n : Nat} (hs : size ≤ 8) (h : n < 256 ^ size) :
    Rust.Zstd.littleEndian (LittleEndian.bytes size n) = some n := by
  unfold Rust.Zstd.littleEndian
  rw [if_pos (by simpa using hs)]
  exact congrArg some (LittleEndian.value_bytes h)

theorem Block.block_bytes (b : Block) (rest : Bytes) : Rust.Zstd.block (b.bytes ++ rest) = some (rest, b.last) := by
  have hh : Rust.Zstd.splitAtChecked (b.bytes ++ rest) 3 =
      some (LittleEndian.bytes 3 b.header, b.content ++ rest) :=
    Rust.Zstd.splitAtChecked_eq_some.mpr ⟨by simp [Block.bytes], by simp⟩
  have hc : Rust.Zstd.splitAtChecked (b.content ++ rest) b.content.length = some (b.content, rest) :=
    Rust.Zstd.splitAtChecked_eq_some.mpr ⟨rfl, rfl⟩
  simp only [Rust.Zstd.block, Option.bind_eq_bind, hh, Option.bind_some,
    littleEndian_bytes (by decide) b.header_lt, b.contentLen_header, hc, b.header_mod]
  rfl

theorem Block.bytes_ne_nil (b : Block) : b.bytes ≠ [] := by
  simp [Block.bytes, LittleEndian.bytes]

def InFrame (blocks : List Block) : Prop := ∀ b ∈ blocks.dropLast, b.last = false

def ends (blocks : List Block) : Bool := blocks.getLast?.any Block.last

theorem parseBlocks_bytes {bs : List Block} (h : InFrame bs) :
    Rust.Zstd.parseBlocks (bs.flatMap Block.bytes) false = some (ends bs) := by
  induction bs with
  | nil => simp [Rust.Zstd.parseBlocks, ends]
  | cons b bs ih =>
    rw [List.flatMap_cons, Rust.Zstd.parseBlocks_eq (by simp [b.bytes_ne_nil]), b.block_bytes, Option.bind_some]
    cases bs with
    | nil => simp [Rust.Zstd.parseBlocks, ends]
    | cons b' bs =>
      have hb : b.last = false := h b (by simp)
      have hr : InFrame (b' :: bs) := fun c hc => h c (by simp [hc])
      simp only [hb, Bool.false_eq_true, false_and, if_false, ih hr]
      simp [ends]

theorem afterBlocks_bytes {bs : List Block} (h : InFrame bs) (hends : ends bs = true) (rest : Bytes) :
    Rust.Zstd.afterBlocks (bs.flatMap Block.bytes ++ rest) = some rest := by
  induction bs with
  | nil => simp [ends] at hends
  | cons b bs ih =>
    rw [List.flatMap_cons, List.append_assoc, Rust.Zstd.afterBlocks_eq, b.block_bytes, Option.bind_some]
    cases bs with
    | nil =>
      have hb : b.last = true := by simpa [ends] using hends
      simp [hb]
    | cons b' bs =>
      have hb : b.last = false := h b (by simp)
      have hr : InFrame (b' :: bs) := fun c hc => h c (by simp [hc])
      simp only [hb, Bool.false_eq_true, if_false]
      exact ih hr (by simpa [ends] using hends)

/-! ## Chunks of a stream -/

def dictIdLen (flag : Fin 4) : Nat := [0, 1, 2, 4].get flag

def windowSize (descriptor : UInt8) : Nat :=
  2 ^ ((descriptor >>> 3).toNat + 10) + 2 ^ ((descriptor >>> 3).toNat + 10) / 8 * (descriptor &&& 7).toNat

/-- The header of a frame of a stream: its dictionary and its window, and no other field. -/
structure StreamHeader where
  flag : Fin 4
  window : UInt8
  dictId : Nat
  window_le : windowSize window ≤ 2 ^ 16
  dictId_lt : dictId < 256 ^ dictIdLen flag

def StreamHeader.bytes (h : StreamHeader) : Bytes :=
  UInt8.ofNat h.flag :: h.window :: LittleEndian.bytes (dictIdLen h.flag) h.dictId

theorem dictIdLen_le (flag : Fin 4) : dictIdLen flag ≤ 4 := by decide +revert

theorem descriptor_dictIdLen (flag : Fin 4) : Rust.Zstd.dictIdLen (UInt8.ofNat flag) = dictIdLen flag := by
  decide +revert

theorem descriptor_flags (flag : Fin 4) : (UInt8.ofNat flag &&& 0xEC != 0) = false := by decide +revert

theorem StreamHeader.parse_bytes (h : StreamHeader) (rest : Bytes) :
    Rust.Zstd.parseFrameHeader (h.bytes ++ rest) = some (h.dictId, rest) := by
  have hlen := dictIdLen_le h.flag
  have hs : Rust.Zstd.splitAtChecked (LittleEndian.bytes (dictIdLen h.flag) h.dictId ++ rest) (dictIdLen h.flag) =
      some (LittleEndian.bytes (dictIdLen h.flag) h.dictId, rest) :=
    Rust.Zstd.splitAtChecked_eq_some.mpr ⟨rfl, by simp⟩
  have hw : ¬windowSize h.window > 2 ^ 16 := Nat.not_lt.mpr h.window_le
  unfold windowSize at hw
  simp only [StreamHeader.bytes, List.cons_append, Rust.Zstd.parseFrameHeader, descriptor_flags, Bool.false_eq_true,
    if_false, Rust.Zstd.streamWindowLog, if_neg hw, descriptor_dictIdLen, Option.bind_eq_bind, hs,
    Option.bind_some, littleEndian_bytes (hlen.trans (by decide)) h.dictId_lt]
  rfl

structure Chunk where
  header : Option StreamHeader
  blocks : List Block
  inFrame : InFrame blocks
  nonempty : header ≠ none ∨ blocks ≠ []

def Chunk.bytes (c : Chunk) : Bytes := c.header.elim [] StreamHeader.bytes ++ c.blocks.flatMap Block.bytes

theorem Chunk.bytes_ne_nil (c : Chunk) : c.bytes ≠ [] := by
  obtain ⟨header, bs, -, hne⟩ := c
  unfold Chunk.bytes
  cases header with
  | some h => simp [StreamHeader.bytes]
  | none =>
    cases bs with
    | nil => simp at hne
    | cons b bs => simp [b.bytes_ne_nil]

theorem Chunk.parse_bytes (c : Chunk) :
    Rust.Zstd.parseStreamChunk c.bytes c.header.isSome =
      some {
        startsFrame := c.header.isSome
        dictId := c.header.elim 0 StreamHeader.dictId
        endsFrame := ends c.blocks } := by
  have hb := parseBlocks_bytes c.inFrame
  unfold Rust.Zstd.parseStreamChunk
  rw [if_neg c.bytes_ne_nil]
  unfold Rust.Zstd.chunkBlocks Chunk.bytes
  cases c.header with
  | none => simp [hb]
  | some h => simp [h.parse_bytes, hb]

/-! ## Frames of one message -/

/-- A frame with its content size, which is stored less 256 in a field of two bytes. -/
structure Frame where
  sizeFlag : Fin 4
  singleSegment : Bool
  hasChecksum : Bool
  flag : Fin 4
  window : UInt8
  dictId : Nat
  sizeField : Nat
  blocks : List Block
  checksum : Bytes
  sized : sizeFlag ≠ 0 ∨ singleSegment = true
  dictId_lt : dictId < 256 ^ dictIdLen flag
  sizeField_lt : sizeField < 256 ^ (if sizeFlag = 0 then 1 else 2 ^ sizeFlag.val)
  inFrame : InFrame blocks
  ends : ends blocks = true
  length_checksum : checksum.length = if hasChecksum then 4 else 0

namespace Frame

/-- The length of the content size. -/
def sizeLen (f : Frame) : Nat := if f.sizeFlag = 0 then 1 else 2 ^ f.sizeFlag.val

def contentSize (f : Frame) : Nat := if f.sizeLen = 2 then f.sizeField + 256 else f.sizeField

def descriptor (f : Frame) : UInt8 :=
  UInt8.ofNat (64 * f.sizeFlag + 32 * f.singleSegment.toNat + 4 * f.hasChecksum.toNat + f.flag)

def bytes (f : Frame) : Bytes :=
  f.descriptor :: ((if f.singleSegment then [] else [f.window]) ++
    (LittleEndian.bytes (dictIdLen f.flag) f.dictId ++
      (LittleEndian.bytes f.sizeLen f.sizeField ++ (f.blocks.flatMap Block.bytes ++ f.checksum))))

theorem descriptor_fields : ∀ (sizeFlag : Fin 4) (singleSegment hasChecksum : Bool) (flag : Fin 4),
    let descriptor := UInt8.ofNat (64 * sizeFlag + 32 * singleSegment.toNat + 4 * hasChecksum.toNat + flag)
    (descriptor &&& 0x20 != 0) = singleSegment ∧ (descriptor &&& 0x08 != 0) = false ∧
      (descriptor &&& 0x04 != 0) = hasChecksum ∧ Rust.Zstd.dictIdLen descriptor = dictIdLen flag ∧
      (sizeFlag ≠ 0 ∨ singleSegment = true → Rust.Zstd.contentSizeLen descriptor singleSegment =
        if sizeFlag = 0 then 1 else 2 ^ sizeFlag.val) := by
  decide

theorem sizeLen_pos (f : Frame) : f.sizeLen ≠ 0 := by
  unfold sizeLen
  split_ifs
  · decide
  · exact (Nat.two_pow_pos _).ne'

theorem sizeLen_le (f : Frame) : f.sizeLen ≤ 8 := by
  unfold sizeLen
  generalize f.sizeFlag = flag
  decide +revert

theorem parse_bytes (f : Frame) : Rust.Zstd.parseHeader f.bytes = some ⟨f.dictId, f.contentSize⟩ := by
  obtain ⟨hs, hr, hc, hdid, hsi⟩ :=
    descriptor_fields f.sizeFlag f.singleSegment f.hasChecksum f.flag
  have hsi : Rust.Zstd.contentSizeLen f.descriptor f.singleSegment = f.sizeLen := hsi f.sized
  have hsp (head rest : Bytes) {n : Nat} (hlen : head.length = n) :
      Rust.Zstd.splitAtChecked (head ++ rest) n = some (head, rest) :=
    Rust.Zstd.splitAtChecked_eq_some.mpr ⟨rfl, hlen⟩
  have hw : (if f.singleSegment then [] else [f.window]).length = if f.singleSegment then 0 else 1 := by
    split_ifs <;> rfl
  have hend : Rust.Zstd.splitAtChecked f.checksum (if f.hasChecksum then 4 else 0) = some (f.checksum, []) :=
    Rust.Zstd.splitAtChecked_eq_some.mpr ⟨by simp, f.length_checksum⟩
  have hd : UInt8.ofNat (64 * f.sizeFlag + 32 * f.singleSegment.toNat + 4 * f.hasChecksum.toNat + f.flag) =
    f.descriptor := rfl
  simp only [hd] at hs hr hc hdid
  simp only [bytes, Rust.Zstd.parseHeader, hs, hr, hc, hdid, hsi, Bool.false_eq_true, if_false,
    f.sizeLen_pos, Option.bind_eq_bind, hsp _ _ hw, hsp _ _ (LittleEndian.length_bytes _ _),
    Option.bind_some, littleEndian_bytes ((dictIdLen_le f.flag).trans (by decide)) f.dictId_lt,
    littleEndian_bytes f.sizeLen_le f.sizeField_lt, afterBlocks_bytes f.inFrame f.ends, hend, if_true]
  rfl

end Frame

end TrevRpc.Zstd.Format
