import TrevRpc.Lib.LittleEndian
import TrevRpc.Rust.Zstd

/-!
# Checking zstd data by position

The Go, JavaScript and Kotlin runtimes share the walk and differ in how they read an integer and how they see that a
block fits.
-/

open TrevRpc.Rust TrevRpc.LittleEndian

namespace TrevRpc.Zstd

open Rust.Zstd (Header StreamChunk)

/-! ## The walk -/

structure Block (data : Bytes) (pos : Nat) where
  next : Nat
  last : Bool
  advances : pos < next
  fits : next ≤ data.length

abbrev Read := (data : Bytes) → (offset size : Nat) → offset + size ≤ data.length → Nat

abbrev NextBlock := (data : Bytes) → (pos : Nat) → Option (Block data pos)

/-- The bytes after the header of a block. -/
def blockSize (header : Nat) : Option Nat :=
  match header >>> 1 &&& 0x03 with
  -- Raw_Block and Compressed_Block.
  | 0 | 2 => some (header >>> 3)
  -- RLE_Block.
  | 1 => some 1
  | _ => none

def didSizes (flag : UInt8) : Nat :=
  match flag.toNat with
  | 0 => 0
  | 1 => 1
  | 2 => 2
  | _ => 4

def fcsSizes (flag : UInt8) : Nat :=
  match flag.toNat with
  | 0 => 0
  | 1 => 2
  | 2 => 4
  | _ => 8

variable (read : Read) (nextBlock : NextBlock)

/-- Where the last block of a frame ends. -/
def lastBlock (data : Bytes) (pos : Nat) : Option Nat :=
  match nextBlock data pos with
  | none => none
  | some block => if block.last then some block.next else lastBlock data block.next
termination_by data.length - pos
decreasing_by
  have := block.advances
  have := block.fits
  omega

theorem dictId_fits {data : Bytes} {pos did fcs : Nat} (h : ¬ data.length < pos + did + fcs) :
    pos + did ≤ data.length := by
  omega

theorem contentSize_fits {data : Bytes} {pos did fcs : Nat} (h : ¬ data.length < pos + did + fcs) :
    pos + did + fcs ≤ data.length := by
  omega

/-- The rest of a frame from its `Dictionary_ID` on, which ends the payload. -/
def parseFrame (payload : Bytes) (pos didSize fcsSize : Nat) (checksum : Bool) : Option Header :=
  if hlen : payload.length < pos + didSize + fcsSize then none
  else
    let dictId := read payload pos didSize (dictId_fits hlen)
    let contentSize := read payload (pos + didSize) fcsSize (contentSize_fits hlen)
    let contentSize := if fcsSize = 2 then contentSize + 256 else contentSize
    match lastBlock nextBlock payload (pos + didSize + fcsSize) with
    | none => none
    | some pos =>
      if (if checksum then pos + 4 else pos) = payload.length then some { dictId, contentSize } else none

def parseHeader (payload : Bytes) : Option Header :=
  if hempty : payload.length = 0 then none
  else
    let descriptor := payload[0]
    let fcsFlag := descriptor >>> 6
    let singleSegment := descriptor &&& 0x20 != 0
    let checksum := descriptor &&& 0x04 != 0
    let didSize := didSizes (descriptor &&& 0x03)
    let fcsSize := if fcsFlag = 0 ∧ singleSegment then 1 else fcsSizes fcsFlag
    -- The reserved bit.
    if descriptor &&& 0x08 != 0 ∨ fcsSize = 0 then none
    -- The Window_Descriptor comes first, if there is one.
    else parseFrame read nextBlock payload (if singleSegment then 1 else 2) didSize fcsSize checksum

/-- Whether the last block from `pos` on ends the frame; only that one may. -/
def walkChunk (chunk : Bytes) (pos : Nat) (endsFrame : Bool) : Option Bool :=
  if pos < chunk.length then
    match nextBlock chunk pos with
    | none => none
    | some block =>
      if block.last ∧ block.next ≠ chunk.length then none else walkChunk chunk block.next block.last
  else some endsFrame
termination_by chunk.length - pos
decreasing_by
  have := block.advances
  have := block.fits
  omega

def frameHeader (maxWindowLog : Nat) (chunk : Bytes) : Option (Nat × Nat) :=
  if hlen : chunk.length < 2 then none
  else
    let descriptor := chunk[0]
    let windowDescriptor := chunk[1]
    let base := 2 ^ (10 + (windowDescriptor >>> 3).toNat)
    let didSize := didSizes (descriptor &&& 0x03)
    -- No content size, single segment, reserved bit or checksum.
    if descriptor &&& 0xEC != 0 then none
    else if base + base / 8 * (windowDescriptor &&& 7).toNat > 2 ^ maxWindowLog then none
    else if hid : chunk.length < 2 + didSize then none
    else some (read chunk 2 didSize (by omega), 2 + didSize)

/-- An empty chunk is an empty message and changes nothing. -/
def parseStreamChunk (maxWindowLog : Nat) (chunk : Bytes) (atFrameStart : Bool) : Option StreamChunk :=
  if chunk.length = 0 then some {}
  else
    match if atFrameStart then frameHeader read maxWindowLog chunk else some (0, 0) with
    | none => none
    | some (dictId, pos) =>
      match walkChunk nextBlock chunk pos false with
      | none => none
      | some endsFrame => some { startsFrame := atFrameStart, dictId, endsFrame }

/-! ## The same blocks -/

theorem lt_next (pos size : Nat) : pos < pos + 3 + size := by omega

def blockAt : NextBlock := fun data pos =>
  if pos + 3 ≤ data.length then
    match blockSize (value (slice data pos 3)) with
    | none => none
    | some size =>
      if hfits : pos + 3 + size ≤ data.length then
        some ⟨pos + 3 + size, value (slice data pos 3) % 2 = 1, lt_next pos size, hfits⟩
      else none
  else none

variable {pos : Nat}

theorem splitAtChecked_drop (data : Bytes) (hpos : pos ≤ data.length) (n : Nat) :
    Rust.Zstd.splitAtChecked (data.drop pos) n =
      if pos + n ≤ data.length then some (slice data pos n, data.drop (pos + n)) else none := by
  unfold Rust.Zstd.splitAtChecked
  rw [List.length_drop, List.drop_drop]
  by_cases h : pos + n ≤ data.length
  · rw [if_pos h, if_pos (by omega)]
    rfl
  · rw [if_neg h, if_neg (by omega)]

variable {data : Bytes} {size : Nat}

theorem littleEndian_slice (hsize : size ≤ 8) :
    Rust.Zstd.littleEndian (slice data pos size) = some (value (slice data pos size)) := by
  refine if_pos ?_
  rw [slice, List.length_take]
  omega

theorem blockSize_eq (header : Nat) : blockSize header = Rust.Zstd.contentLen header := by
  have hk : header >>> 1 &&& 0x03 = header / 2 % 4 := by
    rw [Nat.shiftRight_eq_div_pow]
    exact Nat.and_two_pow_sub_one_eq_mod _ 2
  have hs : header >>> 3 = header / 8 := Nat.shiftRight_eq_div_pow header 3
  unfold blockSize
  rw [hk, hs]
  rfl

theorem blockAt_eq (hpos : pos ≤ data.length) :
    (blockAt data pos).map (fun b => (data.drop b.next, b.last)) = Rust.Zstd.block (data.drop pos) := by
  unfold blockAt Rust.Zstd.block
  rw [splitAtChecked_drop data hpos]
  split_ifs with h
  · have hh : Rust.Zstd.littleEndian (slice data pos 3) = _ := littleEndian_slice (by decide)
    simp only [Option.bind_eq_bind, Option.bind_some, hh, ← blockSize_eq]
    cases blockSize (value (slice data pos 3)) with
    | none => rfl
    | some size =>
      simp only [Option.bind_some]
      rw [splitAtChecked_drop data h]
      split_ifs <;> rfl
  · rfl

theorem lastBlock_eq (hpos : pos ≤ data.length) :
    lastBlock blockAt data pos = none ∧ Rust.Zstd.afterBlocks (data.drop pos) = none ∨
      ∃ next ≤ data.length, lastBlock blockAt data pos = some next ∧
        Rust.Zstd.afterBlocks (data.drop pos) = some (data.drop next) := by
  induction hn : data.length - pos using Nat.strong_induction_on generalizing pos with
  | _ n ih =>
    rw [lastBlock, Rust.Zstd.afterBlocks_eq, ← blockAt_eq hpos]
    cases blockAt data pos with
    | none => exact .inl ⟨rfl, rfl⟩
    | some b =>
      have hf := b.fits
      have hadvances := b.advances
      simp only [Option.map_some, Option.bind_some]
      split_ifs
      · exact .inr ⟨b.next, hf, rfl, rfl⟩
      · exact ih _ (by omega) hf rfl

theorem walkChunk_eq {c : Bytes} (hpos : pos ≤ c.length) (endsFrame : Bool) :
    walkChunk blockAt c pos endsFrame = Rust.Zstd.parseBlocks (c.drop pos) endsFrame := by
  induction hn : c.length - pos using Nat.strong_induction_on generalizing pos endsFrame with
  | _ n ih =>
    rw [walkChunk]
    split_ifs with hend
    · have hne : c.drop pos ≠ [] := by simpa using hend
      rw [Rust.Zstd.parseBlocks_eq hne, ← blockAt_eq hpos]
      cases blockAt c pos with
      | none => rfl
      | some b =>
        have hf := b.fits
        have hadvances := b.advances
        have hnil : c.drop b.next = [] ↔ b.next = c.length := by
          rw [List.drop_eq_nil_iff]
          omega
        simp only [Option.map_some, Option.bind_some, ne_eq, hnil]
        rw [ih _ (by omega) hf b.last rfl]
    · have hnil : c.drop pos = [] := by simpa using hend
      rw [hnil, Rust.Zstd.parseBlocks, if_pos rfl]

/-! ## The same results -/

def Read.Exact (limit : Nat) (read : Read) : Prop :=
  ∀ data offset size h, size ≤ 8 → value (slice data offset size) < limit →
    read data offset size h = value (slice data offset size)

/-- Both reject, or accept with the same dictionary and, below `limit`, content size. -/
def Agree (limit : Nat) : Option Header → Option Header → Prop
  | none, none => True
  | some a, some b => a.dictId = b.dictId ∧ (a.contentSize < limit → a.contentSize = b.contentSize)
  | _, _ => False

theorem didSizes_eq (descriptor : UInt8) : didSizes (descriptor &&& 0x03) = Rust.Zstd.dictIdLen descriptor := rfl

theorem didSizes_le (flag : UInt8) : didSizes flag ≤ 4 := by
  unfold didSizes
  split <;> decide

theorem fcsSize_eq (d : UInt8) (singleSegment : Bool) :
    (if d >>> 6 = 0 ∧ singleSegment then 1 else fcsSizes (d >>> 6)) =
      Rust.Zstd.contentSizeLen d singleSegment := by
  unfold Rust.Zstd.contentSizeLen fcsSizes
  have hz : d >>> 6 = 0 ↔ (d >>> 6).toNat = 0 := by
    rw [← UInt8.toNat_inj]
    rfl
  simp only [hz]
  rcases (d >>> 6).toNat with _ | _ | _ | flag <;> cases singleSegment <;> rfl

variable {read : Read} {limit : Nat} {o : Nat}

theorem dictId_lt (hs : size ≤ 4) (h : o + size ≤ data.length) : value (slice data o size) < 2 ^ 32 := by
  have hlt := value_lt (slice data o size)
  rw [slice_length h] at hlt
  have hle : 256 ^ size ≤ 256 ^ 4 := Nat.pow_le_pow_right (by decide) hs
  omega

theorem dictId_eq (hr : read.Exact limit) (hl : 2 ^ 32 ≤ limit) (hs : size ≤ 4)
    (h : o + size ≤ data.length) : read data o size h = value (slice data o size) :=
  hr data o size h (by omega) ((dictId_lt hs h).trans_le hl)

theorem frameHeader_eq (hr : read.Exact limit) (hl : 2 ^ 32 ≤ limit) (chunk : Bytes) :
    (frameHeader read Rust.Zstd.streamWindowLog chunk).map (fun (dictId, pos) => (dictId, chunk.drop pos)) =
      Rust.Zstd.parseFrameHeader chunk := by
  match chunk with
  | [] => rfl
  | [_] => rfl
  | descriptor :: window :: rest =>
    have hre := splitAtChecked_drop (descriptor :: window :: rest)
      (show 2 ≤ (descriptor :: window :: rest).length by simp)
      (Rust.Zstd.dictIdLen descriptor)
    have hid := didSizes_le (descriptor &&& 0x03)
    rw [List.drop_succ_cons, List.drop_succ_cons, List.drop_zero] at hre
    rw [← didSizes_eq] at hre
    unfold frameHeader Rust.Zstd.parseFrameHeader
    rw [dif_neg (by simp)]
    simp only [← didSizes_eq, hre, Nat.add_comm 10, List.getElem_cons_zero, List.getElem_cons_succ]
    by_cases hf : 2 + didSizes (descriptor &&& 0x03) ≤ (descriptor :: window :: rest).length
    · rw [dif_neg (Nat.not_lt.mpr hf), if_pos hf, dictId_eq hr hl hid hf]
      simp only [Option.bind_eq_bind, Option.bind_none, Option.bind_some, littleEndian_slice (hid.trans (by decide))]
      split_ifs <;> rfl
    · rw [dif_pos (Nat.lt_of_not_le hf), if_neg hf]
      simp only [Option.bind_eq_bind, Option.bind_none, ite_self, Option.map_none]

theorem frameHeader_le {maxWindowLog : Nat} {c : Bytes} {header : Nat × Nat}
    (h : frameHeader read maxWindowLog c = some header) : header.2 ≤ c.length := by
  simp only [frameHeader] at h
  split_ifs at h with hlen hflags hwindow hid
  cases h
  exact Nat.le_of_not_lt hid

theorem parseStreamChunk_eq (hr : read.Exact limit) (hl : 2 ^ 32 ≤ limit) (c : Bytes) (atFrameStart : Bool) :
    parseStreamChunk read blockAt Rust.Zstd.streamWindowLog c atFrameStart =
      Rust.Zstd.parseStreamChunk c atFrameStart := by
  unfold parseStreamChunk Rust.Zstd.parseStreamChunk Rust.Zstd.chunkBlocks
  by_cases hem : c = []
  · simp [hem]
  · rw [if_neg (by simpa using hem), if_neg hem]
    cases atFrameStart with
    | false =>
      have hw := walkChunk_eq (Nat.zero_le c.length) false
      rw [List.drop_zero] at hw
      simp only [Bool.false_eq_true, if_false, Option.bind_eq_bind, Option.bind_some, hw]
      cases Rust.Zstd.parseBlocks c false <;> rfl
    | true =>
      simp only [if_true, ← frameHeader_eq hr hl, Option.bind_eq_bind]
      cases hf : frameHeader read Rust.Zstd.streamWindowLog c with
      | none => rfl
      | some header =>
        simp only [Option.map_some, Option.bind_some, walkChunk_eq (frameHeader_le hf)]
        cases Rust.Zstd.parseBlocks (c.drop header.2) false <;> rfl

theorem contentSizeLen_le (d : UInt8) (singleSegment : Bool) : Rust.Zstd.contentSizeLen d singleSegment ≤ 8 := by
  unfold Rust.Zstd.contentSizeLen
  split <;> decide

theorem content_eq (hr : read.Exact limit) (hs : size ≤ 8)
    (h : o + size ≤ data.length)
    (hlt : (if size = 2 then value (slice data o size) + 256 else value (slice data o size)) < limit) :
    (if size = 2 then value (slice data o size) + 256 else value (slice data o size)) =
      if size = 2 then read data o size h + 256 else read data o size h := by
  rw [hr data o size h hs]
  split_ifs at hlt <;> omega

theorem drop_eq_nil_iff_ends (h : pos ≤ data.length) : data.drop pos = [] ↔ pos = data.length := by
  rw [List.drop_eq_nil_iff]
  omega

variable {p : Bytes}

variable (hr : read.Exact limit)
include hr

variable (hl : 2 ^ 32 ≤ limit)
include hl

theorem parseFrame_agree {ds fs : Nat}
    (hpos : pos ≤ p.length) (hdid : ds ≤ 4) (hfcs : fs ≤ 8) (c : Bool) :
    Agree limit
      (do
        let (dictId, rest) ← Rust.Zstd.splitAtChecked (p.drop pos) ds
        let (contentSize, rest) ← Rust.Zstd.splitAtChecked rest fs
        let dictId ← Rust.Zstd.littleEndian dictId
        let contentSize ← Rust.Zstd.littleEndian contentSize
        let contentSize := if fs = 2 then contentSize + 256 else contentSize
        let rest ← Rust.Zstd.afterBlocks rest
        let (_, rest) ← Rust.Zstd.splitAtChecked rest (if c then 4 else 0)
        if rest = [] then some { dictId, contentSize } else none)
      (parseFrame read blockAt p pos ds fs c) := by
  unfold parseFrame
  rw [splitAtChecked_drop p hpos]
  by_cases hid : pos + ds ≤ p.length
  · by_cases hf : pos + ds + fs ≤ p.length
    · rw [dif_neg (Nat.not_lt.mpr hf), if_pos hid]
      have hc := content_eq hr hfcs hf
      simp only [Option.bind_eq_bind, Option.bind_some, splitAtChecked_drop p hid, if_pos hf,
        littleEndian_slice (hdid.trans (by decide)), littleEndian_slice hfcs, dictId_eq hr hl hdid hid]
      rcases lastBlock_eq hf with ⟨hw, hru⟩ | ⟨next, hn, hw, hru⟩
      · rw [hw, hru]
        trivial
      · rw [hw, hru]
        simp only [Option.bind_some, splitAtChecked_drop p hn]
        have hend : (if c then next + 4 else next) = next + if c then 4 else 0 := by
          split_ifs <;> rfl
        rw [hend]
        generalize (if c then 4 else 0) = trailer
        by_cases hlen : next + trailer ≤ p.length
        · rw [if_pos hlen]
          simp only [Option.bind_some, drop_eq_nil_iff_ends hlen]
          by_cases hen : next + trailer = p.length
          · rw [if_pos hen, if_pos hen]
            exact ⟨rfl, hc⟩
          · rw [if_neg hen, if_neg hen]
            trivial
        · have hen : ¬next + trailer = p.length := fun h => hlen h.le
          rw [if_neg hlen, if_neg hen]
          trivial
    · rw [dif_pos (Nat.lt_of_not_le hf), if_pos hid]
      simp only [Option.bind_eq_bind, Option.bind_some, splitAtChecked_drop p hid, if_neg hf, Option.bind_none]
      trivial
  · rw [dif_pos (by omega), if_neg hid]
    trivial

theorem parseHeader_agree (p : Bytes) : Agree limit (Rust.Zstd.parseHeader p) (parseHeader read blockAt p) := by
  match p with
  | [] => trivial
  | descriptor :: rest =>
    unfold parseHeader Rust.Zstd.parseHeader
    rw [dif_neg (by simp)]
    simp only [List.getElem_cons_zero, fcsSize_eq, didSizes_eq]
    have hfcs := contentSizeLen_le descriptor (descriptor &&& 0x20 != 0)
    generalize Rust.Zstd.contentSizeLen descriptor (descriptor &&& 0x20 != 0) = fcsSize at hfcs ⊢
    by_cases hre : (descriptor &&& 8 != 0) = true
    · simp [hre, Agree]
    by_cases hs : fcsSize = 0
    · simp [hs, Agree]
    have hw : 1 + (if (descriptor &&& 0x20 != 0) = true then 0 else 1) =
        if (descriptor &&& 0x20 != 0) = true then 1 else 2 := by split_ifs <;> rfl
    have hrs := splitAtChecked_drop (descriptor :: rest) (show 1 ≤ (descriptor :: rest).length by simp)
      (if (descriptor &&& 0x20 != 0) = true then 0 else 1)
    rw [List.drop_succ_cons, List.drop_zero, hw] at hrs
    have hok : ¬((descriptor &&& 8 != 0) = true ∨ fcsSize = 0) := not_or.mpr ⟨hre, hs⟩
    rw [if_neg hok, if_neg hre, if_neg hs, hrs]
    generalize (if (descriptor &&& 0x20 != 0) = true then 1 else 2) = pos
    by_cases hpos : pos ≤ (descriptor :: rest).length
    · rw [if_pos hpos]
      exact parseFrame_agree hr hl hpos (didSizes_le _) hfcs _
    · rw [if_neg hpos, parseFrame, dif_pos (by omega)]
      trivial

/-! ## A `Dictionary_ID` has 32 bits -/

theorem parseFrame_dictId_lt {nextBlock : NextBlock} {ds fs : Nat} (hdid : ds ≤ 4) {c : Bool} {header : Header}
    (h : parseFrame read nextBlock p pos ds fs c = some header) : header.dictId < 2 ^ 32 := by
  obtain ⟨hlen, h⟩ := Option.dite_none_left_eq_some.mp h
  simp only at h
  split at h
  · cases h
  · obtain ⟨-, h⟩ := Option.ite_none_right_eq_some.mp h
    cases h
    rw [dictId_eq hr hl hdid]
    exact dictId_lt hdid (by omega)

theorem parseHeader_dictId_lt {nextBlock : NextBlock} {header : Header}
    (h : parseHeader read nextBlock p = some header) :
    header.dictId < 2 ^ 32 := by
  obtain ⟨hempty, h⟩ := Option.dite_none_left_eq_some.mp h
  obtain ⟨-, h⟩ := Option.ite_none_left_eq_some.mp h
  exact parseFrame_dictId_lt hr hl (didSizes_le _) h

theorem parseStreamChunk_dictId_lt {nextBlock : NextBlock}
    {maxWindowLog : Nat} {b : Bytes} {atFrameStart : Bool} {p : StreamChunk}
    (h : parseStreamChunk read nextBlock maxWindowLog b atFrameStart = some p) : p.dictId < 2 ^ 32 := by
  simp only [parseStreamChunk] at h
  split_ifs at h with hempty hstart
  · cases h
    decide
  · split at h
    · cases h
    · rename_i dictId pos hf
      split at h
      · cases h
      · cases h
        simp only [frameHeader] at hf
        split_ifs at hf with hlen _ _ hid
        cases hf
        have hdid := didSizes_le (b[0] &&& 0x03)
        rw [dictId_eq hr hl hdid]
        exact dictId_lt hdid (by omega)
  · simp only at h
    split at h
    · cases h
    · cases h
      exact Nat.two_pow_pos 32

end TrevRpc.Zstd
