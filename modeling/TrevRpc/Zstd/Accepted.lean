import TrevRpc.Zstd.Format

/-! # What the receiver accepts is framed as zstd asks -/

open TrevRpc.Rust

namespace TrevRpc.Zstd.Format

/-! ## Blocks -/

theorem littleEndian_eq_some {bs : Bytes} {n : Nat} (h : Rust.Zstd.littleEndian bs = some n) :
    bs = LittleEndian.bytes bs.length n ∧ n < 256 ^ bs.length := by
  obtain ⟨-, h⟩ := Option.ite_none_right_eq_some.mp h
  obtain rfl : LittleEndian.value bs = n := Option.some.inj h
  exact ⟨(LittleEndian.bytes_value bs).symm, LittleEndian.value_lt bs⟩

variable {data rest : Bytes}

theorem block_eq_some {last : Bool} (h : Rust.Zstd.block data = some (rest, last)) :
    ∃ b : Block, data = b.bytes ++ rest ∧ b.last = last := by
  simp only [Rust.Zstd.block, Option.bind_eq_bind, Option.bind_eq_some_iff, Prod.exists] at h
  obtain ⟨head, after, hh, header, hv, len, hlen, content, rest', hc, h⟩ := h
  cases h
  obtain ⟨rfl, h3⟩ := Rust.Zstd.splitAtChecked_eq_some.mp hh
  obtain ⟨rfl, rfl⟩ := Rust.Zstd.splitAtChecked_eq_some.mp hc
  obtain ⟨hhead, hlt⟩ := littleEndian_eq_some hv
  rw [h3] at hhead hlt
  obtain ⟨type, ht, hl⟩ : ∃ type : BlockType, type.code = header / 2 % 4 ∧
      content.length = if type = .rle then 1 else header / 8 := by
    unfold Rust.Zstd.contentLen at hlen
    split at hlen
    · next h0 => exact ⟨.raw, h0.symm, (Option.some.inj hlen).symm⟩
    · next h2 => exact ⟨.compressed, h2.symm, (Option.some.inj hlen).symm⟩
    · next h1 => exact ⟨.rle, h1.symm, (Option.some.inj hlen).symm⟩
    · cases hlen
  refine ⟨⟨type, header / 8, header % 2 = 1, content, by omega, hl⟩, ?_, rfl⟩
  have hb : (decide (header % 2 = 1)).toNat = header % 2 := by
    rcases Nat.mod_two_eq_zero_or_one header with h | h <;> rw [h] <;> rfl
  rw [Block.bytes, Block.header, hb, ht, show header % 2 + 2 * (header / 2 % 4) + 8 * (header / 8) = header by omega,
    ← hhead, List.append_assoc]

theorem inFrame_cons {b : Block} {bs : List Block} : InFrame (b :: bs) ↔ (bs ≠ [] → b.last = false) ∧ InFrame bs := by
  cases bs <;> simp [InFrame]

theorem parseBlocks_eq_some {endsFrame e : Bool} (h : Rust.Zstd.parseBlocks data endsFrame = some e) :
    ∃ bs, data = bs.flatMap Block.bytes ∧ InFrame bs ∧ e = (bs.getLast?.map Block.last).getD endsFrame := by
  induction hn : data.length using Nat.strong_induction_on generalizing data endsFrame with
  | _ n ih =>
    by_cases hne : data = []
    · rw [hne, Rust.Zstd.parseBlocks, if_pos rfl] at h
      exact ⟨[], hne, by simp [InFrame], (Option.some.inj h).symm⟩
    · rw [Rust.Zstd.parseBlocks_eq hne] at h
      obtain ⟨⟨rest, last⟩, hb, h⟩ := Option.bind_eq_some_iff.mp h
      obtain ⟨hlast, h⟩ := Option.ite_none_left_eq_some.mp h
      have hlt := Rust.Zstd.block_length hb
      obtain ⟨bs, rfl, hin, rfl⟩ := ih _ (hn ▸ hlt) h rfl
      obtain ⟨b, rfl, rfl⟩ := block_eq_some hb
      refine ⟨b :: bs, rfl, inFrame_cons.mpr ⟨fun hbs => ?_, hin⟩, ?_⟩
      · obtain ⟨c, cs, rfl⟩ := List.exists_cons_of_ne_nil hbs
        simpa [c.bytes_ne_nil] using hlast
      · cases h : bs.getLast? <;> simp [List.getLast?_cons, h]

theorem afterBlocks_eq_some (h : Rust.Zstd.afterBlocks data = some rest) :
    ∃ bs, data = bs.flatMap Block.bytes ++ rest ∧ InFrame bs ∧ ends bs = true := by
  induction hn : data.length using Nat.strong_induction_on generalizing data with
  | _ n ih =>
    rw [Rust.Zstd.afterBlocks_eq] at h
    obtain ⟨⟨after, last⟩, hb, h⟩ := Option.bind_eq_some_iff.mp h
    have hlt := Rust.Zstd.block_length hb
    obtain ⟨b, rfl, rfl⟩ := block_eq_some hb
    dsimp only at h
    split_ifs at h with hlast
    · cases h
      exact ⟨[b], by simp, nofun, by simpa [ends] using hlast⟩
    · obtain ⟨bs, rfl, hin, hend⟩ := ih _ (hn ▸ hlt) h rfl
      refine ⟨b :: bs, by simp, inFrame_cons.mpr ⟨fun _ => by simpa using hlast, hin⟩, ?_⟩
      cases bs with
      | nil => cases hend
      | cons c bs => simpa [ends] using hend

/-! ## Headers -/

def unusedBit (set : Bool) (bytes : Bytes) : Bytes := bytes.modifyHead ((if set then 0x10 else 0) ||| ·)

theorem descriptor_cases (d : UInt8) : ∃ (unused : Bool) (sizeFlag flag : Fin 4),
    Rust.Zstd.dictIdLen d = dictIdLen flag ∧
    ((d &&& 0xEC != 0) = false → d = (if unused then 0x10 else 0) ||| UInt8.ofNat flag) ∧
    ((d &&& 0x08 != 0) = false → d = (if unused then 0x10 else 0) |||
      UInt8.ofNat (64 * sizeFlag + 32 * (d &&& 0x20 != 0).toNat + 4 * (d &&& 0x04 != 0).toNat + flag)) ∧
    (Rust.Zstd.contentSizeLen d (d &&& 0x20 != 0) ≠ 0 → (sizeFlag ≠ 0 ∨ (d &&& 0x20 != 0) = true) ∧
      Rust.Zstd.contentSizeLen d (d &&& 0x20 != 0) = if sizeFlag = 0 then 1 else 2 ^ sizeFlag.val) := by
  refine ⟨d &&& 0x10 != 0, ⟨d.toNat / 64 % 4, by omega⟩, ⟨d.toNat % 4, by omega⟩, ?_⟩
  obtain ⟨d⟩ := d
  revert d
  decide +kernel

theorem parseFrameHeader_eq_some {dictId : Nat} (h : Rust.Zstd.parseFrameHeader data = some (dictId, rest)) :
    ∃ unused, ∃ header : StreamHeader, data = unusedBit unused header.bytes ++ rest := by
  match data with
  | [] | [_] => cases h
  | d :: window :: after =>
    simp only [Rust.Zstd.parseFrameHeader, Option.bind_eq_bind, Option.bind_none, Option.ite_none_left_eq_some,
      Option.bind_eq_some_iff, Prod.exists] at h
    obtain ⟨hd, hw, head, _, hs, _, hn, h⟩ := h
    cases h
    obtain ⟨rfl, hlen⟩ := Rust.Zstd.splitAtChecked_eq_some.mp hs
    obtain ⟨hhead, hlt⟩ := littleEndian_eq_some hn
    obtain ⟨unused, -, flag, hflag, hbits, -⟩ := descriptor_cases d
    rw [hlen, hflag] at hhead hlt
    refine ⟨unused, ⟨flag, window, dictId, Nat.not_lt.mp hw, hlt⟩, ?_⟩
    simp only [unusedBit, StreamHeader.bytes, List.modifyHead_cons, List.cons_append, ← hhead]
    rw [← hbits (by simpa using hd)]

theorem parseHeader_eq_some {header : Rust.Zstd.Header} (h : Rust.Zstd.parseHeader data = some header) :
    ∃ unused, ∃ f : Frame, data = unusedBit unused f.bytes ∧ header = ⟨f.dictId, f.contentSize⟩ := by
  match data with
  | [] => cases h
  | d :: after =>
    simp only [Rust.Zstd.parseHeader, Option.bind_eq_bind, Option.bind_none, Option.ite_none_left_eq_some,
      Option.ite_none_right_eq_some, Option.bind_eq_some_iff, Prod.exists] at h
    obtain ⟨hr, hsize, window, _, hw, id, _, hid, size, _, hs, n, hn, m, hm, _, hb, checksum, _, hc, rfl, h⟩ := h
    obtain ⟨rfl, hwlen⟩ := Rust.Zstd.splitAtChecked_eq_some.mp hw
    obtain ⟨rfl, hidlen⟩ := Rust.Zstd.splitAtChecked_eq_some.mp hid
    obtain ⟨rfl, hslen⟩ := Rust.Zstd.splitAtChecked_eq_some.mp hs
    obtain ⟨blocks, rfl, hin, hends⟩ := afterBlocks_eq_some hb
    obtain ⟨rfl, hclen⟩ := Rust.Zstd.splitAtChecked_eq_some.mp hc
    obtain ⟨hid, hidlt⟩ := littleEndian_eq_some hn
    obtain ⟨hs, hslt⟩ := littleEndian_eq_some hm
    obtain ⟨unused, sf, flag, hflag, -, hbits, hsf⟩ := descriptor_cases d
    obtain ⟨hsized, hsf⟩ := hsf hsize
    rw [hidlen, hflag] at hid hidlt
    rw [hslen, hsf] at hs hslt
    have hwin : window = if d &&& 0x20 != 0 then [] else [window.headD 0] := by
      split_ifs at hwlen ⊢ with hss
      · exact List.length_eq_zero_iff.mp hwlen
      · obtain ⟨w, rfl⟩ := List.length_eq_one_iff.mp hwlen
        rfl
    refine ⟨unused, ⟨sf, d &&& 0x20 != 0, d &&& 0x04 != 0, flag, window.headD 0, n, m, blocks, checksum, hsized, hidlt,
      hslt, hin, hends, hclen⟩, ?_, ?_⟩
    · simp only [unusedBit, Frame.bytes, Frame.descriptor, Frame.sizeLen, List.modifyHead_cons, ← hid, ← hs, ← hwin]
      rw [← hbits (by simpa using hr), List.append_nil]
    · cases h
      simp only [Frame.contentSize, Frame.sizeLen, hsf]

/-! ## Chunks of a stream -/

structure StreamFrame where
  unused : Bool
  header : StreamHeader
  first : List Block
  later : List (List Block)

namespace StreamFrame

def blocks (f : StreamFrame) : List Block := f.first ++ f.later.flatten

def bytes (f : StreamFrame) : Bytes := unusedBit f.unused f.header.bytes ++ f.blocks.flatMap Block.bytes

def chunks (f : StreamFrame) : List Bytes :=
  (unusedBit f.unused f.header.bytes ++ f.first.flatMap Block.bytes) :: f.later.map (·.flatMap Block.bytes)

theorem flatten_chunks (f : StreamFrame) : f.chunks.flatten = f.bytes := by
  simp [chunks, bytes, blocks, List.flatMap_def, List.map_flatten, List.flatten_flatten, Function.comp_def]

end StreamFrame

/-- Whole frames, but for the last one, which is open unless the next chunk is at the start of a frame. -/
inductive Framed : List StreamFrame → Bool → Prop
  | none : Framed [] true
  | frames {init : List StreamFrame} {f : StreamFrame} : (∀ g ∈ init, InFrame g.blocks ∧ ends g.blocks = true) →
    InFrame f.blocks → Framed (init ++ [f]) (ends f.blocks)

def accepts : Bool → List Bytes → Option Bool
  | atFrameStart, [] => some atFrameStart
  | atFrameStart, chunk :: chunks => (Rust.Zstd.parseStreamChunk chunk atFrameStart).bind fun parsed =>
    accepts (if chunk = [] then atFrameStart else parsed.endsFrame) chunks

theorem Framed.chunk {frames : List StreamFrame} {atFrameStart : Bool} {chunk : Bytes} {parsed : Rust.Zstd.StreamChunk}
    (h : Framed frames atFrameStart) (hne : chunk ≠ [])
    (hp : Rust.Zstd.parseStreamChunk chunk atFrameStart = some parsed) :
    ∃ frames', Framed frames' parsed.endsFrame ∧
      frames'.flatMap StreamFrame.chunks = frames.flatMap StreamFrame.chunks ++ [chunk] := by
  simp only [Rust.Zstd.parseStreamChunk, if_neg hne, Option.bind_eq_bind, Option.bind_eq_some_iff, Prod.exists] at hp
  obtain ⟨dictId, rest, hc, e, hb, hp⟩ := hp
  cases hp
  obtain ⟨bs, rfl, hin, rfl⟩ := parseBlocks_eq_some hb
  have hends : (bs.getLast?.map Block.last).getD false = ends bs := by
    unfold ends
    cases bs.getLast? <;> rfl
  rw [hends]
  cases atFrameStart with
  | true =>
    obtain ⟨unused, header, rfl⟩ := parseFrameHeader_eq_some hc
    have hall : ∀ g ∈ frames, InFrame g.blocks ∧ ends g.blocks = true := by
      generalize hs : true = atFrameStart at h
      cases h with
      | none => simp
      | frames hinit hf => simpa [or_imp, forall_and, ← hs, hf] using hinit
    let f : StreamFrame := ⟨unused, header, bs, []⟩
    have hf : f.blocks = bs := List.append_nil bs
    refine ⟨frames ++ [f], hf ▸ .frames hall (hf.symm ▸ hin), by simp [f, StreamFrame.chunks]⟩
  | false =>
    cases hc
    generalize hs : false = atFrameStart at h
    cases h with
    | none => cases hs
    | @frames init f hinit hf =>
      have hbs : bs ≠ [] := by
        rintro rfl
        exact hne rfl
      have hnot : ∀ b ∈ f.blocks, b.last = false := by
        rcases List.eq_nil_or_concat f.blocks with hnil | ⟨before, b, hcat⟩
        · simp [hnil]
        · simpa [hcat, InFrame, ends, or_imp, forall_and] using And.intro hf hs.symm
      let f' : StreamFrame := { f with later := f.later ++ [bs] }
      have hblocks : f'.blocks = f.blocks ++ bs := by simp [f', StreamFrame.blocks]
      have hlast : ends f'.blocks = ends bs := by
        rw [hblocks, ends, ends, List.getLast?_append_of_ne_nil _ hbs]
      refine ⟨init ++ [f'], hlast ▸ .frames hinit ?_, by simp [f', StreamFrame.chunks]⟩
      rw [hblocks, InFrame, List.dropLast_append_of_ne_nil hbs, List.forall_mem_append]
      exact ⟨hnot, hin⟩

theorem framed_of_accepts {chunks : List Bytes} {frames : List StreamFrame} {atFrameStart e : Bool}
    (h : accepts atFrameStart chunks = some e) (hf : Framed frames atFrameStart) :
    ∃ frames', Framed frames' e ∧
      frames'.flatMap StreamFrame.chunks = frames.flatMap StreamFrame.chunks ++ chunks.filter (· ≠ []) := by
  induction chunks generalizing frames atFrameStart with
  | nil =>
    cases h
    exact ⟨frames, hf, by simp⟩
  | cons chunk chunks ih =>
    obtain ⟨parsed, hp, h⟩ := Option.bind_eq_some_iff.mp h
    by_cases hne : chunk = []
    · rw [if_pos hne] at h
      simpa [hne] using ih h hf
    · rw [if_neg hne] at h
      obtain ⟨frames', hf', hcat⟩ := hf.chunk hne hp
      obtain ⟨frames'', hf'', hcat'⟩ := ih h hf'
      exact ⟨frames'', hf'', by simp [hcat', hcat, hne]⟩

theorem accepted_is_framed :
    (∀ chunks atFrameStart, accepts true chunks = some atFrameStart → ∃ frames, Framed frames atFrameStart ∧
      chunks.filter (· ≠ []) = frames.flatMap StreamFrame.chunks ∧
        chunks.flatten = frames.flatMap StreamFrame.bytes) ∧
      ∀ payload header, Rust.Zstd.parseHeader payload = some header →
        ∃ unused, ∃ f : Frame, payload = unusedBit unused f.bytes ∧ header = ⟨f.dictId, f.contentSize⟩ := by
  refine ⟨fun chunks atFrameStart h => ?_, fun payload header => parseHeader_eq_some⟩
  obtain ⟨frames, hf, hcat⟩ := framed_of_accepts h .none
  have hcat : frames.flatMap StreamFrame.chunks = chunks.filter (· ≠ []) := hcat
  refine ⟨frames, hf, hcat.symm, ?_⟩
  calc chunks.flatten = (chunks.filter (· ≠ [])).flatten := List.flatten_filter_ne_nil.symm
    _ = frames.flatMap StreamFrame.bytes := by
      simp only [← hcat, List.flatMap_def, List.flatten_flatten, List.map_map, Function.comp_def,
        StreamFrame.flatten_chunks]

/-- A frame of two blocks in two chunks, and a message of one byte. -/
theorem accepted_is_framed_two_chunks :
    (accepts true [[0, 0, 8, 0, 0, 7], [], [1, 0, 0]] = some true ∧ ∃ frames, Framed frames true ∧
      [[0, 0, 8, 0, 0, 7], [1, 0, 0]] = frames.flatMap StreamFrame.chunks ∧
        [0, 0, 8, 0, 0, 7, 1, 0, 0] = frames.flatMap StreamFrame.bytes) ∧
      Rust.Zstd.parseHeader [0x20, 1, 9, 0, 0, 7] = some ⟨0, 1⟩ ∧
        ∃ unused, ∃ f : Frame, [0x20, 1, 9, 0, 0, 7] = unusedBit unused f.bytes ∧
          (⟨0, 1⟩ : Rust.Zstd.Header) = ⟨f.dictId, f.contentSize⟩ :=
  have hchunks : accepts true [[0, 0, 8, 0, 0, 7], [], [1, 0, 0]] = some true := by decide +kernel
  have hpayload : Rust.Zstd.parseHeader [0x20, 1, 9, 0, 0, 7] = some ⟨0, 1⟩ := by decide +kernel
  ⟨⟨hchunks, accepted_is_framed.1 _ _ hchunks⟩, hpayload, accepted_is_framed.2 _ _ hpayload⟩

end TrevRpc.Zstd.Format
