import TrevRpc.Zstd.Positions

/-!
# The four runtimes agree on zstd data

`internal/zstd/frame.go`, `compression.js` and `ZstdFrame.kt`, against `compression.rs`.
-/

open TrevRpc.Rust TrevRpc.LittleEndian

namespace TrevRpc.Zstd

section

variable {data : Bytes} {pos size : Nat}

theorem header_fits (h : ¬ data.length - pos < 3) : pos + 3 ≤ data.length := by omega

theorem next_fits (h : ¬ data.length - pos < 3) (hsize : ¬ data.length - (pos + 3) < size) :
    pos + 3 + size ≤ data.length := by
  omega

theorem next_fits_sub (h : ¬ data.length - pos < 3) (hsize : ¬ data.length - pos - 3 < size) :
    pos + 3 + size ≤ data.length := by
  omega

theorem next_fits_of_not_gt (h : ¬ pos + 3 + size > data.length) : pos + 3 + size ≤ data.length := Nat.le_of_not_gt h

end

def orThree (data : Bytes) (pos : Nat) (h : pos + 3 ≤ data.length) : Nat :=
  data[pos].toNat ||| data[pos + 1].toNat <<< 8 ||| data[pos + 2].toNat <<< 16

end TrevRpc.Zstd

/-! ## Go -/

namespace TrevRpc.Go.Zstd

open TrevRpc.Zstd

def errInvalid : String := "zstd: invalid ZSTD_MESSAGE payload"

def nextBlock : NextBlock := fun data pos =>
  if h : data.length - pos < 3 then none
  else
    let bh := orThree data pos (header_fits h)
    match blockSize bh with
    | none => none
    | some size =>
      if hsize : data.length - (pos + 3) < size then none
      else some ⟨pos + 3 + size, bh &&& 1 != 0, lt_next pos size, next_fits h hsize⟩

/-- `ParseHeader`. -/
def parseHeader (payload : Bytes) : Except String Rust.Zstd.Header :=
  (TrevRpc.Zstd.parseHeader orShifted nextBlock payload).elim (.error errInvalid) .ok

/-- `ParseStreamChunk`. -/
def parseStreamChunk (chunk : Bytes) (atFrameStart : Bool) (maxWindowLog : Nat) : Except String Rust.Zstd.StreamChunk :=
  (TrevRpc.Zstd.parseStreamChunk orShifted nextBlock maxWindowLog chunk atFrameStart).elim (.error errInvalid) .ok

end TrevRpc.Go.Zstd

/-! ## JavaScript -/

namespace TrevRpc.Js.Zstd

open TrevRpc.Zstd

def readLittleEndian : Read := fun bytes offset size h => timesPlus bytes offset roundToDouble size h 0

def nextBlock : NextBlock := fun bytes position =>
  if h : bytes.length - position < 3 then none
  else
    let header := orThree bytes position (header_fits h)
    match blockSize header with
    | none => none
    | some size =>
      if hnext : position + 3 + size > bytes.length then none
      else some ⟨position + 3 + size, header &&& 1 != 0, lt_next position size, next_fits_of_not_gt hnext⟩

def parseZstdHeader (payload : Bytes) : Except Status Rust.Zstd.Header :=
  (TrevRpc.Zstd.parseHeader readLittleEndian nextBlock payload).elim
    (.error (.internal "invalid ZSTD_MESSAGE payload")) .ok

def parseStreamChunk (chunk : Bytes) (atFrameStart : Bool) (maxWindowLog : Nat) : Except Status Rust.Zstd.StreamChunk :=
  (TrevRpc.Zstd.parseStreamChunk readLittleEndian nextBlock maxWindowLog chunk atFrameStart).elim
    (.error (.internal "invalid ZSTD_STREAM_MESSAGE payload")) .ok

end TrevRpc.Js.Zstd

/-! ## Kotlin -/

namespace TrevRpc.Kotlin.Zstd

open TrevRpc.Zstd

def streamWindowLog : Nat := 16

def nextBlock : NextBlock := fun data position =>
  if h : data.length - position < 3 then none
  else
    let header := orShifted data position 3 (header_fits h)
    match blockSize header with
    | none => none
    | some size =>
      if hsize : data.length - position - 3 < size then none
      else some ⟨position + 3 + size, header &&& 1 != 0, lt_next position size, next_fits_sub h hsize⟩

/-- The 64 bits of a `Long` that is negative are at least 2^63; such a size is the largest `Long`. -/
def saturate (bits : Nat) : Nat := if 2 ^ 63 ≤ bits then 2 ^ 63 - 1 else bits

def parseZstdHeader (payload : Bytes) : Option Rust.Zstd.Header :=
  (parseHeader orShifted nextBlock payload).map fun header =>
    { dictId := header.dictId % 2 ^ 32, contentSize := saturate header.contentSize }

def parseZstdStreamChunk (chunk : Bytes) (atFrameStart : Bool) : Option Rust.Zstd.StreamChunk :=
  (parseStreamChunk orShifted nextBlock streamWindowLog chunk atFrameStart).map fun parsed =>
    { parsed with dictId := parsed.dictId % 2 ^ 32 }

end TrevRpc.Kotlin.Zstd

/-! ## Agreement -/

namespace TrevRpc.Zstd

theorem orShifted_exact (l : Nat) : Read.Exact l orShifted :=
  fun _ _ _ h _ _ => orShifted_eq h

theorem readLittleEndian_exact : Read.Exact (2 ^ 53) Js.Zstd.readLittleEndian := by
  intro data offset size h _ hlt
  unfold Js.Zstd.readLittleEndian
  rw [timesPlus_eq (fun _ => roundToDouble_of_lt) h (by simpa using hlt)]
  simp

theorem orThree_eq {data : Bytes} {pos : Nat} (h : pos + 3 ≤ data.length) :
    orThree data pos h = value (slice data pos 3) := by
  rw [← orShifted_eq h]
  simp [orThree, orShifted]

theorem and_one_ne (n : Nat) : (n &&& 1 != 0) = decide (n % 2 = 1) := by
  rw [Nat.and_one_is_mod]
  rcases Nat.mod_two_eq_zero_or_one n with h | h <;> rw [h] <;> rfl

theorem nextBlock_eq : Go.Zstd.nextBlock = blockAt ∧ Js.Zstd.nextBlock = blockAt ∧ Kotlin.Zstd.nextBlock = blockAt := by
  refine ⟨?_, ?_, ?_⟩
  all_goals
    funext data pos
    simp only [Go.Zstd.nextBlock, Js.Zstd.nextBlock, Kotlin.Zstd.nextBlock, blockAt]
    by_cases h : pos + 3 ≤ data.length
    · rw [dif_neg (by omega), if_pos h]
      simp only [orThree_eq h, orShifted_eq, and_one_ne]
      cases blockSize (value (slice data pos 3)) with
      | none => rfl
      | some size =>
        dsimp only
        split_ifs <;> first | rfl | omega
    · rw [dif_pos (by omega), if_neg h]

theorem Agree.saturate {rust p : Option Rust.Zstd.Header} {l : Nat} (h : Agree l rust p)
    (hlimit : l ≤ 2 ^ 63) (hd : ∀ header ∈ p, header.dictId < 2 ^ 32) :
    Agree l rust (p.map fun header =>
      { dictId := header.dictId % 2 ^ 32, contentSize := Kotlin.Zstd.saturate header.contentSize }) := by
  match rust, p, h with
  | none, none, h => exact h
  | some header, some p, ⟨hid, hs⟩ =>
    refine ⟨hid.trans (Nat.mod_eq_of_lt (hd p rfl)).symm, fun hlt => ?_⟩
    have hs := hs hlt
    refine hs.trans (if_neg ?_).symm
    omega

theorem toOption_elim {ε α : Type*} (e : ε) (o : Option α) : (o.elim (.error e) .ok : Except ε α).toOption = o := by
  cases o <;> rfl

/-- All runtimes accept the same payloads and chunks, and read the same from them. -/
theorem runtimes_agree :
    (∀ payload,
      Agree (2 ^ 53) (Rust.Zstd.parseHeader payload) (Go.Zstd.parseHeader payload).toOption ∧
        Agree (2 ^ 53) (Rust.Zstd.parseHeader payload) (Js.Zstd.parseZstdHeader payload).toOption ∧
        Agree (2 ^ 53) (Rust.Zstd.parseHeader payload) (Kotlin.Zstd.parseZstdHeader payload)) ∧
      ∀ chunk atFrameStart,
        (Go.Zstd.parseStreamChunk chunk atFrameStart 16).toOption = Rust.Zstd.parseStreamChunk chunk atFrameStart ∧
          (Js.Zstd.parseStreamChunk chunk atFrameStart 16).toOption = Rust.Zstd.parseStreamChunk chunk atFrameStart ∧
          Kotlin.Zstd.parseZstdStreamChunk chunk atFrameStart = Rust.Zstd.parseStreamChunk chunk atFrameStart := by
  refine ⟨fun payload => ⟨?_, ?_, ?_⟩, fun chunk atFrameStart => ⟨?_, ?_, ?_⟩⟩
  · rw [Go.Zstd.parseHeader, toOption_elim, nextBlock_eq.1]
    exact parseHeader_agree (orShifted_exact _) (by decide) payload
  · rw [Js.Zstd.parseZstdHeader, toOption_elim, nextBlock_eq.2.1]
    exact parseHeader_agree readLittleEndian_exact (by decide) payload
  · rw [Kotlin.Zstd.parseZstdHeader, nextBlock_eq.2.2]
    have hagree := parseHeader_agree (orShifted_exact (2 ^ 53)) (by decide) payload
    exact hagree.saturate (by decide) fun _ => parseHeader_dictId_lt (orShifted_exact (2 ^ 53)) (by decide)
  · rw [Go.Zstd.parseStreamChunk, toOption_elim, nextBlock_eq.1]
    exact parseStreamChunk_eq (orShifted_exact (2 ^ 32)) (by decide) chunk atFrameStart
  · rw [Js.Zstd.parseStreamChunk, toOption_elim, nextBlock_eq.2.1]
    exact parseStreamChunk_eq readLittleEndian_exact (by decide) chunk atFrameStart
  · rw [← parseStreamChunk_eq (orShifted_exact (2 ^ 32)) (by decide) chunk atFrameStart,
      Kotlin.Zstd.parseZstdStreamChunk, nextBlock_eq.2.2]
    change (parseStreamChunk orShifted blockAt Rust.Zstd.streamWindowLog chunk atFrameStart).map _ = _
    cases hparsed : parseStreamChunk orShifted blockAt Rust.Zstd.streamWindowLog chunk atFrameStart with
    | none => rfl
    | some parsed =>
      have hlt := parseStreamChunk_dictId_lt (orShifted_exact (2 ^ 32)) (by decide) hparsed
      rw [Option.map_some, Nat.mod_eq_of_lt hlt]

end TrevRpc.Zstd
