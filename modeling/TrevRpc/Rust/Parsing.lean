import TrevRpc.Rust.Reading

/-! # Frames of a whole byte string -/

open TrevRpc.Effect

namespace TrevRpc.Rust

/-- Takes a varint: its value and its length. -/
def Input.varint : Reading Input (Nat × Nat) := fun i =>
  match Varint.decode i.bytes with
  | none => (.error i.eof, { i with bytes := [] })
  | some (value, len) => (.ok (value, len), i.drop len)

def Input.typeAndLength : Reading Input (Nat × Nat × Nat) := do
  let (frameType, typeLen) ← Input.varint
  let (length, lengthLen) ← Input.varint
  return (frameType, length, typeLen + lengthLen)

/-- A length above the limit is refused with the payload unread. -/
def parseHeader (maxFrameSize : Nat) : Reading Input (Option FrameHeader) := fun i =>
  if i.bytes = [] then (atEnd i.fault, i)
  else
    match i.typeAndLength with
    | (.error error, i) => (.error error, i)
    | (.ok (frameType, length, headerLen), i) =>
      if maxFrameSize < length then (.error (.frameTooLarge length maxFrameSize), i)
      else (.ok (some ⟨frameType, length, headerLen⟩), i)

variable {i i' : Input}

theorem Input.varint_length {r : Nat × Nat} (h : i.varint = (.ok r, i')) : i'.bytes.length < i.bytes.length := by
  unfold varint at h
  split at h
  · cases h
  · next hdec =>
    cases h
    obtain ⟨hpos, hle⟩ := Varint.decode_length hdec
    simp only [drop, List.length_drop]
    omega

theorem Input.exact_length {n : Nat} {bs : Bytes} (h : i.exact n = (.ok bs, i')) :
    i'.bytes.length ≤ i.bytes.length := by
  unfold exact at h
  split_ifs at h
  · cases h
    simp [drop]
  · cases h

theorem parseHeader_length {maxFrameSize : Nat} {header : FrameHeader}
    (h : parseHeader maxFrameSize i = (.ok (some header), i')) : i'.bytes.length < i.bytes.length := by
  unfold parseHeader at h
  split_ifs at h
  · unfold atEnd at h
    split at h <;> cases h
  · split at h
    · cases h
    · next hh =>
      obtain ⟨⟨frameType, typeLen⟩, i₁, ht, hh⟩ := bind_eq_ok.mp hh
      obtain ⟨⟨length, lengthLen⟩, i₂, hl, hh⟩ := bind_eq_ok.mp hh
      cases hh
      split_ifs at h
      · cases h
      · cases h
        exact (Input.varint_length hl).trans (Input.varint_length ht)

/-- A whole frame, of any type. -/
def parseFrame (maxFrameSize : Nat) : Reading Input (Option (FrameHeader × Bytes)) := do
  let some header ← parseHeader maxFrameSize | return none
  return some (header, ← Input.exact header.payloadLen)

theorem parseFrame_length {maxFrameSize : Nat} {f : FrameHeader × Bytes}
    (h : parseFrame maxFrameSize i = (.ok (some f), i')) : i'.bytes.length < i.bytes.length := by
  obtain ⟨_ | header, i₁, hh, h⟩ := bind_eq_ok.mp h
  · cases h
  · obtain ⟨payload, i₂, hp, h⟩ := bind_eq_ok.mp h
    cases h
    exact (Input.exact_length hp).trans_lt (parseHeader_length hh)

def parseFrames {σ : Type} (maxFrameSize : Nat) (onSkipped : σ → Nat → Except Error σ) (skipped : σ) (i : Input) :
    (List RawFrame × Except Error σ) × Input :=
  match h : parseFrame maxFrameSize i with
  | (.error error, i₁) => (([], .error error), i₁)
  | (.ok none, i₁) => (([], .ok skipped), i₁)
  | (.ok (some (header, payload)), i₁) =>
    have := parseFrame_length h
    if isKnownFrameType header.frameType then
      let ((frames, outcome), i₂) := parseFrames maxFrameSize onSkipped skipped i₁
      (((header.frameType, payload) :: frames, outcome), i₂)
    else
      match onSkipped skipped header.wireLen with
      | .error error => (([], .error error), i₁)
      | .ok skipped => parseFrames maxFrameSize onSkipped skipped i₁
termination_by i.bytes.length

/-! ## Headers -/

/-- Reads as if `bytes` were unread. -/
def Input.putBack {α : Type} (bytes : Bytes) (m : Reading Input α) : Reading Input α := fun i =>
  m { i with bytes := bytes ++ i.bytes }

variable {first : UInt8}

theorem varint_of_one (hone : Varint.lenFromFirstByte first = 1) (rest : Bytes)
    (f : Option Error) : Input.varint ⟨first :: rest, f⟩ = (.ok (first.toNat, 1), ⟨rest, f⟩) := by
  rw [Input.varint, Varint.decode_of_one hone]
  rfl

theorem varint_short {more rest : Bytes} (f : Option Error)
    (hs : (first :: more ++ rest).length < Varint.lenFromFirstByte first) :
    Input.varint ⟨first :: more ++ rest, f⟩ = (.error (Input.eof ⟨rest, f⟩), ⟨[], f⟩) := by
  have hn : Varint.decode (first :: more ++ rest) = none := by
    rw [← Option.not_isSome_iff_eq_none, List.cons_append, Varint.decode_isSome_iff]
    simp only [List.cons_append] at hs
    omega
  simp only [Input.varint, hn, Input.eof]

theorem typeAndLength_short (first : UInt8) (f : Option Error) :
    Input.typeAndLength ⟨[first], f⟩ = (.error (Input.eof ⟨[first], f⟩), ⟨[], f⟩) := by
  by_cases hone : Varint.lenFromFirstByte first = 1
  · exact (bind_ok (varint_of_one hone [] f)).trans rfl
  · have hs : [first].length < Varint.lenFromFirstByte first := Varint.two_le_lenFromFirstByte hone
    exact bind_error (@varint_short first [] [] f hs)

theorem decodeBuffer_eq {buf rest : Bytes} {more : Bytes} (hbuf : buf = first :: more)
    (hlen : buf.length = Varint.lenFromFirstByte first) (f : Option Error) :
    (decodeBuffer buf, (⟨rest, f⟩ : Input)) = Input.varint ⟨buf ++ rest, f⟩ := by
  obtain ⟨⟨value, len⟩, hdec⟩ : ∃ result, Varint.decode buf = some result := by
    rw [← Option.isSome_iff_exists, hbuf, Varint.decode_isSome_iff, ← hbuf, hlen]
  have hw : len = buf.length := by
    rw [hbuf] at hdec
    rw [hlen, Varint.decode_snd hdec]
  simp only [decodeBuffer, Input.varint, Varint.decode_append hdec, Input.drop, hw, List.drop_left]

section ByteRead

variable {ρ : Type} [ByteRead ρ]

theorem sees_readContinued {first : UInt8} {more : Bytes}
    (hstart : (first :: more).length ≤ Varint.lenFromFirstByte first) :
    Sees unread (readContinued (ρ := ρ) (first :: more)) (Input.putBack (first :: more) Input.varint) := by
  intro r
  have hl : ¬ 8 < (first :: more).length := by
    have hle := Varint.lenFromFirstByte_le first
    omega
  unfold readContinued Input.putBack
  simp only [if_neg hl]
  by_cases hs : (first :: more).length < Varint.lenFromFirstByte first
  · simp only [if_pos hs]
    generalize hk : Varint.lenFromFirstByte first - (first :: more).length = k
    refine (((sees_readExactBody k).bind fun _ => .lift _) r).trans ?_
    generalize unread r = i
    by_cases hen : k ≤ i.bytes.length
    · have hexa : Input.exact k i = _ := if_pos hen
      have hlen : (first :: more ++ i.bytes.take k).length = Varint.lenFromFirstByte first := by
        rw [List.length_append, List.length_take_of_le hen]
        omega
      have hsp : first :: more ++ i.bytes = first :: more ++ i.bytes.take k ++ i.bytes.drop k := by
        rw [List.append_assoc, List.take_append_drop]
      rw [bind_ok hexa, hsp]
      exact decodeBuffer_eq rfl hlen i.fault
    · have hexa : Input.exact k i = _ := if_neg hen
      have hls : (first :: more ++ i.bytes).length < Varint.lenFromFirstByte first := by
        rw [List.length_append]
        omega
      rw [varint_short i.fault hls]
      exact bind_error hexa
  · simp only [if_neg hs]
    exact decodeBuffer_eq rfl (by omega) _

theorem sees_readContinued_one (first : UInt8) :
    Sees unread (readContinued (ρ := ρ) [first]) (Input.putBack [first] Input.varint) :=
  sees_readContinued (by exact Varint.lenFromFirstByte_pos first)

theorem sees_readLength (second : UInt8) :
    Sees unread (readLength (ρ := ρ) second) (Input.putBack [second] Input.varint) := by
  intro r
  unfold readLength
  split_ifs with hone
  · exact (varint_of_one hone _ _).symm
  · exact sees_readContinued_one second r

def Input.varintOrEof : Reading Input (Option (Nat × Nat)) := do
  match ← Input.exactOrEof 1 with
  | some [first] => return some (← Input.putBack [first] Input.varint)
  | _ => return none

theorem sees_readVarint : Sees unread (readVarint (ρ := ρ)) Input.varintOrEof := by
  refine (sees_readExactOrEof 1).bind ?_
  rintro (_ | _ | ⟨first, _ | ⟨second, more⟩⟩)
  · exact .pure _
  · exact .pure _
  · exact (sees_readContinued_one first).bind fun _ => .pure _
  · exact .pure _

theorem sees_okOrEof_readVarint : Sees unread (okOrEof (readVarint (ρ := ρ))) Input.varint := by
  intro r
  rw [sees_okOrEof sees_readVarint r]
  rcases unread r with ⟨_ | ⟨first, rest⟩, f⟩
  · cases f <;> rfl
  · have hf : Input.exactOrEof 1 ⟨first :: rest, f⟩ = (.ok (some [first]), ⟨rest, f⟩) := rfl
    simp only [okOrEof, Input.varintOrEof, bind_assoc]
    rw [bind_ok hf]
    simp only [bind_assoc, pure_bind, bind_pure]
    rfl

theorem sees_readTypeAndLength (first second : UInt8) :
    Sees unread (readTypeAndLength (ρ := ρ) first second) (Input.putBack [first, second] Input.typeAndLength) := by
  intro r
  unfold readTypeAndLength Input.putBack Input.typeAndLength
  split_ifs with hone
  · rw [List.cons_append, bind_ok (varint_of_one hone _ _)]
    refine ((sees_readLength second).bind ?_) r
    rintro ⟨length, ll⟩
    simp only [Nat.add_comm ll 1]
    exact .pure _
  · have htwo : [first, second].length ≤ Varint.lenFromFirstByte first := Varint.two_le_lenFromFirstByte hone
    refine ((sees_readContinued htwo).bind ?_) r
    rintro ⟨frameType, typeLen⟩
    exact sees_okOrEof_readVarint.bind fun _ => .pure _

def Input.headerOrEof (maxFrameSize : Nat) : Reading Input (Option FrameHeader) := do
  match ← Input.exactOrEof 2 with
  | some [first, second] =>
    let (frameType, length, headerLen) ← Input.putBack [first, second] Input.typeAndLength
    lift (validatePayloadLen length maxFrameSize)
    return some { frameType := frameType, payloadLen := length, headerLen := headerLen }
  | _ => return none

theorem sees_headerOrEof (maxFrameSize : Nat) :
    Sees unread (readFrameHeader (ρ := ρ) maxFrameSize) (Input.headerOrEof maxFrameSize) := by
  refine (sees_readExactOrEof 2).bind ?_
  rintro (_ | _ | ⟨first, _ | ⟨se, _ | ⟨third, more⟩⟩⟩)
  · exact .pure _
  · exact .pure _
  · exact .pure _
  · refine (sees_readTypeAndLength first se).bind ?_
    rintro ⟨frameType, length, headerLen⟩
    exact (Sees.lift _).bind fun _ => .pure _
  · exact .pure _

theorem sees_readFrameHeader (maxFrameSize : Nat) :
    Sees unread (readFrameHeader (ρ := ρ) maxFrameSize) (parseHeader maxFrameSize) := by
  intro r
  rw [sees_headerOrEof maxFrameSize r, Input.headerOrEof]
  rcases unread r with ⟨_ | ⟨first, _ | ⟨se, rest⟩⟩, f⟩
  · cases f <;> rfl
  · have htwo : Input.exactOrEof 2 ⟨[first], f⟩ = (.error (Input.eof ⟨[first], f⟩), ⟨[], f⟩) := rfl
    simp only [bind_error htwo, parseHeader, if_neg (List.cons_ne_nil first []), typeAndLength_short]
  · have htwo : Input.exactOrEof 2 ⟨first :: se :: rest, f⟩ = (.ok (some [first, se]), ⟨rest, f⟩) := rfl
    rw [bind_ok htwo, parseHeader, if_neg (List.cons_ne_nil _ _)]
    rcases hh : Input.typeAndLength ⟨first :: se :: rest, f⟩ with ⟨error | ⟨frameType, length, len⟩, i⟩
    · exact bind_error hh
    · refine (bind_ok hh).trans ?_
      simp only [validatePayloadLen]
      split_ifs <;> rfl

/-! ## Frames -/

/-- `Input.exact`, of bytes that nobody keeps. -/
def Input.skip (n : Nat) : Reading Input Unit := fun i =>
  if n ≤ i.bytes.length then (.ok (), i.drop n) else (.error i.eof, { i with bytes := [] })

theorem Input.exact_of_skip_ok {n : Nat} {i i' : Input} (h : i.skip n = (.ok (), i')) :
    ∃ bs, i.exact n = (.ok bs, i') := by
  unfold skip at h
  split_ifs at h with hen
  · cases h
    exact ⟨_, if_pos hen⟩
  · cases h

theorem Input.exact_of_skip_error {n : Nat} {i i' : Input} {error : Error} (h : i.skip n = (.error error, i')) :
    i.exact n = (.error error, i') := by
  unfold skip at h
  split_ifs at h with hen
  · cases h
  · cases h
    exact if_neg hen

theorem sees_discardPayload (len : Nat) : Sees unread (discardPayload (ρ := ρ) len) (Input.skip len) := by
  have hpos {n : Nat} (h : ¬ n = 0) : 0 < min n discardChunk :=
    Nat.lt_min.mpr ⟨Nat.pos_of_ne_zero h, by decide⟩
  intro r
  fun_induction discardPayload len r with
  | case1 r => rfl
  | case2 n r hd error r' hre =>
    obtain ⟨hr, hs⟩ := read_error (hpos hd) hre
    simp [seen, hs, hr, hd, Input.skip, Input.eof]
  | case3 n r hd r' hre =>
    obtain ⟨hr, hs, -⟩ := read_none (hpos hd) hre
    simp [seen, hs, hr, hd, Input.skip, Input.eof]
  | case4 n r hd bs r' hre hlt ih =>
    obtain ⟨hle, hr, -⟩ := read_some (hpos hd) hre
    rw [ih, hr]
    generalize unread r' = i
    have hiff : n - bs.length ≤ i.bytes.length ↔ n ≤ (bs ++ i.bytes).length := by
      rw [List.length_append]
      omega
    have hw : bs.length ≤ n := hle.trans (Nat.min_le_left ..)
    simp only [Input.skip, hiff, Input.drop, Input.eof]
    split_ifs
    · rw [List.drop_append, List.drop_of_length_le hw, List.nil_append]
    · rfl

end ByteRead

section FrameRead

variable {ρ : Type} [FrameRead ρ]

theorem sees_readPayload (len : Nat) : Sees unread (readPayload (ρ := ρ) len) (Input.exact len) := by
  intro r
  unfold readPayload
  split_ifs with hz
  · subst hz
    rfl
  · exact payload_sees len r

end FrameRead

section Frames

variable {σ : Type} {maxFrameSize : Nat} {onSkipped : σ → Nat → Except Error σ} {skipped : σ}

def parseRest (maxFrameSize : Nat) (onSkipped : σ → Nat → Except Error σ) :
    Except Error (Option FrameHeader × σ) × Input → (List RawFrame × Except Error σ) × Input
  | (.error error, i) => (([], .error error), i)
  | (.ok (none, skipped), i) => (([], .ok skipped), i)
  | (.ok (some header, skipped), i) =>
    match i.exact header.payloadLen with
    | (.error error, i₁) => (([], .error error), i₁)
    | (.ok payload, i₁) =>
      let ((frames, outcome), i₂) := parseFrames maxFrameSize onSkipped skipped i₁
      (((header.frameType, payload) :: frames, outcome), i₂)

variable {i i' : Input}

theorem parseFrames_error {error : Error} (h : parseFrame maxFrameSize i = (.error error, i')) :
    parseFrames maxFrameSize onSkipped skipped i = (([], .error error), i') := by
  rw [parseFrames]
  split <;> simp_all

theorem parseFrames_end (h : parseFrame maxFrameSize i = (.ok none, i')) :
    parseFrames maxFrameSize onSkipped skipped i = (([], .ok skipped), i') := by
  rw [parseFrames]
  split <;> simp_all

theorem parseFrames_frame {header : FrameHeader} {p : Bytes}
    (h : parseFrame maxFrameSize i = (.ok (some (header, p)), i')) :
    parseFrames maxFrameSize onSkipped skipped i =
      if isKnownFrameType header.frameType then
        let ((frames, outcome), i₂) := parseFrames maxFrameSize onSkipped skipped i'
        (((header.frameType, p) :: frames, outcome), i₂)
      else
        match onSkipped skipped header.wireLen with
        | .error error => (([], .error error), i')
        | .ok skipped => parseFrames maxFrameSize onSkipped skipped i' := by
  rw [parseFrames]
  split
  · simp_all
  · simp_all
  · next heq =>
    cases h.symm.trans heq
    rfl

theorem parseRest_nextKnownHeader {ρ : Type} [ByteRead ρ] (r : ρ) :
    parseRest maxFrameSize onSkipped (seen unread (nextKnownHeader maxFrameSize onSkipped skipped r)) =
      parseFrames maxFrameSize onSkipped skipped (unread r) := by
  fun_induction nextKnownHeader maxFrameSize onSkipped skipped r with
  | case1 skipped r error r₁ hh =>
    have hpa := (sees_readFrameHeader maxFrameSize).eq hh
    exact (parseFrames_error (bind_error hpa)).symm
  | case2 skipped r r₁ hh =>
    have hpa := (sees_readFrameHeader maxFrameSize).eq hh
    exact (parseFrames_end (bind_ok hpa)).symm
  | case3 skipped r header r₁ hh hk =>
    have hpa := (sees_readFrameHeader maxFrameSize).eq hh
    rcases hp : Input.exact header.payloadLen (unread r₁) with ⟨error | payload, i⟩
    · rw [parseFrames_error ((bind_ok hpa).trans (bind_error hp))]
      simp only [seen, parseRest, hp]
    · rw [parseFrames_frame ((bind_ok hpa).trans (bind_ok hp)), if_pos hk]
      simp only [seen, parseRest, hp]
  | case4 skipped r header r₁ hh hk error r₂ hdis =>
    have hpa := (sees_readFrameHeader maxFrameSize).eq hh
    have hp := Input.exact_of_skip_error ((sees_discardPayload _).eq hdis)
    exact (parseFrames_error ((bind_ok hpa).trans (bind_error hp))).symm
  | case5 skipped r header r₁ hh hk r₂ hdis error hs =>
    have hpa := (sees_readFrameHeader maxFrameSize).eq hh
    obtain ⟨payload, hp⟩ := Input.exact_of_skip_ok ((sees_discardPayload _).eq hdis)
    rw [parseFrames_frame ((bind_ok hpa).trans (bind_ok hp)), if_neg hk, hs]
    rfl
  | case6 skipped r header r₁ hh hk r₂ hdis skipped' hs hlt ih =>
    have hpa := (sees_readFrameHeader maxFrameSize).eq hh
    obtain ⟨payload, hp⟩ := Input.exact_of_skip_ok ((sees_discardPayload _).eq hdis)
    rw [parseFrames_frame ((bind_ok hpa).trans (bind_ok hp)), if_neg hk, hs]
    exact ih

theorem readFrames_eq_parseFrames {ρ : Type} [FrameRead ρ] (maxFrameSize : Nat)
    (onSkipped : σ → Nat → Except Error σ) (skipped : σ) (r : ρ) :
    (readFrames maxFrameSize onSkipped skipped r).map id unread =
      parseFrames maxFrameSize onSkipped skipped (unread r) := by
  fun_induction readFrames maxFrameSize onSkipped skipped r with
  | case1 skipped r error r₁ hn =>
    rw [← parseRest_nextKnownHeader, hn]
    rfl
  | case2 skipped r s' r₁ hn =>
    rw [← parseRest_nextKnownHeader, hn]
    rfl
  | case3 skipped r header s' r₁ hn error r₂ hp =>
    rw [← parseRest_nextKnownHeader, hn]
    simp only [seen, parseRest, (sees_readPayload _).eq hp, Prod.map, id]
  | case4 skipped r header s' r₁ hn payload r₂ hp hlt frames outcome r₃ hr ih =>
    rw [← parseRest_nextKnownHeader, hn]
    simp only [seen, parseRest, (sees_readPayload _).eq hp, ← ih, hr, Prod.map, id]

/-- A transport's chunks do not matter, to the reader that shares payloads or the one that copies. -/
theorem frames_independent_of_chunks (maxFrameSize : Nat) (onSkipped : σ → Nat → Except Error σ) (skipped : σ)
    (chunks : List Bytes) (fault : Option Error) :
    (readFrames maxFrameSize onSkipped skipped ({ source := ⟨chunks, fault⟩ } : Chunked)).map id unread =
        parseFrames maxFrameSize onSkipped skipped ⟨chunks.flatten, fault⟩ ∧
      (readFrames maxFrameSize onSkipped skipped ({ source := ⟨chunks, fault⟩ } : BodyReader)).map id unread =
        parseFrames maxFrameSize onSkipped skipped ⟨chunks.flatten, fault⟩ :=
  ⟨readFrames_eq_parseFrames _ _ _ _, readFrames_eq_parseFrames _ _ _ _⟩

end Frames

end TrevRpc.Rust
