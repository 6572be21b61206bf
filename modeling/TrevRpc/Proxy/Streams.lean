import TrevRpc.Proxy.Agreement

/-! # Reading a header from a stream -/

open TrevRpc.Rust

namespace TrevRpc.Proxy

/-! ## Reads -/

def received : List Bytes → Bytes
  | [] => []
  | chunk :: chunks => if chunk = [] then [] else chunk ++ received chunks

def Rust.accepted : Except Rust.ReadError (Option Source × Bytes × List Bytes) → Option (Option Source × Bytes)
  | .ok (source, extra, chunks) => some (source.map Go.unmapAddrPort, extra ++ received chunks)
  | .error _ => none

def Rust.remaining (read : Except Rust.ReadError (Option Source × Bytes × List Bytes)) :
    Except Rust.ReadError (Option Source × Bytes) :=
  read.map fun (source, extra, chunks) => (source, extra ++ received chunks)

def Rust.outcome (text : AddressText) (bytes : Bytes) : Option (Option Source × Bytes) :=
  (Rust.Parsed.header (Rust.parse text bytes)).map fun (source, len) => (source, bytes.drop len)

section

variable {text : AddressText} {buf : Bytes} {source : Option Source} {len : Nat} {message : String}

theorem fixed_append (more : Bytes) {a b c d : UInt8} (h : (buf.drop 12).take 4 = [a, b, c, d]) :
    ((buf ++ more).drop 12).take 4 = [a, b, c, d] := by
  have hlen := congrArg List.length h
  simp only [List.length_take, List.length_drop, List.length_cons, List.length_nil] at hlen
  rw [List.drop_append_of_le_length (by omega), List.take_append_of_le_length (by simp; omega), h]

theorem parseV2_append (more : Bytes) {transport : Transport}
    (h : ∀ al, Rust.parseV2 buf transport ≠ .ok (.incomplete al)) :
    Rust.parseV2 (buf ++ more) transport = Rust.parseV2 buf transport := by
  unfold Rust.parseV2 at h ⊢
  split at h
  · next vc family lh lenLow hf =>
    simp only [fixed_append more hf]
    by_cases hv : vc >>> 4 = 2
    swap
    · simp [hv]
    by_cases hc : 1 < vc &&& 0x0f
    · simp [hv, hc]
    by_cases hs : buf.length < v2HeaderLen + bigEndian lh lenLow
    · simp [hv, hc, hs] at h
    · have hl : ¬(buf ++ more).length < v2HeaderLen + bigEndian lh lenLow := by
        rw [List.length_append]
        omega
      rw [List.take_append_of_le_length (Nat.not_lt.mp hs), if_neg hs, if_neg hl]
  · exact absurd rfl (h _)

theorem parseV2_incomplete {more : Bytes} {transport : Transport} {n : Nat}
    (h : Rust.parseV2 buf transport = .ok (.incomplete n)) (hlt : (buf ++ more).length < n) :
    Rust.parseV2 (buf ++ more) transport = .ok (.incomplete n) := by
  unfold Rust.parseV2 at h ⊢
  split at h
  · next hf =>
    rw [fixed_append more hf]
    dsimp only at h ⊢
    split_ifs at h with hv hc hs
    · cases h
      rw [if_neg hv, if_neg hc, if_pos hlt]
    · cases h
    · cases h
    · obtain ⟨_, -, heq⟩ := except_map_eq_ok.mp h
      cases heq
  · cases h
    split
    · next hf =>
      have hlen := congrArg List.length hf
      simp [v2HeaderLen] at hlen hlt
      omega
    · rfl

theorem parseV2_len {transport : Transport} (h : Rust.parseV2 buf transport = .ok (.complete source len)) :
    len ≤ buf.length := by
  unfold Rust.parseV2 at h
  split at h
  · dsimp only at h
    split_ifs at h with _ _ hs
    · cases h
    · cases h
      exact Nat.not_lt.mp hs
    · cases h
      exact Nat.not_lt.mp hs
    · obtain ⟨source, -, heq⟩ := except_map_eq_ok.mp h
      cases heq
      exact Nat.not_lt.mp hs
  · cases h

theorem parseV1_append (more : Bytes) (h : ∀ al, Rust.parseV1 text buf ≠ .ok (.incomplete al)) :
    Rust.parseV1 text (buf ++ more) = Rust.parseV1 text buf := by
  unfold Rust.parseV1 at h ⊢
  cases hc : Rust.findCrlf (buf.take v1MaxLen) with
  | none =>
    by_cases hl : v1MaxLen ≤ buf.length
    · have ht : (buf ++ more).take v1MaxLen = buf.take v1MaxLen := List.take_append_of_le_length hl
      simp [hc, ht, hl, Nat.le_add_right_of_le hl]
    · simp [hc, hl] at h
  | some stop =>
    have ht : (buf ++ more).take v1MaxLen = buf.take v1MaxLen ++ more.take (v1MaxLen - buf.length) :=
      List.take_append
    have hs : stop ≤ (buf.take v1MaxLen).length := by
      obtain ⟨rest, hr, -⟩ := Rust.findCrlf_eq_some hc
      have hlen := congrArg List.length hr
      simp at hlen
      simp
      omega
    simp only [ht, Rust.findCrlf_append hc, hc, List.take_append_of_le_length hs]

theorem parseV1_len (h : Rust.parseV1 text buf = .ok (.complete source len)) : len ≤ buf.length := by
  unfold Rust.parseV1 at h
  dsimp only at h
  split at h
  · split_ifs at h
    cases h
  · next stop hc =>
    obtain ⟨line, rest, rfl, hline, -⟩ := crlf_split hc
    split_ifs at h
    obtain ⟨source, -, heq⟩ := except_map_eq_ok.mp h
    cases heq
    simp
    omega

theorem signatures_differ {bytes : Bytes} (h : v1Prefix <+: bytes) : ¬v2Signature <+: bytes := by
  obtain ⟨rest, rfl⟩ := h
  rintro ⟨rest', h⟩
  simp [v1Prefix, v2Signature, ascii] at h

theorem parse_append (more : Bytes) (h : ∀ al, Rust.parse text buf ≠ .ok (.incomplete al)) :
    Rust.parse text (buf ++ more) = Rust.parse text buf := by
  have hm : buf <+: buf ++ more := List.prefix_append _ _
  unfold Rust.parse at h ⊢
  by_cases hv2 : v2Signature <+: buf
  · rw [if_pos hv2] at h ⊢
    rw [if_pos (hv2.trans hm)]
    exact parseV2_append more h
  by_cases hv1 : v1Prefix <+: buf
  · rw [if_neg hv2, if_pos hv1] at h ⊢
    rw [if_neg (signatures_differ (hv1.trans hm)), if_pos (hv1.trans hm)]
    exact parseV1_append more h
  rw [if_neg hv2, if_neg hv1] at h ⊢
  by_cases hs : buf <+: v2Signature ∨ buf <+: v1Prefix
  · rw [if_pos hs] at h
    exact absurd rfl (h _)
  -- A buffer that has left both signatures has left them for good.
  have hl {si : Bytes} (h : ¬si <+: buf) (h' : ¬buf <+: si) : ¬si <+: buf ++ more := by
    intro hst
    rcases List.prefix_or_prefix_of_prefix hst hm with hin | hin
    · exact h hin
    · exact h' hin
  obtain ⟨hnot2, hnot1⟩ := not_or.mp hs
  rw [if_neg hs, if_neg (hl hv2 hnot2), if_neg (hl hv1 hnot1), if_neg]
  rintro (hin | hin)
  · exact hnot2 (hm.trans hin)
  · exact hnot1 (hm.trans hin)

theorem parse_len (h : Rust.parse text buf = .ok (.complete source len)) : len ≤ buf.length := by
  unfold Rust.parse at h
  split_ifs at h
  · exact parseV2_len h
  · exact parseV1_len h
  · cases h

theorem parse_incomplete {more : Bytes} {n : Nat} (h : Rust.parse text buf = .ok (.incomplete n))
    (hlt : (buf ++ more).length < n) : Rust.parse text (buf ++ more) = .ok (.incomplete n) := by
  -- Outside a version 2 header one more byte is asked for, and a shorter extension is none.
  have hone (hn : buf.length + 1 = n) : Rust.parse text (buf ++ more) = .ok (.incomplete n) := by
    have hm : more = [] := List.eq_nil_of_length_eq_zero (by rw [List.length_append] at hlt; omega)
    rw [hm, List.append_nil, h]
  unfold Rust.parse at h
  split_ifs at h with hv2 hv1 hs
  · unfold Rust.parse
    rw [if_pos (hv2.trans (List.prefix_append _ _))]
    exact parseV2_incomplete h hlt
  · unfold Rust.parseV1 at h
    dsimp only at h
    split at h
    · split_ifs at h
      cases h
      exact hone rfl
    · split_ifs at h
      obtain ⟨_, -, heq⟩ := except_map_eq_ok.mp h
      cases heq
  · cases h
    exact hone rfl

theorem readHeader_whole (buf : Bytes) (chunks : List Bytes) :
    Rust.remaining (Rust.readHeader text buf chunks) =
      Rust.remaining (Rust.readHeader text (buf ++ received chunks) []) := by
  induction chunks generalizing buf with
  | nil => rw [show received [] = [] from rfl, List.append_nil]
  | cons c chunks ih =>
    rcases hp : Rust.parse text buf with message | (atLeast | ⟨source, len⟩)
    · have hd (n : Nat) : Rust.parse text buf ≠ .ok (.incomplete n) := by simp [hp]
      rw [Rust.readHeader, Rust.readHeader, parse_append (received (c :: chunks)) hd, hp]
    · by_cases hend : c = []
      · simp [hend, received, Rust.readHeader, hp]
      · have hn : received (c :: chunks) = c ++ received chunks := if_neg hend
        rw [hn, ← List.append_assoc, ← ih (buf ++ c), Rust.readHeader, hp]
        simp only [if_neg hend]
    · have hd (n : Nat) : Rust.parse text buf ≠ .ok (.incomplete n) := by simp [hp]
      rw [Rust.readHeader, Rust.readHeader, parse_append (received (c :: chunks)) hd, hp]
      simp [Rust.remaining, Except.map, List.drop_append_of_le_length (parse_len hp), received]

theorem readHeader_eq (buf : Bytes) (cs : List Bytes) :
    Rust.accepted (Rust.readHeader text buf cs) = Rust.outcome text (buf ++ received cs) := by
  have ha (read : Except Rust.ReadError (Option Source × Bytes × List Bytes)) : Rust.accepted read =
      (Rust.remaining read).toOption.map fun (source, rest) => (source.map Go.unmapAddrPort, rest) := by
    cases read <;> rfl
  rw [ha, readHeader_whole, Rust.readHeader, Rust.outcome]
  rcases Rust.parse text (buf ++ received cs) with message | (atLeast | ⟨source, len⟩)
  · rfl
  · rfl
  · simp [Rust.remaining, Except.map, Except.toOption, Rust.Parsed.header, received]

end

/-- More bytes change no complete header and no error, and an incomplete one needs the bytes it asks for. -/
theorem parse_stable (text : AddressText) :
    (∀ b c source len, Rust.parse text b = .ok (.complete source len) →
      Rust.parse text (b ++ c) = .ok (.complete source len)) ∧
    (∀ b c message, Rust.parse text b = .error message → Rust.parse text (b ++ c) = .error message) ∧
    (∀ b c n source len, Rust.parse text b = .ok (.incomplete n) → (b ++ c).length < n →
      Rust.parse text (b ++ c) ≠ .ok (.complete source len)) ∧
    ∀ chunks chunks', received chunks = received chunks' →
      Rust.remaining (Rust.readHeader text [] chunks) = Rust.remaining (Rust.readHeader text [] chunks') := by
  refine ⟨?_, ?_, ?_, ?_⟩
  · intro b c source len h
    rw [parse_append c (by simp [h]), h]
  · intro b c message h
    rw [parse_append c (by simp [h]), h]
  · intro b c n source len h hlt
    simp [parse_incomplete h hlt]
  · intro chunks chunks' h
    rw [readHeader_whole [] chunks, readHeader_whole [] chunks', h]

/-! ## Version 2 -/

theorem peek_of_start {start bytes : Bytes} (h : start <+: bytes) : Go.peek start.length bytes = .ok start := by
  unfold Go.peek
  rw [if_pos h.length_le, List.prefix_iff_eq_take.mp h]
  simp

theorem start_of_peek {st bytes : Bytes} {n : Nat} (h : Go.peek n bytes = .ok st) : st <+: bytes := by
  unfold Go.peek at h
  split_ifs at h
  cases h
  exact List.take_prefix _ _

section

variable {bytes : Bytes} {transport : Transport}

theorem exists_v2Bytes (h : v2Signature <+: bytes) (hlen : v2HeaderLen ≤ bytes.length) :
    ∃ rest versionCommand f lh lenLow, bytes = v2Bytes rest versionCommand f lh lenLow := by
  obtain ⟨rest, rfl⟩ := h
  have hr : 4 ≤ rest.length := by
    simp [v2Signature, ascii, v2HeaderLen] at hlen
    omega
  rcases rest with _ | ⟨versionCommand, _ | ⟨f, _ | ⟨lh, _ | ⟨lenLow, rest⟩⟩⟩⟩
  case cons.cons.cons.cons => exact ⟨rest, versionCommand, f, lh, lenLow, rfl⟩
  all_goals simp at hr

theorem header_short (h : bytes.length < v2HeaderLen) : Go.header bytes transport = none := by
  unfold Go.header Go.parseProxyV2Fixed
  rw [if_pos h]

theorem header_signature (h : ¬v2Signature <+: bytes) : Go.header bytes transport = none := by
  have ht : bytes.take 12 ≠ v2Signature := by
    intro ht
    exact h (ht ▸ List.take_prefix _ _)
  unfold Go.header Go.parseProxyV2Fixed
  by_cases hs : bytes.length < v2HeaderLen
  · rw [if_pos hs]
  rw [if_neg hs]
  split
  · rfl
  · next hok =>
    split at hok
    · rw [if_pos (Or.inl ht)] at hok
      cases hok
    · cases hok

theorem parseV2_header (h : v2Signature <+: bytes) :
    Rust.Parsed.header (Rust.parseV2 bytes transport) = Go.header bytes transport := by
  by_cases hs : bytes.length < v2HeaderLen
  · rw [header_short hs]
    have hf : ((bytes.drop 12).take 4).length < 4 := by
      simp [v2HeaderLen] at hs ⊢
      omega
    unfold Rust.parseV2
    split
    · next heq => simp [heq] at hf
    · rfl
  · obtain ⟨rest, versionCommand, family, lenHigh, lenLow, rfl⟩ := exists_v2Bytes h (Nat.not_lt.mp hs)
    exact v2_header ..

theorem parseProxyV2Fixed_take (h : v2HeaderLen ≤ bytes.length) :
    Go.parseProxyV2Fixed (bytes.take v2HeaderLen) transport = Go.parseProxyV2Fixed bytes transport := by
  have hd : (bytes.take v2HeaderLen).drop 12 = (bytes.drop 12).take 4 := List.drop_take
  have ht : (bytes.take v2HeaderLen).take 12 = bytes.take 12 := by
    rw [List.take_take]
    rfl
  have hlen : 4 ≤ (bytes.drop 12).length := by
    unfold v2HeaderLen at h
    rw [List.length_drop]
    omega
  unfold Go.parseProxyV2Fixed
  rw [hd, ht, List.length_take_of_le h]
  match bytes.drop 12, hlen with
  | versionCommand :: family :: lenHigh :: lenLow :: rest, _ =>
    simp only [Nat.lt_irrefl, Nat.not_lt.mpr h, if_false, List.take_succ_cons]

theorem parseProxyV2Fixed_fits {addressLength length : Nat}
    (h : Go.parseProxyV2Fixed bytes transport = .ok (addressLength, length)) :
      v2HeaderLen + addressLength ≤ length := by
  unfold Go.parseProxyV2Fixed at h
  split at h
  · cases h
  split at h
  · dsimp only at h
    split_ifs at h
    all_goals
      cases h
      omega
  · cases h

theorem readProxyV2_header :
    (Go.readProxyV2 bytes).toOption = (Go.header bytes .stream).map fun (source, len) => (source, bytes.drop len) := by
  by_cases hs : bytes.length < v2HeaderLen
  · rw [header_short hs]
    simp [Go.readProxyV2, Go.peek, Nat.not_le.mpr hs, Except.toOption, bind, Except.bind]
  have hlen := Nat.not_lt.mp hs
  unfold Go.readProxyV2 Go.header
  have hp : Go.peek v2HeaderLen bytes = .ok (bytes.take v2HeaderLen) := if_pos hlen
  simp only [hp, bind, Except.bind, parseProxyV2Fixed_take hlen]
  cases hf : Go.parseProxyV2Fixed bytes .stream with
  | error => rfl
  | ok ls =>
    obtain ⟨al, l⟩ := ls
    have hfi := parseProxyV2Fixed_fits hf
    by_cases hall : l ≤ bytes.length
    · have hb : Go.peek (v2HeaderLen + al) bytes = .ok (bytes.take (v2HeaderLen + al)) :=
        if_pos (hfi.trans hall)
      by_cases hpos : 0 < al
      · simp [hpos, hb, hall, Except.map, Except.toOption, pure, Except.pure]
      · simp [hpos, hall, Except.toOption, pure, Except.pure]
    · -- Go may fail on the addresses or on what follows them.
      dsimp only
      rw [if_pos (Nat.not_le.mp hall), if_neg hall]
      split
      · cases Go.peek (v2HeaderLen + al) bytes <;> rfl
      · rfl

theorem parseProxyV2Datagram_header : (Go.parseProxyV2Datagram bytes).toOption = Go.header bytes .datagram := by
  unfold Go.parseProxyV2Datagram Go.header
  cases hfixed : Go.parseProxyV2Fixed bytes .datagram with
  | error => rfl
  | ok ls =>
    obtain ⟨addressLength, l⟩ := ls
    by_cases hs : bytes.length < l
    · simp [hs, bind, Except.bind, throw, throwThe, MonadExceptOf.throw, Except.toOption]
    · simp [hs, bind, Except.bind, pure, Except.pure, Except.toOption]

theorem parseDatagram_header :
    (Rust.parseDatagram bytes).toOption.map (fun (source, len) => (source.map Go.unmapAddrPort, len)) =
      Go.header bytes .datagram := by
  unfold Rust.parseDatagram
  by_cases hs : v2Signature <+: bytes
  · rw [if_pos hs, ← parseV2_header hs]
    rcases Rust.parseV2 bytes .datagram with message | (atLeast | ⟨source, len⟩)
    all_goals rfl
  · rw [if_neg hs, header_signature hs]
    rfl

end

/-! ## The whole stream -/

section

variable {text : AddressText} {bytes : Bytes}

/-- Up to its CRLF, an unknown line is UTF-8 exactly if no LF stands alone. -/
def PlainUnknown (bytes : Bytes) : Prop :=
  v1Prefix <+: bytes → ∀ stop, Rust.findCrlf (bytes.take v1MaxLen) = some stop → IsUnknown (bytes.take stop) →
    (Rust.validUtf8 (bytes.take stop) ↔ 0x0a ∉ bytes.take stop)

theorem starts_line {line rest : Bytes} (h : v1Prefix <+: line ++ 0x0d :: rest) : v1Prefix <+: line := by
  rcases List.prefix_or_prefix_of_prefix h (List.prefix_append line _) with hin | ⟨tail, ht⟩
  · exact hin
  cases tail with
  | nil => simp [← ht]
  | cons byte tail =>
    -- The CR would be a byte of the prefix.
    exfalso
    rw [← ht, List.prefix_append_right_inj, List.cons_prefix_cons] at h
    have hmem : (0x0d : UInt8) ∈ v1Prefix := by simp [← ht, h.1]
    exact absurd hmem (by decide)

theorem rust_v1_line {stop : Nat} (h : Rust.findCrlf (bytes.take v1MaxLen) = some stop) :
    Rust.parseV1 text bytes =
      if Rust.validUtf8 (bytes.take stop) then (Rust.parseV1Line text (bytes.take stop)).map fun source =>
        .complete source (stop + 2)
      else .error "PROXY v1 header is not ASCII" := by
  obtain ⟨-, -, -, -, hmax, -⟩ := crlf_split h
  have ht : (bytes.take v1MaxLen).take stop = bytes.take stop := by
    rw [List.take_take, Nat.min_eq_left (by omega)]
  unfold Rust.parseV1
  simp only [h, ht]

theorem go_v1_rejects {stop : Nat} (h : Rust.findCrlf (bytes.take v1MaxLen) = some stop)
    (hp : ∀ r, Go.parseProxyV1 text (bytes.take stop) ≠ .ok r) : (Go.readProxyV1 text bytes).toOption = none := by
  cases hr : Go.readProxyV1 text bytes with
  | error => rfl
  | ok r =>
    exfalso
    by_cases hlf : 0x0a ∈ bytes.take stop
    · exact go_v1_bare_lf h hlf r hr
    · rw [go_v1_line h hlf] at hr
      obtain ⟨source, hs, -⟩ := except_map_eq_ok.mp hr
      exact hp source hs

theorem v1_outcome (h : v1Prefix <+: bytes) :
    (Rust.Parsed.header (Rust.parseV1 text bytes)).map (fun (source, len) => (source, bytes.drop len)) =
      (Go.readProxyV1 text bytes).toOption ↔ PlainUnknown bytes := by
  cases hc : Rust.findCrlf (bytes.take v1MaxLen) with
  | none =>
    have hgo : (Go.readProxyV1 text bytes).toOption = none := by
      cases hre : Go.readProxyV1 text bytes with
      | error => rfl
      | ok result => exact absurd hre (go_v1_without_crlf hc result)
    have hru : Rust.Parsed.header (Rust.parseV1 text bytes) = none := by
      simp only [Rust.parseV1, hc]
      split_ifs <;> rfl
    simp [hgo, hru, PlainUnknown, hc]
  | some stop =>
    have hpl : PlainUnknown bytes ↔
        (IsUnknown (bytes.take stop) → (Rust.validUtf8 (bytes.take stop) ↔ 0x0a ∉ bytes.take stop)) := by
      simp [PlainUnknown, h, hc]
    rw [hpl, rust_v1_line hc]
    by_cases hun : IsUnknown (bytes.take stop)
    · rw [rust_unknown hun]
      simp only [hun, true_imp_iff]
      by_cases hlf : 0x0a ∈ bytes.take stop
      · have hgo : (Go.readProxyV1 text bytes).toOption = none := by
          cases hre : Go.readProxyV1 text bytes with
          | error => rfl
          | ok result => exact absurd hre (go_v1_bare_lf hc hlf result)
        rw [hgo]
        by_cases hutf8 : Rust.validUtf8 (bytes.take stop)
        · simp [hutf8, hlf, Except.map, Rust.Parsed.header]
        · simp [hutf8, hlf, Rust.Parsed.header]
      · rw [go_v1_line hc hlf, go_unknown hun]
        by_cases hutf8 : Rust.validUtf8 (bytes.take stop)
        · simp [hutf8, hlf, Except.map, Rust.Parsed.header, Except.toOption]
        · simp [hutf8, hlf, Except.map, Rust.Parsed.header, Except.toOption]
    · simp only [hun, false_imp_iff, iff_true]
      by_cases hs : ∃ source, Addresses text (bytes.take stop) source
      · obtain ⟨source, hs⟩ := hs
        have hl : v1Prefix <+: bytes.take stop := by
          obtain ⟨line, rest, rfl, rfl, -⟩ := crlf_split hc
          rw [List.take_left]
          exact starts_line h
        have hp := hs.printable hl
        have hutf8 := validUtf8_of_ascii fun byte hb => (hp byte hb).2
        have hlf : 0x0a ∉ bytes.take stop := fun hmem => absurd (hp _ hmem).1 (by decide)
        rw [if_pos hutf8, go_v1_line hc hlf, (rust_addresses hun _).mpr ⟨source, rfl, hs⟩,
          (go_addresses hun _).mpr ⟨source, rfl, hs⟩]
        rfl
      · rw [go_v1_rejects hc]
        · have hru : ∀ result, Rust.parseV1Line text (bytes.take stop) ≠ .ok result := by
            intro result hr
            obtain ⟨source, -, hin⟩ := (rust_addresses hun result).mp hr
            exact hs ⟨source, hin⟩
          cases hpa : Rust.parseV1Line text (bytes.take stop) with
          | error => split_ifs <;> rfl
          | ok result => exact absurd hpa (hru result)
        · intro result hr
          obtain ⟨source, -, hin⟩ := (go_addresses hun result).mp hr
          exact hs ⟨source, hin⟩

theorem outcome_eq : Rust.outcome text bytes = (Go.readProxyHeader text bytes).toOption ↔ PlainUnknown bytes := by
  unfold Rust.outcome Rust.parse Go.readProxyHeader
  by_cases hv2 : v2Signature <+: bytes
  · have hnot : ¬v1Prefix <+: bytes := fun hv1 => signatures_differ hv1 hv2
    have hp : PlainUnknown bytes := fun hv1 => absurd hv1 hnot
    have htake := List.take_prefix v1Prefix.length v2Signature
    have hs : v2Signature.take v1Prefix.length <+: bytes := htake.trans hv2
    have hpe : Go.peek v1Prefix.length bytes = .ok (v2Signature.take v1Prefix.length) := peek_of_start hs
    rw [if_pos hv2, parseV2_header hv2, hpe, ← readProxyV2_header]
    simp only [hp, iff_true]
    rfl
  by_cases hv1 : v1Prefix <+: bytes
  · rw [if_neg hv2, if_pos hv1, peek_of_start hv1]
    simp only [if_true]
    exact v1_outcome hv1
  · have hp : PlainUnknown bytes := fun h => absurd h hv1
    have hr : Rust.Parsed.header
        (if bytes <+: v2Signature ∨ bytes <+: v1Prefix then .ok (.incomplete (bytes.length + 1))
        else .error "connection from a trusted proxy does not start with a PROXY header") = none := by
      split_ifs <;> rfl
    rw [if_neg hv2, if_neg hv1, hr]
    simp only [hp, iff_true]
    cases hpe : Go.peek v1Prefix.length bytes with
    | error => rfl
    | ok start =>
      dsimp only
      split_ifs with hs
      · exact absurd (hs ▸ start_of_peek hpe) hv1
      · rw [readProxyV2_header, header_signature hv2]
      · rfl

end

/-- Rust and Go read the same headers exactly if the text of an unknown protocol is plain. -/
theorem runtimes_read_same_headers (text : AddressText) :
    (∀ chunks, Rust.accepted (Rust.readHeader text [] chunks) = (Go.readProxyHeader text (received chunks)).toOption ↔
      PlainUnknown (received chunks)) ∧
    ∀ datagram, (Rust.parseDatagram datagram).toOption.map (fun (source, len) => (source.map Go.unmapAddrPort, len)) =
      (Go.parseProxyV2Datagram datagram).toOption := by
  refine ⟨fun chunks => ?_, fun datagram => ?_⟩
  · rw [readHeader_eq, List.nil_append]
    exact outcome_eq
  · rw [parseDatagram_header, parseProxyV2Datagram_header]

def loopbackV4 : List.Vector UInt8 4 := ⟨[127, 0, 0, 1], rfl⟩
def loopbackV6 : List.Vector UInt8 16 := ⟨List.replicate 15 0 ++ [1], rfl⟩

theorem ascii_loopbackV4 : ∀ byte ∈ ascii "127.0.0.1", 0x20 < byte ∧ byte < 0x7f := by decide +kernel

theorem ascii_loopbackV6 : ∀ byte ∈ ascii "::1", 0x20 < byte ∧ byte < 0x7f := by decide +kernel

def loopback : AddressText where
  ipv4 text := if text = ascii "127.0.0.1" then some loopbackV4 else none
  ipv6 text := if text = ascii "::1" then some loopbackV6 else none
  parseAddr text :=
    if text = ascii "127.0.0.1" then some (.v4 loopbackV4, [])
    else if text = ascii "::1" then some (.v6 loopbackV6, [])
    else none
  parseAddr_v4 text a := by
    split_ifs <;> simp
  parseAddr_v6 text a := by
    by_cases h4 : text = ascii "127.0.0.1"
    · subst h4
      simp [ascii]
    · split_ifs <;> simp
  ipv4_ascii text a h := by
    obtain ⟨rfl, -⟩ := Option.ite_none_right_eq_some.mp h
    exact ascii_loopbackV4
  ipv6_ascii text a h := by
    obtain ⟨rfl, -⟩ := Option.ite_none_right_eq_some.mp h
    exact ascii_loopbackV6

/-- A lone LF ends the line for Go only, and a byte that is not UTF-8 fails for Rust only. -/
theorem unknown_line_divides :
    Rust.accepted (Rust.readHeader loopback [] [ascii "PROXY UNKNOWN \n\r\n"]) = some (none, []) ∧
      (Go.readProxyHeader loopback (ascii "PROXY UNKNOWN \n\r\n")).toOption = none ∧
      Rust.accepted (Rust.readHeader loopback [] [ascii "PROXY UNKNOWN " ++ [0xff, 0x0d, 0x0a]]) = none ∧
      (Go.readProxyHeader loopback (ascii "PROXY UNKNOWN " ++ [0xff, 0x0d, 0x0a])).toOption = some (none, []) := by
  decide +kernel

end TrevRpc.Proxy
