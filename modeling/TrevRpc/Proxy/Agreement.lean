import Mathlib.Data.List.Infix
import TrevRpc.Proxy.Model

/-! # Rust and Go read the same PROXY headers -/

open TrevRpc.Rust

namespace TrevRpc.Proxy

/-! ## The end of a line -/

namespace Rust

theorem findCrlf_append {line rest : Bytes} {stop : Nat} (h : findCrlf line = some stop) :
    findCrlf (line ++ rest) = some stop := by
  induction line using findCrlf.induct generalizing stop with
  | case1 => cases h
  | case2 => cases h
  | case3 a b line hc =>
    rw [findCrlf, if_pos hc] at h
    rw [List.cons_append, List.cons_append, findCrlf, if_pos hc, h]
  | case4 a b line hc ih =>
    rw [findCrlf, if_neg hc] at h
    obtain ⟨n, hn, rfl⟩ := Option.map_eq_some_iff.mp h
    have hr := ih hn
    rw [List.cons_append] at hr
    rw [List.cons_append, List.cons_append, findCrlf, if_neg hc, hr, Option.map_some]

theorem findCrlf_eq_some {bytes : Bytes} {stop : Nat} (h : findCrlf bytes = some stop) :
    ∃ rest, bytes = bytes.take stop ++ 0x0d :: 0x0a :: rest ∧ findCrlf (bytes.take stop ++ [0x0d]) = none := by
  induction bytes using findCrlf.induct generalizing stop with
  | case1 => cases h
  | case2 => cases h
  | case3 a b bytes hc =>
    rw [findCrlf, if_pos hc] at h
    cases h
    obtain ⟨rfl, rfl⟩ := hc
    exact ⟨bytes, rfl, rfl⟩
  | case4 a b bytes hc ih =>
    rw [findCrlf, if_neg hc] at h
    obtain ⟨n, hn, rfl⟩ := Option.map_eq_some_iff.mp h
    obtain ⟨rest, hr, hno⟩ := ih hn
    refine ⟨rest, by simpa using hr, ?_⟩
    cases n with
    | zero => simp [findCrlf]
    | succ n =>
      simp only [List.take_succ_cons, List.cons_append] at hno ⊢
      rw [findCrlf, if_neg hc, hno]
      rfl

theorem findCrlf_isSome (line rest : Bytes) : (findCrlf (line ++ 0x0d :: 0x0a :: rest)).isSome := by
  induction line with
  | nil => rfl
  | cons a line ih =>
    rw [List.cons_append]
    cases hl : line ++ 0x0d :: 0x0a :: rest with
    | nil => simp at hl
    | cons b more =>
      rw [hl] at ih
      rw [findCrlf]
      split_ifs
      · rfl
      · simpa using ih

end Rust

/-! ## Fields -/

theorem parseDecimal_digits {max n v : Nat} {text : Bytes} (h : parseDecimal max n text = some v) :
    text.all isAsciiDigit := by
  induction text generalizing n with
  | nil => rfl
  | cons digit rest ih =>
    simp only [parseDecimal] at h
    split_ifs at h with hd
    simp [hd, ih h]

theorem isAsciiDigit_iff (byte : UInt8) : isAsciiDigit byte = true ↔ ¬(byte < 0x30 ∨ 0x39 < byte) := by
  simp [isAsciiDigit, UInt8.not_lt]

theorem port_eq (f : Bytes) (fs : List Bytes) :
    Rust.port (f :: fs) =
      match Go.parseProxyPort f with
      | some port => .ok (port, fs)
      | none => .error "PROXY v1 header has an invalid port" := by
  unfold Rust.port Go.parseProxyPort
  cases f with
  | nil => rfl
  | cons first rest =>
    dsimp only
    by_cases hdig : (first :: rest).all isAsciiDigit
    · have hf : ¬(first < 0x30 ∨ 0x39 < first) := by
        rw [← isAsciiDigit_iff]
        exact List.all_eq_true.mp hdig first List.mem_cons_self
      have hiff : (first :: rest ≠ [] ∧ (first :: rest).all isAsciiDigit = true ∧
          ((first :: rest).length = 1 ∨ (first :: rest).head? ≠ some 0x30)) ↔
          ¬(first < 0x30 ∨ 0x39 < first ∨ 1 < (first :: rest).length ∧ first = 0x30) := by
        rw [← or_assoc, not_or, and_iff_right hf, and_iff_right (List.cons_ne_nil _ _), and_iff_right hdig]
        simp only [List.length_cons, List.head?_cons, ne_eq, Option.some.injEq, not_and]
        constructor
        · rintro (h | h) hlen
          · omega
          · exact h
        · intro h
          by_cases hlen : rest.length + 1 = 1
          · exact .inl hlen
          · exact .inr (h (by omega))
      by_cases hz : first < 0x30 ∨ 0x39 < first ∨ 1 < (first :: rest).length ∧ first = 0x30
      · rw [if_neg (by rw [hiff, not_not]; exact hz), if_pos hz]
      · cases parseDecimal 65535 0 (first :: rest) <;> simp only [if_pos (hiff.mpr hz), if_neg hz]
    · have hn : parseDecimal 65535 0 (first :: rest) = none := by
        cases hp : parseDecimal 65535 0 (first :: rest) with
        | none => rfl
        | some port => exact absurd (parseDecimal_digits hp) hdig
      rw [if_neg (by simp [hdig]), hn, ite_self]

variable {fs : List Bytes}

theorem port_eq_ok {rest : List Bytes} {port : Nat} :
    Rust.port fs = .ok (port, rest) ↔ ∃ f, fs = f :: rest ∧ Go.parseProxyPort f = some port := by
  cases fs with
  | nil => simp [Rust.port]
  | cons f fs =>
    rw [port_eq]
    split <;> simp_all [and_comm]

theorem address_eq_ok {α : Type} {p : Bytes → Option α} {rest : List Bytes} {a : α} :
    Rust.address p fs = .ok (a, rest) ↔ ∃ f, fs = f :: rest ∧ p f = some a := by
  cases fs with
  | nil => simp [Rust.address]
  | cons f fs =>
    simp only [Rust.address, List.cons.injEq]
    cases hp : p f <;> simp [hp, and_comm]

theorem parseV1Addresses_eq_ok {α : Type} {parse : Bytes → Option α} {source : α × Nat} :
    Rust.parseV1Addresses parse fs = .ok source ↔
      ∃ a d sp dp, fs = [a, d, sp, dp] ∧ parse a = some source.1 ∧
        (parse d).isSome ∧ Go.parseProxyPort sp = some source.2 ∧ (Go.parseProxyPort dp).isSome := by
  constructor
  · intro h
    obtain ⟨⟨a, fields₁⟩, hs, h⟩ := except_bind_eq_ok.mp h
    obtain ⟨⟨d, fields₂⟩, hdes, h⟩ := except_bind_eq_ok.mp h
    obtain ⟨⟨p, fields₃⟩, hsourcePort, h⟩ := except_bind_eq_ok.mp h
    obtain ⟨⟨q, fields₄⟩, hdestinationPort, h⟩ := except_bind_eq_ok.mp h
    simp only at h
    split_ifs at h with hend
    cases h
    obtain ⟨aT, rfl, ha⟩ := address_eq_ok.mp hs
    obtain ⟨dt, rfl, hd⟩ := address_eq_ok.mp hdes
    obtain ⟨pt, rfl, hp⟩ := port_eq_ok.mp hsourcePort
    obtain ⟨qt, rfl, hq⟩ := port_eq_ok.mp hdestinationPort
    exact ⟨aT, dt, pt, qt, by rw [hend], ha, by simp [hd], hp, by simp [hq]⟩
  · rintro ⟨a, d, sp, dp, rfl, ha, hd, hp, hq⟩
    obtain ⟨d', hd⟩ := Option.isSome_iff_exists.mp hd
    obtain ⟨q, hq⟩ := Option.isSome_iff_exists.mp hq
    refine except_bind_eq_ok.mpr ⟨_, address_eq_ok.mpr ⟨a, rfl, ha⟩, ?_⟩
    refine except_bind_eq_ok.mpr ⟨_, address_eq_ok.mpr ⟨d, rfl, hd⟩, ?_⟩
    refine except_bind_eq_ok.mpr ⟨_, port_eq_ok.mpr ⟨sp, rfl, hp⟩, ?_⟩
    exact except_bind_eq_ok.mpr ⟨_, port_eq_ok.mpr ⟨dp, rfl, hq⟩, rfl⟩

/-! ## Lines -/

/-- The line has the addresses of a client. -/
def Addresses (text : AddressText) (line : Bytes) (source : Source) : Prop :=
  ∃ first protocol a d sourcePort destinationPort,
    line.splitOn 0x20 = [first, protocol, a, d, sourcePort, destinationPort] ∧
      (protocol = ascii "TCP4" ∧ (∃ octets, source.1 = .v4 octets ∧ text.ipv4 a = some octets) ∧ (text.ipv4 d).isSome ∨
        protocol = ascii "TCP6" ∧ (∃ octets, source.1 = .v6 octets ∧ text.ipv6 a = some octets) ∧
          (text.ipv6 d).isSome) ∧
      Go.parseProxyPort sourcePort = some source.2 ∧ (Go.parseProxyPort destinationPort).isSome

def IsUnknown (line : Bytes) : Prop := (line.splitOn 0x20)[1]? = some (ascii "UNKNOWN")

section

variable {text : AddressText} {line : Bytes} {source : Source}

theorem rust_unknown (h : IsUnknown line) : Rust.parseV1Line text line = .ok none := by
  unfold IsUnknown at h
  unfold Rust.parseV1Line
  match hf : line.splitOn 0x20 with
  | [] => simp [hf] at h
  | [_] => simp [hf] at h
  | first :: protocol :: fields =>
    have hp : protocol = ascii "UNKNOWN" := by simpa [hf] using h
    simp [hp]

theorem go_unknown (h : IsUnknown line) : Go.parseProxyV1 text line = .ok none := if_pos h

theorem rust_addresses (h : ¬IsUnknown line) (r : Option Source) :
    Rust.parseV1Line text line = .ok r ↔ ∃ source, r = some source ∧ Addresses text line source := by
  unfold IsUnknown at h
  unfold Rust.parseV1Line Addresses
  match hf : line.splitOn 0x20 with
  | [] => simp
  | [_] => simp
  | first :: protocol :: fields =>
    have hpr : protocol ≠ ascii "UNKNOWN" := by simpa [hf] using h
    simp only [List.drop_succ_cons, List.drop_zero, if_neg hpr]
    split_ifs with h4 h6
    · subst h4
      rw [except_map_eq_ok]
      constructor
      · rintro ⟨⟨os, port⟩, hpa, rfl⟩
        obtain ⟨a, d, p, q, rfl, ha, hd, hp, hq⟩ := parseV1Addresses_eq_ok.mp hpa
        exact ⟨_, rfl, first, _, a, d, p, q, rfl, .inl ⟨rfl, ⟨os, rfl, ha⟩, hd⟩, hp, hq⟩
      · rintro ⟨⟨_, port⟩, rfl, _, _, a, d, p, q, hl, ⟨-, ⟨os, rfl, ha⟩, hd⟩ | ⟨rfl, -⟩, hp, hq⟩
        · cases hl
          exact ⟨(os, port), parseV1Addresses_eq_ok.mpr ⟨a, d, p, q, rfl, ha, hd, hp, hq⟩, rfl⟩
        · simp [ascii] at hl
    · subst h6
      rw [except_map_eq_ok]
      constructor
      · rintro ⟨⟨os, port⟩, hpa, rfl⟩
        obtain ⟨a, d, p, q, rfl, ha, hd, hp, hq⟩ := parseV1Addresses_eq_ok.mp hpa
        exact ⟨_, rfl, first, _, a, d, p, q, rfl, .inr ⟨rfl, ⟨os, rfl, ha⟩, hd⟩, hp, hq⟩
      · rintro ⟨⟨_, port⟩, rfl, _, _, a, d, p, q, hl, ⟨rfl, -⟩ | ⟨-, ⟨os, rfl, ha⟩, hd⟩, hp, hq⟩
        · simp [ascii] at hl
        · cases hl
          exact ⟨(os, port), parseV1Addresses_eq_ok.mpr ⟨a, d, p, q, rfl, ha, hd, hp, hq⟩, rfl⟩
    · constructor
      · rintro ⟨⟩
      · rintro ⟨_, rfl, _, _, a, d, p, q, hl, ⟨rfl, -⟩ | ⟨rfl, -⟩, -, -⟩
        · exact absurd (by simp_all) h4
        · exact absurd (by simp_all) h6

theorem go_addresses (h : ¬IsUnknown line) (r : Option Source) :
    Go.parseProxyV1 text line = .ok r ↔
      ∃ source, r = some (Go.unmapAddrPort source) ∧ Addresses text line source := by
  unfold IsUnknown at h
  unfold Go.parseProxyV1 Addresses
  simp only [if_neg h]
  constructor
  · intro hok
    split at hok
    · rename_i first pr a d p q hf
      split_ifs at hok with hpr
      split at hok
      · rename_i source sourceZone destination destinationZone sourcePort destinationPort ha hd hp hq
        split_ifs at hok with hbad
        cases hok
        simp only [ne_eq, not_or, not_not] at hbad
        obtain ⟨rfl, rfl, hs, hdes⟩ := hbad
        refine ⟨(source, sourcePort), rfl, first, pr, a, d, p, q, hf, ?_, hp, by simp [hq]⟩
        cases source with
        | v4 os =>
          cases destination with
          | v4 os' =>
            have h4 : pr = ascii "TCP4" := by simpa [Addr.isV4] using hs
            exact .inl ⟨h4, ⟨os, rfl, (text.parseAddr_v4 _ _).mp ha⟩, by simp [(text.parseAddr_v4 _ _).mp hd]⟩
          | v6 os' => cases hdes
        | v6 os =>
          cases destination with
          | v4 os' => cases hdes
          | v6 os' =>
            have h4 : pr ≠ ascii "TCP4" := by simpa [Addr.isV4] using hs
            have h6 : pr = ascii "TCP6" := by
              by_contra h6
              exact hpr ⟨h4, h6⟩
            exact .inr ⟨h6, ⟨os, rfl, (text.parseAddr_v6 _ _).mp ha⟩, by simp [(text.parseAddr_v6 _ _).mp hd]⟩
      · cases hok
    · cases hok
  · rintro ⟨⟨address, port⟩, rfl, first, pr, a, d, p, q, hf, hpr, hp, hq⟩
    obtain ⟨q', hq⟩ := Option.isSome_iff_exists.mp hq
    rcases hpr with ⟨rfl, ⟨os, rfl, ha⟩, hd⟩ | ⟨rfl, ⟨os, rfl, ha⟩, hd⟩
    · obtain ⟨os', hd⟩ := Option.isSome_iff_exists.mp hd
      simp [hf, (text.parseAddr_v4 _ _).mpr ha, (text.parseAddr_v4 _ _).mpr hd, hp, hq, Addr.isV4]
    · obtain ⟨os', hd⟩ := Option.isSome_iff_exists.mp hd
      simp [hf, (text.parseAddr_v6 _ _).mpr ha, (text.parseAddr_v6 _ _).mpr hd, hp, hq, Addr.isV4, ascii]

theorem parseProxyPort_digits {f : Bytes} {port : Nat} (h : Go.parseProxyPort f = some port) :
    ∀ byte ∈ f, 0x20 ≤ byte ∧ byte < 0x7f := by
  unfold Go.parseProxyPort at h
  cases f with
  | nil => simp
  | cons first rest =>
    simp only at h
    split_ifs at h
    intro byte hb
    have hd := List.all_eq_true.mp (parseDecimal_digits h) byte hb
    simp only [isAsciiDigit, Bool.and_eq_true, decide_eq_true_eq, UInt8.le_iff_toNat_le] at hd
    simp only [UInt8.le_iff_toNat_le, UInt8.lt_iff_toNat_lt]
    exact ⟨le_trans (by decide) hd.1, lt_of_le_of_lt hd.2 (by decide)⟩

theorem mem_intercalate {sep byte : UInt8} {fs : List Bytes} (h : byte ∈ [sep].intercalate fs) :
    byte = sep ∨ ∃ field ∈ fs, byte ∈ field := by
  induction fs with
  | nil => simp at h
  | cons field fs ih =>
    cases fs with
    | nil => exact .inr ⟨field, by simp, by simpa using h⟩
    | cons field' fs =>
      rw [List.intercalate_cons_cons, List.mem_append, List.mem_append, List.mem_singleton] at h
      rcases h with (h | h) | h
      · exact .inr ⟨field, by simp, h⟩
      · exact .inl h
      · rcases ih h with h | ⟨o, ho, h⟩
        · exact .inl h
        · exact .inr ⟨o, List.mem_cons_of_mem _ ho, h⟩

theorem Addresses.printable (h : Addresses text line source) (hs : v1Prefix <+: line) :
    ∀ byte ∈ line, 0x20 ≤ byte ∧ byte < 0x7f := by
  obtain ⟨first, pr, a, d, p, q, hfi, hpr, hp, hq⟩ := h
  obtain ⟨q', hq⟩ := Option.isSome_iff_exists.mp hq
  have hfr : first = ascii "PROXY" := by
    obtain ⟨rest, rfl⟩ := hs
    have hsp : (ascii "PROXY" ++ 0x20 :: rest).splitOn 0x20 = ascii "PROXY" :: rest.splitOn 0x20 :=
      List.splitOnP_append_cons_of_forall_mem (by decide +kernel) 0x20 (by decide) rest
    exact (List.cons.inj (hsp.symm.trans hfi)).1.symm
  have hl : line = [0x20].intercalate [first, pr, a, d, p, q] := by
    rw [← hfi, List.intercalate_splitOn]
  have had (f : Bytes) (hf : f = a ∨ f = d) : ∀ byte ∈ f, 0x20 ≤ byte ∧ byte < 0x7f := by
    have hw (byte : UInt8) (hb : 0x20 < byte ∧ byte < 0x7f) : 0x20 ≤ byte ∧ byte < 0x7f :=
      ⟨UInt8.le_of_lt hb.1, hb.2⟩
    rcases hpr with ⟨-, ⟨os, -, ha⟩, hd⟩ | ⟨-, ⟨os, -, ha⟩, hd⟩
    · obtain ⟨os', hd⟩ := Option.isSome_iff_exists.mp hd
      rcases hf with rfl | rfl
      · exact fun byte hb => hw byte (text.ipv4_ascii _ _ ha byte hb)
      · exact fun byte hb => hw byte (text.ipv4_ascii _ _ hd byte hb)
    · obtain ⟨os', hd⟩ := Option.isSome_iff_exists.mp hd
      rcases hf with rfl | rfl
      · exact fun byte hb => hw byte (text.ipv6_ascii _ _ ha byte hb)
      · exact fun byte hb => hw byte (text.ipv6_ascii _ _ hd byte hb)
  have hn : ∀ byte ∈ pr, 0x20 ≤ byte ∧ byte < 0x7f := by
    rcases hpr with ⟨rfl, -⟩ | ⟨rfl, -⟩ <;> decide +kernel
  have hpro : ∀ byte ∈ first, 0x20 ≤ byte ∧ byte < 0x7f := by
    rw [hfr]
    decide +kernel
  intro byte hb
  rw [hl] at hb
  rcases mem_intercalate hb with rfl | ⟨f, hf, hmem⟩
  · decide
  · simp only [List.mem_cons, List.not_mem_nil, or_false] at hf
    rcases hf with rfl | rfl | rfl | rfl | rfl | rfl
    · exact hpro byte hmem
    · exact hn byte hmem
    · exact had _ (.inl rfl) byte hmem
    · exact had _ (.inr rfl) byte hmem
    · exact parseProxyPort_digits hp byte hmem
    · exact parseProxyPort_digits hq byte hmem

theorem validUtf8_of_ascii {bytes : Bytes} (h : ∀ byte ∈ bytes, byte < 0x7f) : Rust.validUtf8 bytes = true := by
  induction bytes with
  | nil => rfl
  | cons byte bytes ih =>
    have hby : byte < 0x80 := UInt8.lt_trans (h byte List.mem_cons_self) (by decide)
    rw [Rust.validUtf8.eq_def]
    simp only [hby, if_true]
    exact ih fun b hb => h b (List.mem_cons_of_mem _ hb)

/-! ## Version 1 -/

variable {bytes : Bytes} {stop : Nat}

theorem findCrlf_of_suffix (hc : [0x0d, 0x0a] <:+ line) (hs : line <+: bytes) : (Rust.findCrlf bytes).isSome := by
  obtain ⟨st, rfl⟩ := hc
  obtain ⟨rest, rfl⟩ := hs
  simpa using Rust.findCrlf_isSome st rest

theorem readProxyV1_line {r : Option Source × Bytes} (h : Go.readProxyV1 text bytes = .ok r) :
    ∃ i, (bytes.take Go.proxyReadBuffer).findIdx? (· = 0x0a) = some i ∧ i + 1 ≤ v1MaxLen ∧
      [0x0d, 0x0a] <:+ bytes.take (i + 1) := by
  unfold Go.readProxyV1 Go.readSlice at h
  cases hi : (bytes.take Go.proxyReadBuffer).findIdx? (· = 0x0a) with
  | none =>
    simp only [hi] at h
    split_ifs at h
  | some i =>
    simp only [hi, reduceCtorEq, false_or] at h
    split_ifs at h with hl hc
    obtain ⟨hlt, -⟩ := List.findIdx?_eq_some_iff_getElem.mp hi
    rw [List.length_take] at hlt hl
    exact ⟨i, rfl, by omega, hc⟩

theorem go_v1_without_crlf (h : Rust.findCrlf (bytes.take v1MaxLen) = none) (result : Option Source × Bytes) :
    Go.readProxyV1 text bytes ≠ .ok result := by
  intro hok
  obtain ⟨i, -, hle, hc⟩ := readProxyV1_line hok
  have hs := findCrlf_of_suffix hc (List.take_prefix_take_left hle)
  simp [h] at hs

theorem crlf_split (h : Rust.findCrlf (bytes.take v1MaxLen) = some stop) :
    ∃ line rest, bytes = line ++ 0x0d :: 0x0a :: rest ∧ line.length = stop ∧ stop + 2 ≤ v1MaxLen ∧
      Rust.findCrlf (line ++ [0x0d]) = none := by
  obtain ⟨rest, hr, hn⟩ := Rust.findCrlf_eq_some h
  have hlen := congrArg List.length hr
  have hmax := List.length_take_le v1MaxLen bytes
  simp only [List.length_append, List.length_cons, List.length_take] at hlen hmax
  refine ⟨(bytes.take v1MaxLen).take stop, rest ++ bytes.drop v1MaxLen, ?_, ?_, by omega, hn⟩
  · rw [← List.cons_append, ← List.cons_append, ← List.append_assoc, ← hr, List.take_append_drop]
  · rw [List.length_take, List.length_take]
    omega

theorem findIdx_line {rest : Bytes} (hlen : line.length + 2 ≤ v1MaxLen) :
    ((line ++ 0x0d :: 0x0a :: rest).take Go.proxyReadBuffer).findIdx? (· = 0x0a) =
      (line.findIdx? (· = 0x0a)).or (some (line.length + 1)) := by
  have hb : Go.proxyReadBuffer - line.length = (Go.proxyReadBuffer - line.length - 2) + 2 := by
    unfold v1MaxLen at hlen
    unfold Go.proxyReadBuffer
    omega
  have hall : line.take Go.proxyReadBuffer = line := by
    refine List.take_of_length_le ?_
    unfold v1MaxLen at hlen
    unfold Go.proxyReadBuffer
    omega
  rw [List.take_append, hall, hb, List.take_succ_cons, List.take_succ_cons, List.findIdx?_append]
  simp [List.findIdx?_cons, Nat.add_comm]

theorem go_v1_bare_lf (h : Rust.findCrlf (bytes.take v1MaxLen) = some stop) (hlf : 0x0a ∈ bytes.take stop)
    (result : Option Source × Bytes) : Go.readProxyV1 text bytes ≠ .ok result := by
  intro hok
  obtain ⟨i, hi, hle, hc⟩ := readProxyV1_line hok
  obtain ⟨line, rest, rfl, rfl, hmax, hn⟩ := crlf_split h
  rw [List.take_left] at hlf
  rw [findIdx_line hmax] at hi
  -- the first LF is in the line, so the CRLF would be too
  obtain ⟨j, hj⟩ : ∃ j, line.findIdx? (· = 0x0a) = some j := by
    rw [← Option.isSome_iff_exists, List.findIdx?_isSome]
    simpa using hlf
  rw [hj, Option.some_or, Option.some.injEq] at hi
  subst hi
  obtain ⟨hlt, -⟩ := List.findIdx?_eq_some_iff_getElem.mp hj
  have hs : (line ++ 0x0d :: 0x0a :: rest).take (j + 1) <+: line ++ [0x0d] := by
    calc (line ++ 0x0d :: 0x0a :: rest).take (j + 1)
        = line.take (j + 1) := List.take_append_of_le_length hlt
      _ <+: line := List.take_prefix ..
      _ <+: line ++ [0x0d] := List.prefix_append ..
  have hso := findCrlf_of_suffix hc hs
  simp [hn] at hso

theorem go_v1_line (h : Rust.findCrlf (bytes.take v1MaxLen) = some stop) (hlf : 0x0a ∉ bytes.take stop) :
    Go.readProxyV1 text bytes =
      (Go.parseProxyV1 text (bytes.take stop)).map fun source => (source, bytes.drop (stop + 2)) := by
  obtain ⟨line, rest, rfl, rfl, hmax, -⟩ := crlf_split h
  rw [List.take_left] at hlf ⊢
  have hn : line.findIdx? (· = 0x0a) = none := by
    rw [List.findIdx?_eq_none_iff]
    intro byte hb
    rw [decide_eq_false_iff_not]
    rintro rfl
    exact hlf hb
  have ht : (line ++ 0x0d :: 0x0a :: rest).take (line.length + 1 + 1) = line ++ [0x0d, 0x0a] := by
    rw [Nat.add_assoc, List.take_length_add_append]
    rfl
  have hs : Go.readSlice 0x0a (line ++ 0x0d :: 0x0a :: rest) = (line ++ [0x0d, 0x0a], none) := by
    unfold Go.readSlice
    rw [findIdx_line hmax, hn, Option.none_or]
    simp only [ht]
  unfold Go.readProxyV1
  rw [hs]
  simp [Nat.not_lt.mpr hmax]

/-! ## Version 2 -/

def Rust.Parsed.header : Except String Rust.Parsed → Option (Option Source × Nat)
  | .ok (.complete source len) => some (source.map Go.unmapAddrPort, len)
  | _ => none

def Go.header (b : Bytes) (transport : Transport) : Option (Option Source × Nat) :=
  match Go.parseProxyV2Fixed b transport with
  | .error _ => none
  | .ok (addressLength, length) =>
    if b.length < length then none
    else some (if 0 < addressLength then Go.proxyV2Source ((b.take (v2HeaderLen + addressLength)).drop v2HeaderLen)
      else none,
      length)

theorem family_iff (family : UInt8) (transport : Transport) :
    (family = 0x10 ||| transport.code ↔ family &&& 0x0f = transport.code ∧ (family >>> 4).toNat = 1) ∧
      (family = 0x20 ||| transport.code ↔ family &&& 0x0f = transport.code ∧ (family >>> 4).toNat = 2) := by
  have hlow : (family &&& 0x0f).toNat = family.toNat % 16 := by
    rw [UInt8.toNat_and]
    exact Nat.and_two_pow_sub_one_eq_mod _ 4
  have hh : (family >>> 4).toNat = family.toNat / 16 := by simp [Nat.shiftRight_eq_div_pow]
  cases transport
  all_goals
    simp only [← UInt8.toNat_inj, hlow, hh]
    constructor
    · simp [Transport.code]
      omega
    · simp [Transport.code]
      omega

def blockLength (family : UInt8) : Nat :=
  if (family >>> 4).toNat = 1 then 12 else if (family >>> 4).toNat = 2 then 36 else 0

theorem source_v4 {family : UInt8} {block : Bytes} (h : (family >>> 4).toNat = 1) (hlen : 12 ≤ block.length) :
    ∃ source, Rust.parseV2Source family block = .ok (some source) ∧
      Go.proxyV2Source (block.take 12) = some (Go.unmapAddrPort source) := by
  match block, hlen with
  | a :: b :: c :: d :: _ :: _ :: _ :: _ :: portHigh :: portLow :: _ :: _ :: rest, _ =>
    refine ⟨(.v4 ⟨[a, b, c, d], rfl⟩, bigEndian portHigh portLow), ?_, ?_⟩
    · simp [Rust.parseV2Source, h]
    · simp [Go.proxyV2Source]

variable {b : Bytes}

theorem source_v6 {family : UInt8} (h : (family >>> 4).toNat = 2) (hlen : 36 ≤ b.length) :
    ∃ source, Rust.parseV2Source family b = .ok (some source) ∧
      Go.proxyV2Source (b.take 36) = some (Go.unmapAddrPort source) := by
  obtain ⟨portHigh, pl, rest, hp⟩ : ∃ portHigh pl rest, b.drop 32 = portHigh :: pl :: rest := by
    have hd : 4 ≤ (b.drop 32).length := by simp; omega
    match b.drop 32, hd with
    | portHigh :: pl :: rest, _ => exact ⟨_, _, _, rfl⟩
  refine ⟨(.v6 ⟨b.take 16, by simp; omega⟩, bigEndian portHigh pl), ?_, ?_⟩
  · unfold Rust.parseV2Source
    simp [h, hlen, hp]
  · unfold Go.proxyV2Source
    rw [dif_pos (by simp; omega)]
    simp [List.drop_take, hp, List.take_take]

theorem source_short {family : UInt8} (h : b.length < blockLength family) :
    ∃ message, Rust.parseV2Source family b = .error message := by
  unfold blockLength at h
  split_ifs at h with h4 h6
  · simp only [Rust.parseV2Source, h4]
    split
    · next hall =>
      have hlen := congrArg List.length hall
      simp at hlen
      omega
    · exact ⟨_, rfl⟩
  · simp only [Rust.parseV2Source, h6]
    rw [dif_neg (Nat.not_le.mpr h)]
    exact ⟨_, rfl⟩
  · omega

theorem source_other {family : UInt8} (h : blockLength family = 0) : Rust.parseV2Source family b = .ok none := by
  unfold blockLength at h
  split_ifs at h with h4 h6
  unfold Rust.parseV2Source
  split
  · next h1 => exact absurd h1 h4
  · next h2 => exact absurd h2 h6
  · rfl

theorem block_header (family : UInt8) (b : Bytes) (len : Nat) :
    Rust.Parsed.header ((Rust.parseV2Source family b).map fun source => .complete source len) =
      if b.length < blockLength family then none
      else some (if 0 < blockLength family then Go.proxyV2Source (b.take (blockLength family)) else none, len) := by
  by_cases hs : b.length < blockLength family
  · obtain ⟨message, her⟩ := source_short hs
    rw [if_pos hs, her]
    rfl
  rw [if_neg hs]
  have hz : blockLength family = 0 ∨ (family >>> 4).toNat = 1 ∨ (family >>> 4).toNat = 2 := by
    unfold blockLength
    split_ifs <;> simp [*]
  rcases hz with hz | hv4 | hv6
  · rw [source_other hz, hz]
    rfl
  · have hlen : blockLength family = 12 := by simp [blockLength, hv4]
    rw [hlen] at hs ⊢
    obtain ⟨source, hr, hgo⟩ := source_v4 hv4 (Nat.not_lt.mp hs)
    rw [hr, hgo]
    rfl
  · have hlen : blockLength family = 36 := by simp [blockLength, hv6]
    rw [hlen] at hs ⊢
    obtain ⟨source, hr, hgo⟩ := source_v6 hv6 (Nat.not_lt.mp hs)
    rw [hr, hgo]
    rfl

theorem addressLength_eq (c family : UInt8) (transport : Transport) :
    (if c = 1 ∧ family = 0x10 ||| transport.code then 12
      else if c = 1 ∧ family = 0x20 ||| transport.code then 36 else 0) =
      if c = 1 ∧ family &&& 0x0f = transport.code then blockLength family else 0 := by
  obtain ⟨h4, h6⟩ := family_iff family transport
  simp only [h4, h6]
  unfold blockLength
  by_cases hp : c = 1 ∧ family &&& 0x0f = transport.code
  · simp [hp]
  · rw [if_neg hp, if_neg (fun h => hp ⟨h.1, h.2.1⟩), if_neg (fun h => hp ⟨h.1, h.2.1⟩)]

section

variable (rest : Bytes) (versionCommand family lenHigh lenLow : UInt8) (transport : Transport)

/-- A header with its fixed part. -/
def v2Bytes : Bytes := v2Signature ++ versionCommand :: family :: lenHigh :: lenLow :: rest

theorem v2_header :
    Rust.Parsed.header (Rust.parseV2 (v2Bytes rest versionCommand family lenHigh lenLow) transport) =
      Go.header (v2Bytes rest versionCommand family lenHigh lenLow) transport := by
  have hlen : (v2Bytes rest versionCommand family lenHigh lenLow).length = v2HeaderLen + rest.length := by
    simp [v2Bytes, v2Signature, ascii, v2HeaderLen]
    omega
  have hd : (v2Bytes rest versionCommand family lenHigh lenLow).drop 12 =
      versionCommand :: family :: lenHigh :: lenLow :: rest := rfl
  have hta : (v2Bytes rest versionCommand family lenHigh lenLow).take 12 = v2Signature := rfl
  have hb (n : Nat) : ((v2Bytes rest versionCommand family lenHigh lenLow).take (v2HeaderLen + n)).drop v2HeaderLen =
      rest.take n := by
    rw [List.drop_take, Nat.add_sub_cancel_left]
    rfl
  unfold Rust.parseV2 Go.header Go.parseProxyV2Fixed
  rw [hd, hta]
  simp only [List.take_succ_cons, List.take_zero, hlen, hb, ne_eq, not_true_eq_false, false_or, addressLength_eq]
  rw [if_neg (show ¬v2HeaderLen + rest.length < v2HeaderLen by omega)]
  by_cases hv : versionCommand >>> 4 = 2
  swap
  · simp [hv, Rust.Parsed.header]
  by_cases hcom : 1 < versionCommand &&& 0x0f
  · simp [hv, hcom, Rust.Parsed.header]
  simp only [hv, not_true_eq_false, if_false, hcom, Nat.add_lt_add_iff_left]
  generalize bigEndian lenHigh lenLow = n
  by_cases hs : rest.length < n
  · rw [if_pos hs]
    by_cases hfit : n < if versionCommand &&& 0x0f = 1 ∧ family &&& 0x0f = transport.code then blockLength family else 0
    · rw [if_pos hfit]
      rfl
    · rw [if_neg hfit]
      simp only [Nat.add_lt_add_iff_left, hs, if_true]
      rfl
  rw [if_neg hs]
  by_cases hl : versionCommand &&& 0x0f = 0
  · simp [hl, hs, Rust.Parsed.header]
  have hp : versionCommand &&& 0x0f = 1 := by
    rw [← UInt8.toNat_inj] at hl ⊢
    rw [UInt8.lt_iff_toNat_lt] at hcom
    simp only [UInt8.toNat_ofNat] at hl hcom ⊢
    omega
  by_cases hlow : family &&& 0x0f = transport.code
  swap
  · simp [hl, hlow, hs, Rust.Parsed.header]
  have ht : (rest.take n).length = n := by simp; omega
  rw [if_neg hl, if_neg (not_not.mpr hlow), block_header, ht]
  simp only [hp, hlow, and_self, if_true]
  by_cases hfit : n < blockLength family
  · simp [hfit]
  · simp [hfit, hs, List.take_take, Nat.min_eq_left (Nat.not_lt.mp hfit)]

end

end

end TrevRpc.Proxy
