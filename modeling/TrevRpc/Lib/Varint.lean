import Mathlib.Data.List.Basic
import Mathlib.Tactic.Ring

/-! # QUIC variable-length integers -/

namespace TrevRpc.Varint

/-- The largest value that has an encoding. -/
def maxValue : Nat := 2 ^ 62 - 1

def bigEndian : Nat → Nat → List UInt8
  | 0, _ => []
  | n + 1, v => UInt8.ofNat (v / 256 ^ n) :: bigEndian n v

def fromBigEndian (acc : Nat) (bytes : List UInt8) : Nat :=
  bytes.foldl (fun value byte => value * 256 + byte.toNat) acc

def encodedLen (v : Nat) : Nat :=
  if v < 2 ^ 6 then 1 else if v < 2 ^ 14 then 2 else if v < 2 ^ 30 then 4 else 8

def encode (v : Nat) : Option (List UInt8) :=
  if v < 2 ^ 6 then some (bigEndian 1 v)
  else if v < 2 ^ 14 then some (bigEndian 2 (v + 2 ^ 14))
  else if v < 2 ^ 30 then some (bigEndian 4 (v + 2 ^ 31))
  else if v ≤ maxValue then some (bigEndian 8 (v + 3 * 2 ^ 62))
  else none

def lenFromFirstByte (first : UInt8) : Nat :=
  match first.toNat / 64 with
  | 0 => 1
  | 1 => 2
  | 2 => 4
  | _ => 8

def decode (bytes : List UInt8) : Option (Nat × Nat) :=
  match bytes with
  | [] => none
  | first :: rest =>
    let len := lenFromFirstByte first
    if len - 1 ≤ rest.length then
      some (fromBigEndian (first.toNat % 64) (rest.take (len - 1)), len)
    else none

@[simp] theorem length_bigEndian (n v : Nat) : (bigEndian n v).length = n := by
  induction n with
  | zero => rfl
  | succ n ih => simp [bigEndian, ih]

theorem fromBigEndian_bigEndian (n v acc : Nat) : fromBigEndian acc (bigEndian n v) = acc * 256 ^ n + v % 256 ^ n := by
  induction n generalizing acc with
  | zero => simp [bigEndian, fromBigEndian, Nat.mod_one]
  | succ n ih =>
    have hd : v % 256 ^ (n + 1) = v / 256 ^ n % 256 * 256 ^ n + v % 256 ^ n := by
      rw [pow_succ, Nat.mod_mul]
      ring
    simp only [bigEndian, fromBigEndian, List.foldl_cons] at ih ⊢
    rw [ih, hd]
    simp only [UInt8.toNat_ofNat']
    ring

theorem encode_isSome_iff (v : Nat) : (encode v).isSome ↔ v ≤ maxValue := by
  unfold encode maxValue
  split_ifs <;> simp <;> omega

variable {v : Nat} {bs : List UInt8}

theorem length_of_encode (h : encode v = some bs) : bs.length = encodedLen v := by
  unfold encode at h
  unfold encodedLen
  split_ifs at h ⊢ <;> first | omega | (cases h; simp)

theorem encodedLen_le (v : Nat) : encodedLen v ≤ 8 := by
  unfold encodedLen
  split_ifs <;> omega

theorem encodedLen_pos (v : Nat) : 0 < encodedLen v := by
  unfold encodedLen
  split_ifs <;> omega

theorem encodedLen_mono {w : Nat} (h : v ≤ w) : encodedLen v ≤ encodedLen w := by
  unfold encodedLen
  split_ifs <;> omega

theorem first_byte (tag high : Nat) (htag : tag < 4) (hhigh : high < 64) :
    (UInt8.ofNat (high + tag * 64)).toNat = high + tag * 64 ∧
      lenFromFirstByte (UInt8.ofNat (high + tag * 64)) = lenFromFirstByte (UInt8.ofNat (tag * 64)) := by
  have hf : (UInt8.ofNat (high + tag * 64)).toNat = high + tag * 64 := by
    rw [UInt8.toNat_ofNat']
    omega
  have htop : (high + tag * 64) / 64 = tag * 64 % 2 ^ 8 / 64 := by omega
  refine ⟨hf, ?_⟩
  unfold lenFromFirstByte
  rw [hf, UInt8.toNat_ofNat', htop]

theorem decode_tagged (tag n v : Nat) (rest : List UInt8) (htag : tag < 4)
    (hlen : lenFromFirstByte (UInt8.ofNat (tag * 64)) = n + 1) (hv : v < 64 * 256 ^ n) :
    decode (bigEndian (n + 1) (v + tag * 64 * 256 ^ n) ++ rest) = some (v, n + 1) := by
  have hpos : 0 < 256 ^ n := Nat.pow_pos (by omega)
  have hh : (v + tag * 64 * 256 ^ n) / 256 ^ n = v / 256 ^ n + tag * 64 := by
    rw [Nat.add_mul_div_right _ _ hpos]
  have hdiv : v / 256 ^ n < 64 := Nat.div_lt_of_lt_mul (by rw [Nat.mul_comm]; exact hv)
  obtain ⟨hf, hlen'⟩ := first_byte tag _ htag hdiv
  have hmod : (v / 256 ^ n + tag * 64) % 64 = v / 256 ^ n := by
    rw [Nat.add_mul_mod_self_right, Nat.mod_eq_of_lt hdiv]
  simp only [bigEndian, hh, List.cons_append, decode, hlen', hlen, Nat.add_sub_cancel, hf]
  rw [if_pos (by simp), List.take_left' (length_bigEndian ..), fromBigEndian_bigEndian, hmod,
    Nat.add_mul_mod_self_right, Nat.div_add_mod']

theorem decode_encode (h : encode v = some bs) (rest : List UInt8) : decode (bs ++ rest) = some (v, encodedLen v) := by
  unfold encode at h
  unfold encodedLen
  split_ifs at h ⊢ with h6 h14 h30 hmax
  · cases h
    simpa using decode_tagged 0 0 v rest (by omega) (by decide) (by omega)
  · cases h
    simpa using decode_tagged 1 1 v rest (by omega) (by decide) (by omega)
  · cases h
    simpa using decode_tagged 2 3 v rest (by omega) (by decide) (by omega)
  · cases h
    unfold maxValue at hmax
    simpa using decode_tagged 3 7 v rest (by omega) (by decide) (by omega)

theorem lenFromFirstByte_pos (first : UInt8) : 0 < lenFromFirstByte first := by
  unfold lenFromFirstByte
  split <;> decide

theorem lenFromFirstByte_le (first : UInt8) : lenFromFirstByte first ≤ 8 := by
  unfold lenFromFirstByte
  split <;> decide

variable {first : UInt8}

theorem decode_of_one (h : lenFromFirstByte first = 1) (rest : List UInt8) :
    decode (first :: rest) = some (first.toNat, 1) := by
  have hs : first.toNat < 64 := by
    unfold lenFromFirstByte at h
    split at h <;> omega
  simp [decode, h, fromBigEndian, Nat.mod_eq_of_lt hs]

theorem two_le_lenFromFirstByte (h : lenFromFirstByte first ≠ 1) : 2 ≤ lenFromFirstByte first := by
  have hpos := lenFromFirstByte_pos first
  omega

variable {n : Nat}

theorem decode_length (h : decode bs = some (v, n)) : 0 < n ∧ n ≤ bs.length := by
  cases bs with
  | nil => cases h
  | cons first rest =>
    simp only [decode] at h
    split_ifs at h with hlen
    cases h
    have hpos := lenFromFirstByte_pos first
    rw [List.length_cons]
    omega

theorem decode_append (h : decode bs = some (v, n)) (rest : List UInt8) : decode (bs ++ rest) = some (v, n) := by
  cases bs with
  | nil => cases h
  | cons first bs =>
    simp only [decode, List.cons_append, List.length_append] at h ⊢
    split_ifs at h with hlen
    rw [if_pos (by omega), List.take_append_of_le_length hlen]
    exact h

theorem decode_isSome_iff (first : UInt8) (rest : List UInt8) :
    (decode (first :: rest)).isSome ↔ lenFromFirstByte first ≤ (first :: rest).length := by
  have hpos := lenFromFirstByte_pos first
  simp only [decode, List.length_cons]
  split_ifs <;> simp <;> omega

theorem decode_snd {rest : List UInt8} (h : decode (first :: rest) = some (v, n)) : n = lenFromFirstByte first := by
  simp only [decode] at h
  split_ifs at h
  cases h
  rfl

theorem decode_take (h : decode bs = some (v, n)) : decode (bs.take n) = some (v, n) := by
  cases bs with
  | nil => cases h
  | cons first rest =>
    obtain rfl := decode_snd h
    obtain ⟨k, hk⟩ := Nat.exists_eq_succ_of_ne_zero (lenFromFirstByte_pos first).ne'
    simp only [decode] at h ⊢
    split_ifs at h with hlen
    rw [hk] at h hlen ⊢
    simp only [List.take_succ_cons, hk, Nat.succ_sub_one, List.length_take, List.take_take, min_self] at h hlen ⊢
    rw [if_pos (le_min le_rfl hlen), h]

/-! ## Sequences -/

def encodeAll : List Nat → Option (List UInt8)
  | [] => some []
  | v :: values => do
    let bytes ← encode v
    let rest ← encodeAll values
    return bytes ++ rest

def encodedLenAll (values : List Nat) : Nat := (values.map encodedLen).sum

theorem encodedLenAll_cons (v : Nat) (values : List Nat) :
    encodedLenAll (v :: values) = encodedLen v + encodedLenAll values := by
  simp [encodedLenAll]

theorem encodedLenAll_le (vs : List Nat) : encodedLenAll vs ≤ 8 * vs.length := by
  induction vs with
  | nil => simp [encodedLenAll]
  | cons v vs ih =>
    have h := encodedLen_le v
    rw [encodedLenAll_cons, List.length_cons]
    omega

variable {wire : List UInt8}

theorem encodeAll_cons_eq_some {vs : List Nat} :
    encodeAll (v :: vs) = some wire ↔
      ∃ head tail, encode v = some head ∧ encodeAll vs = some tail ∧ wire = head ++ tail := by
  simp only [encodeAll, Option.bind_eq_bind, Option.bind_eq_some_iff, Option.pure_def,
    Option.some.injEq]
  constructor
  · rintro ⟨head, hh, tail, ht, rfl⟩
    exact ⟨head, tail, hh, ht, rfl⟩
  · rintro ⟨head, tail, hh, ht, rfl⟩
    exact ⟨head, hh, tail, ht, rfl⟩

theorem encodeAll_nil_eq_some : encodeAll [] = some wire ↔ wire = [] := by
  simp [encodeAll, eq_comm]

theorem encodeAll_append_eq_some {xs ys : List Nat} :
    encodeAll (xs ++ ys) = some wire ↔
      ∃ head tail, encodeAll xs = some head ∧ encodeAll ys = some tail ∧ wire = head ++ tail := by
  induction xs generalizing wire with
  | nil => simp [encodeAll]
  | cons x xs ih =>
    simp only [List.cons_append, encodeAll_cons_eq_some, ih]
    constructor
    · rintro ⟨first, _, hx, ⟨head, tail, hxs, hys, rfl⟩, rfl⟩
      exact ⟨first ++ head, tail, ⟨first, head, hx, hxs, rfl⟩, hys, by simp⟩
    · rintro ⟨_, tail, ⟨first, head, hx, hxs, rfl⟩, hys, rfl⟩
      exact ⟨first, head ++ tail, hx, ⟨head, tail, hxs, hys, rfl⟩, by simp⟩

theorem length_of_encodeAll {values : List Nat}
    (h : encodeAll values = some bs) : bs.length = encodedLenAll values := by
  induction values generalizing bs with
  | nil =>
    rw [encodeAll_nil_eq_some.mp h]
    rfl
  | cons v values ih =>
    obtain ⟨first, rest, hv, hr, rfl⟩ := encodeAll_cons_eq_some.mp h
    rw [List.length_append, length_of_encode hv, ih hr, encodedLenAll_cons]

theorem exists_encodeAll {vs : List Nat} (h : ∀ v ∈ vs, v ≤ maxValue) : ∃ bytes, encodeAll vs = some bytes := by
  induction vs with
  | nil => exact ⟨[], rfl⟩
  | cons v vs ih =>
    rw [List.forall_mem_cons] at h
    obtain ⟨first, hf⟩ := Option.isSome_iff_exists.mp ((encode_isSome_iff v).mpr h.1)
    obtain ⟨rest, hr⟩ := ih h.2
    exact ⟨first ++ rest, encodeAll_cons_eq_some.mpr ⟨first, rest, hf, hr, rfl⟩⟩

end TrevRpc.Varint
