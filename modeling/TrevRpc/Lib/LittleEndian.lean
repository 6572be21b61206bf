import Mathlib.Algebra.Order.Ring.Nat
import Mathlib.Tactic.Ring

/-!
# Little-endian integers

Read from the first byte up with shifts, or from the last byte down with products, which doubles keep exact up to 53
bits.
-/

namespace TrevRpc.LittleEndian

def value (bytes : List UInt8) : Nat := bytes.foldr (fun byte value => byte.toNat + 256 * value) 0

theorem value_concat (bs : List UInt8) (byte : UInt8) :
    value (bs ++ [byte]) = value bs + 256 ^ bs.length * byte.toNat := by
  induction bs with
  | nil => simp [value]
  | cons b bs ih =>
    simp only [value, List.cons_append, List.foldr_cons, List.length_cons] at ih ⊢
    rw [ih]
    ring

theorem value_lt (bs : List UInt8) : value bs < 256 ^ bs.length := by
  induction bs with
  | nil => simp [value]
  | cons b bs ih =>
    have hb := b.toNat_lt
    simp only [value, List.foldr_cons, List.length_cons, pow_succ] at ih ⊢
    omega

/-- The `size` bytes of `n`. -/
def bytes : Nat → Nat → List UInt8
  | 0, _ => []
  | size + 1, n => UInt8.ofNat (n % 256) :: bytes size (n / 256)

@[simp] theorem length_bytes (size n : Nat) : (bytes size n).length = size := by
  induction size generalizing n with
  | zero => rfl
  | succ size ih => simp [bytes, ih]

theorem value_bytes {size n : Nat} (h : n < 256 ^ size) : value (bytes size n) = n := by
  induction size generalizing n with
  | zero => simp_all [bytes, value]
  | succ size ih =>
    have hdiv : n / 256 < 256 ^ size := Nat.div_lt_of_lt_mul (by rwa [pow_succ, Nat.mul_comm] at h)
    have hb : (UInt8.ofNat (n % 256)).toNat = n % 256 :=
      Nat.mod_eq_of_lt (Nat.mod_lt n (by decide))
    have hv := ih hdiv
    simp only [value, bytes, List.foldr_cons, hb] at hv ⊢
    rw [hv]
    omega

theorem bytes_value (bs : List UInt8) : bytes bs.length (value bs) = bs := by
  induction bs with
  | nil => rfl
  | cons b bs ih =>
    have hb := b.toNat_lt
    have hv : value (b :: bs) = b.toNat + 256 * value bs := rfl
    rw [List.length_cons, bytes, hv, show (b.toNat + 256 * value bs) / 256 = value bs by omega, ih,
      show (b.toNat + 256 * value bs) % 256 = b.toNat by omega, UInt8.ofNat_toNat]

/-! ## Loops over a buffer -/

section

variable (data : List UInt8) (offset : Nat)

/-- The bytes of `data` at `offset`. -/
def slice (size : Nat) : List UInt8 := (data.drop offset).take size

/-- `value |= data[offset + i] << 8 * i`, for `i` from 0 to `size`. -/
def orShifted : (size : Nat) → offset + size ≤ data.length → Nat
  | 0, _ => 0
  | i + 1, h => orShifted i (by omega) ||| data[offset + i].toNat <<< (8 * i)

/-- `value = value * 256 + data[offset + i]`, for `i` down to 0, each result rounded. -/
def timesPlus (round : Nat → Nat) : (size : Nat) → offset + size ≤ data.length → Nat → Nat
  | 0, _, value => value
  | i + 1, h, value => timesPlus round i (by omega) (round (round (value * 256) + data[offset + i].toNat))

variable {data offset}

theorem slice_succ {i : Nat} (h : offset + (i + 1) ≤ data.length) :
    slice data offset (i + 1) = slice data offset i ++ [data[offset + i]] := by
  have hi : i < (data.drop offset).length := by
    rw [List.length_drop]
    omega
  rw [slice, List.take_succ_eq_append_getElem hi, List.getElem_drop]
  rfl

theorem slice_length {size : Nat} (h : offset + size ≤ data.length) : (slice data offset size).length = size := by
  rw [slice, List.length_take, List.length_drop]
  omega

theorem orShifted_eq {size : Nat} (h : offset + size ≤ data.length) :
    orShifted data offset size h = value (slice data offset size) := by
  induction size with
  | zero => simp [orShifted, slice, value]
  | succ i ih =>
    have hi : offset + i ≤ data.length := by omega
    have hlt := value_lt (slice data offset i)
    have hpow : 256 ^ i = 2 ^ (8 * i) := by
      rw [pow_mul]
      rfl
    rw [slice_length hi, hpow] at hlt
    rw [orShifted, ih, slice_succ h, value_concat, slice_length hi, hpow, Nat.shiftLeft_eq, Nat.mul_comm, Nat.or_comm,
      ← Nat.two_pow_add_eq_or_of_lt hlt]
    exact Nat.add_comm _ _

theorem timesPlus_eq {r : Nat → Nat} {l : Nat} (hr : ∀ n < l, r n = n) {size : Nat}
    (h : offset + size ≤ data.length) {st : Nat}
    (hlt : st * 256 ^ size + value (slice data offset size) < l) :
    timesPlus data offset r size h st = st * 256 ^ size + value (slice data offset size) := by
  induction size generalizing st with
  | zero => simp [timesPlus, slice, value]
  | succ i ih =>
    have hi : offset + i ≤ data.length := by omega
    have ht : st * 256 ^ (i + 1) + value (slice data offset (i + 1)) =
        (st * 256 + data[offset + i].toNat) * 256 ^ i + value (slice data offset i) := by
      rw [slice_succ h, value_concat, slice_length hi]
      ring
    rw [ht] at hlt ⊢
    have hle : st * 256 + data[offset + i].toNat ≤ (st * 256 + data[offset + i].toNat) * 256 ^ i :=
      Nat.le_mul_of_pos_right _ (Nat.pow_pos (by decide))
    rw [timesPlus, hr (st * 256) (by omega), hr (st * 256 + data[offset + i].toNat) (by omega)]
    exact ih _ hlt

end

/-! ## Doubles -/

/-- The double next to an integer, the one with an even significand if there are two. -/
def roundToDouble (n : Nat) : Nat :=
  let unit := 2 ^ (n.log2 + 1 - 53)
  let significand := n / unit
  let rest := n % unit
  if 2 * rest < unit ∨ 2 * rest = unit ∧ significand % 2 = 0 then significand * unit else (significand + 1) * unit

theorem roundToDouble_of_lt {n : Nat} (h : n < 2 ^ 53) : roundToDouble n = n := by
  have hlog : n.log2 + 1 - 53 = 0 := by
    by_cases hn : n = 0
    · simp [hn]
    · have := (Nat.log2_lt hn).mpr h
      omega
  simp [roundToDouble, hlog, Nat.mod_one]

end TrevRpc.LittleEndian
