import Mathlib.Tactic.SplitIfs
import TrevRpc.Lib.Proto.Wire

/-! # Encoding of the protobuf wire format -/

namespace TrevRpc.Proto

/-! ## Varints -/

def varintFrom : Nat → Nat → List UInt8
  | 0, _ => []
  | rounds + 1, value =>
    if value < 128 then [.ofNat value] else .ofNat (value % 128 + 128) :: varintFrom rounds (value / 128)

/-- The varint of a number of 64 bits. -/
def varintBytes (value : Nat) : List UInt8 := varintFrom 10 value

theorem varint_varintFrom {rounds value : Nat} (h : value < 2 * 128 ^ rounds) (rest : List UInt8) :
    varint (rounds + 1) (varintFrom (rounds + 1) value ++ rest) = some (value, rest) := by
  induction rounds generalizing value with
  | zero =>
    have hb : (UInt8.ofNat value).toNat = value := UInt8.toNat_ofNat_of_lt' (show value < 256 by omega)
    rw [varintFrom, if_pos (by omega)]
    simp only [List.singleton_append, varint, hb, if_true]
    rw [if_pos (by omega)]
  | succ rounds ih =>
    rw [varintFrom]
    split_ifs with hs
    · have hb : (UInt8.ofNat value).toNat = value := UInt8.toNat_ofNat_of_lt' (show value < 256 by omega)
      simp only [List.singleton_append, varint, hb, hs, Nat.add_one_ne_zero, if_false, if_true]
    · have hb : (UInt8.ofNat (value % 128 + 128)).toNat = value % 128 + 128 :=
        UInt8.toNat_ofNat_of_lt' (show value % 128 + 128 < 256 by omega)
      have hbig : ¬ value % 128 + 128 < 128 := by omega
      rw [List.cons_append, varint, ih (by rw [Nat.pow_succ] at h; omega)]
      simp only [hb, hbig, Nat.add_one_ne_zero, if_false]
      rw [Nat.add_sub_cancel, Nat.mod_add_div]

variable {v : Nat}

theorem consumeVarint_varintBytes (h : v < 2 ^ 64) (rest : List UInt8) :
    consumeVarint (varintBytes v ++ rest) = some (v, rest) :=
  varint_varintFrom (by omega) rest

theorem size_div (h : 128 ≤ v) : v.size = (v / 128).size + 7 := by
  have hs : 7 < v.size := Nat.lt_size.mpr h
  apply Nat.le_antisymm
  · rw [Nat.size_le, Nat.pow_add]
    have hlt := Nat.lt_size_self (v / 128)
    omega
  · have hle : (v / 128).size ≤ v.size - 7 := by
      have hlt := Nat.lt_size_self v
      rw [Nat.size_le, Nat.div_lt_iff_lt_mul (by decide), show (128 : Nat) = 2 ^ 7 from rfl, ← Nat.pow_add,
        Nat.sub_add_cancel (Nat.le_of_lt hs)]
      exact hlt
    omega

theorem length_varintFrom {rounds : Nat} (hpos : 0 < v) (h : v < 2 * 128 ^ rounds) :
    (varintFrom (rounds + 1) v).length = (v.size + 6) / 7 := by
  induction rounds generalizing v with
  | zero =>
    obtain rfl : v = 1 := by omega
    rfl
  | succ rounds ih =>
    rw [varintFrom]
    split_ifs with hs
    · have hle : v.size ≤ 7 := Nat.size_le.mpr hs
      have hlt : 0 < v.size := Nat.size_pos.mpr hpos
      rw [List.length_singleton]
      omega
    · rw [List.length_cons, ih (by omega) (by rw [Nat.pow_succ] at h; omega), size_div (show 128 ≤ v by omega)]
      omega

theorem length_varintBytes {value : Nat} (h : value < 2 ^ 64) : (varintBytes value).length = sizeVarint value := by
  rcases Nat.eq_zero_or_pos value with rfl | hpos
  · rfl
  · have hsize : value.size ≤ 64 := Nat.size_le.mpr h
    have hlt : 0 < value.size := Nat.size_pos.mpr hpos
    rw [varintBytes, length_varintFrom hpos (by omega), sizeVarint]
    omega

/-! ## Tags and lengths -/

def tagBytes (num : Nat) (typ : WireType) : List UInt8 := varintBytes (8 * num + typ.toNat)

theorem WireType.toNat_lt (typ : WireType) : typ.toNat < 8 := by cases typ <;> decide

theorem WireType.ofTag_tag (num : Nat) (typ : WireType) : WireType.ofTag (8 * num + typ.toNat) = typ := by
  have hmod : (8 * num + typ.toNat) % 8 = typ.toNat := by
    rw [Nat.mul_add_mod, Nat.mod_eq_of_lt typ.toNat_lt]
  rw [ofTag, hmod]
  cases typ <;> rfl

theorem consumeTag_tagBytes {num : Nat} (typ : WireType) (hpos : 0 < num) (hnum : num ≤ maxValidNumber)
    (rest : List UInt8) : consumeTag (tagBytes num typ ++ rest) = some (num, typ, rest) := by
  have htyp := typ.toNat_lt
  have hmax : maxValidNumber = 2 ^ 29 - 1 := rfl
  have hdiv : (8 * num + typ.toNat) / 8 = num := by omega
  have hv : ¬ (2 ^ 31 - 1 < num ∨ num < 1) := by omega
  simp only [consumeTag, tagBytes, consumeVarint_varintBytes (show 8 * num + typ.toNat < 2 ^ 64 by omega), hdiv, hv,
    if_false, WireType.ofTag_tag]

theorem length_tagBytes {num : Nat} (h : num < 16) (typ : WireType) : (tagBytes num typ).length = sizeTag num := by
  have hall : ∀ num < 16, ∀ typ < 8, (varintBytes (8 * num + typ)).length = sizeTag num := by decide
  exact hall num h typ.toNat typ.toNat_lt

/-- Bytes after their length. -/
def lengthDelimited (data : List UInt8) : List UInt8 := varintBytes data.length ++ data

def sizeBytes (n : Nat) : Nat := sizeVarint n + n

theorem consumeBytes_lengthDelimited {data : List UInt8} (h : data.length < 2 ^ 64) (rest : List UInt8) :
    consumeBytes (lengthDelimited data ++ rest) = some (data, rest) := by
  simp [consumeBytes, lengthDelimited, consumeVarint_varintBytes h]

theorem length_lengthDelimited {data : List UInt8} (h : data.length < 2 ^ 64) :
    (lengthDelimited data).length = sizeBytes data.length := by
  rw [lengthDelimited, List.length_append, length_varintBytes h, sizeBytes]

/-- A field of a number. -/
def varintField (num value : Nat) : List UInt8 := tagBytes num .varint ++ varintBytes value

/-- A field of bytes. -/
def bytesField (num : Nat) (data : List UInt8) : List UInt8 := tagBytes num .bytes ++ lengthDelimited data

def measuredField (num size : Nat) (data : List UInt8) : List UInt8 :=
  tagBytes num .bytes ++ (varintBytes size ++ data)

/-! ## Sizes -/

/-- The bytes have the computed size, if a slice can be so long. -/
def Sized (e : List UInt8) (size : Nat) : Prop := e.length < 2 ^ 63 → e.length = size

namespace Sized

variable {e e' : List UInt8} {size size' : Nat}

theorem nil : Sized [] 0 := fun _ => rfl

theorem append (h : Sized e size) (h' : Sized e' size') : Sized (e ++ e') (size + size') := by
  unfold Sized at *
  rw [List.length_append]
  omega

variable {num : Nat}

theorem varintField {v : Nat} (hnum : num < 16) (h : v < 2 ^ 64) :
    Sized (varintField num v) (sizeTag num + sizeVarint v) := by
  intro _
  rw [Proto.varintField, List.length_append, length_tagBytes hnum, length_varintBytes h]

variable {data : List UInt8}

theorem bytes (h : Sized data size) : Sized (lengthDelimited data) (sizeBytes size) := by
  intro hlt
  have hd : data.length < 2 ^ 63 := by
    rw [lengthDelimited, List.length_append] at hlt
    omega
  rw [length_lengthDelimited (by omega), h hd]

theorem bytesField (hnum : num < 16) (data : List UInt8) :
    Sized (bytesField num data) (sizeTag num + sizeBytes data.length) :=
  .append (fun _ => length_tagBytes hnum .bytes) (.bytes fun _ => rfl)

theorem measured (h : Sized data size) (hlt : data.length < 2 ^ 63) :
    varintBytes size ++ data = lengthDelimited data := by
  rw [lengthDelimited, h hlt]

theorem measuredField (hnum : num < 16) (h : Sized data size) :
    Sized (measuredField num size data) (sizeTag num + sizeBytes size) := by
  intro hlt
  have hd : data.length < 2 ^ 63 := by
    rw [Proto.measuredField, List.length_append, List.length_append] at hlt
    omega
  rw [Proto.measuredField, h.measured hd] at hlt ⊢
  exact Sized.append (fun _ => length_tagBytes hnum .bytes) h.bytes hlt

theorem flatMap {α : Type} {w : α → List UInt8} {size : α → Nat} {xs : List α}
    (h : ∀ x ∈ xs, Sized (w x) (size x)) : Sized (xs.flatMap w) (xs.map size).sum := by
  induction xs with
  | nil => exact nil
  | cons x xs ih =>
    rw [List.flatMap_cons, List.map_cons, List.sum_cons]
    exact (h x List.mem_cons_self).append (ih fun y hy => h y (List.mem_cons_of_mem _ hy))

end Sized

/-! ## Loops over what is encoded -/

section Loops

variable {ε σ : Type} [Inhabited ε] {next : σ → List UInt8 → Except ε (σ × List UInt8)} {s s' : σ} {b rest : List UInt8}

theorem consumeAllFrom_mono {fuel more : Nat} (h : consumeAllFrom next fuel s b = .ok s') (hle : fuel ≤ more) :
    consumeAllFrom next more s b = .ok s' := by
  induction fuel generalizing s b more with
  | zero =>
    unfold consumeAllFrom at h
    split_ifs at h with hb
    cases more <;> simp only [consumeAllFrom, hb, if_true, h]
  | succ fuel ih =>
    obtain ⟨more, rfl⟩ := Nat.exists_eq_add_one_of_ne_zero (show more ≠ 0 by omega)
    unfold consumeAllFrom at h ⊢
    split_ifs at h ⊢ with hb
    · exact h
    · cases hr : next s b with
      | error e =>
        rw [hr] at h
        cases h
      | ok result =>
        rw [hr] at h
        exact ih h (by omega)

theorem consumeAll_cons {t : σ} (hlt : rest.length < b.length) (hr : next s b = .ok (t, rest))
    (h : consumeAll next t rest = .ok s') : consumeAll next s b = .ok s' := by
  obtain ⟨fuel, hf⟩ := Nat.exists_eq_add_one_of_ne_zero (show b.length ≠ 0 by omega)
  have hne : b.isEmpty = false := List.isEmpty_eq_false_iff.mpr (List.ne_nil_of_length_pos (by omega))
  rw [consumeAll, hf, consumeAllFrom, hne, if_neg Bool.false_ne_true, hr]
  exact consumeAllFrom_mono h (by omega)

end Loops

end TrevRpc.Proto
