import Mathlib.Algebra.Order.Ring.Nat
import Mathlib.Data.Nat.Size

/-! # The protobuf wire format -/

namespace TrevRpc.Proto

/-! ## Loops -/

section Loops

variable {ε σ τ : Type}

/-- `none` as an error. -/
def need {α : Type} (e : ε) : Option α → Except ε α
  | none => .error e
  | some a => .ok a

@[simp] theorem need_some {α : Type} (e : ε) (a : α) : need e (some a) = .ok a := rfl

theorem need_eq_ok {α : Type} {e : ε} {o : Option α} {a : α} : need e o = .ok a ↔ o = some a := by
  cases o <;> simp [need]

@[simp] theorem ok_bind {α β : Type} (a : α) (f : α → Except ε β) : (Except.ok a >>= f) = f a := rfl

variable [Inhabited ε]

/-- Runs `next` until no bytes are left. A round takes a byte or more. -/
def consumeAllFrom (next : σ → List UInt8 → Except ε (σ × List UInt8)) : Nat → σ → List UInt8 → Except ε σ
  | 0, s, b => if b.isEmpty then .ok s else .error default
  | fuel + 1, s, b =>
    if b.isEmpty then .ok s
    else
      match next s b with
      | .error e => .error e
      | .ok (s, b) => consumeAllFrom next fuel s b

def consumeAll (next : σ → List UInt8 → Except ε (σ × List UInt8)) (s : σ) (b : List UInt8) : Except ε σ :=
  consumeAllFrom next b.length s b

theorem consumeAll_follows {ε' : Type} [Inhabited ε'] {R : σ → τ → Prop}
    {next : σ → List UInt8 → Except ε (σ × List UInt8)} {next' : τ → List UInt8 → Except ε' (τ × List UInt8)}
    (hn : ∀ s t b s' rest, R s t → next s b = .ok (s', rest) → ∃ t', next' t b = .ok (t', rest) ∧ R s' t')
    {s s' : σ} {t : τ} {b : List UInt8} (hR : R s t) (h : consumeAll next s b = .ok s') :
    ∃ t', consumeAll next' t b = .ok t' ∧ R s' t' := by
  unfold consumeAll at h ⊢
  generalize b.length = fuel at h ⊢
  induction fuel generalizing s t b with
  | zero =>
    unfold consumeAllFrom at h ⊢
    by_cases hb : b.isEmpty = true
    · rw [if_pos hb] at h ⊢
      exact ⟨t, rfl, Except.ok.inj h ▸ hR⟩
    · rw [if_neg hb] at h
      cases h
  | succ fuel ih =>
    unfold consumeAllFrom at h ⊢
    by_cases hb : b.isEmpty = true
    · rw [if_pos hb] at h ⊢
      exact ⟨t, rfl, Except.ok.inj h ▸ hR⟩
    · rw [if_neg hb] at h ⊢
      cases hr : next s b with
      | error e =>
        rw [hr] at h
        cases h
      | ok r =>
        obtain ⟨s₁, rest⟩ := r
        obtain ⟨t₁, hr', hR₁⟩ := hn s t b s₁ rest hR hr
        rw [hr] at h
        rw [hr']
        exact ih hR₁ h

end Loops

/-! ## Varints, tags and lengths -/

/-- A varint of at most so many bytes. The tenth has one bit. -/
def varint : Nat → List UInt8 → Option (Nat × List UInt8)
  | 0, _ => none
  | _ + 1, [] => none
  | rounds + 1, byte :: rest =>
    if rounds = 0 then if byte.toNat < 2 then some (byte.toNat, rest) else none
    else if byte.toNat < 128 then some (byte.toNat, rest)
    else
      match varint rounds rest with
      | none => none
      | some (value, rest) => some (byte.toNat - 128 + 128 * value, rest)

def consumeVarint (b : List UInt8) : Option (Nat × List UInt8) := varint 10 b

inductive WireType
  | varint
  | fixed64
  | bytes
  | startGroup
  | endGroup
  | fixed32
  | reserved6
  | reserved7
  deriving DecidableEq

namespace WireType

def toNat : WireType → Nat
  | varint => 0
  | fixed64 => 1
  | bytes => 2
  | startGroup => 3
  | endGroup => 4
  | fixed32 => 5
  | reserved6 => 6
  | reserved7 => 7

def ofTag (tag : Nat) : WireType :=
  match tag % 8 with
  | 0 => varint
  | 1 => fixed64
  | 2 => bytes
  | 3 => startGroup
  | 4 => endGroup
  | 5 => fixed32
  | 6 => reserved6
  | _ => reserved7

end WireType

def maxValidNumber : Nat := 2 ^ 29 - 1

/-- A field number, of 31 bits even where that is not valid, and a wire type. -/
def consumeTag (b : List UInt8) : Option (Nat × WireType × List UInt8) :=
  match consumeVarint b with
  | none => none
  | some (tag, rest) =>
    if 2 ^ 31 - 1 < tag / 8 ∨ tag / 8 < 1 then none else some (tag / 8, .ofTag tag, rest)

def sizeVarint (value : Nat) : Nat := (9 * value.size + 64) / 64

def sizeTag (num : Nat) : Nat := sizeVarint (8 * num)

def consumeBytes (b : List UInt8) : Option (List UInt8 × List UInt8) :=
  match consumeVarint b with
  | none => none
  | some (len, rest) => if len ≤ rest.length then some (rest.take len, rest.drop len) else none

def consumeFixed (size : Nat) (b : List UInt8) : Option (List UInt8) :=
  if b.length < size then none else some (b.drop size)

/-! ## Values of any type -/

/-- What follows the value of a field. -/
def skipValue (group : Nat → List UInt8 → Option (List UInt8)) (num : Nat) (typ : WireType) (b : List UInt8) :
    Option (List UInt8) :=
  match typ with
  | .varint => (consumeVarint b).map (·.2)
  | .fixed32 => consumeFixed 4 b
  | .fixed64 => consumeFixed 8 b
  | .bytes => (consumeBytes b).map (·.2)
  | .startGroup => group num b
  | .endGroup | .reserved6 | .reserved7 => none

/-- What follows a field's group of so many more levels. A round takes a byte or more. -/
def skipGroup : Nat → Nat → Nat → List UInt8 → Option (List UInt8)
  | 0, _, _, _ => none
  | _ + 1, 0, _, _ => none
  | fuel + 1, levels + 1, num, b =>
    match consumeTag b with
    | none => none
    | some (inner, typ, b) =>
      if typ = .endGroup then if num ≠ inner then none else some b
      else
        match skipValue (skipGroup fuel levels) inner typ b with
        | none => none
        | some b => skipGroup fuel (levels + 1) num b

def recursionLimit : Nat := 10000

def consumeFieldValue (num : Nat) (typ : WireType) (b : List UInt8) : Option (List UInt8) :=
  skipValue (skipGroup (b.length + 1) (recursionLimit + 1)) num typ b

/-! ## Fields -/

section Fields

variable {ε σ τ : Type} [Inhabited ε]

/-- Gives every field to `field`, which reads its value. -/
def eachField (badTag : ε) (field : σ → Nat → WireType → List UInt8 → Except ε (σ × List UInt8)) (s : σ)
    (b : List UInt8) : Except ε σ :=
  consumeAll (fun s b =>
    match consumeTag b with
    | none => .error badTag
    | some (num, typ, b) => field s num typ b) s b

theorem eachField_follows {ε' : Type} [Inhabited ε'] {badTag : ε} {badTag' : ε'} {R : σ → τ → Prop}
    {f : σ → Nat → WireType → List UInt8 → Except ε (σ × List UInt8)}
    {f' : τ → Nat → WireType → List UInt8 → Except ε' (τ × List UInt8)}
    (hf : ∀ s t num typ b s' rest, R s t → f s num typ b = .ok (s', rest) →
      ∃ t', f' t num typ b = .ok (t', rest) ∧ R s' t')
    {s s' : σ} {t : τ} {b : List UInt8} (hR : R s t) (h : eachField badTag f s b = .ok s') :
    ∃ t', eachField badTag' f' t b = .ok t' ∧ R s' t' := by
  refine consumeAll_follows (fun s t b s' rest hR h => ?_) hR h
  cases htag : consumeTag b with
  | none =>
    rw [htag] at h
    cases h
  | some tag =>
    obtain ⟨num, typ, b⟩ := tag
    rw [htag] at h
    exact hf s t num typ b s' rest hR h

end Fields

end TrevRpc.Proto
