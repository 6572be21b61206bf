import TrevRpc.Lib.Proto.Wire
import TrevRpc.Rust.Preflight

/-! # What the preflight accepts -/

namespace TrevRpc.Rust

open Proto (consumeVarint varint)

/-! ## The grammar -/

/-- A value by its wire type. A group is its fields and the tag that closes it. -/
inductive Value : Nat → Nat → Bytes → Bytes → Prop
  | varint {f v : Nat} {b rest : Bytes} : consumeVarint b = some (v, rest) → Value f 0 b rest
  | fixed64 {f : Nat} {d rest : Bytes} : d.length = 8 → Value f 1 (d ++ rest) rest
  | bytes {f : Nat} {b d rest : Bytes} : consumeVarint b = some (d.length, d ++ rest) → Value f 2 b rest
  | fixed32 {f : Nat} {d rest : Bytes} : d.length = 4 → Value f 5 (d ++ rest) rest
  | close {f : Nat} {b rest : Bytes} : consumeVarint b = some (8 * f + 4, rest) → Value f 3 b rest
  | field {f tag : Nat} {b v more rest : Bytes} : consumeVarint b = some (tag, v) → tag ≠ 0 →
      Value (tag / 8) (tag % 8) v more → Value f 3 more rest → Value f 3 b rest

structure Tag (fields : WireFields) (tag : Nat) (b rest : Bytes) : Prop where
  read : consumeVarint b = some (tag, rest)
  ne_zero : tag ≠ 0
  known : ∀ known ∈ fields.find? (·.1 = tag / 8), known.2 = tag % 8

inductive Message : WireFields → List (Nat × WireFields) → Bytes → Prop
  | nil {fields : WireFields} {nested : List (Nat × WireFields)} : Message fields nested []
  | field {fields : WireFields} {nested : List (Nat × WireFields)} {tag : Nat} {b v rest : Bytes} :
      Tag fields tag b v → nested.find? (·.1 = tag / 8) = none → Value (tag / 8) (tag % 8) v rest →
      Message fields nested rest → Message fields nested b
  | nested {fields inner : WireFields} {nested : List (Nat × WireFields)} {tag n : Nat} {b v d rest : Bytes} :
      Tag fields tag b v → nested.find? (·.1 = tag / 8) = some (n, inner) →
      consumeVarint v = some (d.length, d ++ rest) → Message inner [] d →
      Message fields nested rest → Message fields nested b

/-- The wire types of known fields, nested ones too. Field 6 of a request is packed or not. -/
def WellFormed : WireMessage → Bytes → Prop
  | .rpcRequest => Message [(1, 2), (2, 2), (3, 0), (4, 0), (5, 0), (7, 2), (8, 0)]
      [(2, metadataEntry), (7, dictionaryInfo)]
  | .rpcHeaders => Message [(1, 2)] [(1, metadataEntry)]
  | .rpcAnswer => Message [(1, 2), (2, 0), (3, 0)] [(1, dictionaryInfo)]
  | .rpcStatus => Message [(1, 0), (2, 2), (3, 2)] [(3, metadataEntry)]
  | .other => fun _ => True

/-! ## Offsets -/

def position (data b : Bytes) : Nat := data.length - b.length

variable {data b rest : Bytes}

theorem getElem?_position (h : b <:+ data) : data[position data b]? = b.head? := by
  obtain ⟨front, rfl⟩ := h
  simp [position, List.getElem?_append_right, List.head?_eq_getElem?]

theorem position_tail {byte : UInt8} (h : byte :: b <:+ data) : position data b = position data (byte :: b) + 1 := by
  have hlen := h.length_le
  simp only [position, List.length_cons] at hlen ⊢
  omega

theorem drop_position (h : b <:+ data) : data.drop (position data b) = b :=
  (List.suffix_iff_eq_drop.mp h).symm

/-! ## Varints -/

theorem varint_suffix {rounds v : Nat} (h : varint rounds b = some (v, rest)) :
    rest <:+ b ∧ rest.length < b.length := by
  induction rounds generalizing b v with
  | zero => cases h
  | succ rounds ih =>
    cases b with
    | nil => cases h
    | cons byte b =>
      unfold varint at h
      split_ifs at h
      · cases h
        simp
      · cases h
        simp
      · cases hr : varint rounds b with
        | none => simp [hr] at h
        | some r =>
          obtain ⟨v', rest'⟩ := r
          simp only [hr] at h
          cases h
          obtain ⟨hs, hl⟩ := ih hr
          exact ⟨hs.trans (List.suffix_cons byte b), by simp; omega⟩

theorem or_shiftLeft {value byte low i : Nat} (hb : byte < 128) :
    (value ||| byte <<< (7 * i)) ||| low <<< (7 * (i + 1)) = value ||| (byte + 128 * low) <<< (7 * i) := by
  have hadd : byte + 128 * low = byte ||| low <<< 7 := by
    rw [Nat.or_comm, ← Nat.shiftLeft_add_eq_or_of_lt (show byte < 2 ^ 7 from hb), Nat.shiftLeft_eq]
    omega
  rw [hadd, Nat.shiftLeft_or_distrib, ← Nat.shiftLeft_add, Nat.or_assoc, Nat.add_comm 7, Nat.mul_succ]

theorem consumeU64VarintFrom_toOption {rounds i w : Nat} (hi : i + rounds = 10) (h : b <:+ data) :
    (consumeU64VarintFrom data rounds i w (position data b)).toOption =
      (varint rounds b).map fun r => (w ||| r.1 <<< (7 * i), position data r.2) := by
  induction rounds generalizing b i w with
  | zero => rfl
  | succ rounds ih =>
    unfold consumeU64VarintFrom
    rw [getElem?_position h]
    cases b with
    | nil => rfl
    | cons byte b =>
      have hrest := ih (b := b) (i := i + 1) (w := w ||| (byte.toNat % 128) <<< (7 * i)) (by omega)
        ((List.suffix_cons byte b).trans h)
      simp only [List.head?_cons, varint, ← position_tail h]
      by_cases hs : byte.toNat < 128
      · have hm : byte.toNat % 128 = byte.toNat := Nat.mod_eq_of_lt hs
        by_cases h9 : rounds = 0
        · by_cases h2 : byte.toNat < 2
          · simp [h9, h2, hs, hm, Except.toOption, show ¬ 1 < byte.toNat by omega]
          · simp [h9, h2, Except.toOption, show i = 9 by omega, show 1 < byte.toNat by omega]
        · simp [h9, hs, hm, Except.toOption, show i ≠ 9 by omega]
      · by_cases h9 : rounds = 0
        · simp [h9, Except.toOption, show i = 9 by omega, show 1 < byte.toNat by omega,
            show ¬ byte.toNat < 2 by omega]
        · have hlow : byte.toNat % 128 = byte.toNat - 128 := by
            have := byte.toNat_lt
            omega
          rw [if_neg (by omega), if_neg hs, if_neg h9, if_neg hs, hrest]
          cases varint rounds b with
          | none => rfl
          | some r =>
            rw [Option.map_some, or_shiftLeft (Nat.mod_lt _ (by decide)), hlow]
            rfl

theorem consumeProtoVarint_iff (h : b <:+ data) {v next : Nat} :
    consumeProtoVarint data (position data b) = .ok (v, next) ↔
      ∃ rest, consumeVarint b = some (v, rest) ∧ next = position data rest := by
  have hr := consumeU64VarintFrom_toOption (w := 0) (Nat.zero_add 10) h
  unfold consumeProtoVarint consumeU64Varint consumeVarint
  cases hc : consumeU64VarintFrom data 10 0 0 (position data b) with
  | ok r =>
    rw [hc] at hr
    obtain ⟨⟨w, rest⟩, hw, heq⟩ := Option.map_eq_some_iff.mp hr.symm
    simp [hw, ← heq, eq_comm]
  | error e =>
    rw [hc] at hr
    rw [Option.map_eq_none_iff.mp hr.symm]
    cases e <;> simp

theorem consumeProtoVarint_of_none (h : b <:+ data) (hv : consumeVarint b = none) :
    ∃ e, consumeProtoVarint data (position data b) = .error e := by
  cases hr : consumeProtoVarint data (position data b) with
  | error e => exact ⟨e, rfl⟩
  | ok r =>
    obtain ⟨_, hs, -⟩ := (consumeProtoVarint_iff h).mp hr
    cases hv.symm.trans hs

/-! ## Values -/

theorem consumeProtoBytes_iff (hlen : data.length < 2 ^ 64) (h : b <:+ data) {entry : Bytes} {next : Nat} :
    consumeProtoBytes data (position data b) = .ok (entry, next) ↔
      ∃ rest, consumeVarint b = some (entry.length, entry ++ rest) ∧ next = position data rest := by
  unfold consumeProtoBytes
  cases hv : consumeVarint b with
  | none =>
    obtain ⟨e, he⟩ := consumeProtoVarint_of_none h hv
    simp [he]
  | some r =>
    obtain ⟨len, rest⟩ := r
    have hs := (varint_suffix hv).1.trans h
    have hle := hs.length_le
    rw [(consumeProtoVarint_iff h).mpr ⟨rest, hv, rfl⟩]
    simp only [drop_position hs]
    unfold position
    constructor
    · intro hok
      split_ifs at hok
      obtain ⟨rfl, rfl⟩ := Prod.mk.inj (Except.ok.inj hok)
      refine ⟨rest.drop len, ?_, ?_⟩
      · rw [List.take_append_drop, List.length_take, Nat.min_eq_left (by omega)]
      · rw [List.length_drop]
        omega
    · rintro ⟨after, heq, rfl⟩
      cases heq
      rw [List.length_append] at hle ⊢
      rw [if_neg (by omega), if_neg (by omega), List.take_left]
      congr 2
      omega

theorem skipProtoFixed_iff (hlen : data.length < 2 ^ 64) (h : b <:+ data) {len next : Nat} :
    skipProtoFixed data (position data b) len = .ok next ↔
      ∃ d rest, b = d ++ rest ∧ d.length = len ∧ next = position data rest := by
  have hle := h.length_le
  unfold skipProtoFixed position
  constructor
  · intro hok
    split_ifs at hok
    refine ⟨b.take len, b.drop len, (List.take_append_drop len b).symm, ?_, ?_⟩
    · rw [List.length_take]
      omega
    · rw [List.length_drop, ← Except.ok.inj hok]
      omega
  · rintro ⟨d, rest, rfl, rfl, rfl⟩
    rw [List.length_append] at hle ⊢
    rw [if_neg (by omega), if_neg (by omega)]
    congr 1
    omega

theorem value_suffix {f wireType : Nat} (h : Value f wireType b rest) : rest <:+ b := by
  induction h with
  | varint hv | close hv => exact (varint_suffix hv).1
  | fixed64 | fixed32 => exact List.suffix_append _ _
  | bytes hv => exact ( List.suffix_append _ _).trans (varint_suffix hv).1
  | field hv _ _ _ ih ih' => exact (ih'.trans ih).trans (varint_suffix hv).1

theorem not_value_endGroup {f : Nat} : ¬ Value f 4 b rest := by
  rintro ⟨⟩

theorem value_group_iff {f tag : Nat} {v : Bytes} (hv : consumeVarint b = some (tag, v)) :
    Value f 3 b rest ↔
      tag % 8 = 4 ∧ tag / 8 = f ∧ rest = v ∨
      tag ≠ 0 ∧ ∃ more, Value (tag / 8) (tag % 8) v more ∧ Value f 3 more rest := by
  grind [cases Value, Value]

theorem skip_iff (hlen : data.length < 2 ^ 64) (fuel : Nat) :
    (∀ {b : Bytes} {f wireType next : Nat}, b <:+ data → 2 * b.length + 2 ≤ fuel →
      ((skipProtoValue data fuel (position data b) f wireType).result = .ok next ↔
        ∃ rest, Value f wireType b rest ∧ next = position data rest)) ∧
    ∀ {b : Bytes} {f next : Nat}, b <:+ data → 2 * b.length + 1 ≤ fuel →
      ((skipGroup data fuel (position data b) f).result = .ok next ↔
        ∃ rest, Value f 3 b rest ∧ next = position data rest) := by
  induction fuel with
  | zero => exact ⟨fun _ h => by omega, fun _ h => by omega⟩
  | succ fuel ih =>
    obtain ⟨ihv, ihg⟩ := ih
    constructor
    · intro b f wireType next h hf
      unfold skipProtoValue
      split
      · simp only [except_map_eq_ok, Prod.exists, consumeProtoVarint_iff h]
        grind [cases Value, Value]
      · rw [skipProtoFixed_iff hlen h]
        grind [cases Value, Value]
      · simp only [except_map_eq_ok, Prod.exists, consumeProtoBytes_iff hlen h]
        grind [cases Value, Value]
      · exact ihg h (by omega)
      · grind [cases Value]
      · rw [skipProtoFixed_iff hlen h]
        grind [cases Value, Value]
      · grind [cases Value]
    · intro b f next h hf
      unfold skipGroup
      cases hv : consumeVarint b with
      | none =>
        obtain ⟨e, he⟩ := consumeProtoVarint_of_none h hv
        rw [he]
        refine iff_of_false (fun hok => by cases hok) ?_
        rintro ⟨rest, hval, -⟩
        cases hval <;> simp_all
      | some r =>
        obtain ⟨tag, v⟩ := r
        obtain ⟨hs, hl⟩ := varint_suffix hv
        simp only [(consumeProtoVarint_iff h).mpr ⟨v, hv, rfl⟩, value_group_iff hv]
        have hsub := hs.trans h
        split_ifs with h0 h4 hne
        · simp [h0]
        · simp [h4, hne, not_value_endGroup]
        · simp [h4, not_not.mp hne, not_value_endGroup, eq_comm]
        · constructor
          · intro hok
            cases hr : (skipProtoValue data fuel (position data v) (tag / 8) (tag % 8)).result with
            | error e =>
              simp only [hr] at hok
              cases hok
            | ok mid =>
              simp only [hr] at hok
              obtain ⟨more, hval, rfl⟩ := (ihv hsub (by omega)).mp hr
              have hmore := value_suffix hval
              have hlm := hmore.length_le
              obtain ⟨rest, hrest, rfl⟩ := (ihg (hmore.trans hsub) (by omega)).mp hok
              exact ⟨rest, .inr ⟨h0, more, hval, hrest⟩, rfl⟩
          · rintro ⟨rest, ⟨h4', -⟩ | ⟨-, more, hval, hrest⟩, rfl⟩
            · exact absurd h4' h4
            · have hmore := value_suffix hval
              have hlm := hmore.length_le
              simp only [(ihv hsub (by omega)).mpr ⟨more, hval, rfl⟩]
              exact (ihg (hmore.trans hsub) (by omega)).mpr ⟨rest, hrest, rfl⟩

/-! ## Messages -/

def FieldValue (nested : List (Nat × WireFields)) (tag : Nat) (b rest : Bytes) : Prop :=
  match nested.find? (·.1 = tag / 8) with
  | none => Value (tag / 8) (tag % 8) b rest
  | some f => ∃ d, consumeVarint b = some (d.length, d ++ rest) ∧ Message f.2 [] d

variable {fields : WireFields} {n : List (Nat × WireFields)} {tag next : Nat} {v : Bytes}

theorem fieldValue_suffix (h : FieldValue n tag b rest) : rest <:+ b := by
  unfold FieldValue at h
  split at h
  · exact value_suffix h
  · obtain ⟨d, hd, -⟩ := h
    exact (List.suffix_append d rest).trans (varint_suffix hd).1

theorem known_iff {f wireType : Nat} :
    ¬ (fields.find? (·.1 = f)).any (·.2 ≠ wireType) ↔ ∀ known ∈ fields.find? (·.1 = f), known.2 = wireType := by
  cases fields.find? (·.1 = f) <;> simp

theorem message_iff (hv : consumeVarint b = some (tag, v)) :
    Message fields n b ↔ (tag ≠ 0 ∧ ∀ known ∈ fields.find? (·.1 = tag / 8), known.2 = tag % 8) ∧
      ∃ rest, FieldValue n tag v rest ∧ Message fields n rest := by
  constructor
  · intro h
    cases h with
    | nil => cases hv
    | field ht hn hval hrest =>
      cases hv.symm.trans ht.read
      exact ⟨⟨ht.ne_zero, ht.known⟩, _, by simpa only [FieldValue, hn] using hval, hrest⟩
    | nested ht hn hd hin hrest =>
      cases hv.symm.trans ht.read
      exact ⟨⟨ht.ne_zero, ht.known⟩, _, by simpa only [FieldValue, hn] using ⟨_, hd, hin⟩, hrest⟩
  · rintro ⟨⟨h0, hk⟩, rest, hf, hrest⟩
    unfold FieldValue at hf
    split at hf
    · rename_i hn
      exact .field ⟨hv, h0, hk⟩ hn hf hrest
    · rename_i hn
      obtain ⟨d, hd, hin⟩ := hf
      exact .nested ⟨hv, h0, hk⟩ hn hd hin hrest

theorem preflightField_iff {p : Bytes → WireFields → Skip} (hlen : data.length < 2 ^ 64) (h : b <:+ data)
    (hp : ∀ d fields, d.length < b.length → ((∃ m, (p d fields).result = .ok m) ↔ Message fields [] d)) :
    (preflightField p data (position data b) tag n).result = .ok next ↔
      ∃ rest, FieldValue n tag b rest ∧ next = position data rest := by
  unfold preflightField FieldValue
  cases n.find? (·.1 = tag / 8) with
  | none =>
    refine (skip_iff hlen _).1 h ?_
    have := h.length_le
    unfold skipFuel position
    omega
  | some f =>
    have hshort {d rest : Bytes} (hd : consumeVarint b = some (d.length, d ++ rest)) : d.length < b.length := by
      have hl := (varint_suffix hd).2
      rw [List.length_append] at hl
      omega
    constructor
    · intro hok
      cases hb : consumeProtoBytes data (position data b) with
      | error e => simp [hb] at hok
      | ok r =>
        simp only [hb] at hok
        obtain ⟨m, hm, rfl⟩ := except_map_eq_ok.mp hok
        obtain ⟨rest, hd, hnext⟩ := (consumeProtoBytes_iff hlen h).mp hb
        exact ⟨rest, ⟨r.1, hd, (hp _ _ (hshort hd)).mp ⟨m, hm⟩⟩, hnext⟩
    · rintro ⟨rest, ⟨d, hd, hin⟩, rfl⟩
      obtain ⟨m, hm⟩ := (hp _ _ (hshort hd)).mpr hin
      simp only [(consumeProtoBytes_iff hlen h).mpr ⟨rest, hd, rfl⟩, hm]
      rfl

theorem preflightWireMessage_iff {fuel : Nat} (hlen : data.length < 2 ^ 64) (h : b <:+ data)
    (hf : b.length ≤ fuel) :
    (∃ m, (preflightWireMessage fuel data (position data b) fields n).result = .ok m) ↔ Message fields n b := by
  induction fuel generalizing data b fields n with
  | zero =>
    obtain rfl := List.length_eq_zero_iff.mp (Nat.le_zero.mp hf)
    simp [preflightWireMessage, position, Message.nil]
  | succ fuel ih =>
    have hle := h.length_le
    unfold preflightWireMessage
    by_cases hb : b = []
    · simp [hb, position, Message.nil]
    have hpos := List.length_pos_of_ne_nil hb
    rw [if_pos (by unfold position; omega)]
    cases hv : consumeVarint b with
    | none =>
      obtain ⟨e, he⟩ := consumeProtoVarint_of_none h hv
      rw [he]
      refine iff_of_false (by simp) fun hm => ?_
      cases hm with
      | nil => exact hb rfl
      | field ht | nested ht => cases hv.symm.trans ht.read
    | some r =>
      obtain ⟨tag, v⟩ := r
      obtain ⟨hs, hl⟩ := varint_suffix hv
      have hsub := hs.trans h
      rw [(consumeProtoVarint_iff h).mpr ⟨v, hv, rfl⟩, message_iff hv]
      simp only
      split_ifs with h0 hk
      · simp [h0]
      · refine iff_of_false (by simp) fun hm => ?_
        exact known_iff.mpr hm.1.2 hk
      · have hin (d : Bytes) (inner : WireFields) (hd : d.length < v.length) :
            (∃ m, (preflightWireMessage fuel d 0 inner []).result = .ok m) ↔ Message inner [] d := by
          have hm := @ih d d inner [] (by omega) (List.suffix_refl d) (by omega)
          rwa [position, Nat.sub_self] at hm
        have hfield (m : Nat) := @preflightField_iff _ _ n tag m _ hlen hsub hin
        generalize preflightField _ data (position data v) tag n = value at hfield ⊢
        constructor
        · rintro ⟨m, hm⟩
          cases hr : value.result with
          | error e =>
            simp only [hr] at hm
            cases hm
          | ok next =>
            simp only [hr] at hm
            obtain ⟨rest, hval, rfl⟩ := (hfield _).mp hr
            have hrest := fieldValue_suffix hval
            have hlr := hrest.length_le
            exact ⟨⟨h0, known_iff.mp hk⟩, rest, hval, (ih hlen (hrest.trans hsub) (by omega)).mp ⟨m, hm⟩⟩
        · rintro ⟨-, rest, hval, hm⟩
          have hrest := fieldValue_suffix hval
          have hlr := hrest.length_le
          simp only [(hfield _).mpr ⟨rest, hval, rfl⟩]
          exact (ih hlen (hrest.trans hsub) (by omega)).mpr hm

/-- Payloads that `usize` counts pass exactly if they are of the grammar. -/
theorem preflight_accepts_iff (message : WireMessage) (body : Bytes) (h : body.length < 2 ^ 64) :
    (∃ offset, (preflightKnownWire message body).result = .ok offset) ↔ WellFormed message body := by
  have hiff (fields n) := @preflightWireMessage_iff body body fields n _ h (List.suffix_refl body) le_rfl
  simp only [position, Nat.sub_self] at hiff
  cases message with
  | other => simp [preflightKnownWire, WellFormed]
  | _ => exact hiff ..

theorem preflight_accepts_nested : WellFormed .rpcHeaders [0x0a, 0x02, 0x0a, 0x00] :=
  (preflight_accepts_iff .rpcHeaders [0x0a, 0x02, 0x0a, 0x00] (by decide)).mp ⟨4, by decide +kernel⟩

/-- A field number may be zero, and the packed field may have any wire type. -/
theorem preflight_accepts_malformed :
    Proto.consumeTag [0x02, 0x00] = none ∧ (preflightKnownWire .rpcHeaders [0x02, 0x00]).result = .ok 2 ∧
      (preflightKnownWire .rpcRequest [0x35, 0x00, 0x00, 0x00, 0x00]).result = .ok 5 :=
  by decide +kernel

end TrevRpc.Rust
