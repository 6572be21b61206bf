import TrevRpc.Rust.Framing

/-!
# The preflight of protobuf payloads (`framing.rs`)

Every function reads `data` from an offset on and returns the offset after what it read.
-/

namespace TrevRpc.Rust

/-! ## The code -/

def malformedProtobuf (message : String) : Error := .status { code := .invalidArgument, message }

inductive VarintDecodeError
  | truncated
  | overflow
  deriving DecidableEq

/-- The rounds of `consume_u64_varint` that are left, from `index` on. -/
def consumeU64VarintFrom (data : Bytes) : Nat → Nat → Nat → Nat → Except VarintDecodeError (Nat × Nat)
  | 0, _, _, _ => .error .overflow
  | rounds + 1, index, value, offset =>
    match data[offset]? with
    | none => .error .truncated
    | some byte =>
      if index = 9 ∧ 1 < byte.toNat then .error .overflow
      else
        let value := value ||| (byte.toNat % 0x80) <<< (7 * index)
        if byte.toNat < 0x80 then .ok (value, offset + 1)
        else consumeU64VarintFrom data rounds (index + 1) value (offset + 1)

def consumeU64Varint (data : Bytes) (offset : Nat) : Except VarintDecodeError (Nat × Nat) :=
  consumeU64VarintFrom data 10 0 0 offset

def consumeProtoVarint (data : Bytes) (offset : Nat) : Except Error (Nat × Nat) :=
  match consumeU64Varint data offset with
  | .ok read => .ok read
  | .error .truncated => .error (malformedProtobuf "truncated protobuf varint")
  | .error .overflow => .error (malformedProtobuf "protobuf varint exceeded 64 bits")

/-- The bytes of a length-delimited field. A `usize` has 64 bits. -/
def consumeProtoBytes (data : Bytes) (offset : Nat) : Except Error (Bytes × Nat) :=
  match consumeProtoVarint data offset with
  | .error e => .error e
  | .ok (len, start) =>
    if 2 ^ 64 ≤ start + len then .error (malformedProtobuf "protobuf field length overflowed")
    else if data.length < start + len then .error (malformedProtobuf "truncated protobuf field")
    else .ok ((data.drop start).take len, start + len)

def skipProtoFixed (data : Bytes) (offset len : Nat) : Except Error Nat :=
  if 2 ^ 64 ≤ offset + len then .error (malformedProtobuf "protobuf fixed field length overflowed")
  else if data.length < offset + len then .error (malformedProtobuf "truncated protobuf fixed field")
  else .ok (offset + len)

/-- The nesting of a call, in start-group tags, and the offset it has reached. -/
structure Skip where
  depth : Nat := 0
  result : Except Error Nat

mutual

/-- `skip_proto_value`. Each call and round takes a byte or more, so `skipFuel` is enough. -/
def skipProtoValue (data : Bytes) : Nat → Nat → Nat → Nat → Skip
  | 0, _, _, _ => { result := .error .decode }
  | fuel + 1, offset, field, wireType =>
    match wireType with
    | 0 => { result := (consumeProtoVarint data offset).map (·.2) }
    | 1 => { result := skipProtoFixed data offset 8 }
    | 2 => { result := (consumeProtoBytes data offset).map (·.2) }
    | 3 =>
      let group := skipGroup data fuel offset field
      { group with depth := group.depth + 1 }
    | 4 => { result := .error (malformedProtobuf "unexpected protobuf end group") }
    | 5 => { result := skipProtoFixed data offset 4 }
    | _ => { result := .error (malformedProtobuf "unsupported protobuf wire type") }

def skipGroup (data : Bytes) : Nat → Nat → Nat → Skip
  | 0, _, _ => { result := .error .decode }
  | fuel + 1, offset, field =>
    match consumeProtoVarint data offset with
    | .error e => { result := .error e }
    | .ok (tag, offset) =>
      if tag = 0 then { result := .error (malformedProtobuf "invalid protobuf group tag") }
      else if tag % 8 = 4 then
        if tag / 8 ≠ field then { result := .error (malformedProtobuf "mismatched protobuf end group") }
        else { result := .ok offset }
      else
        let value := skipProtoValue data fuel offset (tag / 8) (tag % 8)
        match value.result with
        | .error _ => value
        | .ok offset =>
          let group := skipGroup data fuel offset field
          { group with depth := max value.depth group.depth }

end

def skipFuel (data : Bytes) (offset : Nat) : Nat := 2 * (data.length - offset) + 2

abbrev WireFields := List (Nat × Nat)

def metadataEntry : WireFields := [(1, 2), (2, 2)]

def dictionaryInfo : WireFields := [(1, 0), (2, 2)]

/-- A nested message is given to `preflight`, anything else is skipped. -/
def preflightField (preflight : Bytes → WireFields → Skip) (data : Bytes) (offset tag : Nat)
    (nested : List (Nat × WireFields)) : Skip :=
  match nested.find? (·.1 = tag / 8) with
  | some (_, nestedFields) =>
    match consumeProtoBytes data offset with
    | .error e => { result := .error e }
    | .ok (entry, offset) =>
      let message := preflight entry nestedFields
      { message with result := message.result.map fun _ => offset }
  | none => skipProtoValue data (skipFuel data offset) offset (tag / 8) (tag % 8)

/-- `preflight_wire_message` from an offset on. Each round and nested message takes a byte or more. -/
def preflightWireMessage : Nat → Bytes → Nat → WireFields → List (Nat × WireFields) → Skip
  | 0, data, offset, _, _ => { result := if offset < data.length then .error .decode else .ok offset }
  | fuel + 1, data, offset, fields, nested =>
    if offset < data.length then
      match consumeProtoVarint data offset with
      | .error e => { result := .error e }
      | .ok (tag, offset) =>
        let field := tag / 8
        let wireType := tag % 8
        if tag = 0 then { result := .error (malformedProtobuf "invalid protobuf field tag") }
        else if (fields.find? (·.1 = field)).any (·.2 ≠ wireType) then
          { result := .error (malformedProtobuf "known protobuf field used the wrong wire type") }
        else
          let value := preflightField (fun entry fields => preflightWireMessage fuel entry 0 fields [])
            data offset tag nested
          match value.result with
          | .error _ => value
          | .ok offset =>
            let message := preflightWireMessage fuel data offset fields nested
            { message with depth := max value.depth message.depth }
    else { result := .ok offset }

/-- The messages that have a preflight. -/
inductive WireMessage
  | rpcRequest
  | rpcHeaders
  | rpcAnswer
  | rpcStatus
  | other
  deriving DecidableEq

def preflightKnownWire (message : WireMessage) (body : Bytes) : Skip :=
  match message with
  | .rpcRequest =>
    preflightWireMessage body.length body 0 [(1, 2), (2, 2), (3, 0), (4, 0), (5, 0), (7, 2), (8, 0)]
      [(2, metadataEntry), (7, dictionaryInfo)]
  | .rpcHeaders => preflightWireMessage body.length body 0 [(1, 2)] [(1, metadataEntry)]
  | .rpcAnswer => preflightWireMessage body.length body 0 [(1, 2), (2, 0), (3, 0)] [(1, dictionaryInfo)]
  | .rpcStatus => preflightWireMessage body.length body 0 [(1, 0), (2, 2), (3, 2)] [(3, metadataEntry)]
  | .other => { result := .ok 0 }

/-! ## How far a call recurses -/

variable {data : Bytes} {offset next value fuel : Nat}

theorem consumeU64VarintFrom_ok {rounds index start : Nat}
    (h : consumeU64VarintFrom data rounds index start offset = .ok (value, next)) :
    offset < next ∧ next ≤ data.length := by
  induction rounds generalizing index start offset with
  | zero => cases h
  | succ rounds ih =>
    unfold consumeU64VarintFrom at h
    cases hb : data[offset]? with
    | none =>
      rw [hb] at h
      cases h
    | some byte =>
      have hlt : offset < data.length := (List.getElem?_eq_some_iff.mp hb).1
      simp only [hb] at h
      split_ifs at h
      · obtain ⟨-, rfl⟩ := Prod.mk.inj (Except.ok.inj h)
        omega
      · have hrest := ih h
        omega

theorem consumeProtoVarint_ok (h : consumeProtoVarint data offset = .ok (value, next)) :
    offset < next ∧ next ≤ data.length := by
  unfold consumeProtoVarint at h
  cases hr : consumeU64Varint data offset with
  | ok read =>
    rw [hr] at h
    obtain rfl := Except.ok.inj h
    exact consumeU64VarintFrom_ok hr
  | error e =>
    rw [hr] at h
    cases e <;> cases h

theorem consumeProtoBytes_ok {entry : Bytes} (h : consumeProtoBytes data offset = .ok (entry, next)) :
    offset + entry.length < next ∧ next ≤ data.length := by
  unfold consumeProtoBytes at h
  cases hr : consumeProtoVarint data offset with
  | error e =>
    rw [hr] at h
    cases h
  | ok read =>
    obtain ⟨len, start⟩ := read
    have hstart := consumeProtoVarint_ok hr
    simp only [hr] at h
    split_ifs at h
    obtain ⟨rfl, rfl⟩ := Prod.mk.inj (Except.ok.inj h)
    rw [List.length_take, List.length_drop]
    omega

theorem skipProtoFixed_ok {len : Nat} (h : skipProtoFixed data offset len = .ok next) :
    offset ≤ next ∧ next ≤ data.length := by
  unfold skipProtoFixed at h
  split_ifs at h
  obtain rfl := Except.ok.inj h
  omega

structure Skip.Within (s : Skip) (data : Bytes) (offset limit : Nat) : Prop where
  depth : s.depth ≤ limit
  result : ∀ next, s.result = .ok next → offset ≤ next ∧ next ≤ data.length

theorem Skip.Within.error {e : Error} {limit : Nat} : Skip.Within { result := .error e } data offset limit :=
  ⟨Nat.zero_le _, fun _ h => by cases h⟩

theorem skip_within (data : Bytes) (fuel : Nat) :
    (∀ offset field wireType,
      (skipProtoValue data fuel offset field wireType).Within data offset (data.length - offset + 1)) ∧
    ∀ offset field, (skipGroup data fuel offset field).Within data offset (data.length - offset) := by
  induction fuel with
  | zero =>
    unfold skipProtoValue skipGroup
    exact ⟨fun _ _ _ => .error, fun _ _ => .error⟩
  | succ fuel ih =>
    obtain ⟨hv, hg⟩ := ih
    constructor
    · intro offset field wireType
      unfold skipProtoValue
      split
      · refine ⟨Nat.zero_le _, fun next h => ?_⟩
        obtain ⟨⟨value, _⟩, hr, rfl⟩ := except_map_eq_ok.mp h
        exact ⟨(consumeProtoVarint_ok hr).1.le, (consumeProtoVarint_ok hr).2⟩
      · exact ⟨Nat.zero_le _, fun _ => skipProtoFixed_ok⟩
      · refine ⟨Nat.zero_le _, fun next h => ?_⟩
        obtain ⟨⟨entry, _⟩, hr, rfl⟩ := except_map_eq_ok.mp h
        have hn := consumeProtoBytes_ok hr
        exact ⟨by omega, hn.2⟩
      · exact ⟨Nat.succ_le_succ (hg offset field).depth, (hg offset field).result⟩
      · exact .error
      · exact ⟨Nat.zero_le _, fun _ => skipProtoFixed_ok⟩
      · exact .error
    · intro offset field
      unfold skipGroup
      cases hr : consumeProtoVarint data offset with
      | error e => exact .error
      | ok read =>
        obtain ⟨tag, start⟩ := read
        have hs := consumeProtoVarint_ok hr
        simp only
        split_ifs
        · exact .error
        · exact .error
        · refine ⟨Nat.zero_le _, fun next h => ?_⟩
          obtain rfl := Except.ok.inj h
          exact ⟨hs.1.le, hs.2⟩
        · have hin := hv start (tag / 8) (tag % 8)
          cases hres : (skipProtoValue data fuel start (tag / 8) (tag % 8)).result with
          | error e =>
            refine ⟨?_, fun next h => ?_⟩
            · have hd := hin.depth
              simp only
              omega
            · rw [hres] at h
              cases h
          | ok start' =>
            have hstart' := hin.result start' hres
            have hre := hg start' field
            have hd := hin.depth
            have hdepth' := hre.depth
            refine ⟨?_, fun next h => ?_⟩
            · simp only
              omega
            · have hn := hre.result next h
              omega

/-- Fuel beyond two for each byte that is left changes nothing. -/
theorem skip_fuel (data : Bytes) (fuel : Nat) :
    (∀ offset field wireType more, 2 * (data.length - offset) + 2 ≤ fuel → fuel ≤ more →
      skipProtoValue data more offset field wireType = skipProtoValue data fuel offset field wireType) ∧
    ∀ offset field more, 2 * (data.length - offset) + 1 ≤ fuel → fuel ≤ more →
      skipGroup data more offset field = skipGroup data fuel offset field := by
  induction fuel with
  | zero => exact ⟨fun _ _ _ _ h => by omega, fun _ _ _ h => by omega⟩
  | succ fuel ih =>
    obtain ⟨hv, hg⟩ := ih
    constructor
    · intro offset field wireType more henough hmore
      obtain ⟨more, rfl⟩ : ∃ n, more = n + 1 := ⟨more - 1, by omega⟩
      unfold skipProtoValue
      rw [hg offset field more (by omega) (by omega)]
    · intro offset field more henough hmore
      obtain ⟨more, rfl⟩ : ∃ n, more = n + 1 := ⟨more - 1, by omega⟩
      unfold skipGroup
      cases hr : consumeProtoVarint data offset with
      | error e => rfl
      | ok read =>
        obtain ⟨tag, start⟩ := read
        have hstart := consumeProtoVarint_ok hr
        simp only
        rw [hv start _ _ more (by omega) (by omega)]
        cases hres : (skipProtoValue data fuel start (tag / 8) (tag % 8)).result with
        | error e => rfl
        | ok start' =>
          have hstart' := ((skip_within data fuel).1 start _ _).result start' hres
          simp only
          rw [hg start' field more (by omega) (by omega)]

theorem preflightField_within {preflight : Bytes → WireFields → Skip} {nested : List (Nat × WireFields)}
    {tag : Nat} (h : ∀ entry fields, (preflight entry fields).depth ≤ entry.length) :
    (preflightField preflight data offset tag nested).Within data offset (data.length - offset + 1) := by
  unfold preflightField
  cases nested.find? (·.1 = tag / 8) with
  | none => exact (skip_within data _).1 offset _ _
  | some found =>
    cases hb : consumeProtoBytes data offset with
    | error e => exact .error
    | ok read =>
      obtain ⟨entry, next⟩ := read
      have hnext := consumeProtoBytes_ok hb
      have hentry := h entry found.2
      refine ⟨?_, fun after ha => ?_⟩
      · simp only
        omega
      · obtain ⟨_, -, rfl⟩ := except_map_eq_ok.mp ha
        omega

theorem preflightWireMessage_depth_le (fuel : Nat) (data : Bytes) (offset : Nat) (fields : WireFields)
    (nested : List (Nat × WireFields)) :
    (preflightWireMessage fuel data offset fields nested).depth ≤ data.length - offset := by
  induction fuel generalizing data offset fields nested with
  | zero => exact Nat.zero_le _
  | succ fuel ih =>
    unfold preflightWireMessage
    split_ifs with hmore
    swap
    · exact Nat.zero_le _
    cases hr : consumeProtoVarint data offset with
    | error e => exact Nat.zero_le _
    | ok read =>
      obtain ⟨tag, start⟩ := read
      have hstart := consumeProtoVarint_ok hr
      simp only
      split_ifs
      · exact Nat.zero_le _
      · exact Nat.zero_le _
      · have hin : Skip.Within (preflightField _ data start tag nested) data start (data.length - start + 1) :=
          preflightField_within fun entry fields => ih entry 0 fields []
        generalize preflightField _ data start tag nested = value at hin ⊢
        have hdepth := hin.depth
        cases hres : value.result with
        | error e =>
          simp only
          omega
        | ok next =>
          have hnext := hin.result next hres
          have hrest := ih data next fields nested
          simp only
          omega

/-- Fuel for the bytes that are left is enough. -/
theorem preflightWireMessage_fuel {data : Bytes} {fields : WireFields} {nested : List (Nat × WireFields)}
    {fuel offset more : Nat} (henough : data.length - offset ≤ fuel) (hmore : fuel ≤ more) :
    preflightWireMessage more data offset fields nested =
      preflightWireMessage fuel data offset fields nested := by
  induction fuel generalizing data offset fields nested more with
  | zero =>
    have hend : ¬ offset < data.length := by omega
    cases more with
    | zero => rfl
    | succ more => rw [preflightWireMessage, preflightWireMessage, if_neg hend, if_neg hend]
  | succ fuel ih =>
    obtain ⟨more, rfl⟩ : ∃ n, more = n + 1 := ⟨more - 1, by omega⟩
    unfold preflightWireMessage
    split_ifs with hrest
    swap
    · rfl
    cases hr : consumeProtoVarint data offset with
    | error e => rfl
    | ok read =>
      obtain ⟨tag, start⟩ := read
      have hstart := consumeProtoVarint_ok hr
      simp only
      have hf : preflightField (fun entry fields => preflightWireMessage more entry 0 fields [])
          data start tag nested =
            preflightField (fun entry fields => preflightWireMessage fuel entry 0 fields [])
              data start tag nested := by
        unfold preflightField
        cases nested.find? (·.1 = tag / 8) with
        | none => rfl
        | some found =>
          cases hb : consumeProtoBytes data start with
          | error e => rfl
          | ok read =>
            obtain ⟨entry, next⟩ := read
            have hn := consumeProtoBytes_ok hb
            simp only
            rw [ih (by omega) (by omega)]
      have hin : Skip.Within (preflightField (fun entry fields => preflightWireMessage fuel entry 0 fields [])
          data start tag nested) data start (data.length - start + 1) :=
        preflightField_within fun entry fields => preflightWireMessage_depth_le fuel entry 0 fields []
      rw [hf]
      generalize preflightField _ data start tag nested = value at hin ⊢
      cases hres : value.result with
      | error e => rfl
      | ok next =>
        have hn := hin.result next hres
        simp only
        rw [ih (by omega) (by omega)]

theorem preflightKnownWire_depth_le (message : WireMessage) (body : Bytes) :
    (preflightKnownWire message body).depth ≤ body.length := by
  cases message with
  | other => exact Nat.zero_le _
  | _ => exact preflightWireMessage_depth_le ..

/-! ## Nested groups -/

def groups (n m : Nat) : Bytes := List.replicate n 0x4b ++ List.replicate m 0x4c

variable {m n : Nat}

theorem groups_start (h : offset < n) : consumeProtoVarint (groups n m) offset = .ok (75, offset + 1) := by
  have hb : (groups n m)[offset]? = some 0x4b := by
    unfold groups
    rw [List.getElem?_append_left (by simpa using h), List.getElem?_replicate, if_pos h]
  simp [consumeProtoVarint, consumeU64Varint, consumeU64VarintFrom, hb]

theorem groups_end (hn : n ≤ offset) (hm : offset < n + m) :
    consumeProtoVarint (groups n m) offset = .ok (76, offset + 1) := by
  have hb : (groups n m)[offset]? = some 0x4c := by
    unfold groups
    rw [List.getElem?_append_right (by simpa using hn), List.getElem?_replicate, if_pos]
    rw [List.length_replicate]
    omega
  simp [consumeProtoVarint, consumeU64Varint, consumeU64VarintFrom, hb]

theorem groups_truncated :
    consumeProtoVarint (groups n m) (n + m) = .error (malformedProtobuf "truncated protobuf varint") := by
  have hb : (groups n m)[n + m]? = none := by
    rw [List.getElem?_eq_none_iff]
    simp [groups]
  simp [consumeProtoVarint, consumeU64Varint, consumeU64VarintFrom, hb]

/-- Where the `k`-th end of a group leads to. -/
def closes (n m k : Nat) : Except Error Nat :=
  if k < m then .ok (n + k + 1) else .error (malformedProtobuf "truncated protobuf varint")

variable {k : Nat}

theorem skipGroup_end (hk : k ≤ m) : skipGroup (groups n m) (fuel + 1) (n + k) 9 = { result := closes n m k } := by
  rw [skipGroup, closes]
  split_ifs with hlt
  · rw [groups_end (by omega) (by omega)]
    rfl
  · rw [show k = m by omega, groups_truncated]

theorem skipGroup_groups (hk : k ≤ n) (hfuel : 2 * k + 1 ≤ fuel) :
    skipGroup (groups n m) fuel (n - k) 9 = { depth := k, result := closes n m k } := by
  induction k generalizing fuel with
  | zero =>
    obtain ⟨fuel, rfl⟩ : ∃ f, fuel = f + 1 := ⟨fuel - 1, by omega⟩
    exact skipGroup_end (Nat.zero_le m)
  | succ k ih =>
    obtain ⟨fuel, rfl⟩ : ∃ f, fuel = f + 3 := ⟨fuel - 3, by omega⟩
    have hv : skipProtoValue (groups n m) (fuel + 2) (n - (k + 1) + 1) 9 3 =
        { depth := k + 1, result := closes n m k } := by
      rw [skipProtoValue, show n - (k + 1) + 1 = n - k by omega, ih (by omega) (by omega)]
    rw [skipGroup, groups_start (by omega)]
    simp only [hv]
    by_cases hkm : k < m
    · have he : skipGroup (groups n m) (fuel + 2) (n + k + 1) 9 = { result := closes n m (k + 1) } := skipGroup_end hkm
      simp only [closes, if_pos hkm] at he ⊢
      rw [he]
      rfl
    · simp only [closes, if_neg hkm, if_neg (show ¬ k + 1 < m by omega)]
      rfl

theorem preflight_groups :
    preflightKnownWire .rpcRequest (groups (n + 1) m) =
      let group := skipGroup (groups (n + 1) m) (2 * (n + m) + 1) 1 9
      match group.result with
      | .error _ => { group with depth := group.depth + 1 }
      | .ok offset =>
        let message := preflightWireMessage (n + m) (groups (n + 1) m) offset
          [(1, 2), (2, 2), (3, 0), (4, 0), (5, 0), (7, 2), (8, 0)] [(2, metadataEntry), (7, dictionaryInfo)]
        { message with depth := max (group.depth + 1) message.depth } := by
  have hl : (groups (n + 1) m).length = n + m + 1 := by
    simp [groups]
    omega
  have hfu : skipFuel (groups (n + 1) m) 1 = 2 * (n + m) + 1 + 1 := by
    unfold skipFuel
    omega
  have hf (p : Bytes → WireFields → Skip) :
      preflightField p (groups (n + 1) m) 1 75 [(2, metadataEntry), (7, dictionaryInfo)] =
        skipProtoValue (groups (n + 1) m) (2 * (n + m) + 1 + 1) 1 9 3 := by
    rw [← hfu]
    rfl
  unfold preflightKnownWire
  simp only
  rw [hl, preflightWireMessage, if_pos (by omega), groups_start (Nat.succ_pos n)]
  simp only [Nat.zero_add, hf, skipProtoValue]
  generalize skipGroup (groups (n + 1) m) (2 * (n + m) + 1) 1 9 = group
  cases group.result <;> rfl

theorem preflight_open (n : Nat) : (preflightKnownWire .rpcRequest (groups (n + 1) 0)).depth = n + 1 := by
  have hg := skipGroup_groups (m := 0) (Nat.le_succ n) (le_refl (2 * (n + 0) + 1))
  rw [show n + 1 - n = 1 by omega] at hg
  rw [preflight_groups, hg]
  rfl

theorem preflight_closed (n : Nat) :
    preflightKnownWire .rpcRequest (groups (n + 1) (n + 1)) =
      { depth := n + 1, result := .ok (2 * (n + 1)) } := by
  have hg := skipGroup_groups (m := n + 1) (Nat.le_succ n) (show 2 * n + 1 ≤ 2 * (n + (n + 1)) + 1 by omega)
  rw [show n + 1 - n = 1 by omega, closes, if_pos n.lt_succ_self] at hg
  have hlength : (groups (n + 1) (n + 1)).length = n + 1 + n + 1 := by
    simp [groups]
    omega
  rw [preflight_groups, hg]
  simp only
  rw [show n + (n + 1) = 2 * n + 1 by omega, preflightWireMessage, if_neg (by omega)]
  simp only [Nat.max_zero]
  congr 2
  omega

/-- Payloads of `limit` bytes nest to at most `bound` exactly if it is `limit` or more. -/
theorem preflight_depth_le_iff (limit bound : Nat) :
    (∀ message body, body.length ≤ limit → (preflightKnownWire message body).depth ≤ bound) ↔
      limit ≤ bound := by
  constructor
  · intro h
    cases limit with
    | zero => exact Nat.zero_le bound
    | succ n =>
      have hdepth := h .rpcRequest (groups (n + 1) 0) (by simp [groups])
      rw [preflight_open] at hdepth
      exact hdepth
  · intro h message body hbody
    have hdepth := preflightKnownWire_depth_le message body
    omega

/-- There is no bound for all payloads, not even for those that pass. -/
theorem preflight_depth_unbounded :
    ¬ ∃ bound, ∀ message body, (∃ offset, (preflightKnownWire message body).result = .ok offset) →
      (preflightKnownWire message body).depth ≤ bound := by
  rintro ⟨bound, h⟩
  have hdepth := h .rpcRequest (groups (bound + 1) (bound + 1)) ⟨_, by rw [preflight_closed]⟩
  rw [preflight_closed] at hdepth
  simp only at hdepth
  omega

end TrevRpc.Rust
