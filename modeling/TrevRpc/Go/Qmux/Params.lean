import TrevRpc.Go.Qmux.Frames

/-!
# Transport parameters of the Go implementation (`internal/qmux/params.go`)

Durations are in nanoseconds.
-/

open TrevRpc.Varint

namespace TrevRpc.Go.Qmux

def defaultMaxRecordSize : Nat := 16382

/-- `time.Millisecond`. -/
def millisecond : Nat := 1000000

def maxMilliseconds : Nat := (2 ^ 63 - 1) / millisecond

namespace Param

abbrev maxIdleTimeout : Nat := 0x01
abbrev initialMaxData : Nat := 0x04
abbrev initialMaxStreamDataBidiLocal : Nat := 0x05
abbrev initialMaxStreamDataBidiRemote : Nat := 0x06
abbrev initialMaxStreamDataUni : Nat := 0x07
abbrev initialMaxStreamsBidi : Nat := 0x08
abbrev initialMaxStreamsUni : Nat := 0x09

def forbidden : List Nat := [0x00, 0x02, 0x03, 0x0a, 0x0b, 0x0c, 0x0d, 0x0e, 0x0f, 0x10]

end Param

structure Parameters where
  maxIdleTimeout : Nat := 0
  initialMaxData : Nat := 0
  initialMaxStreamDataBidiLocal : Nat := 0
  initialMaxStreamDataBidiRemote : Nat := 0
  initialMaxStreamsBidi : Nat := 0
  maxRecordSize : Nat := 0
  deriving DecidableEq

namespace Parameters

/-- The method `maxRecordSize`: the field, where zero means the default. -/
def effectiveMaxRecordSize (p : Parameters) : Nat :=
  if p.maxRecordSize = 0 then defaultMaxRecordSize else p.maxRecordSize

def fields (v : Version) (p : Parameters) : List (Nat × Nat) :=
  [(Param.maxIdleTimeout, p.maxIdleTimeout / millisecond),
   (Param.initialMaxData, p.initialMaxData),
   (Param.initialMaxStreamDataBidiLocal, p.initialMaxStreamDataBidiLocal),
   (Param.initialMaxStreamDataBidiRemote, p.initialMaxStreamDataBidiRemote),
   (Param.initialMaxStreamsBidi, p.initialMaxStreamsBidi),
   (v.maxRecordSizeParameter, p.effectiveMaxRecordSize)]

/-- Sets a parameter. One about unidirectional streams is dropped, and `none` is an unknown one. -/
def setField (v : Version) (p : Parameters) (id value : Nat) : Option Parameters :=
  if id = Param.maxIdleTimeout then
    some { p with maxIdleTimeout := min value maxMilliseconds * millisecond }
  else if id = Param.initialMaxData then some { p with initialMaxData := value }
  else if id = Param.initialMaxStreamDataBidiLocal then
    some { p with initialMaxStreamDataBidiLocal := value }
  else if id = Param.initialMaxStreamDataBidiRemote then
    some { p with initialMaxStreamDataBidiRemote := value }
  else if id = Param.initialMaxStreamsBidi then some { p with initialMaxStreamsBidi := value }
  else if id = v.maxRecordSizeParameter then some { p with maxRecordSize := value }
  else if id = Param.initialMaxStreamDataUni ∨ id = Param.initialMaxStreamsUni then some p
  else none

end Parameters

/-! ## Writing -/

def parameterVarints (field : Nat × Nat) : List Nat := [field.1, encodedLen field.2, field.2]

/-- The frame, without what is zero; `none` is the panic of `quicvarint.Append`. -/
def appendTransportParameters (v : Version) (p : Parameters) : Option Frame :=
  (encodeAll (((p.fields v).filter (·.2 ≠ 0)).flatMap parameterVarints)).map .transportParameters

/-! ## Reading -/

def paramErr (v : Version) (message : String) : TransportError :=
  protocolError .transportParameterError v.transportParametersType message

def readParameter (v : Version) (body : List UInt8) :
    Except TransportError (Nat × List UInt8 × List UInt8) :=
  match decode body with
  | none => .error (paramErr v "truncated transport parameter ID")
  | some (id, n) =>
    let body := body.drop n
    let digits := hex id
    match decode body with
    | none => .error (paramErr v s!"truncated transport parameter 0x{digits}")
    | some (length, n) =>
      let body := body.drop n
      if body.length < length then .error (paramErr v s!"truncated transport parameter 0x{digits}")
      else .ok (id, body.take length, body.drop length)

/-- One round of the loop after its reads. -/
def applyParameter (v : Version) (p : Parameters) (seen : List Nat) (id : Nat) (value : List UInt8) :
    Except TransportError Parameters :=
  let digits := hex id
  if id ∈ seen then .error (paramErr v s!"duplicate transport parameter 0x{digits}")
  else if id ∈ Param.forbidden then
    .error (paramErr v s!"transport parameter 0x{digits} is not allowed in QMux")
  else if (p.setField v id 0).isNone then .ok p
  else
    match decode value with
    | none => .error (paramErr v s!"malformed transport parameter 0x{digits}")
    | some (parsed, n) =>
      if n ≠ value.length then .error (paramErr v s!"malformed transport parameter 0x{digits}")
      else .ok ((p.setField v id parsed).getD p)

/-- The loop over the body. A parameter takes two bytes or more, so its length is enough `rounds`. -/
def decodeFields (v : Version) : Nat → Parameters → List Nat → List UInt8 → Except TransportError Parameters
  | _, p, _, [] => .ok p
  | 0, p, _, _ => .ok p
  | rounds + 1, p, seen, body => do
    let (id, value, rest) ← readParameter v body
    let p ← applyParameter v p seen id value
    decodeFields v rounds p (id :: seen) rest

def decodeParameters (v : Version) (body : List UInt8) : Except TransportError Parameters := do
  let p ← decodeFields v body.length { maxRecordSize := defaultMaxRecordSize } [] body
  let maxRecordSize := p.maxRecordSize
  let minimum := defaultMaxRecordSize
  let streams := p.initialMaxStreamsBidi
  if maxRecordSize < minimum then
    .error (paramErr v s!"max_record_size {maxRecordSize} is below {minimum}")
  else if maxStreamsLimit < streams then
    .error (paramErr v s!"initial_max_streams_bidi {streams} exceeds 2^60")
  else .ok p

/-! ## Reading back what was written -/

theorem readParameter_append (v : Version) {id value : Nat} {wire : List UInt8}
    (h : encodeAll (parameterVarints (id, value)) = some wire) (rest : List UInt8) :
    ∃ vw, encode value = some vw ∧
      readParameter v (wire ++ rest) = .ok (id, vw, rest) := by
  obtain ⟨idWire, tail, hid, ht, rfl⟩ := encodeAll_cons_eq_some.mp h
  obtain ⟨lenWire, tail', hlen, ht', rfl⟩ := encodeAll_cons_eq_some.mp ht
  obtain ⟨vw, tail'', hv, htail'', rfl⟩ := encodeAll_cons_eq_some.mp ht'
  obtain rfl := encodeAll_nil_eq_some.mp htail''
  refine ⟨vw, hv, ?_⟩
  dsimp only at hid hlen hv
  rw [← length_of_encode hv] at hlen
  unfold readParameter
  simp only [List.append_assoc, List.append_nil, decode_encode hid, decode_encode hlen,
    ← length_of_encode hid, ← length_of_encode hlen, List.drop_left]
  rw [if_neg (by simp)]
  simp

theorem applyParameter_written (v : Version) (p : Parameters) {seen : List Nat} {id value : Nat}
    {valueWire : List UInt8} (hs : id ∉ seen) (hallowed : id ∉ Param.forbidden)
    (h : encode value = some valueWire) :
    applyParameter v p seen id valueWire = .ok ((p.setField v id value).getD p) := by
  have hk : (p.setField v id 0).isNone = (p.setField v id value).isNone := by
    unfold Parameters.setField
    split_ifs <;> simp
  have hdec := decode_encode h []
  rw [List.append_nil] at hdec
  unfold applyParameter
  rw [if_neg hs, if_neg hallowed, hk, hdec]
  cases hset : p.setField v id value with
  | none => rfl
  | some p' => simp [length_of_encode h, hset]

/-- The parameters that `fields` sets. -/
def applyFields (v : Version) (p : Parameters) (fields : List (Nat × Nat)) : Parameters :=
  fields.foldl (fun p field => (p.setField v field.1 field.2).getD p) p

theorem decodeFields_written (v : Version) (fs : List (Nat × Nat)) (p : Parameters) (seen : List Nat)
    {rounds : Nat} {body : List UInt8} (hb : encodeAll (fs.flatMap parameterVarints) = some body)
    (hr : body.length ≤ rounds) (hallowed : ∀ f ∈ fs, f.1 ∉ Param.forbidden)
    (hs : ∀ f ∈ fs, f.1 ∉ seen) (hn : (fs.map (·.1)).Nodup) :
    decodeFields v rounds p seen body = .ok (applyFields v p fs) := by
  induction fs generalizing p seen rounds body with
  | nil =>
    rw [encodeAll_nil_eq_some.mp hb]
    unfold decodeFields
    rfl
  | cons f fs ih =>
    rw [List.flatMap_cons, encodeAll_append_eq_some] at hb
    obtain ⟨wire, rest, hw, hrs, rfl⟩ := hb
    obtain ⟨valueWire, hv, hre⟩ := readParameter_append v hw rest
    have hl : 0 < wire.length := by
      have hpos := encodedLen_pos f.1
      rw [length_of_encodeAll hw, parameterVarints, encodedLenAll_cons]
      omega
    rw [List.length_append] at hr
    obtain ⟨byte, wire', rfl⟩ := List.exists_cons_of_length_pos hl
    obtain ⟨rounds, rfl⟩ : ∃ n, rounds = n + 1 := ⟨rounds - 1, by omega⟩
    have hfi := List.forall_mem_cons.mp hallowed
    have hf := List.forall_mem_cons.mp hs
    rw [List.map_cons, List.nodup_cons] at hn
    rw [List.cons_append] at hre ⊢
    simp only [decodeFields, hre, bind, Except.bind, applyParameter_written v p hf.1 hfi.1 hv]
    refine ih _ _ hrs (by omega) hfi.2 ?_ hn.2
    intro o ho
    rw [List.mem_cons, not_or]
    refine ⟨?_, hf.2 o ho⟩
    intro heq
    exact hn.1 (heq ▸ List.mem_map_of_mem ho)

theorem applyFields_filter_cons (v : Version) (p : Parameters) (id value : Nat) (fs : List (Nat × Nat))
    (h : value = 0 → p.setField v id 0 = some p) :
    applyFields v p (((id, value) :: fs).filter (·.2 ≠ 0)) =
      applyFields v ((p.setField v id value).getD p) (fs.filter (·.2 ≠ 0)) := by
  by_cases hv : value = 0
  · subst hv
    rw [h rfl]
    simp
  · simp [applyFields, hv]

namespace Parameters

/-- What a peer decodes of the parameters. -/
def advertised (p : Parameters) : Parameters :=
  { p with
    maxIdleTimeout := min (p.maxIdleTimeout / millisecond) maxMilliseconds * millisecond
    maxRecordSize := p.effectiveMaxRecordSize }

/-- A record size that a peer does not refuse. -/
def RecordSizeOk (p : Parameters) : Prop := p.maxRecordSize = 0 ∨ defaultMaxRecordSize ≤ p.maxRecordSize

instance (p : Parameters) : Decidable p.RecordSizeOk := inferInstanceAs (Decidable (_ ∨ _))

theorem RecordSizeOk.default_le {p : Parameters} (h : p.RecordSizeOk) :
    defaultMaxRecordSize ≤ p.effectiveMaxRecordSize := by
  unfold RecordSizeOk at h
  unfold effectiveMaxRecordSize
  split_ifs <;> omega

theorem effectiveMaxRecordSize_advertised (p : Parameters) :
    p.advertised.effectiveMaxRecordSize = p.effectiveMaxRecordSize := by
  unfold advertised effectiveMaxRecordSize
  by_cases h : p.maxRecordSize = 0
  · simp [h, defaultMaxRecordSize]
  · simp [h]

theorem effectiveMaxRecordSize_ne_zero (p : Parameters) : p.effectiveMaxRecordSize ≠ 0 := by
  unfold effectiveMaxRecordSize defaultMaxRecordSize
  split_ifs <;> omega

theorem setField_maxRecordSize (v : Version) (p : Parameters) (value : Nat) :
    p.setField v v.maxRecordSizeParameter value = some { p with maxRecordSize := value } := by
  have hfresh := v.maxRecordSizeParameter_fresh.1
  have hne (n : Nat) (hn : n ≤ 0x10) : v.maxRecordSizeParameter ≠ n := by omega
  rw [setField, if_neg (hne 0x01 (by decide)), if_neg (hne 0x04 (by decide)),
    if_neg (hne 0x05 (by decide)), if_neg (hne 0x06 (by decide)), if_neg (hne 0x08 (by decide)),
    if_pos rfl]

theorem applyFields_fields (v : Version) (p : Parameters) :
    applyFields v { maxRecordSize := defaultMaxRecordSize } ((p.fields v).filter (·.2 ≠ 0)) =
      p.advertised := by
  unfold fields
  rw [applyFields_filter_cons _ _ _ _ _ (fun _ => rfl), applyFields_filter_cons _ _ _ _ _ (fun _ => rfl),
    applyFields_filter_cons _ _ _ _ _ (fun _ => rfl), applyFields_filter_cons _ _ _ _ _ (fun _ => rfl),
    applyFields_filter_cons _ _ _ _ _ (fun _ => rfl),
    applyFields_filter_cons _ _ _ _ _ (fun h => absurd h p.effectiveMaxRecordSize_ne_zero),
    setField_maxRecordSize]
  rfl

theorem fields_ids_nodup (v : Version) (p : Parameters) : ((p.fields v).map (·.1)).Nodup := by
  have hfresh := v.maxRecordSizeParameter_fresh.1
  have hids : (p.fields v).map (·.1) = [0x01, 0x04, 0x05, 0x06, 0x08] ++ [v.maxRecordSizeParameter] := rfl
  rw [hids, List.nodup_append]
  refine ⟨by decide, by simp, ?_⟩
  intro id hid other ho
  have hle : ∀ id ∈ [0x01, 0x04, 0x05, 0x06, 0x08], id ≤ 0x10 := by decide
  have := hle id hid
  rw [List.mem_singleton] at ho
  omega

theorem fields_allowed (v : Version) (p : Parameters) : ∀ f ∈ p.fields v, f.1 ∉ Param.forbidden := by
  have hfresh := v.maxRecordSizeParameter_fresh.1
  simp only [fields, List.forall_mem_cons, List.not_mem_nil, false_implies, implies_true, and_true]
  refine ⟨by decide, by decide, by decide, by decide, by decide, ?_⟩
  intro hmem
  have hle : ∀ id ∈ Param.forbidden, id ≤ 0x10 := by decide
  have := hle _ hmem
  omega

end Parameters

/-- A peer decodes what was sent, up to what was left out or is finer than a millisecond. -/
theorem decodeParameters_written {v : Version} {p : Parameters} {body : List UInt8}
    (h : appendTransportParameters v p = some (.transportParameters body))
    (hsize : p.RecordSizeOk)
    (hs : p.initialMaxStreamsBidi ≤ maxStreamsLimit) :
    decodeParameters v body = .ok p.advertised := by
  simp only [appendTransportParameters, Option.map_eq_some_iff, Frame.transportParameters.injEq] at h
  obtain ⟨_, hb, rfl⟩ := h
  have hids : (((p.fields v).filter (·.2 ≠ 0)).map (·.1)).Nodup :=
    (p.fields_ids_nodup v).sublist (List.filter_sublist.map _)
  have hal : ∀ f ∈ (p.fields v).filter (·.2 ≠ 0), f.1 ∉ Param.forbidden :=
    fun f hf => p.fields_allowed v f (List.mem_of_mem_filter hf)
  have hdec := decodeFields_written v _ { maxRecordSize := defaultMaxRecordSize } [] hb le_rfl
    hal (fun _ _ => List.not_mem_nil) hids
  have hr : ¬ p.advertised.maxRecordSize < defaultMaxRecordSize := Nat.not_lt.mpr hsize.default_le
  have hl : ¬ maxStreamsLimit < p.advertised.initialMaxStreamsBidi := Nat.not_lt.mpr hs
  rw [p.applyFields_fields v] at hdec
  unfold decodeParameters
  rw [hdec]
  simp only [bind, Except.bind]
  rw [if_neg hr, if_neg hl]

end TrevRpc.Go.Qmux
