import TrevRpc.Go.Qmux.Params
import TrevRpc.Js.Qmux.Params

/-! # Transport parameters on both ends -/

open TrevRpc.Varint

namespace TrevRpc.Qmux

/-! ## What a body offers -/

structure Offer where
  maxIdleTimeout : Nat := 0
  initialMaxData : Nat := 0
  initialMaxStreamDataBidiLocal : Nat := 0
  initialMaxStreamDataBidiRemote : Nat := 0
  initialMaxStreamsBidi : Nat := 0
  maxRecordSize : Nat := 16382
  deriving DecidableEq

def knownParameters : List Nat := [0x01, 0x04, 0x05, 0x06, 0x07, 0x08, 0x09, 0x0571c59429cd0845]

def Offer.set (offer : Offer) (field : Nat × Nat) : Offer :=
  if field.1 = 0x01 then { offer with maxIdleTimeout := field.2 }
  else if field.1 = 0x04 then { offer with initialMaxData := field.2 }
  else if field.1 = 0x05 then { offer with initialMaxStreamDataBidiLocal := field.2 }
  else if field.1 = 0x06 then { offer with initialMaxStreamDataBidiRemote := field.2 }
  else if field.1 = 0x08 then { offer with initialMaxStreamsBidi := field.2 }
  else if field.1 = 0x0571c59429cd0845 then { offer with maxRecordSize := field.2 }
  else offer

def readParameter (body : List UInt8) : Option (Nat × List UInt8 × List UInt8) :=
  match decode body with
  | none => none
  | some (id, n) =>
    match decode (body.drop n) with
    | none => none
    | some (length, k) =>
      let body := (body.drop n).drop k
      if body.length < length then none else some (id, body.take length, body.drop length)

def readValue (id : Nat) (value : List UInt8) : Option (List (Nat × Nat)) :=
  if id ∉ knownParameters then some []
  else
    match decode value with
    | none => none
    | some (parsed, n) => if n ≠ value.length then none else some [(id, parsed)]

def parameters : Nat → List Nat → List UInt8 → Option (List (Nat × Nat))
  | _, _, [] => some []
  | 0, _, _ => some []
  | rounds + 1, seen, body =>
    (readParameter body).bind fun (id, value, rest) =>
      if id ∈ seen ∨ id ∈ Go.Qmux.Param.forbidden then none
      else (readValue id value).bind fun fields => (parameters rounds (id :: seen) rest).map (fields ++ ·)

theorem parameters_succ (rounds : Nat) (seen : List Nat) (byte : UInt8) (body : List UInt8) :
    parameters (rounds + 1) seen (byte :: body) = (readParameter (byte :: body)).bind fun read =>
      if read.1 ∈ seen ∨ read.1 ∈ Go.Qmux.Param.forbidden then none
      else (readValue read.1 read.2.1).bind fun fs =>
        (parameters rounds (read.1 :: seen) read.2.2).map (fs ++ ·) := by
  rfl

def offered (body : List UInt8) : Option Offer :=
  (parameters body.length [] body).map fun fields => fields.foldl Offer.set {}

/-! ## What each side makes of it -/

theorem readParameter_go (v : Go.Qmux.Version) (body : List UInt8) :
    (Go.Qmux.readParameter v body).toOption = readParameter body := by
  unfold Go.Qmux.readParameter readParameter
  cases decode body with
  | none => rfl
  | some id =>
    dsimp only
    cases decode (body.drop id.2) with
    | none => rfl
    | some length =>
      dsimp only
      split_ifs <;> rfl

variable {body : List UInt8}

theorem readParameter_js (hb : body.length ≤ Js.Qmux.maxSafe) :
    (Js.Qmux.readParameter body).toOption = readParameter body := by
  unfold Js.Qmux.readParameter readParameter
  cases decode body with
  | none => rfl
  | some id =>
    dsimp only
    cases decode (body.drop id.2) with
    | none => rfl
    | some l =>
      have hrest : ((body.drop id.2).drop l.2).length ≤ Js.Qmux.maxSafe := by
        simp only [List.length_drop]
        omega
      dsimp only
      by_cases hl : ((body.drop id.2).drop l.2).length < l.1
      · rw [if_pos (Or.inr hl), if_pos hl]
        rfl
      · rw [if_neg (by omega), if_neg hl]
        rfl

theorem readParameter_shorter {v rest : List UInt8} {id : Nat}
    (h : readParameter body = some (id, v, rest)) : rest.length ≤ body.length := by
  unfold readParameter at h
  cases hid : decode body with
  | none => simp [hid] at h
  | some read =>
    cases hl : decode (body.drop read.2) with
    | none => simp [hid, hl] at h
    | some length =>
      simp only [hid, hl] at h
      split_ifs at h
      cases h
      simp only [List.length_drop]
      omega

theorem toOption_bind {ε α β : Type} (x : Except ε α) (f : α → Except ε β) :
    (x.bind f).toOption = x.toOption.bind fun a => (f a).toOption := by
  cases x <;> rfl

section Loop

variable {Params Error : Type} {loop : Nat → Params → List Nat → List UInt8 → Except Error Params}
  {readNext : List UInt8 → Except Error (Nat × List UInt8 × List UInt8)}
  {takeNext : Params → List Nat → Nat → List UInt8 → Except Error Params} {set : Params → Nat × Nat → Params}

structure Loops (loop : Nat → Params → List Nat → List UInt8 → Except Error Params)
    (readNext : List UInt8 → Except Error (Nat × List UInt8 × List UInt8))
    (takeNext : Params → List Nat → Nat → List UInt8 → Except Error Params) (set : Params → Nat × Nat → Params) :
    Prop where
  nil : ∀ rounds params seen, loop rounds params seen [] = .ok params
  zero : ∀ params seen body, loop 0 params seen body = .ok params
  round : ∀ rounds params seen byte body, loop (rounds + 1) params seen (byte :: body) =
    (readNext (byte :: body)).bind fun read =>
      (takeNext params seen read.1 read.2.1).bind fun params => loop rounds params (read.1 :: seen) read.2.2
  reads : ∀ body : List UInt8, body.length ≤ Js.Qmux.maxSafe → (readNext body).toOption = readParameter body
  takes : ∀ params seen id value, (takeNext params seen id value).toOption =
    if id ∈ seen ∨ id ∈ Go.Qmux.Param.forbidden then none else (readValue id value).map (List.foldl set params)

theorem Loops.toOption (h : Loops loop readNext takeNext set) (rounds : Nat) (params : Params) (seen : List Nat)
    {body : List UInt8} (hb : body.length ≤ Js.Qmux.maxSafe) :
    (loop rounds params seen body).toOption = (parameters rounds seen body).map (List.foldl set params) := by
  induction rounds generalizing params seen body with
  | zero =>
    rw [h.zero]
    cases body <;> rfl
  | succ rounds ih =>
    cases body with
    | nil =>
      rw [h.nil]
      rfl
    | cons byte body =>
      have hre := h.reads _ hb
      rw [h.round, toOption_bind, hre, parameters_succ]
      cases hn : readParameter (byte :: body) with
      | none => rfl
      | some read =>
        obtain ⟨id, v, rest⟩ := read
        have hr := readParameter_shorter hn
        simp only [Option.bind_some, toOption_bind, h.takes]
        split_ifs with hrefused
        · rfl
        · cases readValue id v with
          | none => rfl
          | some fields =>
            simp only [Option.map_some, Option.bind_some]
            rw [ih _ _ (hr.trans hb)]
            cases parameters rounds (id :: seen) rest with
            | none => rfl
            | some others => simp

end Loop

theorem known_iff (id : Nat) :
    id ∈ knownParameters ↔ id = 0x01 ∨ id = 0x04 ∨ id = 0x05 ∨ id = 0x06 ∨ id = 0x07 ∨ id = 0x08 ∨ id = 0x09 ∨
      id = 0x0571c59429cd0845 := by
  simp [knownParameters]

theorem setField_isNone_go (p : Go.Qmux.Parameters) (id v : Nat) :
    (p.setField Go.Qmux.draft02 id v).isNone = (id ∉ knownParameters : Bool) := by
  by_cases hk : id ∈ knownParameters
  · rw [decide_eq_false (not_not.mpr hk)]
    rcases (known_iff id).mp hk with rfl | rfl | rfl | rfl | rfl | rfl | rfl | rfl <;> rfl
  · rw [decide_eq_true hk]
    simp only [known_iff, not_or] at hk
    obtain ⟨h₁, h₄, h₅, h₆, h₇, h₈, h₉, hs⟩ := hk
    unfold Go.Qmux.Parameters.setField
    rw [if_neg h₁, if_neg h₄, if_neg h₅, if_neg h₆, if_neg h₈,
      if_neg (show id ≠ Go.Qmux.draft02.maxRecordSizeParameter from hs), if_neg (not_or.mpr ⟨h₇, h₉⟩)]
    rfl

theorem setField_isNone_js (params : Js.Qmux.TransportParameters) (id v : Nat) :
    (params.setField id v).isNone = (id ∉ knownParameters : Bool) := by
  unfold Js.Qmux.TransportParameters.setField
  split
  case h_9 h₁ h₄ h₅ h₆ h₇ h₈ h₉ hs =>
    have hun : id ∉ knownParameters := by
      simp only [known_iff, not_or]
      exact ⟨h₁, h₄, h₅, h₆, h₇, h₈, h₉, hs⟩
    rw [decide_eq_true hun]
    rfl
  all_goals rfl

theorem Offer.set_unknown (offer : Offer) {f : Nat × Nat} (hunknown : f.1 ∉ knownParameters) : offer.set f = offer := by
  simp only [known_iff, not_or] at hunknown
  obtain ⟨h₁, h₄, h₅, h₆, _, h₈, _, hs⟩ := hunknown
  rw [Offer.set, if_neg h₁, if_neg h₄, if_neg h₅, if_neg h₆, if_neg h₈, if_neg hs]

theorem toOption_take {Params Error : Type} (set : Params → Nat × Nat → Params) (params : Params) (seen : List Nat)
    (id : Nat) (v : List UInt8) (d notAllowed m : Error) :
    (if id ∈ seen then Except.error d
      else if id ∈ Go.Qmux.Param.forbidden then .error notAllowed
      else if (id ∉ knownParameters : Bool) then .ok params
      else
        match decode v with
        | none => .error m
        | some (parsed, n) => if n ≠ v.length then .error m else .ok (set params (id, parsed))).toOption =
      if id ∈ seen ∨ id ∈ Go.Qmux.Param.forbidden then none else (readValue id v).map (List.foldl set params) := by
  unfold readValue
  by_cases hs : id ∈ seen
  · rw [if_pos hs, if_pos (Or.inl hs)]
    rfl
  by_cases hfor : id ∈ Go.Qmux.Param.forbidden
  · rw [if_neg hs, if_pos hfor, if_pos (Or.inr hfor)]
    rfl
  rw [if_neg hs, if_neg hfor, if_neg (not_or.mpr ⟨hs, hfor⟩)]
  by_cases hk : id ∈ knownParameters
  · cases decode v with
    | none => simp [hk, Except.toOption]
    | some read => by_cases hl : read.2 = v.length <;> simp [hk, hl, Except.toOption]
  · simp [hk, Except.toOption]

def setGo (p : Go.Qmux.Parameters) (field : Nat × Nat) : Go.Qmux.Parameters :=
  (p.setField Go.Qmux.draft02 field.1 field.2).getD p

def setJs (params : Js.Qmux.TransportParameters) (field : Nat × Nat) : Js.Qmux.TransportParameters :=
  (params.setField field.1 (min field.2 Js.Qmux.maxSafe)).getD params

theorem loops_go : Loops (Go.Qmux.decodeFields Go.Qmux.draft02) (Go.Qmux.readParameter Go.Qmux.draft02)
    (Go.Qmux.applyParameter Go.Qmux.draft02) setGo where
  nil rounds _ _ := by cases rounds <;> rfl
  zero _ _ body := by cases body <;> rfl
  round _ _ _ _ _ := rfl
  reads body _ := readParameter_go _ body
  takes p seen id value := by
    unfold Go.Qmux.applyParameter
    rw [setField_isNone_go]
    exact toOption_take setGo p seen id value _ _ _

theorem loops_js : Loops Js.Qmux.decodeFields Js.Qmux.readParameter Js.Qmux.applyParameter setJs where
  nil rounds _ _ := by cases rounds <;> rfl
  zero _ _ body := by cases body <;> rfl
  round _ _ _ _ _ := rfl
  reads _ hb := readParameter_js hb
  takes params seen id value := by
    unfold Js.Qmux.applyParameter
    rw [setField_isNone_js]
    exact toOption_take setJs params seen id value _ _ _

/-! ## The offer as each side keeps it -/

def Offer.toGo (offer : Offer) : Go.Qmux.Parameters where
  maxIdleTimeout := min offer.maxIdleTimeout Go.Qmux.maxMilliseconds * Go.Qmux.millisecond
  initialMaxData := offer.initialMaxData
  initialMaxStreamDataBidiLocal := offer.initialMaxStreamDataBidiLocal
  initialMaxStreamDataBidiRemote := offer.initialMaxStreamDataBidiRemote
  initialMaxStreamsBidi := offer.initialMaxStreamsBidi
  maxRecordSize := offer.maxRecordSize

def ofGo (p : Go.Qmux.Parameters) : Offer where
  maxIdleTimeout := p.maxIdleTimeout / Go.Qmux.millisecond
  initialMaxData := p.initialMaxData
  initialMaxStreamDataBidiLocal := p.initialMaxStreamDataBidiLocal
  initialMaxStreamDataBidiRemote := p.initialMaxStreamDataBidiRemote
  initialMaxStreamsBidi := p.initialMaxStreamsBidi
  maxRecordSize := p.maxRecordSize

def ofJs (params : Js.Qmux.TransportParameters) : Offer where
  maxIdleTimeout := params.maxIdleTimeoutMs
  initialMaxData := params.initialMaxData
  initialMaxStreamDataBidiLocal := params.initialMaxStreamDataBidiLocal
  initialMaxStreamDataBidiRemote := params.initialMaxStreamDataBidiRemote
  initialMaxStreamsBidi := params.initialMaxStreamsBidi
  maxRecordSize := params.maxRecordSize

def Offer.saturated (offer : Offer) : Offer where
  maxIdleTimeout := min offer.maxIdleTimeout Js.Qmux.maxSafe
  initialMaxData := min offer.initialMaxData Js.Qmux.maxSafe
  initialMaxStreamDataBidiLocal := min offer.initialMaxStreamDataBidiLocal Js.Qmux.maxSafe
  initialMaxStreamDataBidiRemote := min offer.initialMaxStreamDataBidiRemote Js.Qmux.maxSafe
  initialMaxStreamsBidi := min offer.initialMaxStreamsBidi Js.Qmux.maxSafe
  maxRecordSize := min offer.maxRecordSize Js.Qmux.maxSafe

theorem toGo_set (o : Offer) (f : Nat × Nat) : setGo o.toGo f = (o.set f).toGo := by
  obtain ⟨id, v⟩ := f
  by_cases hk : id ∈ knownParameters
  · rcases (known_iff id).mp hk with rfl | rfl | rfl | rfl | rfl | rfl | rfl | rfl <;> rfl
  · have hn := setField_isNone_go o.toGo id v
    rw [decide_eq_true hk, Option.isNone_iff_eq_none] at hn
    rw [setGo, hn, o.set_unknown hk]
    rfl

theorem saturated_set (o : Offer) (f : Nat × Nat) :
    (o.set f).saturated = o.saturated.set (f.1, min f.2 Js.Qmux.maxSafe) := by
  obtain ⟨id, value⟩ := f
  by_cases hk : id ∈ knownParameters
  · rcases (known_iff id).mp hk with rfl | rfl | rfl | rfl | rfl | rfl | rfl | rfl <;> rfl
  · rw [o.set_unknown hk, o.saturated.set_unknown hk]

theorem ofJs_setJs (params : Js.Qmux.TransportParameters) (f : Nat × Nat) :
    ofJs (setJs params f) = (ofJs params).set (f.1, min f.2 Js.Qmux.maxSafe) := by
  obtain ⟨id, v⟩ := f
  by_cases hk : id ∈ knownParameters
  · rcases (known_iff id).mp hk with rfl | rfl | rfl | rfl | rfl | rfl | rfl | rfl <;> rfl
  · have hn := setField_isNone_js params id (min v Js.Qmux.maxSafe)
    rw [decide_eq_true hk, Option.isNone_iff_eq_none] at hn
    rw [setJs, hn, (ofJs params).set_unknown hk]
    rfl

theorem ofGo_toGo (o : Offer) :
    ofGo o.toGo = { o with maxIdleTimeout := min o.maxIdleTimeout Go.Qmux.maxMilliseconds } := by
  have hu : 0 < Go.Qmux.millisecond := by decide
  simp [ofGo, Offer.toGo, Nat.mul_div_cancel _ hu]

theorem toGo_foldl (fs : List (Nat × Nat)) (o : Offer) : fs.foldl setGo o.toGo = (fs.foldl Offer.set o).toGo := by
  induction fs generalizing o with
  | nil => rfl
  | cons field fs ih => rw [List.foldl_cons, List.foldl_cons, toGo_set, ih]

theorem ofJs_foldl (fs : List (Nat × Nat)) (params : Js.Qmux.TransportParameters) (o : Offer)
    (h : ofJs params = o.saturated) :
    ofJs (fs.foldl setJs params) = (fs.foldl Offer.set o).saturated := by
  induction fs generalizing params o with
  | nil => exact h
  | cons f fs ih =>
    refine ih (setJs params f) (o.set f) ?_
    rw [ofJs_setJs, h, saturated_set]

/-- A record size that no peer may set. -/
def Offer.small (offer : Offer) : Bool := offer.maxRecordSize < Go.Qmux.defaultMaxRecordSize

theorem decodeParameters_offered (hb : body.length ≤ Js.Qmux.maxSafe) :
    (Go.Qmux.decodeParameters Go.Qmux.draft02 body).toOption = (offered body).bind fun o =>
      if o.small then none
      else if Go.Qmux.maxStreamsLimit < o.initialMaxStreamsBidi then none else some o.toGo := by
  have hl := loops_go.toOption body.length (Offer.toGo {}) [] hb
  unfold Go.Qmux.decodeParameters offered
  refine (toOption_bind _ _).trans ?_
  rw [show Go.Qmux.Parameters.mk 0 0 0 0 0 Go.Qmux.defaultMaxRecordSize = Offer.toGo {} from rfl, hl]
  cases parameters body.length [] body with
  | none => rfl
  | some fs =>
    simp only [Option.map_some, Option.bind_some, toGo_foldl]
    generalize fs.foldl Offer.set {} = o
    simp only [Offer.small, decide_eq_true_eq]
    by_cases hsm : o.maxRecordSize < Go.Qmux.defaultMaxRecordSize
    · rw [if_pos hsm]
      exact congrArg Except.toOption (if_pos hsm)
    by_cases hs : Go.Qmux.maxStreamsLimit < o.initialMaxStreamsBidi
    · rw [if_neg hsm, if_pos hs]
      exact congrArg Except.toOption ((if_neg hsm).trans (if_pos hs))
    · rw [if_neg hsm, if_neg hs]
      exact congrArg Except.toOption ((if_neg hsm).trans (if_neg hs))

theorem decodeTransportParameters_offered (hb : body.length ≤ Js.Qmux.maxSafe) :
    (Js.Qmux.decodeTransportParameters body).toOption.map ofJs = (offered body).bind fun o =>
      if o.small then none else some o.saturated := by
  have hl := loops_js.toOption body.length {} [] hb
  unfold Js.Qmux.decodeTransportParameters offered
  rw [show ∀ f, (Js.Qmux.decodeFields body.length {} [] body >>= f).toOption = _ from toOption_bind _, hl]
  cases parameters body.length [] body with
  | none => rfl
  | some fs =>
    have ho := ofJs_foldl fs {} {} rfl
    simp only [Option.map_some, Option.bind_some]
    generalize fs.foldl Offer.set {} = o at ho ⊢
    generalize fs.foldl setJs {} = params at ho ⊢
    have hsize : params.maxRecordSize = min o.maxRecordSize Js.Qmux.maxSafe :=
      congrArg Offer.maxRecordSize ho
    have hstreams : params.initialMaxStreamsBidi = min o.initialMaxStreamsBidi Js.Qmux.maxSafe :=
      congrArg Offer.initialMaxStreamsBidi ho
    have hwide : Js.Qmux.defaultMaxRecordSize < Js.Qmux.maxSafe := by decide
    have hnarrow : Js.Qmux.maxSafe < 2 ^ 60 := by decide
    by_cases hs : o.maxRecordSize < Js.Qmux.defaultMaxRecordSize
    · rw [if_pos (show params.maxRecordSize < Js.Qmux.defaultMaxRecordSize by omega)]
      exact (if_pos (decide_eq_true hs)).symm
    · rw [if_neg (show ¬ params.maxRecordSize < Js.Qmux.defaultMaxRecordSize by omega),
        if_neg (show ¬ 2 ^ 60 < params.initialMaxStreamsBidi by omega)]
      exact (congrArg some ho).trans (if_neg (mt of_decide_eq_true hs)).symm

/-! ## Agreement -/

/-- Both refuse, or both keep the same values, up to the largest integer of JavaScript. -/
def Agree (body : List UInt8) : Prop :=
  match Go.Qmux.decodeParameters Go.Qmux.draft02 body, Js.Qmux.decodeTransportParameters body with
  | .ok p, .ok params => ofJs params = (ofGo p).saturated
  | .error _, .error _ => True
  | _, _ => False

instance (body : List UInt8) : Decidable (Agree body) := by
  unfold Agree
  split <;> infer_instance

/-- An offer within what a `time.Duration` and a stream number can hold. -/
def Offer.InRange (offer : Offer) : Prop :=
  offer.initialMaxStreamsBidi ≤ Go.Qmux.maxStreamsLimit ∧ offer.maxIdleTimeout ≤ Go.Qmux.maxMilliseconds

theorem agree_iff_toOption (body : List UInt8) :
    Agree body ↔ (Js.Qmux.decodeTransportParameters body).toOption.map ofJs =
      (Go.Qmux.decodeParameters Go.Qmux.draft02 body).toOption.map fun p => (ofGo p).saturated := by
  unfold Agree
  cases Go.Qmux.decodeParameters Go.Qmux.draft02 body <;>
    cases Js.Qmux.decodeTransportParameters body <;>
    simp [Except.toOption]

theorem saturated_ofGo_toGo_iff (o : Offer) :
    o.saturated = (ofGo o.toGo).saturated ↔ o.maxIdleTimeout ≤ Go.Qmux.maxMilliseconds := by
  rw [ofGo_toGo]
  simp only [Offer.saturated, Offer.mk.injEq, and_true]
  have hcap : Go.Qmux.maxMilliseconds < Js.Qmux.maxSafe := by decide
  omega

theorem agree_iff (hb : body.length ≤ Js.Qmux.maxSafe) :
    Agree body ↔ ∀ o, offered body = some o → o.small = false → o.InRange := by
  rw [agree_iff_toOption, decodeParameters_offered hb, decodeTransportParameters_offered hb]
  cases offered body with
  | none => simp
  | some o =>
    simp only [Option.bind_some, Option.some.injEq, forall_eq']
    cases hsmall : o.small with
    | true => simp
    | false =>
      simp only [Bool.false_eq_true, if_false, Offer.InRange, forall_const]
      split_ifs with hstreams
      · simp only [Option.map_none, reduceCtorEq, false_iff]
        omega
      · rw [Option.map_some, Option.some.injEq, saturated_ofGo_toGo_iff]
        omega

/-! ## Parameters survive the wire -/

/-- Values that a varint, a `time.Duration` and the checks of a peer have room for. -/
structure Fits (p : Go.Qmux.Parameters) : Prop where
  maxIdleTimeout : p.maxIdleTimeout ≤ 2 ^ 63 - 1
  initialMaxData : p.initialMaxData ≤ maxValue
  initialMaxStreamDataBidiLocal : p.initialMaxStreamDataBidiLocal ≤ maxValue
  initialMaxStreamDataBidiRemote : p.initialMaxStreamDataBidiRemote ≤ maxValue
  initialMaxStreamsBidi : p.initialMaxStreamsBidi ≤ Go.Qmux.maxStreamsLimit
  maxRecordSize : p.maxRecordSize ≤ maxValue
  recordSizeOk : p.RecordSizeOk

variable {p : Go.Qmux.Parameters}

theorem Fits.fields_le (h : Fits p) (v : Go.Qmux.Version) : ∀ f ∈ p.fields v, f.1 ≤ maxValue ∧ f.2 ≤ maxValue := by
  have hid := v.maxRecordSizeParameter_fresh.2
  have hi : p.maxIdleTimeout / Go.Qmux.millisecond ≤ maxValue :=
    (Nat.div_le_div_right h.maxIdleTimeout).trans (by decide)
  have hs : p.initialMaxStreamsBidi ≤ maxValue := h.initialMaxStreamsBidi.trans (by decide)
  have hsi : p.effectiveMaxRecordSize ≤ maxValue := by
    unfold Go.Qmux.Parameters.effectiveMaxRecordSize
    split_ifs
    · decide
    · exact h.maxRecordSize
  simp only [Go.Qmux.Parameters.fields, List.forall_mem_cons, List.not_mem_nil, false_implies, implies_true, and_true]
  exact ⟨⟨by decide, hi⟩, ⟨by decide, h.initialMaxData⟩, ⟨by decide, h.initialMaxStreamDataBidiLocal⟩,
    ⟨by decide, h.initialMaxStreamDataBidiRemote⟩, ⟨by decide, hs⟩, hid, hsi⟩

theorem Fits.written (h : Fits p) (v : Go.Qmux.Version) :
    ∃ body, Go.Qmux.appendTransportParameters v p = some (.transportParameters body) := by
  have hva : ∀ va ∈ ((p.fields v).filter (·.2 ≠ 0)).flatMap Go.Qmux.parameterVarints, va ≤ maxValue := by
    intro va hv
    obtain ⟨f, hf, hv⟩ := List.mem_flatMap.mp hv
    have hle := h.fields_le v f (List.mem_of_mem_filter hf)
    have hlen : encodedLen f.2 ≤ maxValue := (encodedLen_le f.2).trans (by decide)
    simp only [Go.Qmux.parameterVarints, List.mem_cons, List.not_mem_nil, or_false] at hv
    obtain rfl | rfl | rfl := hv
    · exact hle.1
    · exact hlen
    · exact hle.2
  obtain ⟨body, hb⟩ := exists_encodeAll hva
  exact ⟨body, by rw [Go.Qmux.appendTransportParameters, hb, Option.map_some]⟩

theorem Fits.advertised_eq (h : Fits p) :
    p.advertised = { p with
      maxIdleTimeout := p.maxIdleTimeout / Go.Qmux.millisecond * Go.Qmux.millisecond
      maxRecordSize := p.effectiveMaxRecordSize } := by
  have hi : p.maxIdleTimeout / Go.Qmux.millisecond ≤ Go.Qmux.maxMilliseconds :=
    Nat.div_le_div_right h.maxIdleTimeout
  rw [Go.Qmux.Parameters.advertised, Nat.min_eq_left hi]

/-- What Go wrote is read back, and both agree exactly where the offer is in range. -/
theorem transport_parameters_agree (v : Go.Qmux.Version) (p : Go.Qmux.Parameters) (body : List UInt8)
    (hbody : body.length ≤ Js.Qmux.maxSafe) :
    (Fits p → ∃ written, Go.Qmux.appendTransportParameters v p = some (.transportParameters written) ∧
      Go.Qmux.decodeParameters v written = .ok { p with
        maxIdleTimeout := p.maxIdleTimeout / Go.Qmux.millisecond * Go.Qmux.millisecond
        maxRecordSize := p.effectiveMaxRecordSize }) ∧
    (Agree body ↔ ∀ offer, offered body = some offer → offer.small = false → offer.InRange) := by
  refine ⟨fun h => ?_, agree_iff hbody⟩
  obtain ⟨written, hwritten⟩ := h.written v
  refine ⟨written, hwritten, ?_⟩
  rw [Go.Qmux.decodeParameters_written hwritten h.recordSizeOk h.initialMaxStreamsBidi, h.advertised_eq]

theorem transport_parameters_agree_small :
    (∃ body, Go.Qmux.appendTransportParameters Go.Qmux.draft02 { maxIdleTimeout := 30000500000, initialMaxData := 7 } =
        some (.transportParameters body) ∧
      Go.Qmux.decodeParameters Go.Qmux.draft02 body =
        .ok { maxIdleTimeout := 30000000000, initialMaxData := 7, maxRecordSize := 16382 }) ∧
    Agree [0x08, 0x01, 0x05, 0x01, 0x01, 0x1e] := by
  obtain ⟨hwritten, hagree⟩ := transport_parameters_agree Go.Qmux.draft02
    { maxIdleTimeout := 30000500000, initialMaxData := 7 } [0x08, 0x01, 0x05, 0x01, 0x01, 0x1e] (by decide)
  refine ⟨hwritten ⟨by decide, by decide, by decide, by decide, by decide, by decide, by decide⟩, hagree.mpr ?_⟩
  intro offer hoffer _
  have hrange : ∀ offer ∈ offered [0x08, 0x01, 0x05, 0x01, 0x01, 0x1e],
      offer.initialMaxStreamsBidi ≤ Go.Qmux.maxStreamsLimit ∧ offer.maxIdleTimeout ≤ Go.Qmux.maxMilliseconds := by
    decide +kernel
  exact hrange offer hoffer

/-- 2^60 + 1 streams are too many for Go only, and 2^53 - 1 milliseconds are kept by one of them only. -/
theorem parameters_disagree :
    ¬ Agree [0x08, 0x08, 0xd0, 0, 0, 0, 0, 0, 0, 1] ∧
      ¬ Agree [0x01, 0x08, 0xc0, 0x1f, 255, 255, 255, 255, 255, 255] := by
  decide +kernel

end TrevRpc.Qmux
