import TrevRpc.Go.WireCodec

/-! # The direct decoder agrees with the protobuf runtime -/

open TrevRpc.Rust TrevRpc.Proto TrevRpc.Checks

namespace TrevRpc.Go

variable {σ : Type}

/-! ## Values that pass the preflight -/

section Preflight

variable {nested : Descriptor → Bytes → Except String Unit} {descriptor : Descriptor} {num : Nat} {b rest : Bytes}

theorem preflight_unknown {typ : WireType} (hl : descriptor.byNumber num = none)
    (hs : consumeFieldValue num typ b = some rest) :
    preflightField nested descriptor () num typ b = .ok ((), rest) := by
  simp only [preflightField, hl, hs]
  rfl

theorem preflight_varint {kind : Kind} {list : Bool} {v : Nat} (hk : protobufWireType kind = .varint)
    (hl : descriptor.byNumber num = some (list, kind)) (hr : consumeVarint b = some (v, rest)) :
    preflightField nested descriptor () num .varint b = .ok ((), rest) := by
  have hs : consumeFieldValue num .varint b = some rest := by simp [consumeFieldValue, skipValue, hr]
  simp only [preflightField, hl, hk, hs]
  cases kind <;> simp [protobufWireType] at hk <;> simp

theorem preflight_bytes {kind : Kind} {data : Bytes} (hk : kind = .string ∨ kind = .bytes)
    (hl : descriptor.byNumber num = some (false, kind)) (hr : consumeBytes b = some (data, rest)) :
    preflightField nested descriptor () num .bytes b = .ok ((), rest) := by
  have hs : consumeFieldValue num .bytes b = some rest := by simp [consumeFieldValue, skipValue, hr]
  rcases hk with rfl | rfl <;> simp [preflightField, hl, protobufWireType, hs]

theorem preflight_packed {data : Bytes} (hl : descriptor.byNumber num = some (true, .uint32))
    (hr : consumeBytes b = some (data, rest)) (hv : preflightPackedValues data .varint = true) :
    preflightField nested descriptor () num .bytes b = .ok ((), rest) := by
  simp [preflightField, hl, protobufWireType, isPackableProtobufKind, hr, hv]

theorem preflight_message {list : Bool} {fs : Descriptor} {data : Bytes}
    (hl : descriptor.byNumber num = some (list, .message fs)) (hr : consumeBytes b = some (data, rest))
    (hn : nested fs data = .ok ()) :
    preflightField nested descriptor () num .bytes b = .ok ((), rest) := by
  simp [preflightField, hl, protobufWireType, isPackableProtobufKind, hr, hn, Except.mapError]

end Preflight

/-! ## Cases and codecs -/

structure Follows (levels : Nat) (case : Case σ) (codec : Codec σ) : Prop where
  accepts : codec.accepts case.wireType = true
  value : ∀ {b rest : Bytes} {m m' : σ}, case.consume b m = .ok (m', rest) →
    codec.consume case.wireType b m = .ok (m', rest)
  preflight : ∀ {b rest : Bytes} {m m' : σ} {descriptor : Descriptor},
    descriptor.byNumber case.number = some (codec.isList, codec.kind) → case.consume b m = .ok (m', rest) →
    preflightField (preflightWireMessageDepth levels) descriptor () case.number case.wireType b = .ok ((), rest)

variable {levels num : Nat} {b rest : Bytes} {m m' : σ}

theorem need_bind_eq_ok {α β τ : Type} {r : Option (α × Bytes)} {f : α → Except NotHandled β} {g : β → τ} {y : τ}
    (h : (do
      let (v, b) ← need NotHandled.notHandled r
      let x ← f v
      Except.ok (g x, b)) = .ok (y, rest)) : ∃ v x, r = some (v, rest) ∧ f v = .ok x ∧ g x = y := by
  obtain ⟨⟨v, after⟩, hr, h⟩ := except_bind_eq_ok.mp h
  obtain ⟨x, hx, h⟩ := except_bind_eq_ok.mp h
  obtain ⟨rfl, rfl⟩ := Prod.mk.inj (Except.ok.inj h)
  exact ⟨v, x, need_eq_ok.mp hr, hx, rfl⟩

theorem Case.consume_varint {set : Nat → σ → Except NotHandled σ}
    (h : (Case.varint num set).consume b m = .ok (m', rest)) :
    ∃ v, consumeVarint b = some (v, rest) ∧ set v m = .ok m' := by
  obtain ⟨v, _, hr, hset, rfl⟩ := need_bind_eq_ok (f := (set · m)) (g := id) h
  exact ⟨v, hr, hset⟩

theorem Case.consume_bytes {set : Bytes → σ → Except NotHandled σ}
    (h : (Case.bytes num set).consume b m = .ok (m', rest)) :
    ∃ data, consumeBytes b = some (data, rest) ∧ set data m = .ok m' := by
  obtain ⟨data, _, hr, hset, rfl⟩ := need_bind_eq_ok (f := (set · m)) (g := id) h
  exact ⟨data, hr, hset⟩

theorem Follows.varint {codec : Codec σ} {set : Nat → σ → Except NotHandled σ}
    (ha : codec.accepts .varint = true) (hk : protobufWireType codec.kind = .varint)
    (hset : ∀ {b rest value m m'}, consumeVarint b = some (value, rest) → set value m = .ok m' →
      codec.consume .varint b m = .ok (m', rest)) : Follows levels (.varint num set) codec where
  accepts := ha
  value h := by
    obtain ⟨value, hr, h⟩ := Case.consume_varint h
    exact hset hr h
  preflight hl h := by
    obtain ⟨value, hr, -⟩ := Case.consume_varint h
    exact preflight_varint hk hl hr

attribute [local simp] Codec.consume

theorem Follows.string {set : Bytes → σ → σ} :
    Follows levels
      (.bytes num fun data m => if validUtf8 data then .ok (set data m) else .error .notHandled) (.string set) where
  accepts := rfl
  value h := by
    obtain ⟨data, hr, h⟩ := Case.consume_bytes h
    split_ifs at h with hv
    rw [Except.ok.inj h.symm]
    simp [hr, hv]
  preflight hl h := by
    obtain ⟨data, hr, -⟩ := Case.consume_bytes h
    exact preflight_bytes (.inl rfl) hl hr

theorem Follows.message {list : Bool} {fs : Descriptor} {merge : Bytes → σ → Except DecodeError σ}
    {set : Bytes → σ → Except NotHandled σ}
    (hset : ∀ {data m m'}, set data m = .ok m' →
      merge data m = .ok m' ∧ preflightWireMessageDepth levels fs data = .ok ()) :
    Follows levels (.bytes num set) (.message list fs merge) where
  accepts := rfl
  value h := by
    obtain ⟨data, hr, h⟩ := Case.consume_bytes h
    simp [hr, (hset h).1]
  preflight hl h := by
    obtain ⟨data, hr, h⟩ := Case.consume_bytes h
    exact preflight_message hl hr (hset h).2

/-! ## Decoders and schemas -/

theorem byNumber_descriptor (schema : Schema σ) (num : Nat) :
    schema.descriptor.byNumber num = (schema.lookup num).map fun c => (c.isList, c.kind) := by
  unfold Descriptor.byNumber Schema.descriptor
  induction schema with
  | nil => rfl
  | cons f rest ih =>
    obtain ⟨o, c⟩ := f
    rw [List.map_cons, List.lookup_cons, List.lookup_cons]
    cases num == o
    · exact ih
    · rfl

def Covers (levels : Nat) (sc : Schema σ) (cases : List (Case σ)) : Prop :=
  ∀ case ∈ cases, ∃ c, sc.lookup case.number = some c ∧ Follows levels case c

theorem Covers.nil {schema : Schema σ} : Covers levels schema [] := by simp [Covers]

theorem Covers.cons {schema : Schema σ} {case : Case σ} {cases : List (Case σ)} {c : Codec σ}
    (hl : schema.lookup case.number = some c) (hf : Follows levels case c) (hcases : Covers levels schema cases) :
    Covers levels schema (case :: cases) :=
  List.forall_mem_cons.mpr ⟨⟨c, hl, hf⟩, hcases⟩

theorem decodeField_follows {schema : Schema σ} {cases : List (Case σ)} {k : List Nat}
    (hcases : Covers levels schema cases)
    (hk : List.map Prod.fst schema ⊆ k) {typ : WireType}
    (h : decodeField cases k m num typ b = .ok (m', rest)) :
    schema.unmarshalField m num typ b = .ok (m', rest) ∧
      preflightField (preflightWireMessageDepth levels) schema.descriptor () num typ b = .ok ((), rest) := by
  have hbyNumber := byNumber_descriptor schema num
  unfold decodeField at h
  unfold Schema.unmarshalField
  by_cases hv : maxValidNumber < num
  · rw [if_pos hv] at h
    cases h
  rw [if_neg hv] at h ⊢
  cases hc : cases.find? fun case => case.number = num && case.wireType = typ with
  | some case =>
    rw [hc] at h
    obtain ⟨c, hco, hf⟩ := hcases case (List.mem_of_find?_eq_some hc)
    obtain ⟨rfl, rfl⟩ : case.number = num ∧ case.wireType = typ := by simpa using List.find?_some hc
    rw [hco] at hbyNumber ⊢
    rw [Option.filter_some, if_pos hf.accepts]
    exact ⟨hf.value h, hf.preflight hbyNumber h⟩
  | none =>
    rw [hc] at h
    dsimp only at h
    split_ifs at h with hmem
    have hl : schema.lookup num = none := by
      refine List.lookup_eq_none_iff.mpr fun field hfi => bne_iff_ne.mpr ?_
      rintro rfl
      exact hmem (hk (List.mem_map_of_mem hfi))
    rw [hl] at hbyNumber ⊢
    obtain ⟨after, hs, h⟩ := except_bind_eq_ok.mp h
    obtain ⟨rfl, rfl⟩ := Prod.mk.inj (Except.ok.inj h)
    have hs := need_eq_ok.mp hs
    exact ⟨by simp [hs], preflight_unknown hbyNumber hs⟩

def Reference (levels : Nat) (sc : Schema σ) (zero : σ) (b : Bytes) (m : σ) : Prop :=
  sc.unmarshal zero b = .ok m ∧ preflightWireMessageDepth (levels + 1) sc.descriptor b = .ok ()

theorem eachField_reference {ε τ : Type} [Inhabited ε] {badTag : ε} {schema : Schema σ} (toMessage : τ → σ)
    {f : τ → Nat → WireType → Bytes → Except ε (τ × Bytes)} {s s' : τ}
    (hf : ∀ {s s' num typ b rest}, f s num typ b = .ok (s', rest) →
      schema.unmarshalField (toMessage s) num typ b = .ok (toMessage s', rest) ∧
        preflightField (preflightWireMessageDepth levels) schema.descriptor () num typ b = .ok ((), rest))
    (h : eachField badTag f s b = .ok s') : Reference levels schema (toMessage s) b (toMessage s') := by
  have hun : ∃ t, schema.unmarshal (toMessage s) b = .ok t ∧ toMessage s' = t := by
    refine eachField_follows (R := fun s t => toMessage s = t) ?_ rfl h
    rintro s _ num typ b s' rest rfl h
    exact ⟨_, (hf h).1, rfl⟩
  have hp : ∃ t, preflightWireMessageDepth (levels + 1) schema.descriptor b = .ok t ∧ True := by
    refine eachField_follows (R := fun _ _ => True) ?_ trivial h
    rintro s ⟨⟩ num typ b s' rest - h
    exact ⟨(), (hf h).2, trivial⟩
  obtain ⟨_, hun, rfl⟩ := hun
  obtain ⟨⟨⟩, hp, -⟩ := hp
  exact ⟨hun, hp⟩

theorem decodeFields_reference {schema : Schema σ} {cases : List (Case σ)}
    (h : eachField .notHandled (decodeField cases (List.map Prod.fst schema)) m b = .ok m')
    (hc : Covers levels schema cases) :
    Reference levels schema m b m' :=
  eachField_reference id (decodeField_follows hc (List.Subset.refl _)) h

/-! ## Metadata -/

theorem consumeMapEntry_reference (levels : Nat) {e key v : Bytes} (h : consumeMapEntry e = .ok (key, v)) :
    Reference levels Schema.entry {} e ⟨key, v⟩ := by
  refine eachField_reference (fun s : Bytes × Bytes => Schema.Entry.mk s.1 s.2) ?_ h
  rintro ⟨key, v⟩ s' num typ b rest h
  have hbyNumber := byNumber_descriptor Schema.entry num
  dsimp only at h
  by_cases htyp : typ = .bytes
  · subst htyp
    rw [if_neg (not_not.mpr rfl)] at h
    obtain ⟨⟨data, after⟩, hr, hd⟩ := except_bind_eq_ok.mp h
    have hr := need_eq_ok.mp hr
    dsimp only at hd
    split_ifs at hd with hkey hva hv
    · subst hkey
      obtain ⟨rfl, rfl⟩ := Prod.mk.inj (Except.ok.inj hd)
      rw [Schema.unmarshalField_known rfl rfl (by decide)]
      exact ⟨by simp [hr, hva], preflight_bytes (.inl rfl) hbyNumber hr⟩
    · subst hv
      obtain ⟨rfl, rfl⟩ := Prod.mk.inj (Except.ok.inj hd)
      rw [Schema.unmarshalField_known rfl rfl (by decide)]
      exact ⟨by simp [hr], preflight_bytes (.inr rfl) hbyNumber hr⟩
  · rw [if_pos htyp] at h
    cases h

theorem Follows.metadata (get : σ → Metadata) (set : Metadata → σ → σ) :
    Follows (levels + 1)
      (.bytes num fun data m => do
        let me ← consumeMetadataEntry (get m) data
        .ok (set me m))
      (Schema.map fun key v m => set ((get m).insert key v) m) := by
  refine Follows.message fun {data m m'} h => ?_
  obtain ⟨me, hen, h⟩ := except_bind_eq_ok.mp h
  obtain ⟨⟨key, v⟩, hen, hi⟩ := except_bind_eq_ok.mp hen
  obtain ⟨hun, hp⟩ := consumeMapEntry_reference levels hen
  refine ⟨?_, hp⟩
  rw [← Except.ok.inj hi] at h
  rw [hun, ok_bind]
  exact congrArg _ (Except.ok.inj h)

/-! ## The messages -/

theorem smallNumber_eq_ok {value : Nat} {id : UInt32} (h : smallNumber value = .ok id) : id = .ofNat value := by
  unfold smallNumber at h
  split_ifs at h
  exact (Except.ok.inj h).symm

theorem Follows.number32 {set : UInt32 → σ → σ} :
    Follows levels
      (.varint num fun v m => do
        let id ← smallNumber v
        .ok (set id m)) (.uint32 set) := by
  refine Follows.varint rfl rfl fun {b rest v m m'} hr h => ?_
  obtain ⟨id, hid, h⟩ := except_bind_eq_ok.mp h
  obtain rfl := smallNumber_eq_ok hid
  simp [hr, Except.ok.inj h]

theorem consumeConnectionMetadata_reference (levels : Nat) {data : Bytes} {info : ConnectionMetadataInfo}
    (h : consumeConnectionMetadata data = .ok info) :
    Reference (levels + 1) ConnectionMetadataInfo.schema {} data info := by
  refine decodeFields_reference h (.cons rfl .number32 (.cons rfl ?_ .nil))
  exact .metadata _ fun metadata (m : ConnectionMetadataInfo) => { m with metadata }

theorem WireHeaders.decodeFast_reference (levels : Nat) {b : Bytes} {m : WireHeaders} (h : decodeFast b = .ok m) :
    Reference (levels + 1) schema {} b m := by
  refine decodeFields_reference h (.cons rfl ?_ .nil)
  exact .metadata _ fun metadata (m : WireHeaders) => { m with metadata }

theorem Follows.set {codec : Codec σ} {set : Nat → σ → σ} (ha : codec.accepts .varint = true)
    (hk : protobufWireType codec.kind = .varint)
    (hset : ∀ {b rest v m}, consumeVarint b = some (v, rest) →
      codec.consume .varint b m = .ok (set v m, rest)) :
    Follows levels (.varint num fun v m => .ok (set v m)) codec :=
  .varint ha hk fun hr h => Except.ok.inj h ▸ hset hr

theorem WireAnswer.decodeFast_reference (levels : Nat) {b : Bytes} {m : WireAnswer} (h : decodeFast b = .ok m) :
    Reference (levels + 1) schema {} b m := by
  refine decodeFields_reference h (.cons rfl (.set rfl rfl fun hr => ?_) (.cons rfl .number32 .nil))
  simp [hr]

theorem WireStatus.decodeFast_reference (levels : Nat) {b : Bytes} {m : WireStatus} (h : decodeFast b = .ok m) :
    Reference (levels + 1) schema {} b m := by
  refine decodeFields_reference h (.cons rfl (.set rfl rfl fun hr => ?_) (.cons rfl .string (.cons rfl
    (.metadata _ fun metadata (m : WireStatus) => { m with metadata }) (.cons rfl (.set rfl rfl fun hr => ?_) .nil))))
  all_goals simp [hr]

theorem packed_round {set : UInt32 → σ → σ}
    (h : (do
      let (v, b) ← need NotHandled.notHandled (consumeVarint b)
      let id ← smallNumber v
      Except.ok (set id m, b)) = .ok (m', rest)) :
    ∃ v, consumeVarint b = some (v, rest) ∧ set (.ofNat v) m = m' := by
  obtain ⟨v, id, hr, hid, rfl⟩ := need_bind_eq_ok h
  exact ⟨v, hr, by rw [smallNumber_eq_ok hid]⟩

theorem Follows.packed {set : UInt32 → σ → σ} :
    Follows levels
      (.bytes num fun data m =>
        consumeAll (fun m data => do
          let (value, data) ← need .notHandled (consumeVarint data)
          let id ← smallNumber value
          .ok (set id m, data)) m data) (.uint32s set) where
  accepts := rfl
  value {b rest m m'} h := by
    obtain ⟨data, hr, h⟩ := Case.consume_bytes h
    have hlo : ∃ t, consumeAll (fun m b => do
        let (value, b) ← need DecodeError.decode (consumeVarint b)
        .ok (set (.ofNat value) m, b)) m data = .ok t ∧ m' = t := by
      refine consumeAll_follows (R := Eq) ?_ rfl h
      rintro s _ b s' rest rfl h
      obtain ⟨value, hr, rfl⟩ := packed_round h
      exact ⟨_, by simp [hr], rfl⟩
    obtain ⟨_, hlo, rfl⟩ := hlo
    simp only [Codec.consume, hr, need_some, ok_bind, Case.wireType, if_true]
    rw [hlo]
    rfl
  preflight {b rest m m' _} hl h := by
    obtain ⟨data, hr, h⟩ := Case.consume_bytes h
    refine preflight_packed hl hr ?_
    have hlo : ∃ t, consumeAll (fun (_ : Unit) data =>
        need () ((consumeVarint data).map fun (_, rest) => ((), rest))) () data = .ok t ∧ True := by
      refine consumeAll_follows (R := fun _ _ => True) ?_ trivial h
      rintro s ⟨⟩ b s' rest - h
      obtain ⟨value, hr, -⟩ := packed_round h
      exact ⟨(), by simp [hr], trivial⟩
    obtain ⟨_, hlo, -⟩ := hlo
    rw [preflightPackedValues, hlo]
    rfl

theorem WireRequest.decodeFast_reference (levels : Nat) {b : Bytes} {m : WireRequest} (h : decodeFast b = .ok m) :
    Reference (levels + 2) schema {} b m := by
  refine decodeFields_reference h (.cons rfl .string (.cons rfl
    (.metadata _ fun metadata (m : WireRequest) => { m with metadata })
    (.cons rfl (.set rfl rfl fun hr => ?_) (.cons rfl
    (.set rfl rfl fun hr => ?_) (.cons rfl (.set rfl rfl fun hr => ?_) (.cons rfl .packed (.cons rfl
    (.set rfl rfl fun hr => ?_) (.cons rfl (.message fun {data m m'} h => ?_) .nil))))))))
  case refine_5 =>
    split_ifs at h with hn
    obtain ⟨info, hi, h⟩ := except_bind_eq_ok.mp h
    obtain ⟨hun, hp⟩ := consumeConnectionMetadata_reference levels hi
    beta_reduce
    rw [not_not.mp hn, Option.getD_none, hun]
    exact ⟨congrArg _ (Except.ok.inj h), hp⟩
  all_goals simp [hr]

theorem decodePayload_eq_ok {schema : Schema σ} {zero : σ} (h : Reference maxPreflightMessageDepth schema zero b m) :
    decodePayload schema zero b = .ok m := by
  rw [decodePayload, preflightWireMessage, h.2, h.1]
  rfl

theorem decodeFast_agrees (payload : Bytes) :
    (∀ m, WireRequest.decodeFast payload = .ok m → decodePayload WireRequest.schema {} payload = .ok m) ∧
      (∀ m, WireHeaders.decodeFast payload = .ok m → decodePayload WireHeaders.schema {} payload = .ok m) ∧
      (∀ m, WireAnswer.decodeFast payload = .ok m → decodePayload WireAnswer.schema {} payload = .ok m) ∧
      ∀ m, WireStatus.decodeFast payload = .ok m → decodePayload WireStatus.schema {} payload = .ok m := by
  refine ⟨fun m h => ?_, fun m h => ?_, fun m h => ?_, fun m h => ?_⟩
  · exact decodePayload_eq_ok (WireRequest.decodeFast_reference 98 h)
  · exact decodePayload_eq_ok (WireHeaders.decodeFast_reference 99 h)
  · exact decodePayload_eq_ok (WireAnswer.decodeFast_reference 99 h)
  · exact decodePayload_eq_ok (WireStatus.decodeFast_reference 99 h)

theorem decodeFast_agrees_request :
    let payload : Bytes := [10, 2, 47, 97, 18, 6, 10, 1, 107, 18, 1, 118, 18, 3, 10, 1, 107, 50, 2, 1, 5, 120, 1, 32, 9]
    decodePayload WireRequest.schema {} payload =
      .ok {
        method := [47, 97], metadata := Finmap.singleton [107] [], acceptDictionaries := [1, 5]
        timeoutNanos := 9 } := by
  intro payload
  exact (decodeFast_agrees payload).1 _ rfl

end TrevRpc.Go
