import TrevRpc.Go.WireEncoding

/-! # What the direct encoder writes has the computed size and is read back -/

open TrevRpc.Proto
open TrevRpc.Rust (Bytes)

namespace TrevRpc.Go

variable {σ τ : Type}

/-! ## Numbers -/

theorem uint32_lt (v : UInt32) : v.toNat < 2 ^ 64 := Nat.lt_trans v.toNat_lt (by decide)

theorem toUint64_lt (v : Int32) : toUint64 v < 2 ^ 64 := by
  unfold toUint64
  omega

theorem ofNat_toUint64 (value : Int32) : Int32.ofNat (toUint64 value) = value := by
  have hlt := value.toInt_lt
  have hle := value.le_toInt
  rw [← Int32.toInt_inj, Int32.toInt_ofNat', Int.bmod_eq_emod, toUint64]
  split_ifs <;> simp only [Int32.size] at * <;> omega

/-! ## Fields that are decoded -/

structure Decodes (levels : Nat) (schema : Schema σ) (e : Bytes) (size : Nat) (m m' : σ) : Prop where
  unmarshal : ∀ {rest t}, e.length < 2 ^ 63 → schema.unmarshal m' rest = .ok t →
    schema.unmarshal m (e ++ rest) = .ok t
  preflight : ∀ {rest}, e.length < 2 ^ 63 → preflightWireMessageDepth (levels + 1) schema.descriptor rest = .ok () →
    preflightWireMessageDepth (levels + 1) schema.descriptor (e ++ rest) = .ok ()
  sized : Sized e size

namespace Decodes

variable {levels : Nat} {schema : Schema σ} {e e' : Bytes} {size size' : Nat} {m m' m'' : σ} {num : Nat}
  {typ : WireType} {codec : Codec σ}

theorem nil : Decodes levels schema [] 0 m m where
  unmarshal _ h := h
  preflight _ h := h
  sized := .nil

theorem append (h : Decodes levels schema e size m m') (h' : Decodes levels schema e' size' m' m'') :
    Decodes levels schema (e ++ e') (size + size') m m'' where
  unmarshal hlt hr := by
    rw [List.length_append] at hlt
    rw [List.append_assoc]
    exact h.unmarshal (by omega) (h'.unmarshal (by omega) hr)
  preflight hlt hr := by
    rw [List.length_append] at hlt
    rw [List.append_assoc]
    exact h.preflight (by omega) (h'.preflight (by omega) hr)
  sized := h.sized.append h'.sized

theorem ite {c : Prop} [Decidable c] (h : c → Decodes levels schema e size m m') (hnot : ¬ c → m' = m) :
    Decodes levels schema (if c then e else []) (if c then size else 0) m m' := by
  split_ifs with hc
  · exact h hc
  · rw [hnot hc]
    exact nil

theorem all (h : Decodes levels schema e size m m') (hlt : e.length < 2 ^ 63) : Reference levels schema m e m' := by
  have hu : schema.unmarshal m (e ++ []) = .ok m' := h.unmarshal hlt rfl
  have hp : preflightWireMessageDepth (levels + 1) schema.descriptor (e ++ []) = .ok () := h.preflight hlt rfl
  rw [List.append_nil] at hu hp
  exact ⟨hu, hp⟩

theorem field {v : Bytes} (hl : schema.lookup num = some codec) (hnum : 0 < num ∧ num < 16)
    (ha : codec.accepts typ = true) (hs : Sized (tagBytes num typ ++ v) size)
    (hv : v.length < 2 ^ 63 → ∀ rest, codec.consume typ (v ++ rest) m = .ok (m', rest))
    (hp : v.length < 2 ^ 63 → ∀ rest, schema.descriptor.byNumber num = some (codec.isList, codec.kind) →
      preflightField (preflightWireMessageDepth levels) schema.descriptor () num typ (v ++ rest) =
        .ok ((), rest)) :
    Decodes levels schema (tagBytes num typ ++ v) size m m' := by
  have hmax : num ≤ maxValidNumber := by
    unfold maxValidNumber
    omega
  have hlen : ∀ rest, rest.length < (tagBytes num typ ++ v ++ rest).length := by
    intro rest
    have hall : ∀ num < 16, 0 < sizeTag num := by decide
    have htag := hall num hnum.2
    rw [List.length_append, List.length_append, length_tagBytes hnum.2]
    omega
  have hbyNumber : schema.descriptor.byNumber num = some (codec.isList, codec.kind) := by
    rw [byNumber_descriptor, hl]
    rfl
  refine ⟨fun {rest t} hlt h => ?_, fun {rest} hlt h => ?_, hs⟩ <;> rw [List.length_append] at hlt <;>
    refine consumeAll_cons (hlen rest) ?_ h <;> rw [List.append_assoc, consumeTag_tagBytes typ hnum.1 hmax]
  · exact (Schema.unmarshalField_known hl ha hmax _ _).trans (hv (by omega) rest)
  · exact hp (by omega) rest hbyNumber

theorem varint {v : Nat} (hl : schema.lookup num = some codec) (hnum : 0 < num ∧ num < 16)
    (ha : codec.accepts .varint = true) (hk : protobufWireType codec.kind = .varint) (hlt : v < 2 ^ 64)
    (hset : ∀ {b rest}, consumeVarint b = some (v, rest) → codec.consume .varint b m = .ok (m', rest)) :
    Decodes levels schema (varintField num v) (sizeTag num + sizeVarint v) m m' := by
  refine field hl hnum ha (.varintField hnum.2 hlt)
    (fun _ rest => hset (consumeVarint_varintBytes hlt rest)) ?_
  intro _ rest hbyNumber
  exact preflight_varint hk hbyNumber (consumeVarint_varintBytes hlt rest)

theorem uint32 (num : Nat) (set : UInt32 → σ → σ) (v : UInt32)
    (hl : schema.lookup num = some (.uint32 set) := by rfl) (hnum : 0 < num ∧ num < 16 := by decide)
    (hz : set 0 m = m := by rfl) :
    Decodes levels schema (if v ≠ 0 then varintField num v.toNat else [])
      (if v ≠ 0 then sizeTag num + sizeVarint v.toNat else 0) m (set v m) := by
  refine ite (fun _ => varint hl hnum rfl rfl (uint32_lt v) fun hr => ?_) fun hnot => ?_
  · simp [Codec.consume, hr]
  · rw [not_not.mp hnot, hz]

theorem uint64 (num : Nat) (set : UInt64 → σ → σ) (v : UInt64)
    (hl : schema.lookup num = some (.uint64 set) := by rfl) (hnum : 0 < num ∧ num < 16 := by decide)
    (hz : set 0 m = m := by rfl) :
    Decodes levels schema (if v ≠ 0 then varintField num v.toNat else [])
      (if v ≠ 0 then sizeTag num + sizeVarint v.toNat else 0) m (set v m) := by
  refine ite (fun _ => varint hl hnum rfl rfl v.toNat_lt fun hr => ?_) fun hnot => ?_
  · simp [Codec.consume, hr]
  · rw [not_not.mp hnot, hz]

theorem enum (num : Nat) (set : Int32 → σ → σ) (v : Int32)
    (hl : schema.lookup num = some (.enum set) := by rfl) (hnum : 0 < num ∧ num < 16 := by decide)
    (hz : set 0 m = m := by rfl) :
    Decodes levels schema (if v ≠ 0 then varintField num (toUint64 v) else [])
      (if v ≠ 0 then sizeTag num + sizeVarint (toUint64 v) else 0) m (set v m) := by
  refine ite (fun _ => varint hl hnum rfl rfl (toUint64_lt v) fun hr => ?_) fun hnot => ?_
  · simp [Codec.consume, hr, ofNat_toUint64]
  · rw [not_not.mp hnot, hz]

theorem bool (num : Nat) (set : Bool → σ → σ) (v : Bool)
    (hl : schema.lookup num = some (.bool set) := by rfl) (hnum : 0 < num ∧ num < 16 := by decide)
    (hz : set false m = m := by rfl) :
    Decodes levels schema (if v then varintField num 1 else []) (if v then sizeTag num + sizeVarint 1 else 0) m
      (set v m) := by
  refine ite (fun hset => varint hl hnum rfl rfl (by decide) fun hr => ?_) fun hnot => ?_
  · simp [Codec.consume, hr, hset]
  · rw [Bool.eq_false_of_not_eq_true hnot, hz]

variable {data : Bytes}

theorem read_lengthDelimited (hlt : (lengthDelimited data).length < 2 ^ 63) (rest : Bytes) :
    consumeBytes (lengthDelimited data ++ rest) = some (data, rest) := by
  rw [lengthDelimited, List.length_append] at hlt
  exact consumeBytes_lengthDelimited (by omega) rest

theorem string (num : Nat) (set : Bytes → σ → σ) (hv : validUtf8 data = true)
    (hl : schema.lookup num = some (.string set) := by rfl) (hnum : 0 < num ∧ num < 16 := by decide) :
    Decodes levels schema (bytesField num data) (sizeTag num + sizeBytes data.length) m (set data m) := by
  refine field hl hnum rfl (.bytesField hnum.2 data) (fun hlt rest => ?_) ?_
  · simp [Codec.consume, read_lengthDelimited hlt, hv]
  · intro hlt rest hbyNumber
    exact preflight_bytes (.inl rfl) hbyNumber (read_lengthDelimited hlt rest)

theorem bytes (num : Nat) (set : Bytes → σ → σ) (data : Bytes)
    (hl : schema.lookup num = some (.bytes set) := by rfl) (hnum : 0 < num ∧ num < 16 := by decide) :
    Decodes levels schema (bytesField num data) (sizeTag num + sizeBytes data.length) m (set data m) := by
  refine field hl hnum rfl (.bytesField hnum.2 data) (fun hlt rest => ?_) ?_
  · simp [Codec.consume, read_lengthDelimited hlt]
  · intro hlt rest hbyNumber
    exact preflight_bytes (.inr rfl) hbyNumber (read_lengthDelimited hlt rest)

theorem text (num : Nat) (set : Bytes → σ → σ) (hv : validUtf8 data = true)
    (hl : schema.lookup num = some (.string set) := by rfl) (hnum : 0 < num ∧ num < 16 := by decide)
    (hempty : set [] m = m := by rfl) :
    Decodes levels schema (if data ≠ [] then bytesField num data else [])
      (if data ≠ [] then sizeTag num + sizeBytes data.length else 0) m (set data m) :=
  ite (fun _ => string num set hv hl hnum) fun hnot => by rw [not_not.mp hnot, hempty]

theorem read_measured (hs : Sized data size)
    (hlt : (varintBytes size ++ data).length < 2 ^ 63) (rest : Bytes) :
    data.length < 2 ^ 63 ∧ consumeBytes (varintBytes size ++ data ++ rest) = some (data, rest) := by
  have hd : data.length < 2 ^ 63 := by
    rw [List.length_append] at hlt
    omega
  rw [hs.measured hd]
  exact ⟨hd, consumeBytes_lengthDelimited (by omega) rest⟩

theorem message {list : Bool} {fs : Descriptor} {merge : Bytes → σ → Except DecodeError σ}
    (hl : schema.lookup num = some (.message list fs merge)) (hnum : 0 < num ∧ num < 16)
    (hs : Sized data size) (hm : data.length < 2 ^ 63 →
      merge data m = .ok m' ∧ preflightWireMessageDepth levels fs data = .ok ()) :
    Decodes levels schema (measuredField num size data) (sizeTag num + sizeBytes size) m m' := by
  refine field hl hnum rfl (.measuredField hnum.2 hs) (fun hlt rest => ?_) ?_
  · obtain ⟨hd, hr⟩ := read_measured hs hlt rest
    simp only [Codec.consume, hr, need_some, ok_bind, (hm hd).1]
  · intro hlt rest hbyNumber
    obtain ⟨hd, hr⟩ := read_measured hs hlt rest
    exact preflight_message hbyNumber hr (hm hd).2

theorem flatMap {α : Type} {w : α → Bytes} {size : α → Nat} {merge : σ → α → σ} {xs : List α}
    (h : ∀ x ∈ xs, ∀ m, Decodes levels schema (w x) (size x) m (merge m x)) :
    Decodes levels schema (xs.flatMap w) (xs.map size).sum m (xs.foldl merge m) := by
  induction xs generalizing m with
  | nil => exact nil
  | cons x xs ih =>
    rw [List.flatMap_cons, List.foldl_cons, List.map_cons, List.sum_cons]
    exact (h x List.mem_cons_self m).append (ih fun y hy => h y (List.mem_cons_of_mem _ hy))

end Decodes

/-! ## Packed numbers -/

theorem consumeAll_varints {ε : Type} [Inhabited ε] (next : σ → Bytes → Except ε (σ × Bytes)) (set : Nat → σ → σ)
    (hn : ∀ {s b v rest}, consumeVarint b = some (v, rest) → next s b = .ok (set v s, rest))
    (vs : List UInt32) (s : σ) :
    consumeAll next s (vs.flatMap fun v => varintBytes v.toNat) =
      .ok (vs.foldl (fun s v => set v.toNat s) s) := by
  induction vs generalizing s with
  | nil => rfl
  | cons v vs ih =>
    have hlt := uint32_lt v
    have hpos : 0 < (varintBytes v.toNat).length := by
      rw [length_varintBytes hlt, sizeVarint]
      omega
    have hr := hn (s := s)
      (consumeVarint_varintBytes hlt (vs.flatMap fun v => varintBytes v.toNat))
    refine consumeAll_cons ?_ hr (ih _)
    rw [List.flatMap_cons, List.length_append]
    omega

/-! ## Loops that append -/

theorem foldl_append {α : Type} {f : Bytes → α → Bytes} {write : α → Bytes} (hf : ∀ b x, f b x = b ++ write x)
    (xs : List α) (b : Bytes) : xs.foldl f b = b ++ xs.flatMap write := by
  induction xs generalizing b with
  | nil => rw [List.foldl_nil, List.flatMap_nil, List.append_nil]
  | cons x xs ih => rw [List.foldl_cons, ih, hf, List.append_assoc, List.flatMap_cons]

theorem foldl_add {α : Type} (size : α → Nat) (xs : List α) (n : Nat) :
    xs.foldl (fun n x => n + size x) n = n + (xs.map size).sum := by
  induction xs generalizing n with
  | nil => rfl
  | cons x xs ih => rw [List.foldl_cons, ih, List.map_cons, List.sum_cons, Nat.add_assoc]

structure IsField {α : Type} (get : σ → α) (set : α → σ → σ) : Prop where
  get_set : ∀ x m, get (set x m) = x := by intros; rfl
  set_set : ∀ x y m, set x (set y m) = set x m := by intros; rfl
  set_get : ∀ m, set (get m) m = m := by intros; rfl

theorem IsField.foldl_concat {α : Type} {get : σ → List α} {set : List α → σ → σ} (h : IsField get set) (xs : List α)
    (m : σ) : xs.foldl (fun m x => set (get m ++ [x]) m) m = set (get m ++ xs) m := by
  induction xs generalizing m with
  | nil => rw [List.foldl_nil, List.append_nil, h.set_get]
  | cons x xs ih => rw [List.foldl_cons, ih, h.get_set, h.set_set, List.append_assoc, List.singleton_append]

def packedUint32sBytes (num : Nat) (values : List UInt32) : Bytes :=
  if values.length = 0 then []
  else measuredField num (packedUint32sSize values) (values.flatMap fun value => varintBytes value.toNat)

theorem sized_packedValues (vs : List UInt32) :
    Sized (vs.flatMap fun v => varintBytes v.toNat) (packedUint32sSize vs) := by
  rw [packedUint32sSize, foldl_add, Nat.zero_add]
  exact Sized.flatMap fun v _ _ => length_varintBytes (uint32_lt v)

theorem Decodes.packedUint32s {levels : Nat} {schema : Schema σ} {m : σ} (num : Nat) (get : σ → List UInt32)
    (set : List UInt32 → σ → σ) (vs : List UInt32)
    (hl : schema.lookup num = some (.uint32s fun id m => set (get m ++ [id]) m) := by rfl)
    (hnum : 0 < num ∧ num < 16 := by decide) (hempty : get m = [] := by rfl) (hget : IsField get set := by exact {}) :
    Decodes levels schema (packedUint32sBytes num vs) (packedUint32sFieldSize num vs) m (set vs m) := by
  have hs := sized_packedValues vs
  have hf := hget.foldl_concat vs m
  rw [hempty, List.nil_append] at hf
  rw [← hf]
  unfold packedUint32sBytes packedUint32sFieldSize
  split_ifs with hz
  · rw [List.length_eq_zero_iff.mp hz]
    exact .nil
  refine field hl hnum rfl (.measuredField hnum.2 hs) (fun hlt rest => ?_) ?_
  · obtain ⟨-, hr⟩ := read_measured hs hlt rest
    simp only [Codec.consume, hr, need_some, ok_bind, if_true]
    rw [consumeAll_varints _ (fun v m => set (get m ++ [.ofNat v]) m) (fun hr => ?_)]
    · simp only [UInt32.ofNat_toNat]
      rfl
    · simp [hr]
  · intro hlt rest hbyNumber
    obtain ⟨-, hr⟩ := read_measured hs hlt rest
    refine preflight_packed hbyNumber hr ?_
    rw [preflightPackedValues, consumeAll_varints _ (fun _ s => s) (fun hr => ?_)]
    · rfl
    · simp [hr]

/-! ## Metadata -/

theorem Range.perm {metadata : Metadata} (r r' : Range metadata) : r.1.Perm r'.1 := by
  refine (List.perm_ext_iff_of_nodup (.of_map _ r.2.1) (.of_map _ r'.2.1)).mpr ?_
  rintro ⟨key, value⟩
  rw [r.2.2, r'.2.2]

theorem lookup_foldl_insert (es : List (Bytes × Bytes)) (st : Metadata) (key : Bytes)
    (hn : (es.map Prod.fst).Nodup) :
    (es.foldl (fun me (key, v) => me.insert key v) st).lookup key =
      (es.lookup key).or (st.lookup key) := by
  induction es generalizing st with
  | nil => rfl
  | cons en es ih =>
    obtain ⟨first, v⟩ := en
    rw [List.map_cons, List.nodup_cons] at hn
    rw [List.foldl_cons, ih _ hn.2, List.lookup_cons]
    by_cases hkey : key = first
    · subst hkey
      have hno : es.lookup key = none := by
        refine List.lookup_eq_none_iff.mpr fun en hen => bne_iff_ne.mpr fun heq => hn.1 ?_
        exact List.mem_map.mpr ⟨en, hen, heq.symm⟩
      rw [hno, Finmap.lookup_insert, beq_self_eq_true]
      rfl
    · rw [Finmap.lookup_insert_of_ne _ hkey, beq_false_of_ne hkey]

theorem Range.foldl_insert {metadata : Metadata} (r : Range metadata) :
    r.1.foldl (fun metadata (key, v) => metadata.insert key v) ∅ = metadata := by
  refine Finmap.ext_lookup fun key => ?_
  rw [lookup_foldl_insert _ _ _ r.2.1, Finmap.lookup_empty, Option.or_none]
  cases hen : r.1.lookup key with
  | none =>
    cases hm : metadata.lookup key with
    | none => rfl
    | some v =>
      have hmem := (r.2.2 key v).mpr hm
      have hne := List.lookup_eq_none_iff.mp hen _ hmem
      simp at hne
  | some v =>
    rw [(r.2.2 key v).mp ?_]
    obtain ⟨before, after, hs, -⟩ := List.lookup_eq_some_iff.mp hen
    rw [hs]
    simp

def entryBytes (num : Nat) : Bytes × Bytes → Bytes
  | (key, value) =>
    measuredField num (mapEntrySize key value) (bytesField mapEntryKeyField key ++ bytesField mapEntryValueField value)

theorem appendMetadataField_eq (r : Loop) (b : Bytes) (num : Nat) (metadata : Metadata) :
    appendMetadataField r b num metadata = b ++ (r metadata).1.flatMap (entryBytes num) := by
  unfold appendMetadataField
  refine foldl_append ?_ _ _
  rintro b ⟨key, value⟩
  simp only [appendTag, appendVarint, appendBytes, entryBytes, measuredField, bytesField, List.append_assoc]

theorem sized_entry (key v : Bytes) :
    Sized (bytesField mapEntryKeyField key ++ bytesField mapEntryValueField v) (mapEntrySize key v) := by
  have hone : sizeTag mapEntryKeyField = 1 ∧ sizeTag mapEntryValueField = 1 := by decide
  rw [mapEntrySize, Nat.add_assoc, ← hone.1]
  exact .append (.bytesField (by decide) _) (.bytesField (by decide) _)

theorem metadataFieldSize_congr (r r' : Loop) (num : Nat) (metadata : Metadata) :
    metadataFieldSize r num metadata = metadataFieldSize r' num metadata := by
  have hp := (r metadata).perm (r' metadata)
  rw [metadataFieldSize, metadataFieldSize, foldl_add, foldl_add]
  exact congrArg _ (hp.map _).sum_nat

variable {vr : Loop}

theorem Decodes.metadata {levels : Nat} {schema : Schema σ} {m : σ} {metadata : Metadata} (num : Nat)
    (get : σ → Metadata) (set : Metadata → σ → σ) (r sizeRange : Loop)
    (hv : metadataValid vr metadata = true)
    (hl : schema.lookup num = some (Schema.map fun key value m => set ((get m).insert key value) m) := by rfl)
    (hnum : 0 < num ∧ num < 16 := by decide) (hempty : get m = ∅ := by rfl) (hget : IsField get set := by exact {}) :
    Decodes (levels + 1) schema ((r metadata).1.flatMap (entryBytes num)) (metadataFieldSize sizeRange num metadata)
      m (set metadata m) := by
  have hfo : ∀ (es : List (Bytes × Bytes)) (m : σ),
      es.foldl (fun m (key, value) => set ((get m).insert key value) m) m =
        set (es.foldl (fun metadata (key, value) => metadata.insert key value) (get m)) m := by
    intro es
    induction es with
    | nil => intro m; exact (hget.set_get m).symm
    | cons entry es ih =>
      intro m
      rw [List.foldl_cons, ih, List.foldl_cons, hget.get_set, hget.set_set]
  have hf := hfo (r metadata).1 m
  rw [hempty, (r metadata).foldl_insert] at hf
  rw [← hf, metadataFieldSize_congr sizeRange r, metadataFieldSize, foldl_add, Nat.zero_add]
  refine flatMap ?_
  rintro ⟨key, value⟩ hmem m
  have hkey : validUtf8 key = true := by
    have hmem := (Range.perm (r metadata) (vr metadata)).subset hmem
    exact List.all_eq_true.mp hv _ hmem
  refine message hl hnum (sized_entry key value) fun hlt => ?_
  have hen : Decodes levels Schema.entry (bytesField mapEntryKeyField key ++ bytesField mapEntryValueField value) _ {}
      ⟨key, value⟩ :=
    append (string _ (fun key (e : Schema.Entry) => { e with key }) hkey)
      (bytes _ (fun value (e : Schema.Entry) => { e with value }) value)
  obtain ⟨hu, hp⟩ := hen.all hlt
  rw [hu]
  exact ⟨rfl, hp⟩

/-! ## Dictionaries and connection metadata -/

variable {c : Prop}

theorem append_varintField [Decidable c] (b : Bytes) (num v : Nat) :
    (if c then appendVarint (appendTag b num .varint) v else b) = b ++ if c then varintField num v else [] := by
  split_ifs
  · exact List.append_assoc _ _ _
  · exact (List.append_nil b).symm

theorem append_bytesField [Decidable c] (b : Bytes) (num : Nat) (data : Bytes) :
    (if c then appendBytes (appendTag b num .bytes) data else b) = b ++ if c then bytesField num data else [] := by
  split_ifs
  · exact List.append_assoc _ _ _
  · exact (List.append_nil b).symm

theorem append_measuredField (b : Bytes) (num size : Nat) (data : Bytes) :
    appendVarint (appendTag b num .bytes) size ++ data = b ++ measuredField num size data := by
  simp only [appendVarint, appendTag, measuredField, List.append_assoc]

theorem add_ite [Decidable c] (n k : Nat) : (if c then n + k else n) = n + if c then k else 0 := by
  split_ifs <;> rfl

def dictionaryInfoBytes (info : DictionaryInfo) : Bytes :=
  (if info.id ≠ 0 then varintField dictionaryIDField info.id.toNat else []) ++
    if 0 < info.fingerprint.length then bytesField dictionaryFingerField info.fingerprint else []

def dictionaryInfosBytes (num : Nat) (infos : List DictionaryInfo) : Bytes :=
  infos.flatMap fun info => measuredField num (dictionaryInfoSize info) (dictionaryInfoBytes info)

theorem appendDictionaryInfos_eq (b : Bytes) (num : Nat) (infos : List DictionaryInfo) :
    appendDictionaryInfos b num infos = b ++ dictionaryInfosBytes num infos := by
  unfold appendDictionaryInfos dictionaryInfosBytes
  refine foldl_append ?_ _ _
  intro b info
  dsimp only
  rw [append_varintField, append_bytesField, List.append_assoc, ← append_measuredField]
  rfl

theorem decodes_dictionaryInfo (levels : Nat) (info : DictionaryInfo) :
    Decodes levels DictionaryInfo.schema (dictionaryInfoBytes info) (dictionaryInfoSize info) {} info := by
  obtain ⟨id, fingerprint⟩ := info
  simp only [dictionaryInfoSize, add_ite, Nat.zero_add]
  refine .append (.uint32 _ (fun id (m : DictionaryInfo) => { m with id }) id) (.ite (fun _ => ?_) fun hem => ?_)
  · exact .bytes _ (fun fingerprint (m : DictionaryInfo) => { m with fingerprint }) fingerprint
  · have hem : fingerprint = [] := List.length_eq_zero_iff.mp (Nat.eq_zero_of_not_pos hem)
    rw [hem]

theorem Decodes.dictionaryInfos {levels : Nat} {schema : Schema σ} {m : σ} (num : Nat) (get : σ → List DictionaryInfo)
    (set : List DictionaryInfo → σ → σ) (i : List DictionaryInfo)
    (hl : schema.lookup num =
      some (DictionaryInfo.schema.repeated {} fun info m => set (get m ++ [info]) m) := by rfl)
    (hnum : 0 < num ∧ num < 16 := by decide) (hempty : get m = [] := by rfl) (hget : IsField get set := by exact {}) :
    Decodes (levels + 1) schema (dictionaryInfosBytes num i) (dictionaryInfosFieldSize num i) m (set i m) := by
  have hf := hget.foldl_concat i m
  rw [hempty, List.nil_append] at hf
  rw [← hf, dictionaryInfosFieldSize, foldl_add, Nat.zero_add]
  refine flatMap fun info _ m => ?_
  have hi := decodes_dictionaryInfo levels info
  refine message hl hnum hi.sized fun hlt => ?_
  obtain ⟨hu, hp⟩ := hi.all hlt
  rw [hu]
  exact ⟨rfl, hp⟩

def connectionMetadataInfoBytes (range : Loop) (info : ConnectionMetadataInfo) : Bytes :=
  (if info.id ≠ 0 then varintField connectionIDField info.id.toNat else []) ++
    (range info.metadata).1.flatMap (entryBytes connectionEntriesField)

def connectionMetadataBytes (sizeRange range : Loop) (num : Nat) : Option ConnectionMetadataInfo → Bytes
  | none => []
  | some info =>
    measuredField num (connectionMetadataInfoSize sizeRange info) (connectionMetadataInfoBytes range info)

theorem appendConnectionMetadata_eq (sizeRange r : Loop) (b : Bytes) (num : Nat)
    (info : Option ConnectionMetadataInfo) :
    appendConnectionMetadata sizeRange r b num info = b ++ connectionMetadataBytes sizeRange r num info := by
  cases info with
  | none => exact (List.append_nil b).symm
  | some info =>
    simp only [appendConnectionMetadata, append_varintField, appendMetadataField_eq]
    rw [List.append_assoc, connectionMetadataBytes, ← append_measuredField]
    rfl

theorem decodes_connectionMetadataInfo (levels : Nat) (r sizeRange : Loop)
    {info : ConnectionMetadataInfo} (hv : metadataValid vr info.metadata = true) :
    Decodes (levels + 1) ConnectionMetadataInfo.schema (connectionMetadataInfoBytes r info)
      (connectionMetadataInfoSize sizeRange info) {} info := by
  obtain ⟨id, metadata⟩ := info
  simp only [connectionMetadataInfoSize, add_ite]
  rw [Nat.add_comm (metadataFieldSize _ _ _)]
  exact .append (.uint32 connectionIDField (fun id (m : ConnectionMetadataInfo) => { m with id }) id)
    (.metadata connectionEntriesField (·.metadata) (fun metadata (m : ConnectionMetadataInfo) => { m with metadata })
      r sizeRange hv)

theorem connectionMetadataInfoSize_congr (r r' : Loop) (info : ConnectionMetadataInfo) :
    connectionMetadataInfoSize r info = connectionMetadataInfoSize r' info := by
  simp only [connectionMetadataInfoSize, metadataFieldSize_congr r r']

/-! ## The messages -/

variable {p : Bytes}

theorem decodeFrame_eq_ok {levels : Nat} {decodeFast : Bytes → Except NotHandled σ} {schema : Schema σ} {zero m : σ}
    (hf : ∀ {m}, decodeFast p = .ok m → Reference levels schema zero p m)
    (h : Reference maxPreflightMessageDepth schema zero p m) : decodeFrame decodeFast schema zero p = .ok m := by
  unfold decodeFrame
  cases hdec : decodeFast p with
  | error e => exact decodePayload_eq_ok h
  | ok m' => rw [Except.ok.inj ((hf hdec).1.symm.trans h.1)]

theorem decodeStatus_eq_ok {m : WireStatus} (h : Reference maxPreflightMessageDepth WireStatus.schema {} p m) :
    decodeStatus p = .ok m := by
  unfold decodeStatus
  split_ifs with hem
  · rw [List.length_eq_zero_iff.mp hem] at h
    exact congrArg Except.ok (Except.ok.inj h.1)
  · exact decodeFrame_eq_ok (WireStatus.decodeFast_reference 0) h

theorem decodeHeaders_eq_ok {m : WireHeaders} (h : Reference maxPreflightMessageDepth WireHeaders.schema {} p m) :
    decodeHeaders p = .ok m.metadata := by
  unfold decodeHeaders
  split_ifs with hem
  · rw [List.length_eq_zero_iff.mp hem] at h
    exact congrArg (Except.ok ∘ WireHeaders.metadata) (Except.ok.inj h.1)
  · rw [decodeFrame_eq_ok (WireHeaders.decodeFast_reference 0) h]
    rfl

def RoundTrips (size : Nat) (append : Bytes → Bytes) (decode : Bytes → Except FrameDecodeError σ) (m : σ) : Prop :=
  ∀ b, (append b).length < 2 ^ 63 → ∃ payload, append b = b ++ payload ∧ payload.length = size ∧ decode payload = .ok m

variable {d : Bytes → Except FrameDecodeError σ}

theorem RoundTrips.of_decodes {size size' levels : Nat} {a : Bytes → Bytes} {schema : Schema τ} {zero m : τ} {r : σ}
    (hd : Decodes levels schema p size zero m) (happend : ∀ b, a b = b ++ p) (hs : size = size')
    (hdec : Reference levels schema zero p m → d p = .ok r) : RoundTrips size' a d r := by
  intro b hlt
  rw [happend, List.length_append] at hlt
  exact ⟨p, happend b, (hd.sized (by omega)).trans hs, hdec (hd.all (by omega))⟩

variable {r sizeRange : Nat → Loop}

theorem WireHeaders.roundTrips {m : WireHeaders} {size : Nat}
    (hs : m.payloadSize sizeRange = some size) :
    RoundTrips size (m.appendPayload r) decodeHeaders m.metadata := by
  obtain ⟨hv, hs⟩ := Option.ite_none_left_eq_some.mp hs
  rw [Bool.not_eq_true, Bool.not_eq_false'] at hv
  exact .of_decodes
    (Decodes.metadata headersMetadataField (·.metadata) (fun metadata (m : WireHeaders) => { m with metadata }) (r 0)
      (sizeRange 1) hv)
    (fun b => appendMetadataField_eq _ b _ _) (Option.some.inj hs) decodeHeaders_eq_ok

theorem WireAnswer.roundTrips (m : WireAnswer) : RoundTrips m.payloadSize m.appendPayload decodeAnswer m := by
  obtain ⟨dictionaries, streamCompression, connectionMetadata⟩ := m
  refine .of_decodes
    (.append (.append
      (.dictionaryInfos answerDictionaryField (·.dictionaries)
        (fun dictionaries (m : WireAnswer) => { m with dictionaries }) dictionaries)
      (.bool answerStreamField (fun streamCompression (m : WireAnswer) =>
        { m with streamCompression }) streamCompression))
      (.uint32 answerConnectionField (fun connectionMetadata (m : WireAnswer) => { m with connectionMetadata })
        connectionMetadata))
    (fun b => ?_) ?_ (decodeFrame_eq_ok (decodeFast_reference 0))
  · simp only [appendPayload, appendDictionaryInfos_eq, append_varintField, List.append_assoc]
  · simp only [payloadSize, add_ite]
    rfl

theorem WireStatus.roundTrips {m : WireStatus} {size : Nat}
    (hs : m.payloadSize sizeRange = some size) : RoundTrips size (m.appendPayload r) decodeStatus m := by
  obtain ⟨code, message, metadata, refusedStreamCompression⟩ := m
  obtain ⟨hv, hs⟩ := Option.ite_none_left_eq_some.mp hs
  simp only [Bool.or_eq_true, Bool.not_eq_true', not_or, Bool.not_eq_false] at hv
  refine .of_decodes
    (.append (.append (.append
      (.uint32 statusCodeField (fun code (m : WireStatus) => { m with code }) code)
      (.text statusMessageField (fun message (m : WireStatus) => { m with message }) hv.1))
      (.metadata statusMetadataField (·.metadata) (fun metadata (m : WireStatus) => { m with metadata }) (r 0)
        (sizeRange 1) hv.2))
      (.bool statusRefusedField (fun refusedStreamCompression (m : WireStatus) => { m with refusedStreamCompression })
        refusedStreamCompression))
    (fun b => ?_) ?_ decodeStatus_eq_ok
  · simp only [appendPayload, appendMetadataField_eq, append_varintField, append_bytesField, List.append_assoc]
  · rw [← Option.some.inj hs]
    simp only [add_ite]
    rw [Nat.add_assoc (metadataFieldSize _ _ _), Nat.add_comm (metadataFieldSize _ _ _)]
    rfl

/-! ### REQUEST -/

theorem packedUint32s_eq (b : Bytes) (num : Nat) (values : List UInt32) :
    appendPackedUint32s b num values = b ++ packedUint32sBytes num values := by
  unfold appendPackedUint32s packedUint32sBytes
  split_ifs
  · exact (List.append_nil b).symm
  · exact (foldl_append (fun _ _ => rfl) _ _).trans (append_measuredField _ _ _ _)

theorem WireRequest.decodes_connectionMetadata (r : Nat → Loop) (sizeRange : Loop)
    {m : WireRequest} {info : Option ConnectionMetadataInfo}
    (hv : ¬ info.any (fun info => !metadataValid vr info.metadata) = true)
    (hempty : m.connectionMetadata = none := by rfl) :
    Decodes maxPreflightMessageDepth schema (connectionMetadataBytes (r 1) (r 2) requestConnectionField info)
      (connectionMetadataFieldSize sizeRange requestConnectionField info) m { m with connectionMetadata := info } := by
  cases info with
  | none =>
    cases m
    cases hempty
    exact .nil
  | some info =>
    have hi := decodes_connectionMetadataInfo 98 (r 2) (r 1)
      (show metadataValid vr info.metadata = true by simpa using hv)
    rw [connectionMetadataFieldSize, connectionMetadataInfoSize_congr sizeRange (r 1)]
    refine .message rfl (by decide) hi.sized fun hlt => ?_
    obtain ⟨hu, hp⟩ := hi.all hlt
    refine ⟨?_, hp⟩
    beta_reduce
    rw [hempty, Option.getD_none, hu]
    rfl

theorem WireRequest.roundTrips {m : WireRequest} {size : Nat}
    (hs : m.payloadSize sizeRange = some size) : RoundTrips size (m.appendPayload r) decodeRequest m := by
  obtain ⟨method, metadata, kind, timeoutNanos, datagramFlow, acceptDictionaries, dictionaryQuery, streamCompression,
    connectionMetadata⟩ := m
  obtain ⟨hv, hs⟩ := Option.ite_none_left_eq_some.mp hs
  obtain ⟨hc, hs⟩ := Option.ite_none_left_eq_some.mp hs
  simp only [Bool.or_eq_true, Bool.not_eq_true', not_or, Bool.not_eq_false] at hv
  refine .of_decodes
    (.append (.append (.append (.append (.append (.append (.append (.append
      (.text requestMethodField (fun method (m : WireRequest) => { m with method }) hv.1)
      (.metadata requestMetadataField (·.metadata) (fun metadata (m : WireRequest) => { m with metadata }) (r 0)
        (sizeRange 2) hv.2))
      (.enum requestKindField (fun kind (m : WireRequest) => { m with kind }) kind))
      (.uint64 requestTimeoutField (fun timeoutNanos (m : WireRequest) => { m with timeoutNanos }) timeoutNanos))
      (.uint64 requestDatagramField (fun datagramFlow (m : WireRequest) => { m with datagramFlow }) datagramFlow))
      (.packedUint32s requestAcceptField (·.acceptDictionaries)
        (fun acceptDictionaries (m : WireRequest) => { m with acceptDictionaries }) acceptDictionaries))
      (.dictionaryInfos requestQueryField (·.dictionaryQuery)
        (fun dictionaryQuery (m : WireRequest) => { m with dictionaryQuery }) dictionaryQuery))
      (.enum requestStreamField (fun streamCompression (m : WireRequest) => { m with streamCompression })
        streamCompression))
      (decodes_connectionMetadata r (sizeRange 3) hc))
    (fun b => ?_) ?_ (decodeFrame_eq_ok (decodeFast_reference 0))
  · simp only [appendPayload, appendMetadataField_eq, packedUint32s_eq, appendDictionaryInfos_eq,
      appendConnectionMetadata_eq, append_varintField, append_bytesField, List.append_assoc]
  · rw [← Option.some.inj hs]
    simp only [add_ite]
    rw [Nat.add_comm (metadataFieldSize _ _ _)]

/-! ## Frames -/

/-- The payload and its frame have the computed size and are read back. -/
structure WritesBack (typ size : Nat) (appendPayload : Bytes → Bytes)
    (appendFrame : Bytes → Nat → Except AppendError Bytes) (decode : Bytes → Except FrameDecodeError σ) (m : σ) :
      Prop where
  payload : RoundTrips size appendPayload decode m
  written : ∀ dst maxFrameSize, size ≤ maxFrameSize → size ≤ Varint.maxValue →
    ∃ frame, appendFrame dst maxFrameSize = .ok frame
  frame : ∀ dst maxFrameSize frame, appendFrame dst maxFrameSize = .ok frame → frame.length < 2 ^ 63 →
    ∃ payload wire, frame = dst ++ wire ∧ Frames.write (typ, payload) = some wire ∧ payload.length = size ∧
      decode payload = .ok m

theorem appendFrameHeader_eq_ok {dst dst' : Bytes} {typ size : Nat} (h : appendFrameHeader dst typ size = .ok dst')
    (hl : p.length = size) :
    ∃ wire, dst' ++ p = dst ++ wire ∧ Frames.write (typ, p) = some wire := by
  subst hl
  unfold appendFrameHeader at h
  cases htyp : Varint.encode typ with
  | none =>
    rw [htyp] at h
    cases h
  | some tb =>
    cases hs : Varint.encode p.length with
    | none =>
      rw [htyp, hs] at h
      cases h
    | some sb =>
      rw [htyp, hs] at h
      obtain rfl := Except.ok.inj h
      refine ⟨tb ++ sb ++ p, by simp only [List.append_assoc], ?_⟩
      simp [Frames.write, htyp, hs]

theorem appendFrameHeader_isOk {typ size : Nat} (dst : Bytes) (htyp : typ < 7) (hs : size ≤ Varint.maxValue) :
    ∃ dst', appendFrameHeader dst typ size = .ok dst' := by
  have htyp' : typ ≤ Varint.maxValue := by
    unfold Varint.maxValue
    omega
  obtain ⟨typBytes, htyp⟩ := Option.isSome_iff_exists.mp ((Varint.encode_isSome_iff typ).mpr htyp')
  obtain ⟨sizeBytes, hs⟩ := Option.isSome_iff_exists.mp ((Varint.encode_isSome_iff size).mpr hs)
  exact ⟨_, by rw [appendFrameHeader, htyp, hs]⟩

theorem WritesBack.direct {typ size : Nat} {appendPayload : Bytes → Bytes}
    {m : σ} (htyp : typ < 7) (hpayload : RoundTrips size appendPayload d m) :
    WritesBack typ size appendPayload (fun dst mfs => do
      let dst ← appendDirectFrameHeader dst typ size mfs
      .ok (appendPayload dst)) d m where
  payload := hpayload
  written dst mfs hmax hs := by
    obtain ⟨dst', hh⟩ := appendFrameHeader_isOk dst htyp hs
    exact ⟨appendPayload dst', by rw [appendDirectFrameHeader, if_neg (Nat.not_lt.mpr hmax), hh]; rfl⟩
  frame dst mfs frame h hlt := by
    obtain ⟨dst', hh, h⟩ := except_bind_eq_ok.mp h
    obtain rfl := Except.ok.inj h
    obtain ⟨payload, hap, hl, hdec⟩ := hpayload dst' hlt
    unfold appendDirectFrameHeader at hh
    split_ifs at hh
    obtain ⟨wire, hf, hw⟩ := appendFrameHeader_eq_ok hh hl
    exact ⟨payload, wire, hap.trans hf, hw, hl, hdec⟩

theorem Range.nil_of_empty (r : Range ∅) : r.1 = [] := by
  refine List.eq_nil_iff_forall_not_mem.mpr ?_
  rintro ⟨key, v⟩ hmem
  have hl := (r.2.2 key v).mp hmem
  rw [Finmap.lookup_empty] at hl
  cases hl

theorem WireStatus.payloadSize_ok {size : Nat} (h : payloadSize r {} = some size) : size = 0 := by
  have hs : payloadSize r {} = some 0 := by
    simp [payloadSize, metadataFieldSize, metadataValid, Range.nil_of_empty]
    decide
  rw [hs] at h
  exact (Option.some.inj h).symm

theorem WireStatus.writesBack (runtime : Bytes → Nat → WireStatus → Nat → Except AppendError Bytes) {m : WireStatus}
    {size : Nat} (hs : m.payloadSize sizeRange = some size) :
    WritesBack frameTypeStatus size (m.appendPayload r)
      (fun dst mfs => appendStatusFrame runtime sizeRange r dst m mfs) decodeStatus m := by
  have hpay : RoundTrips size (m.appendPayload r) decodeStatus m := roundTrips hs
  have hd := WritesBack.direct (show frameTypeStatus < 7 by decide) hpay
  by_cases hok : m.code = 0 ∧ m.message = [] ∧ m.metadata = ∅ ∧ m.refusedStreamCompression = false
  · obtain ⟨code, message, metadata, refusedStreamCompression⟩ := m
    obtain ⟨rfl, rfl, rfl, rfl⟩ := hok
    obtain rfl := payloadSize_ok hs
    refine ⟨hd.payload, fun dst _ _ hmax => ?_, fun dst _ frame h hlt => ?_⟩
    · exact appendFrameHeader_isOk dst (show frameTypeStatus < 7 by decide) hmax
    · have h : appendFrameHeader dst frameTypeStatus 0 = .ok frame := h
      obtain ⟨wire, hf, hw⟩ := appendFrameHeader_eq_ok h (show ([] : Bytes).length = 0 from rfl)
      rw [List.append_nil] at hf
      exact ⟨[], wire, hf, hw, rfl, rfl⟩
  · simp only [appendStatusFrame, hok, hs, if_false]
    exact hd

theorem nonempty_range (metadata : Metadata) : Nonempty (Range metadata) := by
  have hk : (metadata.entries.toList.map Sigma.fst).Nodup := by
    have hn := metadata.nodupKeys
    rw [← Multiset.coe_toList metadata.entries] at hn
    exact hn
  refine ⟨⟨metadata.entries.toList.map fun en => (en.1, en.2), ?_, fun key value => ?_⟩⟩
  · rw [List.map_map]
    exact hk
  · rw [Finmap.lookup_eq_some_iff]
    simp

theorem Range.of_singleton {key v : Bytes} (r : Range (Finmap.singleton key v)) : r.1 = [(key, v)] := by
  have hmem : ∀ key' value', (key', value') ∈ [(key, v)] ↔
      (Finmap.singleton key v : Metadata).lookup key' = some value' := by
    intro key' value'
    rw [Finmap.lookup_eq_some_iff, List.mem_singleton, Prod.mk.injEq]
    change _ ↔ _ ∈ [(⟨key, v⟩ : Sigma fun _ : Bytes => Bytes)]
    simp
  exact List.perm_singleton.mp (r.perm ⟨[(key, v)], by simp, hmem⟩)

theorem payloads_write_back (runtimeRequest : Bytes → Nat → WireRequest → Nat → Except AppendError Bytes)
    (runtimeHeaders : Bytes → Nat → WireHeaders → Nat → Except AppendError Bytes)
    (runtimeStatus : Bytes → Nat → WireStatus → Nat → Except AppendError Bytes) (sizeRange range : Nat → Loop) :
    (∀ (m : WireRequest) size, m.payloadSize sizeRange = some size →
      WritesBack frameTypeRequest size (m.appendPayload range)
        (fun dst maxFrameSize =>
          appendRequestFrame runtimeRequest sizeRange range dst m maxFrameSize) decodeRequest m) ∧
    (∀ (m : WireHeaders) size, m.payloadSize sizeRange = some size →
      WritesBack frameTypeHeaders size (m.appendPayload range)
        (fun dst maxFrameSize =>
          appendHeadersFrame runtimeHeaders sizeRange range dst m.metadata maxFrameSize) decodeHeaders
        m.metadata) ∧
    (∀ m : WireAnswer,
      WritesBack frameTypeAnswer m.payloadSize m.appendPayload
        (fun dst maxFrameSize => appendAnswerFrame dst m maxFrameSize) decodeAnswer m) ∧
    ∀ (m : WireStatus) size, m.payloadSize sizeRange = some size →
      WritesBack frameTypeStatus size (m.appendPayload range)
        (fun dst maxFrameSize => appendStatusFrame runtimeStatus sizeRange range dst m maxFrameSize) decodeStatus
          m := by
  refine ⟨fun m size hsize => ?_, fun m size hsize => ?_, fun m => ?_, fun m size hsize => ?_⟩
  · simp only [appendRequestFrame, hsize]
    exact .direct (by decide) (WireRequest.roundTrips hsize)
  · simp only [appendHeadersFrame, hsize]
    exact .direct (by decide) (WireHeaders.roundTrips hsize)
  · exact .direct (by decide) m.roundTrips
  · exact WireStatus.writesBack runtimeStatus hsize

theorem payloads_write_back_status :
    let m : WireStatus := { code := 5, message := [110, 111], metadata := Finmap.singleton [107] [118] }
    ∃ range : Nat → Loop, m.payloadSize range = some 14 ∧ ∃ payload, m.appendPayload range [] = [] ++ payload ∧
      payload.length = 14 ∧ decodeStatus payload = .ok m := by
  intro m
  let range : Nat → Loop := fun _ metadata => Classical.choice (nonempty_range metadata)
  have hsize : m.payloadSize range = some 14 := by
    simp only [WireStatus.payloadSize, metadataValid, metadataFieldSize, m, Range.of_singleton]
    rfl
  have happend : m.appendPayload range [] = [8, 5, 18, 2, 110, 111, 26, 6, 10, 1, 107, 18, 1, 118] := by
    simp only [WireStatus.appendPayload, appendMetadataField, m, Range.of_singleton]
    rfl
  have hwrites := (payloads_write_back (fun _ _ _ _ => .error .panicked) (fun _ _ _ _ => .error .panicked)
    (fun _ _ _ _ => .error .panicked) range range).2.2.2 m 14 hsize
  exact ⟨range, hsize, hwrites.payload [] (by rw [happend]; decide)⟩

end TrevRpc.Go
