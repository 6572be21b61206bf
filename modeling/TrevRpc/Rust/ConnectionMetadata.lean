import Mathlib.Control.Monad.Basic
import TrevRpc.Lib.Modify
import TrevRpc.Lib.Recent
import TrevRpc.Lib.Run
import TrevRpc.Rust.Framing

/-!
# Connection metadata (`connection_metadata.rs`)

A client offers its metadata with an ID until an ANSWER confirms it, and then refers to the ID. Messages are delivered
in any order, and other threads run between any two accesses to what is shared.
-/

open TrevRpc.Run

namespace TrevRpc.Rust.Connection

/-! ## Metadata -/

def maxMetadataEntries : Nat := 64
def maxMetadataKeyLen : Nat := 128
def maxMetadataValueLen : Nat := 8 * 1024
def maxMetadataTotalSize : Nat := 64 * 1024
def reservedMetadataPrefix : String := "trevrpc-"

def normalizeMetadataKey (key : String) : String := String.ofList (key.toList.map Char.toLower)

def isMetadataKeyByte (c : Char) : Bool :=
  'a' ≤ c && c ≤ 'z' || '0' ≤ c && c ≤ '9' || c = '.' || c = '_' || c = '-'

def validateMetadataKey (key : String) : Except Status Unit :=
  if key = "" then .error (.invalidArgument "metadata key is empty")
  else if maxMetadataKeyLen < key.utf8ByteSize then
    .error (.invalidArgument ("metadata key " ++ debug key ++ " is " ++ toString key.utf8ByteSize ++
      " bytes, maximum is " ++ toString maxMetadataKeyLen))
  else if reservedMetadataPrefix.toList.isPrefixOf key.toList then
    .error (.invalidArgument ("metadata key " ++ debug key ++ " uses reserved prefix " ++ debug reservedMetadataPrefix))
  else if !key.toList.all isMetadataKeyByte then
    .error (.invalidArgument ("metadata key " ++ debug key ++
      " must use lowercase ASCII letters, digits, '.', '_' or '-'"))
  else .ok ()

def validateEntry (entry : String × Bytes) : Except Status Unit :=
  match validateMetadataKey entry.1 with
  | .error status => .error status
  | .ok () =>
    if maxMetadataValueLen < entry.2.length then
      .error (.invalidArgument ("metadata value " ++ debug entry.1 ++ " is " ++ toString entry.2.length ++
        " bytes, maximum is " ++ toString maxMetadataValueLen))
    else .ok ()

def totalSize (metadata : Metadata) : Nat := (metadata.map fun (key, value) => key.utf8ByteSize + value.length).sum

def validateMetadata (metadata : Metadata) : Except Status Unit := do
  if maxMetadataEntries < metadata.length then
    throw (.invalidArgument ("metadata has " ++ toString metadata.length ++ " entries, maximum is " ++
      toString maxMetadataEntries))
  metadata.forM validateEntry
  if maxMetadataTotalSize < totalSize metadata then
    throw (.invalidArgument ("metadata is " ++ toString (totalSize metadata) ++ " bytes, maximum is " ++
      toString maxMetadataTotalSize))

def insert (metadata : Metadata) (entry : String × Bytes) : Metadata :=
  metadata.filter (·.1 ≠ entry.1) ++ [entry]

/-- The entries of `set` join those of a call, which win. -/
def merge (own set : Metadata) : Metadata :=
  set.foldl (fun metadata entry => if (metadata.lookup entry.1).isSome then metadata else metadata ++ [entry]) own

/-! ## The client -/

structure Set where
  id : Nat
  metadata : Metadata
  deriving DecidableEq

/-- The first half of `set`: the new set, if it is not empty, takes the next ID. IDs wrap past 0. -/
def newSet (metadata : Metadata) (ids : Nat) : Except Status (Option Set × Nat) :=
  if metadata = [] then .ok (none, ids)
  else do
    let metadata := (metadata.map fun (key, value) => (normalizeMetadataKey key, value)).foldl insert []
    validateMetadata metadata
    let id := (ids + 1) % 2 ^ 32
    return if id = 0 then (some ⟨1, metadata⟩, 1) else (some ⟨id, metadata⟩, id)

/-- The `connection_metadata` of a REQUEST: an offer, or without entries a reference. -/
structure ConnectionMetadata where
  id : Nat
  metadata : Metadata
  deriving DecidableEq

/-- The field of the REQUEST, and whether its ANSWER may confirm the set. -/
def prepare (confirmed : Nat) : Option Set → Option ConnectionMetadata × Bool
  | none => (none, false)
  | some set =>
    if confirmed = set.id then (some ⟨set.id, []⟩, false) else (some ⟨set.id, set.metadata⟩, true)

/-- Whether `learn` records the answer: only the current set counts. -/
def learns (current : Option Set) (confirmed : Nat) : Bool :=
  confirmed ≠ 0 && current.any (·.id = confirmed)

/-! ## The server -/

def maxSets : Nat := 4

abbrev Store := List (Nat × Metadata)

def Store.store (sets : Store) (id : Nat) (metadata : Metadata) : Store :=
  let others := sets.filter (·.1 ≠ id)
  (if others.length = maxSets then others.tail else others) ++ [(id, metadata)]

/-- The metadata of the call, and the ID to confirm. Without a store nothing is kept. -/
def resolve (store : Option Store) (field : Option ConnectionMetadata) (own : Metadata) :
    Except Status (Metadata × Nat) × Option Store :=
  match field with
  | none => (.ok (own, 0), store)
  | some ⟨id, metadata⟩ =>
    if metadata = [] then
      match store.bind (·.lookup id) with
      | none => (.error (.invalidArgument ("unknown connection metadata set " ++ toString id)), store)
      | some set => (.ok (merge own set, 0), store)
    else
      match validateMetadata metadata, store with
      | .error status, _ => (.error status, store)
      | .ok (), some sets => (.ok (merge own metadata, id), some (sets.store id metadata))
      | .ok (), none => (.ok (merge own metadata, 0), none)

/-! ## One connection -/

inductive Phase
  | prepared
  | sent
  | arrived
  | learned
  | finished
  deriving DecidableEq

structure Call where
  own : Metadata
  set : Option Set
  phase : Phase := .prepared
  field : Option ConnectionMetadata := none
  offered : Bool := false
  result : Option (Except Status (Metadata × Nat)) := none

structure State where
  ids : Nat := 0
  writes : List (Option Set) := []
  current : Option Set := none
  confirmed : Nat := 0
  store : Option Store
  calls : List Call := []
  sets : List Metadata := []
  arrivals : List Nat := []

def start (keeps : Bool) : State := { store := if keeps then some [] else none }

inductive Action
  | set (metadata : Metadata)
  | write (i : Nat)
  | prepare (own : Metadata)
  | send (i : Nat)
  | arrive (i : Nat)
  | learn (i : Nat)
  | confirm (i : Nat)

def Action.isSet : Action → Bool
  | .set _ => true
  | _ => false

namespace Call

def send (confirmed : Nat) (c : Call) : Call :=
  { c with phase := .sent, field := (prepare confirmed c.set).1, offered := (prepare confirmed c.set).2 }

def arrive (store : Option Store) (c : Call) : Call :=
  { c with phase := .arrived, result := some (resolve store c.field c.own).1 }

/-- The ID in the call's ANSWER. -/
def answer (c : Call) : Nat :=
  match c.result with
  | some (.ok (_, confirmed)) => confirmed
  | _ => 0

def learn (current : Option Set) (c : Call) : Call :=
  { c with phase := if c.offered && learns current c.answer then .learned else .finished }

def confirm (c : Call) : Call := { c with phase := .finished }

def stored (store : Option Store) (c : Call) : List Nat :=
  match (resolve store c.field c.own).1 with
  | .ok (_, confirmed) => if confirmed = 0 then [] else [confirmed]
  | .error _ => []

end Call

def step (s : State) : Action → Option State
  | .set metadata =>
    match newSet metadata s.ids with
    | .error _ => some s
    | .ok (set, ids) =>
      some { s with ids, writes := s.writes ++ [set], sets := s.sets ++ (set.map Set.metadata).toList }
  | .write i => s.writes[i]?.map fun set => { s with current := set, writes := s.writes.eraseIdx i }
  | .prepare own => some { s with calls := s.calls ++ [{ own, set := s.current }] }
  | .send i =>
    match s.calls[i]? with
    | some c =>
      if c.phase = .prepared then some { s with calls := s.calls.modify i (·.send s.confirmed) } else none
    | none => none
  | .arrive i =>
    match s.calls[i]? with
    | some c =>
      if c.phase = .sent then
        some { s with
          calls := s.calls.modify i (·.arrive s.store)
          store := (resolve s.store c.field c.own).2
          arrivals := s.arrivals ++ c.stored s.store }
      else none
    | none => none
  | .learn i =>
    match s.calls[i]? with
    | some c =>
      if c.phase = .arrived then some { s with calls := s.calls.modify i (·.learn s.current) } else none
    | none => none
  | .confirm i =>
    match s.calls[i]? with
    | some c =>
      if c.phase = .learned then
        some { s with calls := s.calls.modify i Call.confirm, confirmed := c.answer }
      else none
    | none => none

/-! ## IDs name sets -/

theorem lookup_merge (own set : Metadata) (key : String) :
    (merge own set).lookup key = (own.lookup key).or (set.lookup key) := by
  unfold merge
  induction set generalizing own with
  | nil => simp
  | cons e set ih =>
    obtain ⟨name, value⟩ := e
    rw [List.foldl_cons, ih, List.lookup_cons]
    by_cases hkey : key = name
    · subst hkey
      cases hown : own.lookup key <;> simp [hown, List.lookup_append]
    · have hne : (key == name) = false := beq_false_of_ne hkey
      split_ifs <;> simp [hne, List.lookup_append, List.lookup_cons]

structure Known (sets : List Metadata) (set : Set) : Prop where
  id_pos : 0 < set.id
  metadata_ne : set.metadata ≠ []
  metadata : sets[set.id - 1]? = some set.metadata

variable {sets : List Metadata}

theorem Known.append {set : Set} (h : Known sets set) (more : List Metadata) : Known (sets ++ more) set :=
  ⟨h.id_pos, h.metadata_ne, by rw [List.getElem?_append_left (List.getElem?_eq_some_iff.mp h.metadata).1, h.metadata]⟩

theorem foldl_insert_ne_nil (m : Metadata) (hne : m ≠ []) (acc : Metadata) : m.foldl insert acc ≠ [] := by
  induction m generalizing acc with
  | nil => exact absurd rfl hne
  | cons entry m ih =>
    cases m with
    | nil => simp [insert]
    | cons entry' m => exact ih (by simp) _

theorem newSet_spec {m : Metadata} (hlt : sets.length + 1 < 2 ^ 32) {set : Option Set}
    {ids : Nat} (h : newSet m sets.length = .ok (set, ids)) :
    ids = (sets ++ (set.map Set.metadata).toList).length ∧
      ∀ new ∈ set, Known (sets ++ (set.map Set.metadata).toList) new := by
  unfold newSet at h
  split_ifs at h with hem
  · cases h
    simp
  · simp only [bind, Except.bind] at h
    split at h
    · cases h
    · have hid : (sets.length + 1) % 2 ^ 32 = sets.length + 1 := Nat.mod_eq_of_lt hlt
      rw [hid, if_neg (Nat.succ_ne_zero _)] at h
      cases h
      refine ⟨by simp, ?_⟩
      rintro new ⟨⟩
      refine ⟨Nat.succ_pos _, foldl_insert_ne_nil _ (by simpa using hem) _, ?_⟩
      simp

/-! ## What holds in every run -/

def Call.Carries (arrivals : List Nat) (c : Call) : Prop :=
  c.set = none ∧ c.field = none ∨
    ∃ set, c.set = some set ∧
      (c.field = some ⟨set.id, set.metadata⟩ ∨ c.field = some ⟨set.id, []⟩ ∧ set.id ∈ arrivals)

def Call.Effective (c : Call) (effective : Metadata) : Prop :=
  ∀ key, effective.lookup key = (c.own.lookup key).or ((c.set.elim [] Set.metadata).lookup key)

structure Call.Ok (sets : List Metadata) (arrivals : List Nat) (c : Call) : Prop where
  set : ∀ set ∈ c.set, Known sets set
  field : c.phase ≠ .prepared → c.Carries arrivals
  effective : ∀ effective confirmed, c.result = some (.ok (effective, confirmed)) → c.Effective effective
  answer : c.answer ≠ 0 → c.answer ∈ arrivals

structure Inv (s : State) : Prop where
  ids : s.ids = s.sets.length
  writes : ∀ write ∈ s.writes, ∀ set ∈ write, Known s.sets set
  current : ∀ set ∈ s.current, Known s.sets set
  confirmed : s.confirmed ≠ 0 → s.confirmed ∈ s.arrivals
  stored : ∀ sets ∈ s.store, ∀ entry ∈ sets, Known s.sets ⟨entry.1, entry.2⟩
  tracks : ∀ sets ∈ s.store, Recent.Tracks maxSets s.arrivals (sets.map Prod.fst)
  unkept : s.store = none → s.arrivals = []
  calls : ∀ c ∈ s.calls, c.Ok s.sets s.arrivals

theorem Store.map_fst_store (sets : Store) (id : Nat) (m : Metadata) :
    (sets.store id m).map Prod.fst = Recent.push maxSets (sets.map Prod.fst) id := by
  unfold Store.store Recent.push
  have hf : (sets.map Prod.fst).filter (· ≠ id) = (sets.filter (·.1 ≠ id)).map Prod.fst := by
    rw [List.filter_map]
    rfl
  simp only [hf, List.length_map]
  split_ifs <;> simp [List.map_tail]

theorem Store.mem_store {sets : Store} {id : Nat} {m : Metadata} {e : Nat × Metadata}
    (h : e ∈ sets.store id m) : e ∈ sets ∨ e = (id, m) := by
  unfold Store.store at h
  rcases List.mem_append.mp h with h | h
  · refine .inl ?_
    split_ifs at h
    · exact (List.mem_filter.mp (List.mem_of_mem_tail h)).1
    · exact (List.mem_filter.mp h).1
  · exact .inr (List.mem_singleton.mp h)

variable {a : List Nat} {c : Call}

theorem Call.Carries.append (h : c.Carries a) (more : List Nat) : c.Carries (a ++ more) := by
  rcases h with h | ⟨set, hset, ho | ⟨href, hmem⟩⟩
  · exact .inl h
  · exact .inr ⟨set, hset, .inl ho⟩
  · exact .inr ⟨set, hset, .inr ⟨href, List.mem_append_left _ hmem⟩⟩

theorem Call.Ok.append (h : c.Ok sets a) (more : List Metadata) (st : List Nat) : c.Ok (sets ++ more) (a ++ st) where
  set := fun set hset => (h.set set hset).append more
  field := fun hp => (h.field hp).append st
  effective := h.effective
  answer := fun hne => List.mem_append_left _ (h.answer hne)

theorem resolve_cases {st : Option Store}
    (hc : c.Ok sets a) (hp : c.phase ≠ .prepared)
    (hs : ∀ ss ∈ st, ∀ e ∈ ss, Known sets ⟨e.1, e.2⟩) :
    (∃ sta, resolve st c.field c.own = (.error sta, st)) ∨
      (∃ effective, resolve st c.field c.own = (.ok (effective, 0), st) ∧ c.Effective effective) ∨
      ∃ ss set effective, st = some ss ∧ c.set = some set ∧
        resolve st c.field c.own = (.ok (effective, set.id), some (ss.store set.id set.metadata)) ∧
        c.Effective effective := by
  rcases hc.field hp with ⟨hset, hf⟩ | ⟨set, hset, hf | ⟨hf, -⟩⟩ <;> rw [hf]
  · exact .inr (.inl ⟨_, rfl, fun key => by simp [hset]⟩)
  · have hne := (hc.set set hset).metadata_ne
    have heff : c.Effective (merge c.own set.metadata) := fun key => by
      rw [lookup_merge, hset]
      rfl
    simp only [resolve, if_neg hne]
    cases validateMetadata set.metadata with
    | error sta => exact .inl ⟨sta, rfl⟩
    | ok _ =>
      cases st with
      | none => exact .inr (.inl ⟨_, rfl, heff⟩)
      | some ss => exact .inr (.inr ⟨ss, set, _, rfl, hset, rfl, heff⟩)
  · simp only [resolve, if_true]
    cases hl : st.bind (·.lookup set.id) with
    | none => exact .inl ⟨_, rfl⟩
    | some metadata =>
      refine .inr (.inl ⟨_, rfl, fun key => ?_⟩)
      obtain ⟨ss, rfl, hen⟩ := Option.bind_eq_some_iff.mp hl
      obtain ⟨older, newer, rfl, -⟩ := List.lookup_eq_some_iff.mp hen
      -- the store has the one set that was given the ID
      have hk := hs _ rfl (set.id, metadata) (by simp)
      have hsa : set.metadata = metadata :=
        Option.some.inj ((hc.set set hset).metadata.symm.trans hk.metadata)
      rw [lookup_merge, hset, ← hsa]
      rfl

theorem Call.Ok.arrive (st : Option Store)
    (hc : c.Ok sets a) (hp : c.phase ≠ .prepared)
    (hok : ∀ effective co, (resolve st c.field c.own).1 = .ok (effective, co) →
      c.Effective effective ∧ (co ≠ 0 → co ∈ a)) : (c.arrive st).Ok sets a where
  set := hc.set
  field := fun _ => hc.field hp
  effective := fun effective co hr => (hok effective co (Option.some.inj hr)).1
  answer := by
    unfold Call.answer Call.arrive
    cases hres : (resolve st c.field c.own).1 with
    | error status => exact absurd rfl
    | ok result => exact (hok _ _ hres).2

theorem inv_start (ks : Bool) : Inv (start ks) := by
  cases ks <;>
    exact ⟨rfl, by simp [start], by simp [start], by simp [start], by simp [start],
      by simp [start, Recent.Tracks.nil], by simp [start], by simp [start]⟩

/-! ## Steps -/

section

variable {s : State}

theorem Inv.set (h : Inv s) {m : Metadata} (hlt : s.sets.length + 1 < 2 ^ 32) {set : Option Set} {ids : Nat}
    (hnew : newSet m s.ids = .ok (set, ids)) :
    Inv { s with ids, writes := s.writes ++ [set], sets := s.sets ++ (set.map Set.metadata).toList } := by
  rw [h.ids] at hnew
  obtain ⟨hids, hk⟩ := newSet_spec hlt hnew
  refine { h with
    ids := hids
    writes := ?_
    current := fun new hcu => (h.current new hcu).append _
    stored := fun ss hss e hen => (h.stored ss hss e hen).append _
    calls := fun c hc => by simpa using (h.calls c hc).append _ [] }
  intro w hw
  rcases List.mem_append.mp hw with hw | hw
  · exact fun new hmem => (h.writes w hw new hmem).append _
  · cases List.mem_singleton.mp hw
    exact hk

variable {i : Nat}

theorem Inv.write (h : Inv s) {set : Option Set} (hi : s.writes[i]? = some set) :
    Inv { s with current := set, writes := s.writes.eraseIdx i } :=
  { h with
    writes := fun w hw => h.writes w (List.mem_of_mem_eraseIdx hw)
    current := h.writes set (List.mem_of_getElem? hi) }

theorem Inv.prepare (h : Inv s) (own : Metadata) : Inv { s with calls := s.calls ++ [{ own, set := s.current }] } := by
  refine { h with calls := fun c hc => ?_ }
  rcases List.mem_append.mp hc with hc | hc
  · exact h.calls c hc
  · cases List.mem_singleton.mp hc
    exact ⟨h.current, fun hp => absurd rfl hp, by simp, by simp [Call.answer]⟩

theorem Inv.modify (h : Inv s) {f : Call → Call}
    (hf : ∀ c, s.calls[i]? = some c → c.Ok s.sets s.arrivals → (f c).Ok s.sets s.arrivals) :
    Inv { s with calls := s.calls.modify i f } :=
  { h with calls := Modify.forall_mem_modify h.calls fun c hi => hf c hi (h.calls c (List.mem_of_getElem? hi)) }

theorem Inv.send (h : Inv s) (i : Nat) : Inv { s with calls := s.calls.modify i (·.send s.confirmed) } := by
  refine h.modify fun c _ hc => { hc with field := fun _ => ?_ }
  unfold Call.send Call.Carries Connection.prepare
  cases hset : c.set with
  | none => exact .inl ⟨rfl, rfl⟩
  | some set =>
    refine .inr ⟨set, rfl, ?_⟩
    simp only
    split_ifs with hco
    · -- a confirmed set was stored
      have hpos := (hc.set set hset).id_pos
      exact .inr ⟨rfl, hco ▸ h.confirmed (by omega)⟩
    · exact .inl rfl

variable {c : Call}

theorem Inv.arrive (h : Inv s) (hi : s.calls[i]? = some c) (hp : c.phase = .sent) :
    Inv { s with
      calls := s.calls.modify i (·.arrive s.store)
      store := (resolve s.store c.field c.own).2
      arrivals := s.arrivals ++ c.stored s.store } := by
  have hc := h.calls c (List.mem_of_getElem? hi)
  have hse : c.phase ≠ .prepared := by simp [hp]
  have hca {arrivals : List Nat} (hall : ∀ c ∈ s.calls, c.Ok s.sets arrivals)
      (hnew : (c.arrive s.store).Ok s.sets arrivals) :
      ∀ c ∈ s.calls.modify i (·.arrive s.store), c.Ok s.sets arrivals := by
    refine Modify.forall_mem_modify hall fun c' hi' => ?_
    rw [hi] at hi'
    exact Option.some.inj hi' ▸ hnew
  rcases resolve_cases hc hse h.stored with
    ⟨status, hres⟩ | ⟨effective, hres, heff⟩ | ⟨ss, set, effective, hss, hset, hres, heff⟩
  · have hs : c.stored s.store = [] := by simp [Call.stored, hres]
    have hnew := hc.arrive s.store hse (by simp [hres])
    rw [hres, hs, List.append_nil]
    exact { h with calls := hca h.calls hnew }
  · have hs : c.stored s.store = [] := by simp [Call.stored, hres]
    have hnew := hc.arrive s.store hse (by simp [hres, heff])
    rw [hres, hs, List.append_nil]
    exact { h with calls := hca h.calls hnew }
  · have hpos := (hc.set set hset).id_pos
    have hs : c.stored s.store = [set.id] := by
      simp only [Call.stored, hres]
      exact if_neg (by omega)
    have ht : Recent.Tracks maxSets (s.arrivals ++ [set.id]) ((ss.store set.id set.metadata).map Prod.fst) := by
      rw [Store.map_fst_store]
      exact (h.tracks ss hss).push (by decide) set.id
    have ha {c : Call} (hc : c.Ok s.sets s.arrivals) : c.Ok s.sets (s.arrivals ++ [set.id]) := by
      simpa using hc.append [] [set.id]
    have hnew := (ha hc).arrive s.store hse (by simp [hres, heff])
    rw [hres, hs]
    refine ⟨h.ids, h.writes, h.current, fun hne => List.mem_append_left _ (h.confirmed hne), ?_, ?_, by simp,
      hca (fun c hc => ha (h.calls c hc)) hnew⟩
    · rintro _ ⟨⟩ entry hen
      rcases Store.mem_store hen with hold | rfl
      · exact h.stored ss hss entry hold
      · exact hc.set set hset
    · rintro _ ⟨⟩
      exact ht

theorem Inv.learn (h : Inv s) (hi : s.calls[i]? = some c) (hp : c.phase = .arrived) :
    Inv { s with calls := s.calls.modify i (·.learn s.current) } := by
  refine h.modify fun c' hi' hc => { hc with field := fun _ => hc.field ?_ }
  rw [hi] at hi'
  cases hi'
  simp [hp]

theorem Inv.confirm (h : Inv s) (hi : s.calls[i]? = some c) (hp : c.phase = .learned) :
    Inv { s with calls := s.calls.modify i Call.confirm, confirmed := c.answer } := by
  have hca := (h.calls c (List.mem_of_getElem? hi)).answer
  refine { h.modify (i := i) (f := Call.confirm) fun c' hi' hc => { hc with field := fun _ => hc.field ?_ } with
    confirmed := hca }
  rw [hi] at hi'
  cases hi'
  simp [hp]

end

/-! ## Runs -/

theorem step_inv {s s' : State} {a : Action} (h : Inv s) (hlt : a.isSet → s.sets.length + 1 < 2 ^ 32)
    (hs : step s a = some s') :
    Inv s' ∧ s'.sets.length ≤ s.sets.length + if a.isSet then 1 else 0 := by
  cases a with
  | set metadata =>
    simp only [step] at hs
    split at hs
    · cases hs
      exact ⟨h, by simp⟩
    · rename_i set ids hnew
      cases hs
      refine ⟨h.set (hlt rfl) hnew, ?_⟩
      cases set <;> simp [Action.isSet]
  | write i =>
    obtain ⟨set, hi, rfl⟩ := Option.map_eq_some_iff.mp hs
    exact ⟨h.write hi, by simp⟩
  | prepare own =>
    cases hs
    exact ⟨h.prepare own, by simp⟩
  | send i =>
    simp only [step] at hs
    split at hs
    · split_ifs at hs
      cases hs
      exact ⟨h.send i, by simp⟩
    · cases hs
  | arrive i =>
    simp only [step] at hs
    split at hs
    · rename_i c hi
      split_ifs at hs with hp
      cases hs
      exact ⟨h.arrive hi hp, by simp⟩
    · cases hs
  | learn i =>
    simp only [step] at hs
    split at hs
    · rename_i c hi
      split_ifs at hs with hp
      cases hs
      exact ⟨h.learn hi hp, by simp⟩
    · cases hs
  | confirm i =>
    simp only [step] at hs
    split at hs
    · rename_i c hi
      split_ifs at hs with hp
      cases hs
      exact ⟨h.confirm hi hp, by simp⟩
    · cases hs

theorem inv_of_run {ks : Bool} {actions : List Action} {s : State} (hsets : actions.countP Action.isSet < 2 ^ 32)
    (hrun : run step (start ks) actions = some s) : Inv s := by
  let P (done : List Action) (s : State) : Prop :=
    done.countP Action.isSet < 2 ^ 32 → Inv s ∧ s.sets.length ≤ done.countP Action.isSet
  suffices h : P actions s from (h hsets).1
  refine run_induction (P := P) (fun _ => ⟨inv_start ks, Nat.zero_le _⟩) ?_ hrun
  intro done t a t' ih hs hlt
  rw [List.countP_append, List.countP_singleton] at hlt ⊢
  obtain ⟨hinv, hlen⟩ := ih (by omega)
  have hr : a.isSet → t.sets.length + 1 < 2 ^ 32 := fun ha => by
    rw [if_pos ha] at hlt
    omega
  obtain ⟨hinv', hlen'⟩ := step_inv hinv hr hs
  exact ⟨hinv', by omega⟩

/-- A call that is resolved has the set that was current when it was prepared, and its own entries win. -/
theorem resolved_is_faithful {keeps : Bool} {actions : List Action} {s : State}
    (hsets : actions.countP Action.isSet < 2 ^ 32) (hrun : run step (start keeps) actions = some s) {c : Call}
    (hc : c ∈ s.calls) {effective : Metadata} {confirmed : Nat} (hok : c.result = some (.ok (effective, confirmed)))
    (key : String) :
    effective.lookup key = (c.own.lookup key).or ((c.set.elim [] Set.metadata).lookup key) :=
  ((inv_of_run hsets hrun).calls c hc).effective effective confirmed hok key

/-- A reference resolves unless the server has stored as many other sets since as it keeps. -/
theorem reference_resolves_iff {keeps : Bool} {actions : List Action} {s : State}
    (hsets : actions.countP Action.isSet < 2 ^ 32) (hrun : run step (start keeps) actions = some s) {c : Call}
    (hc : c ∈ s.calls) (hsent : c.phase = .sent) {id : Nat} (href : c.field = some ⟨id, []⟩) :
    (∃ result, (resolve s.store c.field c.own).1 = .ok result) ↔
      (Recent.since id s.arrivals).toFinset.card < maxSets := by
  have h := inv_of_run hsets hrun
  -- a reference goes out for a set that was stored
  have hmem : id ∈ s.arrivals := by
    have hcall := h.calls c hc
    rcases hcall.field (by simp [hsent]) with ⟨-, hfield⟩ | ⟨set, hset, hfield | ⟨hfield, hmem⟩⟩
    · simp [href] at hfield
    · have := (hcall.set set hset).metadata_ne
      simp_all
    · simp_all
  cases hstore : s.store with
  | none => simp [h.unkept hstore] at hmem
  | some sets =>
    have hkept : id ∈ sets.map Prod.fst ↔ id ∈ s.arrivals ∧ _ := (h.tracks sets hstore).mem_iff id
    rw [← and_iff_right (b := _ < maxSets) hmem, ← hkept, href]
    simp only [resolve, if_true, Option.bind_some]
    cases hlookup : sets.lookup id with
    | none =>
      have hnone := List.lookup_eq_none_iff.mp hlookup
      have hnot : id ∉ sets.map Prod.fst := by
        rintro hid
        obtain ⟨entry, hentry, rfl⟩ := List.mem_map.mp hid
        simpa using hnone entry hentry
      simp [hnot]
    | some metadata =>
      obtain ⟨older, newer, rfl, -⟩ := List.lookup_eq_some_iff.mp hlookup
      simp

instance : DecidableEq (Except Status (Metadata × Nat)) := inferInstance

/-- A set with the one entry `a`. -/
def setA (value : UInt8) : List Action := [.set [("a", [value])], .write 0]

/-- The ANSWER of the call confirms its set. -/
def answered (i : Nat) : List Action := [.learn i, .confirm i]

def overtaken : List Action :=
  setA 1 ++ [.prepare [], .send 0] ++ setA 2 ++ [.prepare [], .send 1] ++ setA 3 ++ [.prepare [], .send 2] ++
    setA 4 ++ [.prepare [], .send 3] ++ setA 5 ++ [.prepare [], .send 4] ++
    [.arrive 4] ++ answered 4 ++ [.prepare [], .send 5]

theorem resolved_is_faithful_reference :
    ∃ s ∈ run step (start true) (overtaken ++ [.arrive 5]), ∃ c ∈ s.calls, c.field = some ⟨5, []⟩ ∧
      ∃ effective, c.result = some (.ok (effective, 0)) ∧ effective.lookup "a" = some [5] := by
  have hlast : ∃ s ∈ run step (start true) (overtaken ++ [.arrive 5]), ∃ c ∈ s.calls, c.field = some ⟨5, []⟩ ∧
      c.result = some (.ok ([("a", [5])], 0)) ∧ c.own = [] ∧ c.set = some ⟨5, [("a", [5])]⟩ := by decide
  obtain ⟨s, hrun, c, hc, hfield, hresult, hown, hset⟩ := hlast
  refine ⟨s, hrun, c, hc, hfield, _, hresult, ?_⟩
  rw [resolved_is_faithful (by decide) hrun hc hresult, hown, hset]
  rfl

theorem reference_resolves_iff_overtaken :
    ∃ s ∈ run step (start true) (overtaken ++ [.arrive 0, .arrive 1, .arrive 2]), ∃ c ∈ s.calls,
      c.phase = .sent ∧ c.field = some ⟨5, []⟩ ∧ ∃ result, (resolve s.store c.field c.own).1 = .ok result := by
  have hlast : ∃ s ∈ run step (start true) (overtaken ++ [.arrive 0, .arrive 1, .arrive 2]), ∃ c ∈ s.calls,
      c.phase = .sent ∧ c.field = some ⟨5, []⟩ ∧ (Recent.since 5 s.arrivals).toFinset.card < maxSets := by decide
  obtain ⟨s, hrun, c, hc, hsent, hfield, hcard⟩ := hlast
  exact ⟨s, hrun, c, hc, hsent, hfield, (reference_resolves_iff (by decide) hrun hc hsent hfield).mpr hcard⟩

/-- Overtaken offers push the confirmed set out before its reference arrives. -/
theorem reference_to_evicted_set :
    ∃ s ∈ run step (start true) (overtaken ++ [.arrive 0, .arrive 1, .arrive 2, .arrive 3, .arrive 5]),
      ∃ c ∈ s.calls, c.field = some ⟨5, []⟩ ∧
        c.result = some (.error (.invalidArgument "unknown connection metadata set 5")) := by
  decide

end TrevRpc.Rust.Connection
