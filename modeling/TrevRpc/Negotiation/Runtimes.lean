import TrevRpc.Negotiation.Config

/-! # The clients and servers of the Rust and Go runtimes -/

open TrevRpc.Run

namespace TrevRpc.Negotiation

theorem mem_matched {f : DictionaryInfo → Option DictionaryInfo} {holds i : List DictionaryInfo}
    (hf : ∀ info d, f info = some d → d = info ∧ d ∈ holds) {d : DictionaryInfo}
    (h : d ∈ (i.filterMap f).eraseDups) : d ∈ i ∧ d ∈ holds := by
  rw [List.mem_eraseDups, List.mem_filterMap] at h
  obtain ⟨info, hi, hm⟩ := h
  obtain ⟨rfl, hh⟩ := hf info d hm
  exact ⟨hi, hh⟩

theorem any_mem {shared : Option (List DictionaryInfo)} {d : DictionaryInfo} (h : shared.any (d ∈ ·) = true) :
    ∃ set ∈ shared, d ∈ set := by
  cases shared with
  | none => cases h
  | some set => exact ⟨set, rfl, by simpa using h⟩

/-! ## Rust -/

namespace Rust

variable (config : Config)

def query : List DictionaryInfo := config.dictionaries ++ [plain]

def orPlainOnly (config : Option Config) : Config := config.getD Config.withoutDictionaries

def matching (info : DictionaryInfo) : Option DictionaryInfo := (config.dict info.id).filter (· = info)

/-- The type's dictionary if `usable`, or compression without one where that is allowed. -/
def dictFor (type : Option String) (allowPlain : Bool) (usable : DictionaryInfo → Bool) : Option DictionaryInfo :=
  ((type.bind (config.byType.lookup ·)).filter usable).or ((if allowPlain then some plain else none).filter usable)

inductive CallDict
  | none
  | known (dict : DictionaryInfo)
  | pending (dict : DictionaryInfo)
  deriving DecidableEq

def CallDict.get (shared : Option (List DictionaryInfo)) : CallDict → Option DictionaryInfo
  | .none => Option.none
  | .known dict => some dict
  | .pending dict => if shared.any (dict ∈ ·) then some dict else Option.none

structure ClientCall where
  accept : Option DictionaryInfo
  requests : CallDict
  learn : Bool
  deriving DecidableEq

def ClientCall.lookup (call : ClientCall) (id : UInt32) : Option DictionaryInfo := call.accept.filter (·.id = id)

def prepare (shared : Option (List DictionaryInfo)) (info : CallInfo) : Request × ClientCall :=
  let usable dict := shared.all (dict ∈ ·)
  let accept := dictFor config info.responseType info.plain.responses usable
  let requests :=
    match dictFor config info.requestType info.plain.requests usable, shared with
    | none, _ => .none
    | some dict, some set => if dict ∈ set then .known dict else .none
    | some dict, none => .pending dict
  (⟨if shared.isNone then query config else [], (accept.map (·.id)).toList⟩, ⟨accept, requests, shared.isNone⟩)

/-- The shared set of an answer. -/
def learn (answer : List DictionaryInfo) : List DictionaryInfo := (answer.filterMap (matching config)).eraseDups

structure ServerCall where
  answer : Option (List DictionaryInfo)
  responses : Option DictionaryInfo
  deriving DecidableEq

def negotiate (request : Request) (route : Route) : ServerCall :=
  let answer :=
    if request.dictionaryQuery = [] then none else some (request.dictionaryQuery.filterMap (matching config)).eraseDups
  let usable (dict : DictionaryInfo) := dict.id ∈ request.acceptDictionaries && answer.all (dict ∈ ·)
  ⟨answer, dictFor config route.responseType route.plain.responses usable⟩

def client (config : Option Config) : Client where
  Call := ClientCall
  holds := (orPlainOnly config).byId
  prepare := prepare (orPlainOnly config)
  queried := ClientCall.learn
  learn := learn (orPlainOnly config)
  requestDict shared call _ := call.requests.get shared
  lookup := ClientCall.lookup

def server (config : Option Config) : Server where
  Call := ServerCall
  holds := (orPlainOnly config).byId
  negotiate := negotiate (orPlainOnly config)
  answer call := call.answer.getD []
  responseDict call _ := call.responses
  lookup := (orPlainOnly config).dict

section

variable {config} {d : DictionaryInfo} {type : Option String} {allowPlain : Bool} {usable : DictionaryInfo → Bool}

theorem matching_eq_some (info d : DictionaryInfo) (h : matching config info = some d) :
    d = info ∧ d ∈ config.byId := by
  obtain ⟨hd, heq⟩ := Option.filter_eq_some_iff.mp h
  exact ⟨by simpa using heq, (Config.dict_eq_some.mp hd).1⟩

theorem dictFor_eq_some (h : dictFor config type allowPlain usable = some d) : d ∈ config.byId ∧ usable d = true := by
  rcases Option.or_eq_some_iff.mp h with h | ⟨-, h⟩
  · obtain ⟨ht, hus⟩ := Option.filter_eq_some_iff.mp h
    obtain ⟨name, -, hl⟩ := Option.bind_eq_some_iff.mp ht
    exact ⟨List.mem_cons_of_mem _ (Config.lookup_mem hl), hus⟩
  · obtain ⟨hp, hus⟩ := Option.filter_eq_some_iff.mp h
    obtain ⟨-, hp⟩ := Option.ite_none_right_eq_some.mp hp
    cases hp
    exact ⟨config.plain_mem, hus⟩

theorem mem_query : d ∈ query config ↔ d ∈ config.byId := by
  simp [query, Config.byId, or_comm]

end

theorem client_lawful (config : Option Config) : (client config).Lawful where
  ids := (orPlainOnly config).uniqueIds
  learn answer d hd := (mem_matched matching_eq_some hd).symm
  requests P before now info type d hb hnow h := by
    simp only [client, prepare] at h
    cases hdi : dictFor (orPlainOnly config) info.requestType info.plain.requests fun dict => before.all (dict ∈ ·) with
    | none => simp [hdi, CallDict.get] at h
    | some dict =>
      cases before with
      | some set =>
        simp only [hdi] at h
        split_ifs at h with hin
        · cases h
          exact hb set rfl _ hin
        · cases h
      | none =>
        simp only [hdi, CallDict.get, Option.ite_none_right_eq_some] at h
        obtain ⟨hany, heq⟩ := h
        obtain rfl := Option.some.inj heq
        obtain ⟨set, hset, hin⟩ := any_mem hany
        exact hnow set hset dict hin
  accepts shared info id hid := by
    simp only [client, prepare] at hid ⊢
    simp only [Option.mem_toList, Option.map_eq_some_iff] at hid
    obtain ⟨d, hd, rfl⟩ := hid
    obtain ⟨hh, hus⟩ := dictFor_eq_some hd
    refine ⟨d, by simp [ClientCall.lookup, hd, Option.filter], hh, rfl, .inr ?_⟩
    cases shared with
    | some set => exact .inl ⟨set, rfl, by simpa using hus⟩
    | none => exact .inr ⟨mem_query.mpr hh, fun e he => mem_query.mp he⟩

theorem server_lawful (config : Option Config) : (server config).Lawful where
  ids := (orPlainOnly config).uniqueIds
  answer request route d hd := by
    simp only [server, negotiate] at hd
    split_ifs at hd
    · cases hd
    · exact (mem_matched matching_eq_some hd).2
  responses request route type d h := by
    obtain ⟨hh, hus⟩ := dictFor_eq_some h
    rw [Bool.and_eq_true, decide_eq_true_iff] at hus
    refine ⟨hh, hus.1, fun hq => ?_⟩
    have ha := hus.2
    rw [if_neg hq] at ha
    simp only [Option.all_some, decide_eq_true_iff] at ha
    exact (mem_matched matching_eq_some ha).1
  lookup d hd := Config.dict_eq_some.mpr ⟨hd, rfl⟩

end Rust

/-! ## Go -/

namespace Go

variable (config : Config)

def query : List DictionaryInfo := plain :: config.dictionaries

def matching (info : DictionaryInfo) : Option DictionaryInfo :=
  (config.dict info.id).filter fun d => d.id = info.id && d.fingerprint = info.fingerprint

/-- Encodes the messages of one direction with the dictionaries that negotiation allows. -/
structure MessageCompressor where
  config : Config
  allowed : DictionaryInfo → Bool
  plain : Bool

/-- The trained dictionary of a message. -/
def MessageCompressor.dictFor (c : MessageCompressor) (type : String) : Option DictionaryInfo :=
  (c.config.byType.lookup type).filter c.allowed

def MessageCompressor.compressorFor (c : MessageCompressor) (type : String) : Option DictionaryInfo :=
  match c.dictFor type with
  | some d => some d
  | none => if !c.plain || !c.allowed Negotiation.plain then none else some Negotiation.plain

/-- `dictSet.has`. -/
def has (set : Option (List DictionaryInfo)) (d : DictionaryInfo) : Bool := set.any (d ∈ ·)

structure ClientCall where
  accept : Option (List DictionaryInfo)
  queried : Bool
  plainRequests : Bool
  deriving DecidableEq

def ClientCall.lookup (call : ClientCall) (id : UInt32) : Option DictionaryInfo :=
  match call.accept with
  | none => none
  | some set => set.find? (·.id = id)

/-- What a client without compression sends. -/
def noCompression (info : CallInfo) : Request × ClientCall := (⟨[], []⟩, ⟨none, false, info.plain.requests⟩)

/-- A client without dictionaries asks only where requests may go without one. -/
def prepare (shared : Option (List DictionaryInfo)) (info : CallInfo) : Request × ClientCall :=
  let queried := shared.isNone && (!config.dictionaries.isEmpty || info.plain.requests)
  let d := (info.responseType.bind (config.byType.lookup ·)).filter fun d => shared.isNone || has shared d
  let accept :=
    match d, info.plain.responses with
    | some d, true => some [d, plain]
    | some d, false => some [d]
    | none, true => some [plain]
    | none, false => none
  (⟨if queried then query config else [], (accept.getD []).map (·.id)⟩, ⟨accept, queried, info.plain.requests⟩)

def learn (answer : List DictionaryInfo) : List DictionaryInfo := (answer.filterMap (matching config)).eraseDups

def requestCompressor (shared : Option (List DictionaryInfo)) (allowPlain : Bool) : MessageCompressor :=
  ⟨config, has shared, allowPlain⟩

structure CallCompression where
  answered : Bool
  answer : List DictionaryInfo
  responses : Option MessageCompressor

def dict (config : Option Config) (id : UInt32) : Option DictionaryInfo := config.bind (·.dict id)

def confirmed (config : Option Config) (request : Request) : List DictionaryInfo :=
  (request.dictionaryQuery.filterMap fun info => config.bind (matching · info)).eraseDups

def allowed (config : Option Config) (request : Request) : List DictionaryInfo :=
  (request.acceptDictionaries.filterMap fun id => (dict config id).filter fun d =>
    !(!request.dictionaryQuery.isEmpty && !has (some (confirmed config request)) d)).eraseDups

def negotiate (config : Option Config) (request : Request) (route : Route) : Option CallCompression :=
  if request.dictionaryQuery = [] ∧ request.acceptDictionaries = [] then none
  else
    some {
      answered := !request.dictionaryQuery.isEmpty
      answer := confirmed config request
      responses :=
        if allowed config request = [] then none
        else config.map fun config' => ⟨config', has (some (allowed config request)), route.plain.responses⟩ }

def holds (config : Option Config) : List DictionaryInfo := (config.map Config.byId).getD []

def client (config : Option Config) : Client where
  Call := ClientCall
  holds := holds config
  prepare shared info := (config.map fun config => prepare config shared info).getD (noCompression info)
  queried := ClientCall.queried
  learn answer := (config.map fun config => learn config answer).getD []
  requestDict shared call type :=
    config.bind fun config => (requestCompressor config shared call.plainRequests).compressorFor type
  lookup := ClientCall.lookup

def server (config : Option Config) : Server where
  Call := Option CallCompression
  holds := holds config
  negotiate := negotiate config
  answer call := (call.map (·.answer)).getD []
  responseDict call type := (call.bind (·.responses)).bind (·.compressorFor type)
  lookup := dict config

section

variable {config} {d : DictionaryInfo} {type : String} {c : MessageCompressor}

theorem compressorFor_eq_some (h : c.compressorFor type = some d) : d ∈ c.config.byId ∧ c.allowed d = true := by
  unfold MessageCompressor.compressorFor MessageCompressor.dictFor at h
  split at h
  · next e hd =>
    cases h
    obtain ⟨hl, hal⟩ := Option.filter_eq_some_iff.mp hd
    exact ⟨List.mem_cons_of_mem _ (Config.lookup_mem hl), hal⟩
  · obtain ⟨hal, heq⟩ := Option.ite_none_left_eq_some.mp h
    obtain rfl := Option.some.inj heq
    simp only [Bool.or_eq_true, Bool.not_eq_true', not_or, Bool.not_eq_false] at hal
    exact ⟨c.config.plain_mem, hal.2⟩

theorem matching_eq_some (info d : DictionaryInfo) (h : matching config info = some d) :
    d = info ∧ d ∈ config.byId := by
  obtain ⟨hd, heq⟩ := Option.filter_eq_some_iff.mp h
  obtain ⟨id, fingerprint⟩ := d
  obtain ⟨id', fingerprint'⟩ := info
  exact ⟨by simpa using heq, (Config.dict_eq_some.mp hd).1⟩

theorem uniqueIds (config : Option Config) : UniqueIds (holds config) := by
  cases config with
  | none => exact ⟨by simp [holds], by simp [holds]⟩
  | some config => exact config.uniqueIds

theorem holds_of_dict {config : Option Config} {id : UInt32} (h : dict config id = some d) :
    d ∈ holds config ∧ d.id = id := by
  obtain ⟨config, rfl, hd⟩ := Option.bind_eq_some_iff.mp h
  exact Config.dict_eq_some.mp hd

theorem mem_confirmed {config : Option Config} {r : Request} (h : d ∈ confirmed config r) :
    d ∈ r.dictionaryQuery ∧ d ∈ holds config := by
  refine mem_matched (fun info d hm => ?_) h
  obtain ⟨config, rfl, hm⟩ := Option.bind_eq_some_iff.mp hm
  exact matching_eq_some info d hm

theorem mem_allowed {config : Option Config} {request : Request} (h : d ∈ allowed config request) :
    d.id ∈ request.acceptDictionaries ∧ (request.dictionaryQuery ≠ [] → d ∈ request.dictionaryQuery) := by
  rw [allowed, List.mem_eraseDups, List.mem_filterMap] at h
  obtain ⟨id, hid, hf⟩ := h
  obtain ⟨hd, hc⟩ := Option.filter_eq_some_iff.mp hf
  refine ⟨(holds_of_dict hd).2 ▸ hid, fun hq => ?_⟩
  have hin : d ∈ confirmed config request := by simpa [has, hq] using hc
  exact (mem_confirmed hin).1

theorem negotiate_eq_some {config : Option Config} {r : Request} {route : Route} {call : CallCompression}
    (h : negotiate config r route = some call) : call.answer = confirmed config r ∧
      ∀ c ∈ call.responses, some c.config = config ∧ c.allowed = has (some (allowed config r)) := by
  obtain ⟨-, h⟩ := Option.ite_none_left_eq_some.mp h
  cases h
  refine ⟨rfl, fun c hc => ?_⟩
  obtain ⟨-, hc⟩ := Option.ite_none_left_eq_some.mp hc
  obtain ⟨config, rfl, rfl⟩ := Option.map_eq_some_iff.mp hc
  exact ⟨rfl, rfl⟩

theorem prepare_query (shared : Option (List DictionaryInfo)) (info : CallInfo) :
    (prepare config shared info).1.dictionaryQuery ⊆ config.byId := by
  simp only [prepare]
  split_ifs
  · exact List.Subset.refl _
  · exact List.nil_subset _

theorem mem_accept {shared : Option (List DictionaryInfo)} {info : CallInfo}
    (h : d ∈ ((prepare config shared info).2.accept).getD []) : d ∈ config.byId ∧ (d = plain ∨
      (∃ set ∈ shared, d ∈ set) ∨ d ∈ (prepare config shared info).1.dictionaryQuery) := by
  have hp : plain ∈ config.byId ∧ (plain = plain ∨ (∃ set ∈ shared, plain ∈ set) ∨
      plain ∈ (prepare config shared info).1.dictionaryQuery) := ⟨config.plain_mem, .inl rfl⟩
  have hty {e : DictionaryInfo} (he : (info.responseType.bind (config.byType.lookup ·)).filter
      (fun d => shared.isNone || has shared d) = some e) : e ∈ config.byId ∧ (e = plain ∨ (∃ set ∈ shared, e ∈ set) ∨
        e ∈ (prepare config shared info).1.dictionaryQuery) := by
    obtain ⟨hl, hs⟩ := Option.filter_eq_some_iff.mp he
    obtain ⟨type, -, hl⟩ := Option.bind_eq_some_iff.mp hl
    have ht := Config.lookup_mem hl
    refine ⟨List.mem_cons_of_mem _ ht, .inr ?_⟩
    cases shared with
    | some set => exact .inl ⟨set, rfl, by simpa [has] using hs⟩
    | none =>
      -- A client with dictionaries asks on every call.
      have hso : config.dictionaries ≠ [] := List.ne_nil_of_mem ht
      exact .inr (by simp [prepare, hso, query, ht])
  simp only [prepare] at h
  split at h
  · next e he _ =>
    rcases List.mem_cons.mp h with rfl | h
    · exact hty he
    · exact List.mem_singleton.mp h ▸ hp
  · next e he _ => exact List.mem_singleton.mp h ▸ hty he
  · exact List.mem_singleton.mp h ▸ hp
  · cases h

end

theorem client_lawful (config : Option Config) : (client config).Lawful where
  ids := uniqueIds config
  learn answer d hd := by
    cases config with
    | none => simp [client] at hd
    | some config => exact (mem_matched matching_eq_some hd).symm
  requests P before now info type d hbefore hnow h := by
    cases config with
    | none => simp [client] at h
    | some config =>
      obtain ⟨-, hal⟩ := compressorFor_eq_some h
      obtain ⟨set, hset, hin⟩ := any_mem hal
      exact hnow set hset d hin
  accepts shared info id hid := by
    cases config with
    | none => simp [client, noCompression] at hid
    | some config =>
      obtain ⟨d, hd, rfl⟩ := List.mem_map.mp hid
      replace hd : d ∈ (prepare config shared info).2.accept.getD [] := hd
      obtain ⟨hh, hwhy⟩ := mem_accept hd
      refine ⟨d, ?_, hh, rfl, hwhy.imp_right (·.imp_right (⟨·, prepare_query shared info⟩))⟩
      -- No other dictionary of the set has the ID.
      change (prepare config shared info).2.lookup d.id = some d
      cases hac : (prepare config shared info).2.accept with
      | none => simp [hac] at hd
      | some set =>
        rw [hac, Option.getD_some] at hd
        have hset (e : DictionaryInfo) (he : e ∈ set) : e ∈ config.byId := by
          have ha : e ∈ (prepare config shared info).2.accept.getD [] := by
            rw [hac]
            exact he
          exact (mem_accept ha).1
        rw [ClientCall.lookup, hac]
        exact find_of_unique (fun e he f hf => config.uniqueIds.unique e (hset e he) f (hset f hf)) hd

theorem server_lawful (config : Option Config) : (server config).Lawful where
  ids := uniqueIds config
  answer request route d hd := by
    change d ∈ ((negotiate config request route).map (·.answer)).getD [] at hd
    cases hca : negotiate config request route with
    | none => simp [hca] at hd
    | some call =>
      rw [hca, Option.map_some, Option.getD_some, (negotiate_eq_some hca).1] at hd
      exact (mem_confirmed hd).2
  responses request route type d h := by
    obtain ⟨c, hc, hd⟩ := Option.bind_eq_some_iff.mp h
    obtain ⟨call, hca, hc⟩ := Option.bind_eq_some_iff.mp hc
    obtain ⟨rfl, hal⟩ := (negotiate_eq_some hca).2 c hc
    obtain ⟨hh, hd⟩ := compressorFor_eq_some hd
    rw [hal] at hd
    exact ⟨hh, mem_allowed (by simpa [has] using hd)⟩
  lookup d hd := by
    cases config with
    | none => simp [server, holds] at hd
    | some config => exact Config.dict_eq_some.mpr ⟨hd, rfl⟩

end Go

/-! ## Any client and any server -/

inductive Runtime
  | rust
  | go
  deriving DecidableEq

def Runtime.client : Runtime → Option Config → Client
  | .rust => Rust.client
  | .go => Go.client

def Runtime.server : Runtime → Option Config → Server
  | .rust => Rust.server
  | .go => Go.server

theorem Runtime.client_lawful (r : Runtime) (config : Option Config) : (r.client config).Lawful := by
  cases r
  · exact Rust.client_lawful config
  · exact Go.client_lawful config

theorem Runtime.server_lawful (r : Runtime) (config : Option Config) : (r.server config).Lawful := by
  cases r
  · exact Rust.server_lawful config
  · exact Go.server_lawful config

/-- Between any two runtimes, the receiver of a compressed message accepts its dictionary and holds the same one. -/
theorem negotiation_is_sound (clientRuntime serverRuntime : Runtime) (clientConfig serverConfig : Option Config)
    (actions : List Action) (s : State (clientRuntime.client clientConfig) (serverRuntime.server serverConfig))
    (h : run step (State.init _ _) actions = some s) :
    ∀ m ∈ s.messages, Accepted (S := serverRuntime.server serverConfig) s.clients m :=
  messages_accepted (clientRuntime.client_lawful clientConfig) (serverRuntime.server_lawful serverConfig) h

def positions : Config where
  dictionaries := [⟨7, [1, 2, 3, 4, 5, 6, 7, 8]⟩]
  byType := [("example.Position", ⟨7, [1, 2, 3, 4, 5, 6, 7, 8]⟩)]
  nodup := by simp
  nonzero := by simp
  typed := by simp

/-- A Go client asks a Rust server, compresses once it is answered, and then gets a compressed response. -/
theorem negotiation_is_sound_positions :
    ∃ s : State (Go.client (some positions)) (Rust.server (some positions)),
      s.messages = [⟨0, .client, ⟨7, [1, 2, 3, 4, 5, 6, 7, 8]⟩⟩, ⟨1, .server, ⟨7, [1, 2, 3, 4, 5, 6, 7, 8]⟩⟩] ∧
        ∀ m ∈ s.messages, Accepted (S := Rust.server (some positions)) s.clients m := by
  let info : CallInfo := ⟨some "example.Position", some "example.Position", ⟨false, true⟩⟩
  let route : Route := ⟨some "example.Position", ⟨false, true⟩⟩
  let actions : List Action := [.start info, .negotiate 0 route, .learn 0, .request 0 "example.Position", .start info,
    .negotiate 1 route, .response 1 "example.Position"]
  have hrun : ∃ s ∈ run step (State.init (Go.client (some positions)) (Rust.server (some positions))) actions,
      s.messages = [⟨0, .client, ⟨7, [1, 2, 3, 4, 5, 6, 7, 8]⟩⟩, ⟨1, .server, ⟨7, [1, 2, 3, 4, 5, 6, 7, 8]⟩⟩] := by
    decide
  obtain ⟨s, hs, hmessages⟩ := hrun
  exact ⟨s, hmessages, negotiation_is_sound .go .rust (some positions) (some positions) actions s hs⟩

end TrevRpc.Negotiation
