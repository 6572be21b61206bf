import TrevRpc.Lib.Modify
import TrevRpc.Lib.Run
import TrevRpc.Rust.Framing

/-!
# Dictionary negotiation

A client asks which of its dictionaries the server holds until an ANSWER tells it. What the two ends must do for that to
be sound is stated of any client and any server.
-/

open TrevRpc.Run TrevRpc.Modify TrevRpc.Rust

namespace TrevRpc.Negotiation

/-- The name of a dictionary in queries and answers. A peer has one dictionary of each ID. -/
structure DictionaryInfo where
  id : UInt32
  fingerprint : Bytes
  deriving DecidableEq

/-- Compression without a dictionary. -/
def plain : DictionaryInfo := ⟨0, []⟩

/-- The negotiation fields of a REQUEST. -/
structure Request where
  dictionaryQuery : List DictionaryInfo
  acceptDictionaries : List UInt32
  deriving DecidableEq

structure CompressMessages where
  requests : Bool
  responses : Bool
  deriving DecidableEq

structure CallInfo where
  requestType : Option String
  responseType : Option String
  plain : CompressMessages
  deriving DecidableEq

/-- What a server's route says. -/
structure Route where
  responseType : Option String
  plain : CompressMessages
  deriving DecidableEq

/-! ## The two ends -/

/-- A client: its calls, what it sends and learns, its dictionary for a message, and those it accepts. -/
structure Client where
  Call : Type
  holds : List DictionaryInfo
  prepare : Option (List DictionaryInfo) → CallInfo → Request × Call
  queried : Call → Bool
  learn : List DictionaryInfo → List DictionaryInfo
  requestDict : Option (List DictionaryInfo) → Call → String → Option DictionaryInfo
  lookup : Call → UInt32 → Option DictionaryInfo

structure Server where
  Call : Type
  holds : List DictionaryInfo
  negotiate : Request → Route → Call
  answer : Call → List DictionaryInfo
  responseDict : Call → String → Option DictionaryInfo
  lookup : UInt32 → Option DictionaryInfo

structure UniqueIds (holds : List DictionaryInfo) : Prop where
  unique : ∀ d ∈ holds, ∀ e ∈ holds, d.id = e.id → d = e
  plain : ∀ d ∈ holds, d.id = 0 → d = plain

structure Client.Lawful (C : Client) : Prop where
  ids : UniqueIds C.holds
  learn : ∀ answer, ∀ d ∈ C.learn answer, d ∈ C.holds ∧ d ∈ answer
  /-- A request is compressed only with what the connection shared then or shares now. -/
  requests : ∀ (P : DictionaryInfo → Prop) before now info type d, (∀ set ∈ before, ∀ d ∈ set, P d) →
    (∀ set ∈ now, ∀ d ∈ set, P d) → C.requestDict now (C.prepare before info).2 type = some d → P d
  /-- A call accepts, beside 0, what the server is known to hold or is asked about. -/
  accepts : ∀ shared info, ∀ id ∈ (C.prepare shared info).1.acceptDictionaries,
    ∃ d ∈ C.lookup (C.prepare shared info).2 id, d ∈ C.holds ∧ d.id = id ∧
      (d = plain ∨ (∃ set ∈ shared, d ∈ set) ∨
        d ∈ (C.prepare shared info).1.dictionaryQuery ∧ (C.prepare shared info).1.dictionaryQuery ⊆ C.holds)

structure Server.Lawful (S : Server) : Prop where
  ids : UniqueIds S.holds
  answer : ∀ request route, S.answer (S.negotiate request route) ⊆ S.holds
  /-- A response is compressed with what the REQUEST lists, and the answer confirms if it asked. -/
  responses : ∀ request route type d, S.responseDict (S.negotiate request route) type = some d →
    d ∈ S.holds ∧ d.id ∈ request.acceptDictionaries ∧ (request.dictionaryQuery ≠ [] → d ∈ request.dictionaryQuery)
  lookup : ∀ d ∈ S.holds, S.lookup d.id = some d

/-! ## The calls of a connection -/

inductive Sender
  | client
  | server
  deriving DecidableEq

/-- A message that was compressed. -/
structure Message where
  call : Nat
  sender : Sender
  dict : DictionaryInfo
  deriving DecidableEq

structure CallState (C : Client) (S : Server) where
  request : Request
  client : C.Call
  server : Option S.Call
  answered : Bool

structure State (C : Client) (S : Server) where
  shared : Option (List DictionaryInfo)
  calls : List (CallState C S)
  messages : List Message

inductive Action
  | start (info : CallInfo)
  | negotiate (call : Nat) (route : Route)
  | learn (call : Nat)
  | request (call : Nat) (type : String)
  | response (call : Nat) (type : String)

variable (C : Client) (S : Server)

def State.init : State C S := ⟨none, [], []⟩

variable {C S}

/-- What may happen next, on any call. The first answer wins. -/
def step (s : State C S) : Action → Option (State C S)
  | .start info =>
    let (request, client) := C.prepare s.shared info
    some { s with calls := s.calls ++ [⟨request, client, none, false⟩] }
  | .negotiate i route =>
    match s.calls[i]? with
    | some ⟨request, _, none, _⟩ =>
      some { s with calls := s.calls.modify i fun call => { call with server := some (S.negotiate request route) } }
    | _ => none
  | .learn i =>
    match s.calls[i]? with
    | some ⟨_, client, some server, false⟩ =>
      if C.queried client then
        some { s with
          shared := s.shared.or (some (C.learn (S.answer server)))
          calls := s.calls.modify i fun call => { call with answered := true } }
      else none
    | _ => none
  | .request i type =>
    match s.calls[i]? with
    | some call =>
      (C.requestDict s.shared call.client type).map fun d => { s with messages := s.messages ++ [⟨i, .client, d⟩] }
    | none => none
  | .response i type =>
    match s.calls[i]? with
    | some ⟨_, _, some server, _⟩ =>
      (S.responseDict server type).map fun d => { s with messages := s.messages ++ [⟨i, .server, d⟩] }
    | _ => none

def Accepted (clients : List C.Call) (m : Message) : Prop :=
  match m.sender with
  | .client => ∃ d ∈ S.lookup m.dict.id, d ∈ S.holds ∧ d.fingerprint = m.dict.fingerprint
  | .server => ∃ call ∈ clients[m.call]?, ∃ d ∈ C.lookup call m.dict.id, d ∈ C.holds ∧
      d.fingerprint = m.dict.fingerprint

def State.clients (s : State C S) : List C.Call := s.calls.map (·.client)

/-! ## Soundness -/

/-- Both ends hold the dictionary. -/
def Common (C : Client) (S : Server) (d : DictionaryInfo) : Prop := d ∈ C.holds ∧ d ∈ S.holds

/-- How the two ends of a call came about. -/
def CallState.Ok (call : CallState C S) : Prop :=
  (∃ shared info, C.prepare shared info = (call.request, call.client) ∧ ∀ set ∈ shared, ∀ d ∈ set, Common C S d) ∧
    ∀ server ∈ call.server, ∃ route, server = S.negotiate call.request route

structure Inv (s : State C S) : Prop where
  shared : ∀ set ∈ s.shared, ∀ d ∈ set, Common C S d
  calls : ∀ call ∈ s.calls, call.Ok
  messages : ∀ m ∈ s.messages, Accepted (S := S) s.clients m

section

variable {s s' : State C S} {a : Action} {call : CallState C S} {d : DictionaryInfo}

theorem request_accepted (hC : C.Lawful) (hS : S.Lawful) (hs : Inv s) (hc : call.Ok) {type : String}
    (h : C.requestDict s.shared call.client type = some d) : S.lookup d.id = some d ∧ d ∈ S.holds := by
  obtain ⟨⟨b, info, hp, hb⟩, -⟩ := hc
  have hco : Common C S d := by
    refine hC.requests (Common C S) b s.shared info type d hb hs.shared ?_
    rw [hp]
    exact h
  exact ⟨hS.lookup d hco.2, hco.2⟩

theorem response_accepted (hC : C.Lawful) (hS : S.Lawful) (hc : call.Ok) {server : S.Call}
    (hserver : call.server = some server) {type : String} (h : S.responseDict server type = some d) :
    C.lookup call.client d.id = some d ∧ d ∈ C.holds := by
  obtain ⟨⟨sh, info, hp, hs⟩, hn⟩ := hc
  obtain ⟨r, rfl⟩ := hn server hserver
  obtain ⟨hh, hid, hq⟩ := hS.responses call.request r type d h
  have ha := hC.accepts sh info
  rw [hp] at ha
  obtain ⟨e, hl, hhe, he, hwhy⟩ := ha d.id hid
  obtain rfl : e = d := by
    rcases hwhy with rfl | ⟨set, hset, hin⟩ | ⟨hask, hall⟩
    · exact (hS.ids.plain d hh he.symm).symm
    · exact hS.ids.unique e (hs set hset e hin).2 d hh he
    · have hco := hq (List.ne_nil_of_mem hask)
      exact hC.ids.unique e hhe d (hall hco) he
  exact ⟨hl, hhe⟩

theorem Accepted.append {cs : List C.Call} {m : Message} (h : Accepted (S := S) cs m) (more : List C.Call) :
    Accepted (S := S) (cs ++ more) m := by
  unfold Accepted at h ⊢
  split
  · next hs => rwa [hs] at h
  · next hs =>
    rw [hs] at h
    obtain ⟨call, hc, hr⟩ := h
    exact ⟨call, List.getElem?_append_left (List.getElem?_eq_some_iff.mp hc).1 ▸ hc, hr⟩

theorem Inv.modify (hs : Inv s) {i : Nat} {f : CallState C S → CallState C S}
    (hclient : ∀ call, (f call).client = call.client)
    (hok : ∀ call, s.calls[i]? = some call → call.Ok → (f call).Ok) : Inv { s with calls := s.calls.modify i f } where
  shared := hs.shared
  calls := forall_mem_modify hs.calls fun call hc => hok call hc (hs.calls call (List.mem_of_getElem? hc))
  messages := by
    have hsa : State.clients { s with calls := s.calls.modify i f } = s.clients := map_modify_same _ hclient _ _
    rw [hsa]
    exact hs.messages

theorem Inv.send (hs : Inv s) {m : Message} (hm : Accepted (S := S) s.clients m) :
    Inv { s with messages := s.messages ++ [m] } where
  __ := hs
  messages := by
    intro m' hm'
    rcases List.mem_append.mp hm' with hm' | hm'
    · exact hs.messages m' hm'
    · exact List.mem_singleton.mp hm' ▸ hm

theorem step_inv (hC : C.Lawful) (hS : S.Lawful) (hs : Inv s) (h : step s a = some s') : Inv s' := by
  cases a with
  | start info =>
    cases h
    refine ⟨hs.shared, ?_, fun m hm => ?_⟩
    · intro call hc
      rcases List.mem_append.mp hc with hc | hc
      · exact hs.calls call hc
      · obtain rfl := List.mem_singleton.mp hc
        exact ⟨⟨s.shared, info, rfl, hs.shared⟩, by simp⟩
    · unfold State.clients
      rw [List.map_append]
      exact (hs.messages m hm).append _
  | negotiate i r =>
    simp only [step] at h
    split at h
    · next request client answered hc =>
      cases h
      refine hs.modify (fun _ => rfl) fun call hi hok => ?_
      obtain rfl := Option.some.inj (hc.symm.trans hi)
      exact ⟨hok.1, by simp⟩
    · cases h
  | learn i =>
    simp only [step] at h
    split at h
    · next request client se hc =>
      obtain ⟨-, rfl⟩ := of_guard h
      have hle : ∀ d ∈ C.learn (S.answer se), Common C S d := by
        intro d hd
        obtain ⟨hh, ha⟩ := hC.learn _ d hd
        obtain ⟨-, hn⟩ := hs.calls _ (List.mem_of_getElem? hc)
        obtain ⟨r, hr⟩ := hn se rfl
        rw [hr] at ha
        exact ⟨hh, hS.answer _ _ ha⟩
      have hmo : Inv { s with calls := s.calls.modify i fun call => { call with answered := true } } :=
        hs.modify (fun _ => rfl) fun call _ hok => hok
      refine { hmo with shared := ?_ }
      intro set hset d hd
      rcases Option.or_eq_some_iff.mp hset with hset | ⟨-, hset⟩
      · exact hs.shared set hset d hd
      · obtain rfl := Option.some.inj hset
        exact hle d hd
    · cases h
  | request i type =>
    simp only [step] at h
    split at h
    · next call hc =>
      obtain ⟨d, hd, rfl⟩ := Option.map_eq_some_iff.mp h
      obtain ⟨hl, hh⟩ := request_accepted hC hS hs (hs.calls _ (List.mem_of_getElem? hc)) hd
      exact hs.send ⟨d, hl, hh, rfl⟩
    · cases h
  | response i type =>
    simp only [step] at h
    split at h
    · next request client se answered hc =>
      obtain ⟨d, hd, rfl⟩ := Option.map_eq_some_iff.mp h
      obtain ⟨hl, hh⟩ := response_accepted hC hS (hs.calls _ (List.mem_of_getElem? hc)) rfl hd
      have hcl : s.clients[i]? = some client := by simp [State.clients, hc]
      exact hs.send ⟨client, hcl, d, hl, hh, rfl⟩
    · cases h

theorem messages_accepted (hC : C.Lawful) (hS : S.Lawful) {actions : List Action}
    (h : run step (State.init C S) actions = some s) : ∀ m ∈ s.messages, Accepted (S := S) s.clients m := by
  have hi : Inv (State.init C S) := ⟨by simp [State.init], by simp [State.init], by simp [State.init]⟩
  exact (run_induction (P := fun _ => Inv) hi (fun _ _ _ _ hs hst => step_inv hC hS hs hst) h).messages

end

end TrevRpc.Negotiation
