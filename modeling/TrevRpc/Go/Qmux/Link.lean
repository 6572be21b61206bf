import TrevRpc.Go.Qmux.Views

/-!
# Two QMux sessions and the frames between them

`Link X Y P` relates a sender `X`, the other side `Y` and the frames `P` on their way. Each rule says what keeps it when
one of the three changes.
-/

open TrevRpc.Varint TrevRpc.Pipe

namespace TrevRpc.Go.Qmux

namespace Frame

def chunk (id : StreamID) : Frame → Option (Chunk UInt8)
  | .stream _ streamID offset data fin => if streamID = id.toNat then some (.data offset data fin) else none
  | .resetStream streamID _ finalSize => if streamID = id.toNat then some (.reset finalSize) else none
  | _ => none

def dataLength : Frame → Nat
  | .stream _ _ _ data _ => data.length
  | _ => 0

def pingSequence : Frame → Option Nat
  | .ping sequence => some sequence
  | _ => none

def isParameters : Frame → Bool
  | .transportParameters _ => true
  | _ => false

structure Silent (f : Frame) : Prop where
  chunk : ∀ id, f.chunk id = none
  dataLength : f.dataLength = 0
  pingSequence : f.pingSequence = none
  isParameters : f.isParameters = false

end Frame

def chunks (id : StreamID) (P : List Frame) : List (Chunk UInt8) := P.filterMap (Frame.chunk id)

def dataLength (P : List Frame) : Nat := (P.map Frame.dataLength).sum

def pings (P : List Frame) : List Nat := P.filterMap Frame.pingSequence

section Lists

variable (id : StreamID) (P Q : List Frame) (f : Frame)

@[simp] theorem chunks_append : chunks id (P ++ Q) = chunks id P ++ chunks id Q := List.filterMap_append

@[simp] theorem dataLength_append : dataLength (P ++ Q) = dataLength P + dataLength Q := by
  simp [dataLength]

@[simp] theorem dataLength_singleton : dataLength [f] = f.dataLength := by simp [dataLength]

@[simp] theorem pings_append : pings (P ++ Q) = pings P ++ pings Q := List.filterMap_append

theorem mem_pings {n : Nat} : n ∈ pings P ↔ .ping n ∈ P := by
  unfold pings
  rw [List.mem_filterMap]
  constructor
  · rintro ⟨f, hf, hn⟩
    cases f <;> simp_all [Frame.pingSequence]
  · intro h
    exact ⟨_, h, rfl⟩

variable {P}

variable (h : ∀ f ∈ P, f.Silent)
include h

theorem chunks_silent : chunks id P = [] :=
  List.filterMap_eq_nil_iff.mpr fun f hf => (h f hf).chunk id

theorem dataLength_silent : dataLength P = 0 := by
  induction P with
  | nil => rfl
  | cons f P ih =>
    have hf := (h f List.mem_cons_self).dataLength
    have hP := ih fun f' hf' => h f' (List.mem_cons_of_mem _ hf')
    rw [← List.singleton_append, dataLength_append, dataLength_singleton, hf, hP]

theorem pings_silent : pings P = [] :=
  List.filterMap_eq_nil_iff.mpr fun f hf => (h f hf).pingSequence

end Lists

/-! ## The relation -/

/-- The frame is about a stream of `X`, and grants no more than `X` grants now. -/
def Sound (X Y : Session) : Frame → Prop
  | .stream typ streamID offset _ fin =>
    typ = streamFrameType offset fin ∧ ∃ id : StreamID, streamID = id.toNat ∧ X.has id
  | .resetStream streamID _ _ => ∃ id : StreamID, streamID = id.toNat ∧ X.has id
  | .stopSending streamID _ => ∃ id : StreamID, streamID = id.toNat ∧ X.has id
  | .maxStreamData streamID maximum =>
    ∃ id : StreamID, streamID = id.toNat ∧ X.has id ∧ maximum ≤ X.recvLimit id
  | .maxData maximum => maximum ≤ X.connRecvMax
  | .maxStreamsBidi maximum => maximum ≤ X.maxRemote
  | .ping sequence => sequence ≤ X.pingSent
  | .pingResponse sequence => sequence ≤ Y.pingSent
  | .transportParameters body =>
    appendTransportParameters X.version X.localParams = some (.transportParameters body)
  | _ => False

/-- `X` has used no more than it knows to be granted, and `Y` grants that. -/
structure Credit (X Y : Session) : Prop where
  opened : X.openedLocal ≤ X.maxLocal
  maxLocal : X.maxLocal ≤ Y.maxRemote
  connSent : X.connSent ≤ X.connSendMax
  connSendMax : X.connSendMax ≤ Y.connRecvMax
  stream : ∀ id st, X.get id = some st → st.sent ≤ st.sendMax ∧ st.sendMax ≤ Y.recvLimit id

structure Pings (X Y : Session) (P : List Frame) : Prop where
  sorted : (pings P).Pairwise (· < ·)
  fresh : Y.receivedPing = true → ∀ n ∈ pings P, Y.pingReceived < n
  received : Y.pingReceived ≤ X.pingSent

structure Handshake (X Y : Session) (P : List Frame) : Prop where
  done : Y.paramsReceived = true →
    Y.peer = X.localParams.advertised ∧ ∀ f ∈ P, f.isParameters = false
  pending : Y.paramsReceived = false →
    Y.peer = { maxRecordSize := defaultMaxRecordSize } ∧ Y.maxLocal = 0 ∧ Y.connSendMax = 0 ∧
      ∃ body rest, P = .transportParameters body :: rest ∧ ∀ f ∈ rest, f.isParameters = false

structure Link (X Y : Session) (P : List Frame) : Prop where
  role : Y.role = X.role.other
  version : Y.version = X.version
  -- `Y` knows of no stream that `X` has not opened.
  known : (Y.streams X.role).length ≤ (X.streams X.role).length
  sound : ∀ f ∈ P, Sound X Y f
  -- The frames in between take what `Y` has received to what `X` has sent.
  data : ∀ id, (Y.recvView id).after (chunks id P) = some (X.sendView id)
  conn : Y.connReceived + dataLength P = X.connSent
  credit : Credit X Y
  pings : Pings X Y P
  handshake : Handshake X Y P

/-- What only grows in a session. -/
structure Grows (s s' : Session) : Prop where
  role : s'.role = s.role
  version : s'.version = s.version
  localParams : s'.localParams = s.localParams
  length : ∀ r, (s.streams r).length ≤ (s'.streams r).length
  recvLimit : ∀ id, s.recvLimit id ≤ s'.recvLimit id
  connRecvMax : s.connRecvMax ≤ s'.connRecvMax
  maxRemote : s.maxRemote ≤ s'.maxRemote
  pingSent : s.pingSent ≤ s'.pingSent

variable {X X' Y Y' : Session} {P fs : List Frame} {f : Frame}

theorem Grows.refl (s : Session) : Grows s s :=
  ⟨rfl, rfl, rfl, fun _ => le_rfl, fun _ => le_rfl, le_rfl, le_rfl, le_rfl⟩

variable {s s' : Session}

theorem Grows.has (h : Grows s s') {id : StreamID} (hid : s.has id) : s'.has id :=
  lt_of_lt_of_le hid (h.length id.opener)

theorem Sound.grows (h : Sound X Y f) (hX : Grows X X') (hY : Grows Y Y') : Sound X' Y' f := by
  cases f with
  | stream =>
    obtain ⟨htyp, id, hid, hhas⟩ := h
    exact ⟨htyp, id, hid, hX.has hhas⟩
  | resetStream | stopSending =>
    obtain ⟨id, hid, hhas⟩ := h
    exact ⟨id, hid, hX.has hhas⟩
  | maxStreamData =>
    obtain ⟨id, hid, hhas, hle⟩ := h
    exact ⟨id, hid, hX.has hhas, hle.trans (hX.recvLimit id)⟩
  | maxData => exact Nat.le_trans h hX.connRecvMax
  | maxStreamsBidi => exact Nat.le_trans h hX.maxRemote
  | ping => exact Nat.le_trans h hX.pingSent
  | pingResponse => exact Nat.le_trans h hY.pingSent
  | transportParameters =>
    unfold Sound at h ⊢
    rw [hX.version, hX.localParams]
    exact h
  | _ => exact h

theorem Credit.grows (h : Credit X Y) (hY : Grows Y Y') : Credit X Y' where
  opened := h.opened
  maxLocal := h.maxLocal.trans hY.maxRemote
  connSent := h.connSent
  connSendMax := h.connSendMax.trans hY.connRecvMax
  stream id st hget := ⟨(h.stream id st hget).1, (h.stream id st hget).2.trans (hY.recvLimit id)⟩

/-! ## Rules -/

theorem Link.sender (fs : List Frame) (h : Link X Y P) (hg : Grows X X') (hs : ∀ f ∈ fs, Sound X' Y f)
    (hdata : ∀ id, (X.sendView id).after (chunks id fs) = some (X'.sendView id))
    (hc : X'.connSent = X.connSent + dataLength fs) (hcredit : Credit X' Y)
    (hpings : Pings X' Y (P ++ fs)) (hparams : ∀ f ∈ fs, f.isParameters = false) :
    Link X' Y (P ++ fs) where
  role := by rw [h.role, hg.role]
  version := by rw [h.version, hg.version]
  known := by
    rw [hg.role]
    exact h.known.trans (hg.length _)
  sound f hf := by
    rcases List.mem_append.mp hf with hf | hf
    · exact (h.sound f hf).grows hg (.refl Y)
    · exact hs f hf
  data id := by
    rw [chunks_append, View.after_append, h.data id]
    exact hdata id
  conn := by
    rw [dataLength_append, hc, ← h.conn, Nat.add_assoc]
  credit := hcredit
  pings := hpings
  handshake := by
    constructor
    · intro hd
      obtain ⟨hp, hP⟩ := h.handshake.done hd
      refine ⟨by rw [hp, hg.localParams], ?_⟩
      intro f hf
      rcases List.mem_append.mp hf with hf | hf
      · exact hP f hf
      · exact hparams f hf
    · intro hpe
      obtain ⟨hp, hmax, hc, body, rest, hP, hr⟩ := h.handshake.pending hpe
      refine ⟨hp, hmax, hc, body, rest ++ fs, by rw [hP, List.cons_append], ?_⟩
      intro f hf
      rcases List.mem_append.mp hf with hf | hf
      · exact hr f hf
      · exact hparams f hf

theorem Link.receiver (fs : List Frame) (h : Link X Y (fs ++ P)) (hg : Grows Y Y')
    (hk : (Y'.streams X.role).length ≤ (X.streams X.role).length)
    (hd : ∀ id, (Y.recvView id).after (chunks id fs) = some (Y'.recvView id))
    (hc : Y'.connReceived = Y.connReceived + dataLength fs)
    (hp : Pings X Y' P) (hh : Handshake X Y' P) : Link X Y' P where
  role := by rw [hg.role, h.role]
  version := by rw [hg.version, h.version]
  known := hk
  sound f hf := (h.sound f (List.mem_append_right _ hf)).grows (.refl X) hg
  data id := by
    have hall := h.data id
    rw [chunks_append, View.after_append, hd id] at hall
    exact hall
  conn := by
    have hall := h.conn
    rw [dataLength_append] at hall
    rw [hc]
    omega
  credit := h.credit.grows hg
  pings := hp
  handshake := hh

theorem Pings.silent (h : Pings X Y P) (hs : X.pingSent ≤ X'.pingSent) (hfs : pings fs = []) :
    Pings X' Y (P ++ fs) where
  sorted := by
    rw [pings_append, hfs, List.append_nil]
    exact h.sorted
  fresh hr := by
    rw [pings_append, hfs, List.append_nil]
    exact h.fresh hr
  received := h.received.trans hs

theorem Pings.tail (fs : List Frame) (h : Pings X Y (fs ++ P)) (hY : Y'.pingReceived = Y.pingReceived)
    (hreceived : Y'.receivedPing = Y.receivedPing) : Pings X Y' P where
  sorted := by
    have hs := h.sorted
    rw [pings_append, List.pairwise_append] at hs
    exact hs.2.1
  fresh hr n hn := by
    rw [hY]
    refine h.fresh (hreceived ▸ hr) n ?_
    rw [pings_append]
    exact List.mem_append_right _ hn
  received := hY.le.trans h.received

theorem Handshake.congr (h : Handshake X Y P) (hparams : Y'.paramsReceived = Y.paramsReceived)
    (hp : Y'.peer = Y.peer) (hmax : Y'.maxLocal = Y.maxLocal) (hc : Y'.connSendMax = Y.connSendMax) :
    Handshake X Y' P where
  done hd := by
    rw [hp]
    exact h.done (hparams ▸ hd)
  pending hpe := by
    rw [hp, hmax, hc]
    exact h.pending (hparams ▸ hpe)

theorem Handshake.tail (fs : List Frame) (h : Handshake X Y (fs ++ P)) (hd : Y.paramsReceived = true)
    (hparams : Y'.paramsReceived = Y.paramsReceived) (hpeer : Y'.peer = Y.peer) : Handshake X Y' P where
  done _ := by
    rw [hpeer]
    exact ⟨(h.done hd).1, fun f hf => (h.done hd).2 f (List.mem_append_right _ hf)⟩
  pending hp := by
    rw [hparams, hd] at hp
    cases hp

/-! ### Steps that the other side cannot tell -/

theorem Session.Evolves.grows (h : s.Evolves s') : Grows s s' where
  role := congrArg Session.Core.role h.core
  version := congrArg Session.Core.version h.core
  localParams := congrArg Session.Core.localParams h.core
  length r := (h.length r).ge
  recvLimit := h.recvLimit
  connRecvMax := h.connRecvMax
  maxRemote := h.maxRemote
  pingSent := (congrArg Session.Core.pingSent h.core).ge

theorem Credit.evolves (h : Credit X Y) (he : X.Evolves X') : Credit X' Y where
  opened := by
    have hr : X'.role = X.role := congrArg Session.Core.role he.core
    have hmax : X'.maxLocal = X.maxLocal := congrArg Session.Core.maxLocal he.core
    unfold Session.openedLocal
    rw [hmax, hr, he.length]
    exact h.opened
  maxLocal := (congrArg Session.Core.maxLocal he.core).le.trans h.maxLocal
  connSent := by
    have hs : X'.connSent = X.connSent := congrArg Session.Core.connSent he.core
    have hmax : X'.connSendMax = X.connSendMax := congrArg Session.Core.connSendMax he.core
    rw [hs, hmax]
    exact h.connSent
  connSendMax := (congrArg Session.Core.connSendMax he.core).le.trans h.connSendMax
  stream id st' hget' := by
    obtain ⟨st, hget, hst⟩ := he.exists_get hget'
    rw [hst.sent, hst.sendMax]
    exact h.stream id st hget

theorem Link.evolve_sender (h : Link X Y P) (he : X.Evolves X') (hs : ∀ f ∈ fs, Sound X' Y f)
    (hsilent : ∀ f ∈ fs, f.Silent) : Link X' Y (P ++ fs) := by
  refine h.sender fs he.grows hs ?_ ?_ (h.credit.evolves he) (h.pings.silent he.grows.pingSent
    (pings_silent hsilent)) fun f hf => (hsilent f hf).isParameters
  · intro id
    rw [chunks_silent id hsilent, he.sendView]
    rfl
  · rw [dataLength_silent hsilent]
    exact congrArg Session.Core.connSent he.core

theorem Link.same_receiver (h : Link X Y P) (hg : Grows Y Y')
    (hk : (Y'.streams X.role).length ≤ (X.streams X.role).length) (hv : ∀ id, Y'.recvView id = Y.recvView id)
    (hc : Y'.core = Y.core) : Link X Y' P := by
  refine Link.receiver [] h hg hk (fun id => ?_) ?_ (Pings.tail [] h.pings ?_ ?_) (h.handshake.congr ?_ ?_ ?_ ?_)
  · rw [hv]
    rfl
  · exact congrArg Session.Core.connReceived hc
  · exact congrArg Session.Core.pingReceived hc
  · exact congrArg Session.Core.receivedPing hc
  · exact congrArg Session.Core.paramsReceived hc
  · exact congrArg Session.Core.peer hc
  · exact congrArg Session.Core.maxLocal hc
  · exact congrArg Session.Core.connSendMax hc

theorem Link.evolve_receiver (h : Link X Y P) (he : Y.Evolves Y') : Link X Y' P :=
  h.same_receiver he.grows (he.length _ ▸ h.known) he.recvView he.core

/-! ### New streams -/

variable {r : Role} {sendMax : Nat}

theorem Session.Extends.grows (h : s.Extends s' r sendMax) : Grows s s' where
  role := congrArg Session.Core.role h.core
  version := congrArg Session.Core.version h.core
  localParams := congrArg Session.Core.localParams h.core
  length r' := by
    by_cases hr : r' = r
    · rw [hr]
      exact h.length
    · exact (h.length_of_ne r' hr).ge
  recvLimit id := (h.recvLimit id).ge
  connRecvMax := h.connRecvMax.ge
  maxRemote := h.maxRemote.ge
  pingSent := (congrArg Session.Core.pingSent h.core).ge

theorem Link.extend_sender (h : Link X Y P) (he : X.Extends X' r sendMax)
    (ho : X'.openedLocal ≤ X.maxLocal)
    (hlimit : ∀ id : StreamID, id.opener = r → sendMax ≤ Y.recvLimit id) : Link X' Y P := by
  have hs : X'.connSent = X.connSent := congrArg Session.Core.connSent he.core
  have hc : Credit X' Y := by
    have hmax : X'.connSendMax = X.connSendMax := congrArg Session.Core.connSendMax he.core
    have hl : X'.maxLocal = X.maxLocal := congrArg Session.Core.maxLocal he.core
    refine ⟨hl ▸ ho, hl ▸ h.credit.maxLocal, ?_, hmax ▸ h.credit.connSendMax, ?_⟩
    · rw [hs, hmax]
      exact h.credit.connSent
    · intro id st hget'
      rcases he.get id with hget | ⟨-, hid, hnew⟩
      · exact h.credit.stream id st (hget ▸ hget')
      · obtain rfl := Option.some.inj (hnew.symm.trans hget')
        exact ⟨Nat.zero_le _, hlimit id hid⟩
  have hln := h.sender [] he.grows (fun f hf => absurd hf List.not_mem_nil)
    (fun id => by rw [he.sendView]; rfl) hs hc (h.pings.silent he.grows.pingSent rfl)
    (fun f hf => absurd hf List.not_mem_nil)
  rwa [List.append_nil] at hln

theorem Link.extend_receiver (h : Link X Y P) (he : Y.Extends Y' r sendMax)
    (hk : (Y'.streams X.role).length ≤ (X.streams X.role).length) : Link X Y' P :=
  h.same_receiver he.grows hk he.recvView he.core

theorem Session.Quiet.silent (h : s.Quiet f) : f.Silent := by
  obtain ⟨id, -, ⟨code, rfl⟩ | ⟨maximum, -, rfl⟩⟩ := h <;> exact ⟨fun _ => rfl, rfl, rfl, rfl⟩

theorem Session.Quiet.sound (h : X.Quiet f) (Y : Session) : Sound X Y f := by
  obtain ⟨id, hid, ⟨code, rfl⟩ | ⟨maximum, hle, rfl⟩⟩ := h
  · exact ⟨id, rfl, hid⟩
  · exact ⟨id, rfl, hid, hle⟩

/-! ## Both directions -/

structure Joined (X Y : Session) (P Q : List Frame) : Prop where
  forth : Link X Y P
  back : Link Y X Q
  sender : X.Ok
  receiver : Y.Ok

variable {Q : List Frame}

variable (h : Joined X Y P Q)
include h

theorem Joined.symm : Joined Y X Q P := ⟨h.back, h.forth, h.receiver, h.sender⟩

theorem Joined.evolves (he : X.Evolves X') (hs : ∀ f ∈ fs, Sound X' Y f)
    (hsilent : ∀ f ∈ fs, f.Silent) : Joined X' Y (P ++ fs) Q where
  forth := h.forth.evolve_sender he hs hsilent
  back := h.back.evolve_receiver he
  sender := he.ok h.sender
  receiver := h.receiver

theorem Joined.evolves_nil (he : X.Evolves X') : Joined X' Y P Q := by
  have hj := h.evolves he (fun f hf => absurd hf List.not_mem_nil) fun f hf => absurd hf List.not_mem_nil
  rwa [List.append_nil] at hj

theorem Joined.queues (hq : X.Queues X' fs) : Joined X' Y (P ++ fs) Q :=
  h.evolves hq.evolves (fun f hf => (hq.quiet f hf).sound Y) fun f hf => (hq.quiet f hf).silent

theorem Joined.queues_nil (hq : X.Queues X' []) : Joined X' Y P Q :=
  h.evolves_nil hq.evolves

omit h

/-! ### Steps of one stream -/

variable {st st' : Stream}

theorem Session.Sets.grows {id : StreamID} {sent received : Nat} (h : s.Sets s' id st st' sent received) :
    Grows s s' where
  role := congrArg Session.Core.role h.core
  version := congrArg Session.Core.version h.core
  localParams := congrArg Session.Core.localParams h.core
  length r := (h.length r).ge
  recvLimit id' := (h.recvLimit id').ge
  connRecvMax := h.connRecvMax.ge
  maxRemote := h.maxRemote.ge
  pingSent := (congrArg Session.Core.pingSent h.core).ge

theorem Credit.sets {id : StreamID} {sent r : Nat} (h : Credit X Y)
    (hs : X.Sets X' id st st' sent r) (hc : X.connSent + sent ≤ X.connSendMax)
    (hst : st'.sent ≤ st'.sendMax ∧ st'.sendMax ≤ Y.recvLimit id) : Credit X' Y := by
  have hr : X'.role = X.role := congrArg Session.Core.role hs.core
  have hse : X'.connSent = X.connSent + sent := congrArg Session.Core.connSent hs.core
  have hsendMax : X'.connSendMax = X.connSendMax := congrArg Session.Core.connSendMax hs.core
  have hmaxLocal : X'.maxLocal = X.maxLocal := congrArg Session.Core.maxLocal hs.core
  refine ⟨?_, hmaxLocal ▸ h.maxLocal, by rw [hse, hsendMax]; exact hc, hsendMax ▸ h.connSendMax, ?_⟩
  · unfold Session.openedLocal
    rw [hmaxLocal, hr, hs.length]
    exact h.opened
  · intro id' st₁ hget₁
    by_cases hid : id' = id
    · subst hid
      obtain rfl := Option.some.inj (hs.get_self.symm.trans hget₁)
      exact hst
    · exact h.stream id' st₁ (hs.get_ne hid ▸ hget₁)

theorem Joined.sends (fs : List Frame) {id : StreamID} (h : Joined X Y P Q)
    (hs : X.Sets X' id st st' (dataLength fs) 0) (hr : st'.recvView = st.recvView)
    (hsend : st.sendView.after (chunks id fs) = some st'.sendView)
    (ho : ∀ id', id' ≠ id → chunks id' fs = [])
    (hconn : X.connSent + dataLength fs ≤ X.connSendMax)
    (hc : st'.sent ≤ st'.sendMax ∧ st'.sendMax ≤ Y.recvLimit id) (hsound : ∀ f ∈ fs, Sound X Y f)
    (hp : pings fs = []) (hparams : ∀ f ∈ fs, f.isParameters = false) : Joined X' Y (P ++ fs) Q := by
  refine ⟨?_, ?_, hs.session_ok h.sender, h.receiver⟩
  · refine h.forth.sender fs hs.grows (fun f hf => (hsound f hf).grows hs.grows (.refl Y)) ?_
      (congrArg Session.Core.connSent hs.core) (h.forth.credit.sets hs hconn hc)
      (h.forth.pings.silent hs.grows.pingSent hp) hparams
    intro id'
    by_cases hid : id' = id
    · rw [hid, Session.sendView_of_get hs.get, Session.sendView_of_get hs.get_self, hsend]
    · rw [ho id' hid, hs.sendView_ne hid]
      rfl
  · refine Link.receiver [] h.back hs.grows (by rw [hs.length]; exact h.back.known) ?_
      (congrArg Session.Core.connReceived hs.core) (Pings.tail [] h.back.pings
        (congrArg Session.Core.pingReceived hs.core) (congrArg Session.Core.receivedPing hs.core))
      (h.back.handshake.congr (congrArg Session.Core.paramsReceived hs.core)
        (congrArg Session.Core.peer hs.core) (congrArg Session.Core.maxLocal hs.core)
        (congrArg Session.Core.connSendMax hs.core))
    intro id'
    by_cases hid : id' = id
    · rw [hid, Session.recvView_of_get hs.get, Session.recvView_of_get hs.get_self, hr]
      rfl
    · rw [hs.recvView_ne hid]
      rfl

theorem Joined.receives {id : StreamID} (h : Joined X Y (f :: P) Q)
    (hs : Y.Sets Y' id st st' 0 f.dataLength) (hr : st.recvView.after (chunks id [f]) = some st'.recvView)
    (ho : ∀ id', id' ≠ id → f.chunk id' = none)
    (hsend : st'.sendView = st.sendView ∧ st'.sent = st.sent ∧ st'.sendMax = st.sendMax)
    (hd : Y.paramsReceived = true) : Joined X Y' P Q := by
  have hc := h.back.credit.stream id st hs.get
  rw [← hsend.2.1, ← hsend.2.2] at hc
  refine ⟨?_, ?_, h.sender, hs.session_ok h.receiver⟩
  · refine Link.receiver [f] h.forth hs.grows (by rw [hs.length]; exact h.forth.known) ?_ ?_
      (Pings.tail [f] h.forth.pings (congrArg Session.Core.pingReceived hs.core)
        (congrArg Session.Core.receivedPing hs.core))
      (Handshake.tail [f] h.forth.handshake hd (congrArg Session.Core.paramsReceived hs.core)
        (congrArg Session.Core.peer hs.core))
    · intro id'
      by_cases hid : id' = id
      · rw [hid, Session.recvView_of_get hs.get, Session.recvView_of_get hs.get_self, hr]
      · have hn : chunks id' [f] = [] := by
          unfold chunks
          rw [List.filterMap_cons_none (ho id' hid), List.filterMap_nil]
        rw [hn, hs.recvView_ne hid]
        rfl
    · rw [dataLength_singleton]
      exact congrArg Session.Core.connReceived hs.core
  · have hl := h.back.sender [] hs.grows (fun f hf => absurd hf List.not_mem_nil) ?_
      (congrArg Session.Core.connSent hs.core) (h.back.credit.sets hs h.back.credit.connSent hc)
      (h.back.pings.silent hs.grows.pingSent rfl) (fun f hf => absurd hf List.not_mem_nil)
    · rwa [List.append_nil] at hl
    · intro id'
      by_cases hid : id' = id
      · rw [hid, Session.sendView_of_get hs.get, Session.sendView_of_get hs.get_self, hsend.1]
        rfl
      · rw [hs.sendView_ne hid]
        rfl

end TrevRpc.Go.Qmux
