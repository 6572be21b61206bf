import TrevRpc.Go.Qmux.Session
import TrevRpc.Lib.Pipe

/-! # What the ends of a QMux stream have seen -/

open TrevRpc.Varint TrevRpc.Pipe

namespace TrevRpc.Go.Qmux

/-! ## One stream -/

namespace Stream

def sendView (st : Stream) : View UInt8 where
  passed := st.accepted.take st.sent
  ending := if st.resetSent then .reset else if st.finSent then .finished else .running

def recvView (st : Stream) : View UInt8 where
  passed := st.arrived
  ending := if st.finReceived then .finished else if st.finalKnown then .reset else .running

/-- What holds of a stream between two steps. -/
structure Ok (st : Stream) : Prop where
  sendHead : st.sendHead ≤ st.sendBuf.length
  recvHead : st.recvHead ≤ st.recvBuf.length
  sent_le : st.sent ≤ st.accepted.length
  unsent : st.resetSent = false → st.unsent = st.accepted.drop st.sent
  writeErr : st.finRequested ∨ st.resetSent → st.writeErr.isSome
  finSent : st.finSent → st.finRequested ∧ st.sent = st.accepted.length ∧ st.resetSent = false
  received : st.received = st.arrived.length
  final : st.finalKnown → st.finalSize = st.received
  finReceived : st.finReceived → st.finalKnown
  -- A final size without a FIN is from a reset.
  discarded : st.finalKnown → st.finReceived = false → st.readCancelled ∨ st.resetReceived.isSome
  returned : st.returned <+: st.arrived
  unread : st.readCancelled = false → st.resetReceived = none →
    st.returned ++ st.unread = st.arrived ∧ st.read = st.returned.length
  removed : st.removed → st.sendDone ∧ st.recvDone

structure Evolves (st st' : Stream) : Prop where
  ok : st'.Ok
  sendView : st'.sendView = st.sendView
  recvView : st'.recvView = st.recvView
  sent : st'.sent = st.sent
  sendMax : st'.sendMax = st.sendMax
  recvMax : st.recvMax ≤ st'.recvMax

theorem Evolves.refl {st : Stream} (h : st.Ok) : st.Evolves st := ⟨h, rfl, rfl, rfl, rfl, le_rfl⟩

theorem Evolves.trans {st st' st'' : Stream} (h : st.Evolves st') (h' : st'.Evolves st'') : st.Evolves st'' :=
  ⟨h'.ok, h'.sendView.trans h.sendView, h'.recvView.trans h.recvView, h'.sent.trans h.sent,
    h'.sendMax.trans h.sendMax, h.recvMax.trans h'.recvMax⟩

theorem ok_new (sendMax recvWindow : Nat) : (new sendMax recvWindow).Ok where
  sendHead := le_rfl
  recvHead := le_rfl
  sent_le := le_rfl
  unsent _ := rfl
  writeErr h := by simp [new] at h
  finSent h := by simp [new] at h
  received := rfl
  final h := by simp [new] at h
  finReceived h := by simp [new] at h
  discarded h := by simp [new] at h
  returned := List.prefix_rfl
  unread _ _ := ⟨rfl, rfl⟩
  removed h := by simp [new] at h

variable {st : Stream}

theorem evolves_inReady (h : st.Ok) (b : Bool) : st.Evolves { st with inReady := b } :=
  ⟨{ h with }, rfl, rfl, rfl, rfl, le_rfl⟩

theorem evolves_removed (h : st.Ok) (hd : st.sendDone ∧ st.recvDone) : st.Evolves { st with removed := true } :=
  ⟨{ h with removed := fun _ => hd }, rfl, rfl, rfl, rfl, le_rfl⟩

theorem evolves_close (h : st.Ok) (hr : st.resetSent = false) :
    st.Evolves { st with finRequested := true, writeErr := some .closed } :=
  ⟨{ h with
      writeErr := fun _ => rfl
      finSent := fun hfin => ⟨rfl, (h.finSent hfin).2.1, hr⟩ }, rfl, rfl, rfl, rfl, le_rfl⟩

/-! ### Buffers -/

theorem appendSend_eq (h : st.sendHead ≤ st.sendBuf.length) (space n : Nat) (p : List UInt8) (g : Nat) :
    ∃ buf cap head, head ≤ buf.length ∧ buf.drop head = st.unsent ++ p.take n ∧
      st.appendSend space n p g =
        { st with sendBuf := buf, sendCap := cap, sendHead := head, accepted := st.accepted ++ p.take n } := by
  unfold appendSend
  split_ifs
  · exact ⟨_, _, 0, Nat.zero_le _, rfl, rfl⟩
  · refine ⟨_, _, st.sendHead, ?_, List.drop_append_of_le_length h, rfl⟩
    rw [List.length_append]
    exact h.trans (Nat.le_add_right ..)

theorem appendReceived_eq (h : st.recvHead ≤ st.recvBuf.length) (data : List UInt8) :
    ∃ buf cap head, head ≤ buf.length ∧ buf.drop head = st.unread ++ data ∧
      st.appendReceived data = { st with recvBuf := buf, recvCap := cap, recvHead := head } := by
  unfold appendReceived
  split_ifs
  · exact ⟨_, _, 0, Nat.zero_le _, rfl, rfl⟩
  · exact ⟨_, _, 0, Nat.zero_le _, rfl, rfl⟩
  · refine ⟨_, _, st.recvHead, ?_, List.drop_append_of_le_length h, rfl⟩
    rw [List.length_append]
    exact h.trans (Nat.le_add_right ..)

theorem advanceSend_eq (st : Stream) {n : Nat} (hn : n ≤ st.unsent.length)
    (hhead : st.sendHead ≤ st.sendBuf.length) :
    ∃ buf head, head ≤ buf.length ∧ buf.drop head = st.unsent.drop n ∧
      st.advanceSend n = { st with sendBuf := buf, sendHead := head, sent := st.sent + n } := by
  unfold unsent at hn
  rw [List.length_drop] at hn
  unfold advanceSend
  simp only
  split_ifs with hall
  · refine ⟨[], 0, le_rfl, ?_, rfl⟩
    rw [unsent, List.drop_drop, hall, List.drop_length, List.drop_nil]
  · exact ⟨st.sendBuf, st.sendHead + n, by omega, by rw [unsent, List.drop_drop], rfl⟩

theorem takeUnread_eq (hhead : st.recvHead ≤ st.recvBuf.length) (size : Nat) :
    ∃ buf head, head ≤ buf.length ∧ buf.drop head = st.unread.drop size ∧
      st.takeUnread size =
        { st with recvBuf := buf, recvHead := head, returned := st.returned ++ st.unread.take size } := by
  have hlen : (st.unread.take size).length = min size (st.recvBuf.length - st.recvHead) := by
    rw [List.length_take, unread, List.length_drop]
  have hd : st.recvBuf.drop (st.recvHead + (st.unread.take size).length) = st.unread.drop size := by
    rw [← List.drop_drop, List.length_take]
    rcases le_total size st.unread.length with hle | hle
    · rw [min_eq_left hle, unread]
    · rw [min_eq_right hle, List.drop_eq_nil_of_le hle]
      exact List.drop_eq_nil_of_le le_rfl
  unfold takeUnread
  simp only
  split_ifs with hall
  · refine ⟨[], 0, le_rfl, ?_, rfl⟩
    rw [← hd, hall, List.drop_length, List.drop_nil]
  · exact ⟨st.recvBuf, _, by omega, hd, rfl⟩

theorem endByReset_eq (st : Stream) (finalSize : Nat) (err : StreamError) :
    ∃ reset : Option StreamError, (st.readCancelled = true ∨ reset.isSome = true) ∧
      st.endByReset finalSize err = { st with
        received := finalSize, finalKnown := true, finalSize := finalSize, resetReceived := reset } := by
  unfold endByReset
  by_cases hf : (!st.readCancelled && st.resetReceived.isNone) = true
  · exact ⟨some err, .inr rfl, if_pos hf⟩
  · refine ⟨st.resetReceived, ?_, if_neg hf⟩
    cases hcan : st.readCancelled with
    | true => exact .inl rfl
    | false =>
      rw [hcan] at hf
      cases hn : st.resetReceived with
      | none => simp [hn] at hf
      | some e => exact .inr rfl

/-- The stream after `resetSend`. -/
def givenUp (st : Stream) (err : WriteError) : Stream :=
  { st with writeErr := some err, sendBuf := [], sendCap := 0, sendHead := 0, resetSent := true }

/-! ### Calls -/

variable (h : st.Ok)
include h

theorem evolves_appendSend (herr : st.writeErr = none) (space n : Nat) (p : List UInt8)
    (g : Nat) : st.Evolves (st.appendSend space n p g) := by
  have ho : st.finRequested = false ∧ st.resetSent = false := by
    have hw := h.writeErr
    rw [herr] at hw
    simpa [not_or] using hw
  have hfin : st.finSent = false := by
    refine eq_false_of_ne_true fun hf => ?_
    simpa [ho.1] using (h.finSent hf).1
  obtain ⟨buf, cap, head, hh, hbuf, heq⟩ := appendSend_eq h.sendHead space n p g
  rw [heq]
  refine ⟨{ h with sendHead := hh, sent_le := ?_, unsent := ?_, finSent := ?_ }, ?_, rfl, rfl, rfl, le_rfl⟩
  · rw [List.length_append]
    exact h.sent_le.trans (Nat.le_add_right ..)
  · intro hr
    rw [List.drop_append_of_le_length h.sent_le, ← h.unsent hr]
    exact hbuf
  · intro hf
    rw [hfin] at hf
    cases hf
  · unfold sendView
    rw [List.take_append_of_le_length h.sent_le]

theorem evolves_takeUnread (hcancel : st.readCancelled = false) (hr : st.resetReceived = none)
    (hpos : 0 < st.unread.length) (size : Nat) :
    st.Evolves { st.takeUnread size with
      read := (st.takeUnread size).read + (st.unread.take size).length } := by
  obtain ⟨ha, hre⟩ := h.unread hcancel hr
  obtain ⟨buf, head, hh, hbuf, heq⟩ := takeUnread_eq h.recvHead size
  rw [heq]
  refine ⟨{ h with recvHead := hh, returned := ?_, unread := ?_, removed := ?_ }, rfl, rfl, rfl, rfl, le_rfl⟩
  · refine ⟨st.unread.drop size, ?_⟩
    rw [List.append_assoc, List.take_append_drop, ha]
  · intro _ _
    refine ⟨?_, by simp [hre]⟩
    change (st.returned ++ st.unread.take size) ++ buf.drop head = st.arrived
    rw [hbuf, List.append_assoc, List.take_append_drop, ha]
  · intro hrem
    -- A stream that has completed has nothing left to read.
    have hd := (h.removed hrem).2
    simp only [recvDone, Bool.and_eq_true, beq_iff_eq] at hd
    have hl := congrArg List.length ha
    have hfinal := h.final hd.1
    have hreceived := h.received
    rw [List.length_append] at hl
    omega

theorem evolves_recvMax {recvMax : Nat} (hle : st.recvMax ≤ recvMax) : st.Evolves { st with recvMax := recvMax } :=
  ⟨{ h with }, rfl, rfl, rfl, rfl, hle⟩

theorem evolves_cancelRead (hd : st.recvDone = false) (code : Nat) :
    st.Evolves { st with readCancelled := true, readCode := code } := by
  refine ⟨{ h with discarded := ?_, unread := ?_, removed := ?_ }, rfl, rfl, rfl, rfl, le_rfl⟩
  · exact fun _ _ => .inl rfl
  · intro hcan
    cases hcan
  · intro hrem
    rw [(h.removed hrem).2] at hd
    cases hd

theorem evolves_discard (hcancel : st.readCancelled = true) (hremoved : st.removed = false)
    (read cap : Nat) : st.Evolves { st with read := read, recvBuf := [], recvCap := cap, recvHead := 0 } := by
  refine ⟨{ h with recvHead := le_rfl, unread := ?_, removed := ?_ }, rfl, rfl, rfl, rfl, le_rfl⟩
  · intro hf
    rw [hcancel] at hf
    cases hf
  · intro ht
    rw [hremoved] at ht
    cases ht

end Stream

/-! ## Sessions -/

namespace Session

def has (s : Session) (id : StreamID) : Prop := id.num < (s.streams id.opener).length

def sendView (s : Session) (id : StreamID) : View UInt8 := ((s.get id).map Stream.sendView).getD {}

def recvView (s : Session) (id : StreamID) : View UInt8 := ((s.get id).map Stream.recvView).getD {}

/-- The window that a stream starts with. -/
def initialRecvMax (s : Session) (id : StreamID) : Nat :=
  if s.isLocal id then s.localParams.initialMaxStreamDataBidiLocal
  else s.localParams.initialMaxStreamDataBidiRemote

def recvLimit (s : Session) (id : StreamID) : Nat := ((s.get id).map Stream.recvMax).getD (s.initialRecvMax id)

structure Ok (s : Session) : Prop where
  isOpen : s.closeErr = none ∧ s.mode = .modeOpen
  stream : ∀ id st, s.get id = some st → st.Ok
  initialMaxData : s.localParams.initialMaxData ≤ s.connRecvMax
  initialMaxStreams : s.localParams.initialMaxStreamsBidi ≤ s.maxRemote
  initialRecvMax : ∀ id, s.initialRecvMax id ≤ s.recvLimit id
  recordSize : s.localParams.RecordSizeOk

variable {s s' : Session} {id id' : StreamID} {st st' : Stream}

theorem has_of_get (h : s.get id = some st) : s.has id :=
  (List.getElem?_eq_some_iff.mp h).1

theorem exists_get_of_has (h : s.has id) : ∃ st, s.get id = some st :=
  ⟨_, List.getElem?_eq_getElem h⟩

theorem sendView_of_get (h : s.get id = some st) : s.sendView id = st.sendView := by
  rw [sendView, h]
  rfl

theorem recvView_of_get (h : s.get id = some st) : s.recvView id = st.recvView := by
  rw [recvView, h]
  rfl

theorem recvLimit_of_get (h : s.get id = some st) : s.recvLimit id = st.recvMax := by
  rw [recvLimit, h]
  rfl

@[simp] theorem length_set (r : Role) : ((s.set id st).streams r).length = (s.streams r).length := by
  unfold set
  by_cases hr : r = id.opener
  · subst hr
    simp
  · simp [Function.update_of_ne hr]

theorem get_set_self (h : s.get id = some st) : (s.set id st').get id = some st' := by
  have hlt := has_of_get h
  unfold get set
  simp only [Function.update_self]
  rw [List.getElem?_set_self hlt]

theorem get_set_ne (h : id' ≠ id) : (s.set id st).get id' = s.get id' := by
  unfold get set
  by_cases hr : id'.opener = id.opener
  · have hnum : id.num ≠ id'.num := by
      rintro hnum
      obtain ⟨_, _⟩ := id
      obtain ⟨_, _⟩ := id'
      simp_all
    simp only [hr, Function.update_self]
    rw [List.getElem?_set_ne hnum]
  · simp only [Function.update_of_ne hr]

/-! ### Steps that the peer cannot tell -/

/-- The fields that only frames change. -/
structure Core where
  role : Role
  version : Version
  localParams : Parameters
  peer : Parameters
  closeErr : Option SessionError
  mode : CloseMode
  maxLocal : Nat
  connSendMax : Nat
  connSent : Nat
  connReceived : Nat
  pingSent : Nat
  pingReceived : Nat
  receivedPing : Bool
  paramsReceived : Bool

def core (s : Session) : Core where
  role := s.role
  version := s.version
  localParams := s.localParams
  peer := s.peer
  closeErr := s.closeErr
  mode := s.mode
  maxLocal := s.maxLocal
  connSendMax := s.connSendMax
  connSent := s.connSent
  connReceived := s.connReceived
  pingSent := s.pingSent
  pingReceived := s.pingReceived
  receivedPing := s.receivedPing
  paramsReceived := s.paramsReceived

structure Evolves (s s' : Session) : Prop where
  core : s'.core = s.core
  length : ∀ r, (s'.streams r).length = (s.streams r).length
  stream : ∀ id st, s.get id = some st → ∃ st', s'.get id = some st' ∧ st.Evolves st'
  connRecvMax : s.connRecvMax ≤ s'.connRecvMax
  maxRemote : s.maxRemote ≤ s'.maxRemote

theorem Evolves.trans {s'' : Session} (h : s.Evolves s') (h' : s'.Evolves s'') : s.Evolves s'' where
  core := h'.core.trans h.core
  length r := (h'.length r).trans (h.length r)
  stream id st hget := by
    obtain ⟨st', hget', hst⟩ := h.stream id st hget
    obtain ⟨st'', hget'', hst'⟩ := h'.stream id st' hget'
    exact ⟨st'', hget'', hst.trans hst'⟩
  connRecvMax := h.connRecvMax.trans h'.connRecvMax
  maxRemote := h.maxRemote.trans h'.maxRemote

theorem Evolves.of_streams (hok : s.Ok) (hc : s'.core = s.core) (hs : s'.streams = s.streams)
    (hd : s.connRecvMax ≤ s'.connRecvMax) (hmax : s.maxRemote ≤ s'.maxRemote) : s.Evolves s' where
  core := hc
  length r := by rw [hs]
  stream id st hget := by
    refine ⟨st, ?_, .refl (hok.stream id st hget)⟩
    rw [get, hs]
    exact hget
  connRecvMax := hd
  maxRemote := hmax

theorem Evolves.set (hok : s.Ok) (hget : s.get id = some st) (hst : st.Evolves st') : s.Evolves (s.set id st') where
  core := rfl
  length r := length_set r
  stream id' st₁ hget₁ := by
    by_cases hid : id' = id
    · subst hid
      obtain rfl : st = st₁ := Option.some.inj (hget.symm.trans hget₁)
      exact ⟨st', get_set_self hget, hst⟩
    · exact ⟨st₁, by rw [get_set_ne hid, hget₁], .refl (hok.stream id' st₁ hget₁)⟩
  connRecvMax := le_rfl
  maxRemote := le_rfl

theorem Evolves.get_eq_none (h : s.Evolves s') (hget : s.get id = none) : s'.get id = none := by
  rw [get, List.getElem?_eq_none_iff] at hget ⊢
  rw [h.length]
  exact hget

theorem Evolves.exists_get (h : s.Evolves s') (hget' : s'.get id = some st') :
    ∃ st, s.get id = some st ∧ st.Evolves st' := by
  cases hget : s.get id with
  | none =>
    rw [h.get_eq_none hget] at hget'
    cases hget'
  | some st =>
    obtain ⟨st₁, hget₁, hst⟩ := h.stream id st hget
    obtain rfl := Option.some.inj (hget'.symm.trans hget₁)
    exact ⟨st, rfl, hst⟩

theorem Evolves.sendView (h : s.Evolves s') (id : StreamID) : s'.sendView id = s.sendView id := by
  cases hget : s.get id with
  | none => rw [Session.sendView, Session.sendView, hget, h.get_eq_none hget]
  | some st =>
    obtain ⟨st', hget', hst⟩ := h.stream id st hget
    rw [sendView_of_get hget, sendView_of_get hget', hst.sendView]

theorem Evolves.recvView (h : s.Evolves s') (id : StreamID) : s'.recvView id = s.recvView id := by
  cases hget : s.get id with
  | none => rw [Session.recvView, Session.recvView, hget, h.get_eq_none hget]
  | some st =>
    obtain ⟨st', hget', hst⟩ := h.stream id st hget
    rw [recvView_of_get hget, recvView_of_get hget', hst.recvView]

theorem initialRecvMax_congr (hr : s'.role = s.role) (hparams : s'.localParams = s.localParams)
    (id : StreamID) : s'.initialRecvMax id = s.initialRecvMax id := by
  unfold initialRecvMax isLocal
  rw [hr, hparams]

theorem Evolves.recvLimit (h : s.Evolves s') (id : StreamID) : s.recvLimit id ≤ s'.recvLimit id := by
  cases hget : s.get id with
  | none =>
    have hi := initialRecvMax_congr (congrArg Core.role h.core) (congrArg Core.localParams h.core) id
    rw [Session.recvLimit, Session.recvLimit, hget, h.get_eq_none hget]
    exact hi.ge
  | some st =>
    obtain ⟨st', hget', hst⟩ := h.stream id st hget
    rw [recvLimit_of_get hget, recvLimit_of_get hget']
    exact hst.recvMax

theorem Ok.step (hok : s.Ok) (ho : s'.closeErr = s.closeErr ∧ s'.mode = s.mode) (hr : s'.role = s.role)
    (hparams : s'.localParams = s.localParams) (hs : ∀ id st, s'.get id = some st → st.Ok)
    (hd : s.connRecvMax ≤ s'.connRecvMax) (hmax : s.maxRemote ≤ s'.maxRemote)
    (hl : ∀ id, s.recvLimit id ≤ s'.recvLimit id) : s'.Ok where
  isOpen := ⟨ho.1.trans hok.isOpen.1, ho.2.trans hok.isOpen.2⟩
  stream := hs
  initialMaxData := by
    rw [hparams]
    exact hok.initialMaxData.trans hd
  initialMaxStreams := by
    rw [hparams]
    exact hok.initialMaxStreams.trans hmax
  initialRecvMax id := by
    rw [initialRecvMax_congr hr hparams]
    exact (hok.initialRecvMax id).trans (hl id)
  recordSize := hparams ▸ hok.recordSize

theorem Evolves.ok (h : s.Evolves s') (hok : s.Ok) : s'.Ok := by
  refine hok.step ⟨congrArg Core.closeErr h.core, congrArg Core.mode h.core⟩ (congrArg Core.role h.core)
    (congrArg Core.localParams h.core) ?_ h.connRecvMax h.maxRemote h.recvLimit
  intro id st' hget'
  obtain ⟨st, -, hst⟩ := h.exists_get hget'
  exact hst.ok

def Quiet (s : Session) (f : Frame) : Prop :=
  ∃ id, s.has id ∧ ((∃ code, f = .stopSending id.toNat code) ∨
    ∃ maximum, maximum ≤ s.recvLimit id ∧ f = .maxStreamData id.toNat maximum)

structure Queues (s s' : Session) (fs : List Frame) : Prop where
  evolves : s.Evolves s'
  control : s'.control = s.control ++ fs
  quiet : ∀ f ∈ fs, s'.Quiet f

theorem Quiet.evolves {f : Frame} (h : s.Quiet f) (he : s.Evolves s') : s'.Quiet f := by
  obtain ⟨id, hid, hf⟩ := h
  refine ⟨id, ?_, hf.imp_right ?_⟩
  · unfold has at hid ⊢
    rw [he.length]
    exact hid
  · rintro ⟨m, hle, rfl⟩
    exact ⟨m, hle.trans (he.recvLimit id), rfl⟩

theorem Evolves.queues (h : s.Evolves s') (hc : s'.control = s.control) : s.Queues s' [] :=
  ⟨h, by rw [hc, List.append_nil], fun _ hf => absurd hf List.not_mem_nil⟩

theorem Queues.trans {s'' : Session} {fs fs' : List Frame} (h : s.Queues s' fs) (h' : s'.Queues s'' fs') :
    s.Queues s'' (fs ++ fs') where
  evolves := h.evolves.trans h'.evolves
  control := by rw [h'.control, h.control, List.append_assoc]
  quiet f hf := by
    rcases List.mem_append.mp hf with hf | hf
    · exact (h.quiet f hf).evolves h'.evolves
    · exact h'.quiet f hf

theorem Queues.then {s'' : Session} {fs : List Frame} (h : s.Queues s' fs) (h' : s'.Queues s'' []) :
    s.Queues s'' fs := by
  have ht := h.trans h'
  rwa [List.append_nil] at ht

variable (hok : s.Ok)
include hok

theorem queues_of_streams (hcore : s'.core = s.core) (hs : s'.streams = s.streams)
    (hd : s.connRecvMax ≤ s'.connRecvMax) (hmax : s.maxRemote ≤ s'.maxRemote)
    (hc : s'.control = s.control) : s.Queues s' [] :=
  (Evolves.of_streams hok hcore hs hd hmax).queues hc

theorem queues_refl : s.Queues s [] :=
  queues_of_streams hok rfl rfl le_rfl le_rfl rfl

theorem queues_wakeWriter : s.Queues s.wakeWriter [] :=
  queues_of_streams hok rfl rfl le_rfl le_rfl rfl

theorem queues_queueControl {f : Frame} (hf : s.Quiet f) : s.Queues (s.queueControl f) [f] where
  evolves := Evolves.of_streams hok rfl rfl le_rfl le_rfl
  control := rfl
  quiet f' hf' := by
    rw [List.mem_singleton.mp hf']
    exact hf.evolves (Evolves.of_streams hok rfl rfl le_rfl le_rfl)

theorem queues_set (hget : s.get id = some st) (hst : st.Evolves st') : s.Queues (s.set id st') [] :=
  (Evolves.set hok hget hst).queues rfl

omit hok

theorem set_consumed (s : Session) (id : StreamID) (st : Stream) (n : Nat) :
    (s.consumed n).set id st = (s.set id st).consumed n := by
  unfold consumed set
  simp only
  split_ifs <;> rfl

variable (hok : s.Ok)
include hok

theorem queues_consumed (n : Nat) : s.Queues (s.consumed n) [] := by
  unfold consumed
  simp only
  split_ifs with hlow
  · refine queues_of_streams hok rfl rfl ?_ le_rfl rfl
    change s.connRecvMax ≤ s.connConsumed + n + s.connRecvWindow
    omega
  · exact queues_of_streams hok rfl rfl le_rfl le_rfl rfl

theorem queues_streamCompleted (id : StreamID) : s.Queues (s.streamCompleted id) [] := by
  unfold streamCompleted
  split_ifs
  · exact queues_refl hok
  · exact queues_of_streams hok rfl rfl le_rfl (Nat.le_succ _) rfl

theorem queues_maybeRemove (id : StreamID) : s.Queues (s.maybeRemove id) [] := by
  unfold maybeRemove
  cases hget : s.get id with
  | none => exact queues_refl hok
  | some st =>
    simp only
    split_ifs with hd
    · simp only [Bool.and_eq_true] at hd
      have hset := queues_set hok hget (st.evolves_removed (hok.stream id st hget) ⟨hd.1.2, hd.2⟩)
      exact hset.then (queues_streamCompleted (hset.evolves.ok hok) id)
    · exact queues_refl hok

theorem queues_markReady (id : StreamID) : s.Queues (s.markReady id) [] := by
  unfold markReady
  cases hget : s.get id with
  | none => exact queues_refl hok
  | some st =>
    simp only
    split_ifs
    · exact queues_refl hok
    · exact queues_wakeWriter hok
    · have hset := queues_set hok hget (st.evolves_inReady (hok.stream id st hget) true)
      exact hset.then (queues_of_streams (hset.evolves.ok hok) rfl rfl le_rfl le_rfl rfl)

/-! ### Calls of the application -/

theorem queues_streamConsumed {n : Nat} (hget : s.get id = some st)
    (hst : st.Evolves { st' with read := st'.read + n }) :
    ∃ fs, s.Queues (s.streamConsumed id st' n) fs := by
  unfold streamConsumed
  simp only
  split_ifs with hlow
  · have hmax : st'.recvMax ≤ st'.read + n + st'.recvWindow := by
      have hlow' := hlow.2
      omega
    have hset := queues_set hok hget (hst.trans (Stream.evolves_recvMax hst.ok hmax))
    have hget' : (s.set id { st' with
        read := st'.read + n, recvMax := st'.read + n + st'.recvWindow }).get id = some _ :=
      get_set_self hget
    have hq := hset.trans (queues_queueControl (hset.evolves.ok hok)
      (f := .maxStreamData id.toNat (st'.read + n + st'.recvWindow))
      ⟨id, has_of_get hget', .inr ⟨_, (recvLimit_of_get hget').ge, rfl⟩⟩)
    have hcon := hq.then (queues_consumed (hq.evolves.ok hok) n)
    exact ⟨_, hcon.then (queues_maybeRemove (hcon.evolves.ok hok) id)⟩
  · have hset := queues_set hok hget hst
    have hcon := hset.then (queues_consumed (hset.evolves.ok hok) n)
    exact ⟨_, hcon.then (queues_maybeRemove (hcon.evolves.ok hok) id)⟩

theorem queues_acceptStream : s.Queues s.acceptStream.1 [] := by
  unfold acceptStream
  cases s.acceptQueue with
  | nil => exact queues_refl hok
  | cons id rest => exact queues_of_streams hok rfl rfl le_rfl le_rfl rfl

theorem queues_read (hget : s.get id = some st) (size : Nat) : ∃ fs, s.Queues (s.read id st size).1 fs := by
  have hs : ∃ fs, s.Queues s fs := ⟨[], queues_refl hok⟩
  unfold read
  cases hcan : st.readCancelled with
  | true => exact hs
  | false =>
    cases hr : st.resetReceived with
    | some e => exact hs
    | none =>
      by_cases hpos : 0 < st.unread.length
      · simp only [Bool.false_eq_true, if_false, if_pos hpos]
        exact queues_streamConsumed hok hget
          (Stream.evolves_takeUnread (hok.stream id st hget) hcan hr hpos size)
      · simp only [Bool.false_eq_true, if_false, if_neg hpos, hok.isOpen.1]
        split_ifs <;> exact hs

theorem queues_write (hget : s.get id = some st) (p : List UInt8) (g : Nat) : s.Queues (s.write id st p g).1 [] := by
  unfold write
  by_cases hs : st.writeErr.isSome ∨ s.closeErr.isSome ∨ p.length = 0
  · rw [if_pos hs]
    exact queues_refl hok
  · rw [if_neg hs]
    have herr : st.writeErr = none := by
      rw [not_or] at hs
      simpa using hs.1
    simp only
    split_ifs
    · have hset := queues_set hok hget (Stream.evolves_appendSend (hok.stream id st hget) herr
        (s.sendBuffer - st.unsent.length) (min (s.sendBuffer - st.unsent.length) p.length) p g)
      exact hset.then (queues_markReady (hset.evolves.ok hok) id)
    · exact queues_refl hok

theorem queues_close (hget : s.get id = some st) : s.Queues (s.close id st) [] := by
  unfold close
  split_ifs with hd
  · exact queues_refl hok
  · simp only [Bool.or_eq_true, not_or, Bool.not_eq_true] at hd
    have hset := queues_set hok hget (Stream.evolves_close (hok.stream id st hget) hd.2)
    exact hset.then (queues_markReady (hset.evolves.ok hok) id)

theorem queues_cancelRead (hget : s.get id = some st) (code : Nat) : ∃ fs, s.Queues (s.cancelRead id st code) fs := by
  unfold cancelRead
  split_ifs with hd
  · exact ⟨[], queues_refl hok⟩
  simp only [Bool.or_eq_true, not_or, Bool.not_eq_true] at hd
  have hst := Stream.evolves_cancelRead (hok.stream id st hget) hd.2 code
  have hrem : st.removed = false := by
    refine eq_false_of_ne_true fun hr => ?_
    simpa [hd.2] using ((hok.stream id st hget).removed hr).2
  -- The unread bytes are discarded, and their credit goes back.
  have hdis : s.Queues
      (if 0 < st.received - st.read then
        (s.set id { st with
          readCancelled := true, readCode := code, read := st.received
          recvBuf := [], recvCap := 0, recvHead := 0 }).consumed (st.received - st.read)
      else s.set id { st with readCancelled := true, readCode := code }) [] := by
    split_ifs
    · have hset := queues_set hok hget (hst.trans (Stream.evolves_discard hst.ok rfl hrem st.received 0))
      exact hset.then (queues_consumed (hset.evolves.ok hok) _)
    · exact queues_set hok hget hst
  simp only
  generalize hs' : (if 0 < st.received - st.read then _ else _ : Session) = s' at hdis ⊢
  have hok' := hdis.evolves.ok hok
  split_ifs
  · exact ⟨_, hdis.then (queues_maybeRemove hok' id)⟩
  · have hhas : s'.has id := by
      unfold has
      rw [hdis.evolves.length]
      exact has_of_get hget
    have hs := hdis.trans (queues_queueControl hok' (f := .stopSending id.toNat code)
      ⟨id, hhas, .inl ⟨code, rfl⟩⟩)
    exact ⟨_, hs.then (queues_maybeRemove (hs.evolves.ok hok) id)⟩

omit hok

/-! ### Opening streams -/

structure Extends (s s' : Session) (r : Role) (sendMax : Nat) : Prop where
  core : s'.core = s.core
  length : (s.streams r).length ≤ (s'.streams r).length
  length_of_ne : ∀ r', r' ≠ r → (s'.streams r').length = (s.streams r').length
  get : ∀ id, s'.get id = s.get id ∨
    s.get id = none ∧ id.opener = r ∧ s'.get id = some (.new sendMax (s.initialRecvMax id))
  connRecvMax : s'.connRecvMax = s.connRecvMax
  maxRemote : s'.maxRemote = s.maxRemote

theorem Extends.of_update (r : Role) (c : Nat) {sendMax w : Nat} (hc : s'.core = s.core)
    (hs : s'.streams =
      Function.update s.streams r (s.streams r ++ List.replicate c (.new sendMax w)))
    (hw : ∀ id : StreamID, id.opener = r → s.initialRecvMax id = w)
    (hd : s'.connRecvMax = s.connRecvMax) (hmax : s'.maxRemote = s.maxRemote) :
    s.Extends s' r sendMax where
  core := hc
  length := by
    rw [hs, Function.update_self, List.length_append]
    exact Nat.le_add_right ..
  length_of_ne r' hr := by rw [hs, Function.update_of_ne hr]
  get id := by
    rw [Session.get, Session.get, hs]
    by_cases hr : id.opener = r
    · rw [hr, Function.update_self, hw id hr]
      by_cases hnum : id.num < (s.streams r).length
      · rw [List.getElem?_append_left hnum]
        exact .inl rfl
      · have hn : (s.streams r)[id.num]? = none := List.getElem?_eq_none (Nat.not_lt.mp hnum)
        rw [List.getElem?_append_right (Nat.not_lt.mp hnum), List.getElem?_replicate, hn]
        split_ifs
        · exact .inr ⟨rfl, rfl, rfl⟩
        · exact .inl rfl
    · rw [Function.update_of_ne hr]
      exact .inl rfl
  connRecvMax := hd
  maxRemote := hmax

variable {r : Role} {sendMax : Nat}

theorem Extends.sendView (h : s.Extends s' r sendMax) (id : StreamID) : s'.sendView id = s.sendView id := by
  unfold Session.sendView
  rcases h.get id with hget | ⟨hn, -, hnew⟩
  · rw [hget]
  · rw [hn, hnew]
    rfl

theorem Extends.recvView (h : s.Extends s' r sendMax) (id : StreamID) : s'.recvView id = s.recvView id := by
  unfold Session.recvView
  rcases h.get id with hget | ⟨hn, -, hnew⟩
  · rw [hget]
  · rw [hn, hnew]
    rfl

theorem Extends.recvLimit (h : s.Extends s' r sendMax) (id : StreamID) : s'.recvLimit id = s.recvLimit id := by
  have hi := initialRecvMax_congr (congrArg Core.role h.core) (congrArg Core.localParams h.core) id
  unfold Session.recvLimit
  rcases h.get id with hget | ⟨hn, -, hnew⟩
  · rw [hget, hi]
  · rw [hn, hnew]
    rfl

theorem Extends.ok (h : s.Extends s' r sendMax) (hok : s.Ok) : s'.Ok := by
  refine hok.step ⟨congrArg Core.closeErr h.core, congrArg Core.mode h.core⟩ (congrArg Core.role h.core)
    (congrArg Core.localParams h.core) ?_ h.connRecvMax.ge h.maxRemote.ge fun id => (h.recvLimit id).ge
  intro id st hget'
  rcases h.get id with hget | ⟨-, -, hnew⟩
  · exact hok.stream id st (hget ▸ hget')
  · obtain rfl := Option.some.inj (hnew.symm.trans hget')
    exact Stream.ok_new _ _

theorem extends_openStreamSync (ho : s.closeErr.isNone ∧ s.openedLocal < s.maxLocal) :
    s.Extends s.openStreamSync.1 s.role s.peer.initialMaxStreamDataBidiRemote := by
  rw [openStreamSync, if_pos ho]
  refine Extends.of_update s.role 1 rfl rfl ?_ rfl rfl
  intro id hid
  rw [initialRecvMax, isLocal, if_pos (by simpa using hid)]

theorem extends_openRemote (num : Nat) :
    s.Extends (s.openRemote num) s.role.other s.peer.initialMaxStreamDataBidiLocal := by
  refine Extends.of_update s.role.other _ rfl rfl ?_ rfl rfl
  intro id hid
  rw [initialRecvMax, isLocal, if_neg]
  rw [hid]
  simp

/-! ### Steps of one stream that the peer can tell -/

structure Sets (s s' : Session) (id : StreamID) (st st' : Stream) (sent received : Nat) : Prop where
  get : s.get id = some st
  streams : s'.streams = (s.set id st').streams
  core : s'.core = { s.core with
    connSent := s.connSent + sent, connReceived := s.connReceived + received }
  connRecvMax : s'.connRecvMax = s.connRecvMax
  maxRemote : s'.maxRemote = s.maxRemote
  ok : st'.Ok
  recvMax : st'.recvMax = st.recvMax

section Sets

variable {sent received : Nat} (h : s.Sets s' id st st' sent received)
include h

theorem Sets.get_self : s'.get id = some st' := by
  rw [Session.get, h.streams]
  exact get_set_self h.get

theorem Sets.get_ne (hid : id' ≠ id) : s'.get id' = s.get id' := by
  rw [Session.get, h.streams]
  exact get_set_ne hid

theorem Sets.length (r : Role) : (s'.streams r).length = (s.streams r).length := by
  rw [h.streams, length_set]

theorem Sets.sendView_ne (hid : id' ≠ id) : s'.sendView id' = s.sendView id' := by
  rw [Session.sendView, h.get_ne hid, ← Session.sendView]

theorem Sets.recvView_ne (hid : id' ≠ id) : s'.recvView id' = s.recvView id' := by
  rw [Session.recvView, h.get_ne hid, ← Session.recvView]

theorem Sets.initialRecvMax (id' : StreamID) : s'.initialRecvMax id' = s.initialRecvMax id' :=
  initialRecvMax_congr (congrArg Core.role h.core) (congrArg Core.localParams h.core) id'

theorem Sets.recvLimit (id' : StreamID) : s'.recvLimit id' = s.recvLimit id' := by
  by_cases hid : id' = id
  · rw [hid, recvLimit_of_get h.get, recvLimit_of_get h.get_self, h.recvMax]
  · rw [Session.recvLimit, h.get_ne hid, h.initialRecvMax, ← Session.recvLimit]

theorem Sets.session_ok (hok : s.Ok) : s'.Ok := by
  refine hok.step ⟨congrArg Core.closeErr h.core, congrArg Core.mode h.core⟩ (congrArg Core.role h.core)
    (congrArg Core.localParams h.core) ?_ h.connRecvMax.ge h.maxRemote.ge fun id => (h.recvLimit id).ge
  intro id' st₁ hget₁
  by_cases hid : id' = id
  · subst hid
    obtain rfl := Option.some.inj (h.get_self.symm.trans hget₁)
    exact h.ok
  · exact hok.stream id' st₁ (h.get_ne hid ▸ hget₁)

end Sets

end Session

end TrevRpc.Go.Qmux
