import TrevRpc.Go.Qmux.Views
import Mathlib.Logic.Relation

/-!
# What a QMux session can do, whatever its peer sends

Every call and every frame is a row of a few changes, so that an invariant is shown for one change at a time.
-/

namespace TrevRpc.Go.Qmux

/-! ## Streams -/

namespace Stream

structure Sane (st : Stream) : Prop where
  sendHead : st.sendHead ≤ st.sendBuf.length
  recvHead : st.recvHead ≤ st.recvBuf.length
  read_le : st.read ≤ st.received
  received_le : st.received ≤ st.recvMax
  sent_le : st.sent ≤ st.sendMax
  final : st.finalKnown = true → st.finalSize = st.received
  -- A stream that discards what arrives has nothing left to read.
  discarded : st.readCancelled = true ∨ st.resetReceived.isSome = true → st.read = st.received
  buffered : st.readCancelled = false → st.resetReceived = none → st.read + st.unread.length = st.received
  writeErr : st.finRequested = true ∨ st.resetSent = true → st.writeErr.isSome = true
  finSent : st.finSent = true → st.finRequested = true ∧ st.unsent = [] ∧ st.resetSent = false
  removed : st.removed = true → st.sendDone = true ∧ st.recvDone = true

/-- The fields of the sending direction. -/
structure Sending where
  sendBuf : List UInt8
  sendHead : Nat
  sent : Nat
  sendMax : Nat
  finRequested : Bool
  finSent : Bool
  resetSent : Bool
  writeErr : Option WriteError
  inReady : Bool
  removed : Bool

def sending (st : Stream) : Sending :=
  ⟨st.sendBuf, st.sendHead, st.sent, st.sendMax, st.finRequested, st.finSent, st.resetSent, st.writeErr,
    st.inReady, st.removed⟩

structure Receiving where
  received : Nat
  read : Nat
  recvMax : Nat
  recvDone : Bool

def receiving (st : Stream) : Receiving := ⟨st.received, st.read, st.recvMax, st.recvDone⟩

structure Recv (st st' : Stream) (arrived taken : Nat) : Prop where
  sane : st'.Sane
  live : st.removed = false
  sending : st'.sending = st.sending
  received : st'.received = st.received + arrived
  read : st'.read = st.read + taken

structure Send (st st' : Stream) : Prop where
  sane : st'.Sane
  receiving : st'.receiving = st.receiving
  sent : st'.sent = st.sent
  sendMax : st.sendMax ≤ st'.sendMax
  finSent : st'.finSent = st.finSent
  resetSent : st'.resetSent = st.resetSent
  inReady : st'.inReady = st.inReady
  removed : st'.removed = st.removed

variable {st st' : Stream}

theorem Recv.sendDone {a t : Nat} (h : st.Recv st' a t) : st'.sendDone = st.sendDone := by
  have hfin : st'.finSent = st.finSent := congrArg Sending.finSent h.sending
  have hr : st'.resetSent = st.resetSent := congrArg Sending.resetSent h.sending
  rw [Stream.sendDone, Stream.sendDone, hfin, hr]

theorem Send.sendDone (h : st.Send st') : st'.sendDone = st.sendDone := by
  rw [Stream.sendDone, Stream.sendDone, h.finSent, h.resetSent]

theorem sane_new (sendMax r : Nat) : (new sendMax r).Sane where
  sendHead := le_rfl
  recvHead := le_rfl
  read_le := le_rfl
  received_le := Nat.zero_le _
  sent_le := Nat.zero_le _
  final _ := rfl
  discarded _ := rfl
  buffered _ _ := rfl
  writeErr h := by simp [new] at h
  finSent h := by simp [new] at h
  removed h := by simp [new] at h

theorem Sane.inReady (h : st.Sane) (b : Bool) : { st with inReady := b }.Sane := { h with }

theorem Sane.live_of_not_recvDone (h : st.Sane) (hd : st.recvDone = false) : st.removed = false := by
  refine eq_false_of_ne_true fun hr => ?_
  rw [(h.removed hr).2] at hd
  cases hd

theorem Sane.read_eq_of_removed (h : st.Sane) (hr : st.removed = true) : st.read = st.received := by
  have hd := (h.removed hr).2
  simp only [recvDone, Bool.and_eq_true, beq_iff_eq] at hd
  rw [hd.2, h.final hd.1]

theorem recv_takeUnread (h : st.Sane) (hcancel : st.readCancelled = false) (hreset : st.resetReceived = none)
    (hpos : 0 < st.unread.length) (size : Nat) {recvMax : Nat} (hmax : st.recvMax ≤ recvMax) :
    st.Recv { st.takeUnread size with
      read := (st.takeUnread size).read + (st.unread.take size).length, recvMax := recvMax } 0
      (st.unread.take size).length := by
  have hbuffered := h.buffered hcancel hreset
  have hl : st.removed = false := by
    refine eq_false_of_ne_true fun hr => ?_
    have := h.read_eq_of_removed hr
    omega
  obtain ⟨buf, head, hh, hbuf, heq⟩ := takeUnread_eq h.recvHead size
  have htake : (st.unread.take size).length + (st.unread.drop size).length = st.unread.length := by
    rw [← List.length_append, List.take_append_drop]
  have hre := h.received_le
  rw [heq]
  refine ⟨?_, hl, rfl, rfl, rfl⟩
  refine { h with recvHead := hh, read_le := ?_, received_le := ?_, discarded := ?_, buffered := ?_, removed := ?_ }
  · change st.read + (st.unread.take size).length ≤ st.received
    omega
  · exact hre.trans hmax
  · rintro (hf | hf)
    · exact nomatch hcancel.symm.trans hf
    · change st.resetReceived.isSome = true at hf
      rw [hreset] at hf
      cases hf
  · intro _ _
    change st.read + (st.unread.take size).length + (buf.drop head).length = st.received
    rw [hbuf]
    omega
  · intro hr
    exact nomatch hl.symm.trans hr

/-- The stream after `CancelRead`. -/
def cancelled (st : Stream) (code : Nat) : Stream :=
  if 0 < st.received - st.read then
    { st with
      readCancelled := true, readCode := code, read := st.received, recvBuf := [], recvCap := 0, recvHead := 0 }
  else { st with readCancelled := true, readCode := code }

theorem recv_cancelled (h : st.Sane) (hd : st.recvDone = false) (code : Nat) :
    st.Recv (st.cancelled code) 0 (st.received - st.read) := by
  have hl := h.live_of_not_recvDone hd
  have hread := h.read_le
  have hnot {b : Prop} (hr : st.removed = true) : b :=
    nomatch hl.symm.trans hr
  unfold cancelled
  split_ifs with hun
  · refine ⟨?_, hl, rfl, rfl, ?_⟩
    · exact { h with
        recvHead := le_rfl, read_le := le_rfl, discarded := fun _ => rfl
        buffered := fun hf => by cases hf
        removed := hnot }
    · change st.received = st.read + (st.received - st.read)
      omega
  · refine ⟨?_, hl, rfl, rfl, ?_⟩
    · exact { h with
        discarded := fun _ => show st.read = st.received by omega
        buffered := fun hf => by cases hf
        removed := hnot }
    · change st.read = st.read + (st.received - st.read)
      omega

/-- The stream discards what arrives. -/
def discards (st : Stream) : Bool := st.readCancelled || st.resetReceived.isSome

def delivered (st : Stream) (last : Nat) (data : List UInt8) (fin : Bool) : Stream :=
  if st.discards then { st.arrive last data fin with read := last }
  else (st.arrive last data fin).appendReceived data

theorem arrive_eq (st : Stream) (last : Nat) (data : List UInt8) (fin : Bool) :
    st.arrive last data fin = { st with
      received := last, arrived := st.arrived ++ data
      finalKnown := st.finalKnown || fin, finalSize := if fin then last else st.finalSize
      finReceived := st.finReceived || fin } := by
  unfold arrive
  cases fin <;> simp

theorem discards_arrive (st : Stream) (last : Nat) (data : List UInt8) (fin : Bool) :
    ((st.arrive last data fin).readCancelled || (st.arrive last data fin).resetReceived.isSome) = st.discards := by
  rw [arrive_eq]
  rfl

theorem recv_delivered (fin : Bool) {data : List UInt8} {last : Nat} (h : st.Sane) (hl : st.removed = false)
    (hlast : last = st.received + data.length) (hmax : last ≤ st.recvMax)
    (hfinal : st.finalKnown = true → last ≤ st.finalSize ∧ (fin = true → last = st.finalSize)) :
    st.Recv (st.delivered last data fin) data.length (if st.discards then data.length else 0) := by
  have hnot {b : Prop} (hr : st.removed = true) : b :=
    nomatch hl.symm.trans hr
  have hread := h.read_le
  -- Nothing comes after the final size.
  have hs : (st.finalKnown || fin) = true → (if fin then last else st.finalSize) = last := by
    intro hk
    cases fin with
    | true => rfl
    | false =>
      rw [Bool.or_false] at hk
      have hsame := h.final hk
      have hle := (hfinal hk).1
      change st.finalSize = last
      omega
  unfold delivered
  rw [arrive_eq]
  by_cases hd : st.discards = true
  · rw [if_pos hd, if_pos hd]
    have hall := h.discarded (Bool.or_eq_true_iff.mp hd)
    refine ⟨?_, hl, rfl, hlast, ?_⟩
    · refine { h with
        read_le := le_rfl, received_le := hmax, final := hs, discarded := fun _ => rfl, buffered := ?_
        removed := hnot }
      intro hcan hre
      change st.readCancelled = false at hcan
      change st.resetReceived = none at hre
      rw [discards, hcan, hre] at hd
      cases hd
    · change last = st.read + data.length
      omega
  · rw [if_neg hd, if_neg hd]
    simp only [discards, Bool.or_eq_true, not_or, Bool.not_eq_true, Option.isSome_eq_false_iff,
      Option.isNone_iff_eq_none] at hd
    obtain ⟨hcan, hre⟩ := hd
    have hbuffered := h.buffered hcan hre
    obtain ⟨buf, cap, head, hh, hbuf, heq⟩ := @appendReceived_eq { st with
      received := last, arrived := st.arrived ++ data
      finalKnown := st.finalKnown || fin, finalSize := if fin then last else st.finalSize
      finReceived := st.finReceived || fin } h.recvHead data
    rw [heq]
    refine ⟨?_, hl, rfl, hlast, rfl⟩
    refine { h with
      recvHead := hh, read_le := ?_, received_le := hmax, final := hs, discarded := ?_, buffered := ?_
      removed := hnot }
    · change st.read ≤ last
      omega
    · change st.readCancelled = true ∨ st.resetReceived.isSome = true → _
      rw [hcan, hre]
      rintro (hf | hf) <;> cases hf
    · intro _ _
      change st.read + (buf.drop head).length = last
      rw [hbuf, List.length_append]
      change st.read + (st.unread.length + data.length) = last
      omega

/-- The stream after a RESET_STREAM frame. -/
def resetAt (st : Stream) (finalSize : Nat) (err : StreamError) : Stream :=
  if 0 < finalSize - st.read then
    { st.endByReset finalSize err with read := finalSize, recvBuf := [], recvHead := 0 }
  else st.endByReset finalSize err

variable (h : st.Sane)
include h

theorem recv_resetAt (hl : st.removed = false) {fs : Nat} (err : StreamError)
    (hle : st.received ≤ fs) (hmax : fs ≤ st.recvMax) :
    st.Recv (st.resetAt fs err) (fs - st.received) (fs - st.read) := by
  have hnot {b : Prop} (hr : st.removed = true) : b :=
    nomatch hl.symm.trans hr
  have hread := h.read_le
  obtain ⟨r, hre, heq⟩ := st.endByReset_eq fs err
  have hd {b : Prop} (hcan : st.readCancelled = false) (hn : r = none) : b := by
    rw [hcan, hn] at hre
    rcases hre with hf | hf <;> cases hf
  unfold resetAt
  rw [heq]
  split_ifs with hun
  · refine ⟨?_, hl, rfl, ?_, ?_⟩
    · exact { h with
        recvHead := le_rfl, read_le := le_rfl, received_le := hmax, final := fun _ => rfl
        discarded := fun _ => rfl, buffered := hd
        removed := hnot }
    · change fs = st.received + (fs - st.received)
      omega
    · change fs = st.read + (fs - st.read)
      omega
  · refine ⟨?_, hl, rfl, ?_, ?_⟩
    · exact { h with
        read_le := show st.read ≤ fs by omega, received_le := hmax, final := fun _ => rfl
        discarded := fun _ => show st.read = fs by omega
        buffered := hd, removed := hnot }
    · change fs = st.received + (fs - st.received)
      omega
    · change st.read = st.read + (fs - st.read)
      omega

/-! ### The sending direction -/

theorem Sane.of_writeErr_none (herr : st.writeErr = none) :
    st.finRequested = false ∧ st.resetSent = false ∧ st.finSent = false := by
  have ho : st.finRequested = false ∧ st.resetSent = false := by
    have hw := h.writeErr
    rw [herr] at hw
    simpa [not_or] using hw
  refine ⟨ho.1, ho.2, ?_⟩
  refine eq_false_of_ne_true fun hfin => ?_
  exact nomatch ho.1.symm.trans (h.finSent hfin).1

theorem send_appendSend (herr : st.writeErr = none) (space n : Nat) (p : List UInt8) (g : Nat) :
    st.Send (st.appendSend space n p g) := by
  obtain ⟨-, -, hfin⟩ := h.of_writeErr_none herr
  obtain ⟨buf, cap, head, hh, -, heq⟩ := appendSend_eq h.sendHead space n p g
  rw [heq]
  refine ⟨{ h with sendHead := hh, finSent := ?_ }, rfl, rfl, le_rfl, rfl, rfl, rfl, rfl⟩
  intro ht
  exact nomatch hfin.symm.trans ht

theorem send_close (hfin : st.finRequested = false) :
    st.Send { st with finRequested := true, writeErr := some .closed } := by
  refine ⟨{ h with writeErr := fun _ => rfl, finSent := ?_ }, rfl, rfl, le_rfl, rfl, rfl, rfl, rfl⟩
  intro hs
  exact nomatch hfin.symm.trans (h.finSent hs).1

theorem send_raise {m : Nat} (hr : st.sendMax < m) : st.Send { st with sendMax := m } :=
  ⟨{ h with sent_le := h.sent_le.trans hr.le }, rfl, rfl, hr.le, rfl, rfl, rfl, rfl⟩

theorem Sane.givenUp (hd : st.sendDone = false) (err : WriteError) : (st.givenUp err).Sane := by
  have hfin : st.finSent = false := (Bool.or_eq_false_iff.mp hd).1
  refine { h with sendHead := le_rfl, writeErr := fun _ => rfl, finSent := ?_, removed := ?_ }
  · intro ht
    exact nomatch hfin.symm.trans ht
  · intro hr
    exact nomatch hd.symm.trans (h.removed hr).1

end Stream

/-- A frame that ends the session. -/
def Frame.closes : Frame → Bool
  | .connectionClose .. | .applicationClose .. => true
  | _ => false

def Frame.grants : Frame → Bool
  | .maxStreamData .. | .stopSending .. => true
  | _ => false

/-! ## Sessions -/

namespace Session

def consumedBy (s : Session) : Option Nat → Session
  | none => s
  | some n => s.consumed n

/-- One effect of a call or a frame, as checked. In a calm one, no stream is made ready after its FIN. -/
inductive Change (calm : Bool) : Session → Session → Prop
  | wake (s : Session) : Change calm s s.wakeWriter
  | queue (s : Session) {f : Frame} : f.grants = true → Change calm s (s.queueControl f)
  -- Bytes arrive on a stream, and bytes that are read or discarded give their credit back.
  | receive {s : Session} {id : StreamID} {st st' : Stream} {arrived : Nat} (taken : Option Nat) :
    s.get id = some st → st.Recv st' arrived (taken.getD 0) →
    (arrived ≠ 0 → s.connReceived + arrived ≤ s.connRecvMax) →
    Change calm s (({ s with connReceived := s.connReceived + arrived }.set id st').consumedBy taken)
  | complete {s : Session} {id : StreamID} {st : Stream} : s.get id = some st → st.removed = false →
    st.sendDone = true → st.recvDone = true →
    Change calm s ((s.set id { st with removed := true }).streamCompleted id)
  -- `Write` or `Close`.
  | send {s : Session} {id : StreamID} {st st' : Stream} : s.get id = some st → st.Send st' →
    st.sendDone = false → Change calm s ((s.set id st').markReady id)
  | raise {s : Session} {id : StreamID} {st : Stream} {maximum : Nat} : s.get id = some st →
    st.removed = false → st.sendMax < maximum → (calm = true → st.finSent = false) →
    Change calm s ((s.set id { st with sendMax := maximum }).markReady id)
  | reset {s : Session} {id : StreamID} {st : Stream} (code : Nat) (err : WriteError) : s.get id = some st →
    st.sendDone = false →
    Change calm s ((s.set id (st.givenUp err)).queueControl (.resetStream id.toNat code st.sent))
  | openLocal {s : Session} : s.closeErr.isNone ∧ s.openedLocal < s.maxLocal → Change calm s s.openStreamSync.1
  | openRemote {s : Session} {num : Nat} : s.paramsReceived = true → s.openedRemote ≤ num →
    num < s.maxRemote → Change calm s (s.openRemote num)
  | accept {s : Session} {id : StreamID} {rest : List StreamID} : s.acceptQueue = id :: rest →
    Change calm s { s with acceptQueue := rest }
  | maxData {s : Session} {maximum : Nat} : s.connSendMax < maximum →
    Change calm s { s with connSendMax := maximum }.wakeWriter
  | maxStreams {s : Session} {maximum : Nat} : s.paramsReceived = true → Change calm s { s with maxLocal := maximum }
  | parameters {s : Session} (peer : Parameters) : s.paramsReceived = false →
    Change calm s { s with
      paramsReceived := true, peer := peer
      maxLocal := peer.initialMaxStreamsBidi, connSendMax := peer.initialMaxData }
  | ping (s : Session) (sequence : Nat) :
    Change calm s { s with pingReceived := sequence, receivedPing := true, sendPingReply := true }.wakeWriter
  | sendPing (s : Session) : Change calm s { s with sendPing := true }.wakeWriter
  | close {s : Session} (err : SessionError) {frame : Option Frame} {mode : CloseMode} : s.closeErr = none →
    (∀ f ∈ frame, f.closes = true) → mode ≠ .modeOpen →
    Change calm s { s with closeErr := some err, mode := mode, closeFrame := frame.or s.closeFrame }.wakeWriter

variable {calm : Bool} {s s' s'' : Session} {id id' : StreamID} {st st' : Stream}

abbrev Path (calm : Bool) : Session → Session → Prop := Relation.ReflTransGen (Change calm)

theorem Change.path (h : Change calm s s') : Path calm s s' := .single h

/-! ### Sane sessions -/

structure Sane (s : Session) : Prop where
  stream : ∀ id st, s.get id = some st → st.Sane
  credit : s.connSent ≤ s.connSendMax
  -- The first frame is the transport parameters, and they allow the first stream.
  fresh : s.paramsReceived = false → s.maxLocal = 0 ∧ s.connSent = 0 ∧ ∀ r, s.streams r = []

theorem get_set_cases (h : (s.set id st').get id' = some st) : st = st' ∨ s.get id' = some st := by
  by_cases hid : id' = id
  · subst hid
    cases hget : s.get id' with
    | none =>
      rw [get, List.getElem?_eq_none_iff] at hget
      rw [get, List.getElem?_eq_none (by rw [length_set]; exact hget)] at h
      cases h
    | some st₁ =>
      rw [get_set_self hget] at h
      exact Or.inl (Option.some.inj h).symm
  · rw [get_set_ne hid] at h
    exact Or.inr h

variable (h : s.Sane)
include h

theorem Sane.congr (hs : s'.streams = s.streams) (hparams : s'.paramsReceived = s.paramsReceived)
    (hmax : s'.maxLocal = s.maxLocal) (hsent : s'.connSent = s.connSent) (hc : s.connSendMax ≤ s'.connSendMax) :
    s'.Sane where
  stream id st hget := by
    rw [get, hs] at hget
    exact h.stream id st hget
  credit := by
    rw [hsent]
    exact h.credit.trans hc
  fresh hp := by
    rw [hmax, hsent, hs]
    exact h.fresh (hparams ▸ hp)

theorem Sane.counted (n : Nat) : Sane { s with connReceived := n } := h.congr rfl rfl rfl rfl le_rfl

theorem Sane.paramsReceived (hget : s.get id = some st) : s.paramsReceived = true := by
  refine eq_true_of_ne_false fun hp => ?_
  rw [get, (h.fresh hp).2.2] at hget
  cases hget

theorem Sane.set (hget : s.get id = some st) (hst : st'.Sane) : (s.set id st').Sane where
  stream id' st₁ hget₁ := by
    rcases get_set_cases hget₁ with rfl | hget'
    · exact hst
    · exact h.stream id' st₁ hget'
  credit := h.credit
  fresh hp := nomatch hp.symm.trans (h.paramsReceived hget)

theorem Sane.consumedBy (n : Option Nat) : (s.consumedBy n).Sane := by
  cases n with
  | none => exact h
  | some n =>
    unfold Session.consumedBy consumed
    simp only
    split_ifs <;> exact h.congr rfl rfl rfl rfl le_rfl

theorem Sane.streamCompleted (id : StreamID) : (s.streamCompleted id).Sane := by
  unfold Session.streamCompleted
  split_ifs
  · exact h
  · exact h.congr rfl rfl rfl rfl le_rfl

theorem Sane.markReady (id : StreamID) : (s.markReady id).Sane := by
  unfold Session.markReady
  cases hget : s.get id with
  | none => exact h
  | some st =>
    simp only
    split_ifs
    · exact h
    · exact h.congr rfl rfl rfl rfl le_rfl
    · have hset := h.set hget ((h.stream id st hget).inReady true)
      exact hset.congr rfl rfl rfl rfl le_rfl

theorem Sane.extends {r : Role} {sendMax : Nat} (he : s.Extends s' r sendMax) (hparams : s.paramsReceived = true) :
    s'.Sane where
  stream id st hget := by
    rcases he.get id with hsa | ⟨-, -, hnew⟩
    · exact h.stream id st (hsa ▸ hget)
    · obtain rfl := Option.some.inj (hnew.symm.trans hget)
      exact Stream.sane_new _ _
  credit := by
    have hs : s'.connSent = s.connSent := congrArg Core.connSent he.core
    have hmax : s'.connSendMax = s.connSendMax := congrArg Core.connSendMax he.core
    rw [hs, hmax]
    exact h.credit
  fresh hp := nomatch hp.symm.trans ((congrArg Core.paramsReceived he.core).trans hparams)

theorem Sane.paramsReceived_of_lt (hlt : s.openedLocal < s.maxLocal) : s.paramsReceived = true := by
  refine eq_true_of_ne_false fun hp => ?_
  have hzero := (h.fresh hp).1
  omega

omit h

theorem Change.sane (h : Change calm s s') (hs : s.Sane) : s'.Sane := by
  cases h with
  | wake | queue | accept | ping | sendPing | close => exact hs.congr rfl rfl rfl rfl le_rfl
  | maxData hr => exact hs.congr rfl rfl rfl rfl hr.le
  | receive t hget hre =>
    refine Sane.consumedBy ?_ t
    exact Sane.set (hs.counted _) hget hre.sane
  | complete hget _ hse hre =>
    refine Sane.streamCompleted ?_ _
    exact hs.set hget { hs.stream _ _ hget with removed := fun _ => ⟨hse, hre⟩ }
  | send hget hse => exact (hs.set hget hse.sane).markReady _
  | raise hget _ hr => exact (hs.set hget (Stream.send_raise (hs.stream _ _ hget) hr).sane).markReady _
  | reset code err hget hd =>
    have hset := hs.set hget ((hs.stream _ _ hget).givenUp hd err)
    exact hset.congr rfl rfl rfl rfl le_rfl
  | openLocal ho => exact hs.extends (extends_openStreamSync ho) (hs.paramsReceived_of_lt ho.2)
  | openRemote hpar => exact hs.extends (extends_openRemote _) hpar
  | maxStreams hpar =>
    exact ⟨hs.stream, hs.credit, fun hp => absurd (hp.symm.trans hpar) Bool.false_ne_true⟩
  | parameters peer hpar =>
    refine ⟨hs.stream, ?_, fun hp => by cases hp⟩
    change s.connSent ≤ peer.initialMaxData
    rw [(hs.fresh hpar).2.1]
    exact Nat.zero_le _

theorem Path.sane (h : Path calm s s') (hs : s.Sane) : s'.Sane := by
  induction h with
  | refl => exact hs
  | tail _ hc ih => exact hc.sane ih

/-! ### Calls -/

theorem path_maybeRemove (s : Session) (id : StreamID) : Path calm s (s.maybeRemove id) := by
  unfold maybeRemove
  cases hget : s.get id with
  | none => exact .refl
  | some st =>
    simp only
    split_ifs with hd
    · simp only [Bool.and_eq_true, Bool.not_eq_true'] at hd
      exact (Change.complete hget hd.1.1 hd.1.2 hd.2).path
    · exact .refl

theorem consumed_queueControl (s : Session) (f : Frame) (n : Nat) :
    (s.queueControl f).consumed n = (s.consumed n).queueControl f := by
  unfold consumed queueControl wakeWriter
  simp only
  split_ifs <;> rfl

theorem change_take (calm : Bool) (t : Option Nat) (hget : s.get id = some st) (hr : st.Recv st' 0 (t.getD 0)) :
    Change calm s ((s.set id st').consumedBy t) :=
  Change.receive t hget hr (absurd rfl)

theorem path_read (hs : s.Sane) (hget : s.get id = some st) (size : Nat) : Path calm s (s.read id st size).1 := by
  unfold read
  cases hcan : st.readCancelled with
  | true => exact .refl
  | false =>
    cases hr : st.resetReceived with
    | some e => exact .refl
    | none =>
      by_cases hpos : 0 < st.unread.length
      · simp only [Bool.false_eq_true, if_false, if_pos hpos]
        obtain ⟨buf, head, -, -, heq⟩ := Stream.takeUnread_eq (hs.stream id st hget).recvHead size
        have ht {rm : Nat} (hmax : st.recvMax ≤ rm) :=
          change_take calm (some (st.unread.take size).length) hget
            (Stream.recv_takeUnread (hs.stream id st hget) hcan hr hpos size hmax)
        have hsa : (st.takeUnread size).recvMax = st.recvMax := by rw [heq]
        unfold streamConsumed
        simp only
        refine Relation.ReflTransGen.trans ?_ (path_maybeRemove _ id)
        split_ifs with hlow
        · rw [consumed_queueControl]
          refine .tail (Change.path (ht ?_)) (.queue _ rfl)
          rw [← hsa]
          have hlow' := hlow.2
          omega
        · exact (ht hsa.ge).path
      · simp only [Bool.false_eq_true, if_false, if_neg hpos]
        split_ifs
        · exact .refl
        all_goals cases s.closeErr <;> exact .refl

theorem path_write (hs : s.Sane) (hget : s.get id = some st) (p : List UInt8) (g : Nat) :
    Path calm s (s.write id st p g).1 := by
  unfold write
  by_cases hst : st.writeErr.isSome ∨ s.closeErr.isSome ∨ p.length = 0
  · rw [if_pos hst]
  · rw [if_neg hst]
    have herr : st.writeErr = none := by
      rw [not_or] at hst
      simpa using hst.1
    obtain ⟨-, hr, hfin⟩ := (hs.stream id st hget).of_writeErr_none herr
    simp only
    split_ifs
    · refine (Change.send hget (Stream.send_appendSend (hs.stream id st hget) herr _ _ p g) ?_).path
      rw [Stream.sendDone, hfin, hr]
      rfl
    · exact .refl

theorem path_close (hs : s.Sane) (hget : s.get id = some st) : Path calm s (s.close id st) := by
  have hst := hs.stream id st hget
  unfold Session.close
  split_ifs with hd
  · exact .refl
  · simp only [Bool.or_eq_true, not_or, Bool.not_eq_true] at hd
    refine (Change.send hget (Stream.send_close hst hd.1) ?_).path
    cases hfin : st.finSent with
    | false => rw [Stream.sendDone, hfin, hd.2]; rfl
    | true => exact nomatch hd.1.symm.trans (hst.finSent hfin).1

theorem path_resetSend (code : Nat) (err : WriteError) (hget : s.get id = some st) (hd : st.sendDone = false) :
    Path calm s (s.resetSend id { st with writeErr := some err } code) :=
  (Change.reset code err hget hd).path.trans (path_maybeRemove _ id)

theorem path_cancelWrite (hget : s.get id = some st) (code : Nat) : Path calm s (s.cancelWrite id st code) := by
  unfold cancelWrite
  split_ifs with hd
  · exact .refl
  · exact path_resetSend code _ hget (Bool.eq_false_iff.mpr hd)

theorem path_cancelRead (hs : s.Sane) (hget : s.get id = some st) (code : Nat) :
    Path calm s (s.cancelRead id st code) := by
  unfold cancelRead
  split_ifs with hdo
  · exact .refl
  simp only [Bool.or_eq_true, not_or, Bool.not_eq_true] at hdo
  have hr := Stream.recv_cancelled (hs.stream id st hget) hdo.2 code
  have hd : Path calm s
      (if 0 < st.received - st.read then
        (s.set id { st with
          readCancelled := true, readCode := code, read := st.received
          recvBuf := [], recvCap := 0, recvHead := 0 }).consumed (st.received - st.read)
      else s.set id { st with readCancelled := true, readCode := code }) := by
    unfold Stream.cancelled at hr
    split_ifs with hun
    · rw [if_pos hun] at hr
      exact (change_take calm (some (st.received - st.read)) hget hr).path
    · rw [if_neg hun, Nat.eq_zero_of_not_pos hun] at hr
      exact (change_take calm none hget hr).path
  simp only
  generalize (if 0 < st.received - st.read then _ else _ : Session) = s₁ at hd ⊢
  refine Relation.ReflTransGen.trans ?_ (path_maybeRemove _ id)
  split_ifs
  · exact hd
  · exact hd.tail (.queue _ rfl)

theorem path_acceptStream (s : Session) : Path calm s s.acceptStream.1 := by
  unfold acceptStream
  cases hq : s.acceptQueue with
  | nil => exact .refl
  | cons id rest => exact (Change.accept hq).path

theorem path_openStreamSync (s : Session) : Path calm s s.openStreamSync.1 := by
  by_cases ho : s.closeErr.isNone ∧ s.openedLocal < s.maxLocal
  · exact (Change.openLocal ho).path
  · rw [openStreamSync, if_neg ho]

theorem path_closeWith (s : Session) (err : SessionError) {frame : Option Frame} {mode : CloseMode}
    (hf : ∀ f ∈ frame, f.closes = true) (hm : mode ≠ .modeOpen) : Path calm s (s.closeWith err frame mode) := by
  unfold closeWith
  split_ifs with hd
  · exact .refl
  · exact (Change.close err (by simpa using hd) hf hm).path

theorem path_fail (s : Session) (err : TransportError) : Path calm s (s.fail err) := by
  refine path_closeWith s _ ?_ (by decide)
  intro f hf
  obtain rfl := Option.mem_some.mp hf
  rfl

/-! ### Frames -/

def Leads (calm : Bool) (s : Session) (result : Handled) : Prop :=
  ∃ s₁ n, Path calm s s₁ ∧ result.1 = { s₁ with connReceived := s₁.connReceived + n } ∧ (result.2 = none → n = 0)

theorem Leads.of_path {e : Option TransportError} (h : Path calm s s') :
    Leads calm s (s', e) := ⟨s', 0, h, rfl, fun _ => rfl⟩

theorem Leads.same (s : Session) (e : Option TransportError) : Leads calm s (s, e) := .of_path .refl

theorem Leads.trans {result : Handled} (h : Path calm s s') (h' : Leads calm s' result) : Leads calm s result := by
  obtain ⟨s₁, n, hp, hres⟩ := h'
  exact ⟨s₁, n, h.trans hp, hres⟩

theorem Leads.path (h : Leads calm s (s', none)) : Path calm s s' := by
  obtain ⟨s₁, n, hp, hres, hn⟩ := h
  obtain rfl := hn rfl
  obtain rfl : s' = s₁ := hres
  exact hp

theorem Leads.sane {r : Handled} (h : Leads calm s r) (hs : s.Sane) : r.1.Sane := by
  obtain ⟨s₁, n, hp, hres, -⟩ := h
  rw [hres]
  exact (hp.sane hs).counted _

theorem leads_onStream {frameId frameType : Nat} {handle : Session → StreamID → Stream → Handled} (hs : s.Sane)
    (hparams : s.paramsReceived = true)
    (hh : ∀ s' id st, s.stream frameId frameType = .ok (s', id) → s'.live id = some st → s'.Sane →
      s'.get id = some st → st.removed = false → Leads calm s' (handle s' id st)) :
    Leads calm s (s.onStream frameId frameType handle) := by
  unfold onStream
  cases hst : s.stream frameId frameType with
  | error e => exact .same s _
  | ok f =>
    obtain ⟨s', id⟩ := f
    have hf : Path calm s s' ∧ id = .ofNat frameId := by
      simp only [stream] at hst
      split_ifs at hst with h₁ h₂ h₃ h₄ h₅ h₆
      · cases hst
        exact ⟨.refl, rfl⟩
      · cases hst
        exact ⟨.refl, rfl⟩
      · cases hst
        exact ⟨(Change.openRemote hparams (Nat.not_lt.mp h₅) (Nat.not_le.mp h₆)).path, rfl⟩
    obtain ⟨hp, rfl⟩ := hf
    cases hl : s'.live (.ofNat frameId) with
    | none =>
      simp only [hl]
      exact .of_path hp
    | some st =>
      simp only [hl]
      obtain ⟨hget, hr⟩ := Option.filter_eq_some_iff.mp hl
      exact (hh s' _ st hst hl (hp.sane hs) hget (by simpa using hr)).trans hp

theorem leads_handleStream (typ frameId o : Nat) (data : List UInt8) (fin : Bool) (hs : s.Sane)
    (hget : s.get id = some st) (hl : st.removed = false) :
    Leads calm s (handleStream typ frameId o data fin s id st) := by
  unfold handleStream
  simp only [Stream.discards_arrive]
  split_ifs with hf ho hmax hc hd
  · exact .same s _
  · exact .same s _
  · exact .same s _
  · exact ⟨s, data.length, .refl, rfl, fun hfa => by cases hfa⟩
  all_goals
    rw [not_not] at ho
    have hr := Stream.recv_delivered fin (hs.stream id st hget) hl
      (show o + data.length = st.received + data.length by rw [ho]) (Nat.not_lt.mp hmax) (by
        intro hk
        simp only [hk, true_and, not_or, not_and, not_not, Nat.not_lt] at hf
        exact hf)
    unfold Stream.delivered at hr
  · rw [if_pos hd, if_pos hd] at hr
    exact .of_path ((Change.receive (some data.length) hget hr fun _ => Nat.not_lt.mp hc).path.trans
      (path_maybeRemove _ id))
  · rw [if_neg hd, if_neg hd] at hr
    exact .of_path ((Change.receive none hget hr fun _ => Nat.not_lt.mp hc).path.trans
      (path_maybeRemove _ id))

theorem leads_handleResetStream (frameId errorCode finalSize : Nat) (hs : s.Sane) (hget : s.get id = some st)
    (hl : st.removed = false) : Leads calm s (handleResetStream frameId errorCode finalSize s id st) := by
  obtain ⟨reset, -, heq⟩ := st.endByReset_eq finalSize ⟨frameId, errorCode, true⟩
  unfold handleResetStream
  simp only
  have hsa : (st.endByReset finalSize ⟨frameId, errorCode, true⟩).read = st.read := by rw [heq]
  rw [hsa]
  split_ifs with hfin hsi hmax hc hun
  · exact .same s _
  · exact .same s _
  · exact .same s _
  · exact ⟨s, finalSize - st.received, .refl, rfl, fun hf => by cases hf⟩
  all_goals
    have hle : st.received ≤ finalSize := Nat.not_lt.mp (not_or.mp hsi).2
    have hr := Stream.recv_resetAt (hs.stream id st hget) hl ⟨frameId, errorCode, true⟩ hle (Nat.not_lt.mp hmax)
    unfold Stream.resetAt at hr
  · rw [if_pos hun] at hr
    rw [set_consumed]
    exact .of_path ((Change.receive (some (finalSize - st.read)) hget hr fun _ => Nat.not_lt.mp hc).path.trans
      (path_maybeRemove _ id))
  · rw [if_neg hun, Nat.eq_zero_of_not_pos hun] at hr
    exact .of_path ((Change.receive none hget hr fun _ => Nat.not_lt.mp hc).path.trans
      (path_maybeRemove _ id))

theorem leads_handleStopSending (frameId errorCode : Nat) (hget : s.get id = some st) :
    Leads calm s (handleStopSending frameId errorCode s id st) := by
  unfold handleStopSending
  split_ifs with hd
  · exact .same s _
  · exact .of_path (path_resetSend errorCode _ hget (Bool.eq_false_iff.mpr hd))

theorem leads_handleMaxStreamData {m : Nat} (hget : s.get id = some st) (hl : st.removed = false)
    (hc : calm = true → st.sendMax < m → st.finSent = false) :
    Leads calm s (handleMaxStreamData m s id st) := by
  unfold handleMaxStreamData
  split_ifs with hr
  · exact .of_path (Change.raise hget hl hr fun ht => hc ht hr).path
  · exact .same s _

theorem leads_checkStreams {typ m : Nat} {name : String} {ok : Handled} (hok : Leads calm s ok) :
    Leads calm s (s.checkStreams typ name m ok) := by
  unfold checkStreams
  split_ifs
  · exact .same s _
  · exact hok

theorem leads_handleParameters (params : List UInt8) : Leads calm s (s.handleParameters params) := by
  unfold handleParameters
  split_ifs with hd
  · exact .same s _
  · cases decodeParameters s.version params with
    | error e => exact .same s _
    | ok peer => exact .of_path (Change.parameters peer (Bool.eq_false_iff.mpr hd)).path

theorem leads_handleConnectionClose (err : SessionError) : Leads calm s (s.handleConnectionClose err) :=
  .of_path (path_closeWith s err (by simp) (by decide))

/-- It raises the limit of a stream whose FIN was sent, which is ready again. -/
def raisesFinished (s : Session) : Frame → Bool
  | .maxStreamData id maximum =>
    match s.stream id FrameType.maxStreamData with
    | .error _ => false
    | .ok (s, sid) => (s.live sid).any fun st => st.finSent && decide (st.sendMax < maximum)
  | _ => false

theorem leads_handleFrame {f : Frame} (hs : s.Sane)
    (hfirst : s.paramsReceived = true ∨ ∃ ps, f = .transportParameters ps)
    (hc : calm = true → s.raisesFinished f = false) : Leads calm s (s.handleFrame f) := by
  by_cases hf : ∃ ps, f = .transportParameters ps
  · obtain ⟨ps, rfl⟩ := hf
    exact leads_handleParameters ps
  have hpar := hfirst.resolve_right hf
  cases f with
  | transportParameters ps => exact absurd ⟨ps, rfl⟩ hf
  | padding | dataBlocked => exact .same s _
  | stream typ fi o data fin =>
    exact leads_onStream hs hpar fun _ _ _ _ _ hs' hget hl =>
      leads_handleStream typ fi o data fin hs' hget hl
  | resetStream fi ec fs =>
    exact leads_onStream hs hpar fun _ _ _ _ _ hs' hget hl =>
      leads_handleResetStream fi ec fs hs' hget hl
  | stopSending fi ec =>
    exact leads_onStream hs hpar fun _ _ _ _ _ _ hget _ => leads_handleStopSending fi ec hget
  | maxData m =>
    simp only [handleFrame]
    split_ifs with hr
    · exact .of_path (Change.maxData hr).path
    · exact .same s _
  | maxStreamData fi m =>
    refine leads_onStream hs hpar fun s' id st hstr hst _ hget hl => ?_
    refine leads_handleMaxStreamData hget hl fun ht hr => ?_
    have hnot := hc ht
    simpa [raisesFinished, hstr, hst, hr] using hnot
  | maxStreamsBidi m =>
    refine leads_checkStreams ?_
    split_ifs with hr
    · exact .of_path (Change.maxStreams hpar).path
    · exact .same s _
  | maxStreamsUni | streamsBlockedBidi | streamsBlockedUni => exact leads_checkStreams (.same s _)
  | streamDataBlocked fi m => exact leads_onStream hs hpar fun s' _ _ _ _ _ _ _ => .same s' _
  | connectionClose | applicationClose => exact leads_handleConnectionClose _
  | ping se =>
    simp only [handleFrame, handlePing]
    split_ifs
    · exact .same s _
    · exact .of_path (Change.ping s se).path
  | pingResponse se =>
    simp only [handleFrame, handlePingResponse]
    split_ifs <;> exact .same s _

def recordRaisesFinished (s : Session) : Nat → List UInt8 → Bool
  | _, [] => false
  | 0, _ => false
  | rounds + 1, buf =>
    match FrameParser.next s.version buf with
    | .error _ => false
    | .ok (f, rest) =>
      s.raisesFinished f ||
        match s.handleFrame f with
        | (_, some _) => false
        | (s, none) => if s.closeErr.isSome then false else s.recordRaisesFinished rounds rest

theorem leads_handleFrames {rounds : Nat} {buf : List UInt8} (hs : s.Sane)
    (hc : calm = true → s.recordRaisesFinished rounds buf = false) :
    Leads calm s (s.handleFrames rounds buf) := by
  induction rounds generalizing s buf with
  | zero => cases buf <;> exact .same s _
  | succ rounds ih =>
    cases hbuf : buf with
    | nil => exact .same s _
    | cons byte tail =>
      have hne : buf ≠ [] := by simp [hbuf]
      rw [← hbuf, handleFrames.eq_3 s buf rounds hne]
      rw [recordRaisesFinished.eq_3 s buf rounds hne] at hc
      cases hn : FrameParser.next s.version buf with
      | error e => exact .same s _
      | ok p =>
        obtain ⟨f, rest⟩ := p
        simp only [hn, Bool.or_eq_false_iff] at hc ⊢
        split_ifs with hp
        · exact .same s _
        have hfi : s.paramsReceived = true ∨ ∃ params, f = .transportParameters params := by
          rw [not_and_or, not_not] at hp
          refine hp.imp (by simp) ?_
          exact FrameParser.next_yields s.version buf f rest hn
        have hf := leads_handleFrame hs hfi fun ht => (hc ht).1
        have hr := fun ht => (hc ht).2
        generalize s.handleFrame f = result at hf hr ⊢
        obtain ⟨s', e⟩ := result
        cases e with
        | some e => exact hf
        | none =>
          simp only at hr ⊢
          split_ifs at hr ⊢
          · exact hf
          · exact (ih (hf.sane hs) hr).trans hf.path

theorem leads_handleRecord {r : List UInt8} (hs : s.Sane)
    (hc : calm = true → s.recordRaisesFinished r.length r = false) :
    Leads calm s (s.handleRecord r) := by
  unfold handleRecord
  split_ifs
  · exact .same s _
  · exact leads_handleFrames hs hc

end Session

end TrevRpc.Go.Qmux
