import TrevRpc.Go.Qmux.Link

/-! # What a QMux session sends -/

open TrevRpc.Varint TrevRpc.Pipe

namespace TrevRpc.Go.Qmux

variable {X X' Y : Session} {P Q : List Frame} {id : StreamID} {st : Stream}

/-! ## Opening a stream -/

theorem recvLimit_ge_of_local (hok : Y.Ok) (h : id.opener = Y.role) :
    Y.localParams.initialMaxStreamDataBidiLocal ≤ Y.recvLimit id := by
  have hi := hok.initialRecvMax id
  rwa [Session.initialRecvMax, Session.isLocal, if_pos (by simpa using h)] at hi

theorem recvLimit_ge_of_remote (hok : Y.Ok) (h : id.opener = Y.role.other) :
    Y.localParams.initialMaxStreamDataBidiRemote ≤ Y.recvLimit id := by
  have hi := hok.initialRecvMax id
  rwa [Session.initialRecvMax, Session.isLocal, if_neg (by simp [h])] at hi

theorem Joined.openStreamSync (h : Joined X Y P Q) : Joined X.openStreamSync.1 Y P Q := by
  by_cases ho : X.closeErr.isNone ∧ X.openedLocal < X.maxLocal
  · have he := Session.extends_openStreamSync ho
    have hr : Y.role = X.role.other := h.forth.role
    have hl : (X.openStreamSync.1.streams X.role).length = (X.streams X.role).length + 1 := by
      rw [Session.openStreamSync, if_pos ho]
      simp
    have hop : X.openStreamSync.1.openedLocal ≤ X.maxLocal := by
      have hr' : X.openStreamSync.1.role = X.role := congrArg Session.Core.role he.core
      rw [Session.openedLocal, hr', hl]
      exact ho.2
    -- A stream can only be opened once the parameters of the peer have arrived.
    have hd : X.paramsReceived = true := by
      refine eq_true_of_ne_false fun hp => ?_
      have hzero := (h.back.handshake.pending hp).2.1
      omega
    refine ⟨h.forth.extend_sender he hop ?_, h.back.extend_receiver he ?_, he.ok h.sender, h.receiver⟩
    · intro id hid
      rw [(h.back.handshake.done hd).1]
      exact recvLimit_ge_of_remote h.receiver (by rw [hr, Role.other_other, hid])
    · rw [he.length_of_ne Y.role (by rw [hr]; exact Role.other_ne _)]
      exact h.back.known
  · rw [Session.openStreamSync, if_neg ho]
    exact h

/-! ## Giving a stream up -/

namespace Stream

theorem ok_givenUp (h : st.Ok) (hd : st.sendDone = false) (err : WriteError) : (st.givenUp err).Ok := by
  simp only [sendDone, Bool.or_eq_false_iff] at hd
  refine { h with sendHead := le_rfl, unsent := ?_, writeErr := ?_, finSent := ?_, removed := ?_ }
  · intro hr
    cases hr
  · exact fun _ => rfl
  · intro hfin
    rw [givenUp, hd.1] at hfin
    cases hfin
  · intro hre
    have hs := (h.removed hre).1
    simp [sendDone, hd] at hs

theorem advance_givenUp (h : st.Ok) (hd : st.sendDone = false) (err : WriteError) :
    st.sendView.advance (.reset st.sent) = some (st.givenUp err).sendView := by
  simp only [sendDone, Bool.or_eq_false_iff] at hd
  rw [View.advance_reset_eq_some]
  refine ⟨?_, ?_, rfl⟩
  · simp [sendView, hd]
  · rw [sendView, List.length_take, min_eq_left h.sent_le]

end Stream

theorem Joined.resetSend (h : Joined X Y P Q) (hget : X.get id = some st) (hd : st.sendDone = false)
    (err : WriteError) (code : Nat) :
    let X' := X.resetSend id { st with writeErr := some err } code
    ∃ fs, X'.control = X.control ++ fs ∧ Joined X' Y (P ++ fs) Q := by
  intro X'
  have hst := h.sender.stream id st hget
  let f : Frame := .resetStream id.toNat code st.sent
  have hs : X.Sets ((X.set id (st.givenUp err)).queueControl f) id st (st.givenUp err) (dataLength [f]) 0 :=
    ⟨hget, rfl, rfl, rfl, rfl, st.ok_givenUp hst hd err, rfl⟩
  have hc : chunks id [f] = [.reset st.sent] := by simp [chunks, Frame.chunk, f]
  have hse := h.sends [f] hs rfl
    (by rw [hc, View.after_singleton]; exact st.advance_givenUp hst hd err)
    (fun id' hid => by
      have hne : id.toNat ≠ id'.toNat := fun heq => hid (StreamID.toNat_inj.mp heq).symm
      simp [chunks, Frame.chunk, f, hne])
    h.forth.credit.connSent (h.forth.credit.stream id st hget)
    (by
      intro f' hf'
      rw [List.mem_singleton.mp hf']
      exact ⟨id, rfl, Session.has_of_get hget⟩)
    rfl (by intro f' hf'; rw [List.mem_singleton.mp hf']; rfl)
  have hr := Session.queues_maybeRemove hse.sender id
  refine ⟨[f], ?_, hse.queues_nil hr⟩
  have hcon := hr.control
  rw [List.append_nil] at hcon
  exact hcon

theorem Joined.cancelWrite (h : Joined X Y P Q) (hget : X.get id = some st) (code : Nat) :
    ∃ fs, (X.cancelWrite id st code).control = X.control ++ fs ∧
      Joined (X.cancelWrite id st code) Y (P ++ fs) Q := by
  unfold Session.cancelWrite
  cases hd : st.sendDone with
  | true => exact ⟨[], by simp, by simpa using h⟩
  | false => exact h.resetSend hget hd _ code

/-! ## Building a record -/

theorem takeControl_spec (v : Version) (limit : Nat) (b c : List Frame)
    (hb : recordLength v b ≤ limit) :
    (Session.takeControl v limit b c).1 ++ (Session.takeControl v limit b c).2 = b ++ c ∧
      recordLength v (Session.takeControl v limit b c).1 ≤ limit := by
  induction c generalizing b with
  | nil => exact ⟨rfl, hb⟩
  | cons f c ih =>
    unfold Session.takeControl
    split_ifs with hfull
    · exact ⟨rfl, hb⟩
    · have hf : recordLength v (b ++ [f]) ≤ limit := by
        rw [recordLength_append, recordLength_singleton]
        omega
      obtain ⟨ha, hl⟩ := ih (b ++ [f]) hf
      exact ⟨by rw [ha, List.append_assoc, List.singleton_append], hl⟩

structure Builds (Y : Session) (F Q : List Frame) (limit : Nat) (b : Session.Building) : Prop where
  joined : Joined b.1 Y (F ++ b.2) Q
  control : b.1.control = []
  fits : recordLength b.1.version b.2 ≤ limit

section Builds

variable {F : List Frame} {limit : Nat} {b : List Frame} {f : Frame}

theorem Builds.queues (h : Builds Y F Q limit (X, b)) (hq : X.Queues X' []) : Builds Y F Q limit (X', b) := by
  have hver : X'.version = X.version := congrArg Session.Core.version hq.evolves.core
  refine ⟨h.joined.queues_nil hq, ?_, ?_⟩
  · have hcon := hq.control
    rw [List.append_nil] at hcon
    exact hcon.trans h.control
  · change recordLength X'.version b ≤ limit
    rw [hver]
    exact h.fits

theorem Builds.append (h : Builds Y F Q limit (X, b)) (hver : X'.version = X.version)
    (hcontrol : X'.control = X.control) (hr : recordLength X.version b + f.length X.version ≤ limit)
    (hj : Joined X' Y (F ++ b ++ [f]) Q) : Builds Y F Q limit (X', b ++ [f]) := by
  refine ⟨by rw [List.append_assoc] at hj; exact hj, hcontrol.trans h.control, ?_⟩
  change recordLength X'.version (b ++ [f]) ≤ limit
  rw [hver, recordLength_append, recordLength_singleton]
  exact hr

/-! ### Flow control frames -/

theorem length_le_of_fields (v : Version) (hf : f.fields.length = 1) (hb : f.bytes = []) :
    f.length v ≤ Session.maxFrame := by
  have hle := encodedLenAll_le (f.typ v :: f.fields)
  rw [List.length_cons, hf] at hle
  unfold Frame.length Session.maxFrame
  rw [hb, List.length_nil]
  omega

variable (h : Builds Y F Q limit (X, b))
include h

theorem Builds.flowControl (he : X.Evolves X')
    (hcontrol : X'.control = X.control) (hsound : Sound X' Y f) (hs : f.Silent)
    (hr : recordLength X.version b + f.length X.version ≤ limit) : Builds Y F Q limit (X', b ++ [f]) := by
  refine h.append (congrArg Session.Core.version he.core) hcontrol hr (h.joined.evolves he ?_ ?_)
  · intro f' hf'
    rw [List.mem_singleton.mp hf']
    exact hsound
  · intro f' hf'
    rw [List.mem_singleton.mp hf']
    exact hs

theorem Builds.appendMaxData : Builds Y F Q limit (Session.appendMaxData limit (X, b)) := by
  unfold Session.appendMaxData
  simp only
  split_ifs with hsend
  · have hl := length_le_of_fields (f := .maxData X.connRecvMax) X.version rfl rfl
    exact h.flowControl (.of_streams h.joined.sender rfl rfl le_rfl le_rfl) rfl
      (Nat.le_refl X.connRecvMax) ⟨fun _ => rfl, rfl, rfl, rfl⟩ (by omega)
  · exact h

theorem Builds.appendMaxStreams : Builds Y F Q limit (Session.appendMaxStreams limit (X, b)) := by
  unfold Session.appendMaxStreams
  simp only
  split_ifs with hsend
  · have hl := length_le_of_fields (f := .maxStreamsBidi X.maxRemote) X.version rfl rfl
    exact h.flowControl (.of_streams h.joined.sender rfl rfl le_rfl le_rfl) rfl
      (Nat.le_refl X.maxRemote) ⟨fun _ => rfl, rfl, rfl, rfl⟩ (by omega)
  · exact h

theorem Builds.appendPingReply : Builds Y F Q limit (Session.appendPingReply limit (X, b)) := by
  unfold Session.appendPingReply
  simp only
  split_ifs with hsend
  · have hl := length_le_of_fields (f := .pingResponse X.pingReceived) X.version rfl rfl
    exact h.flowControl (.of_streams h.joined.sender rfl rfl le_rfl le_rfl) rfl
      h.joined.back.pings.received ⟨fun _ => rfl, rfl, rfl, rfl⟩ (by omega)
  · exact h

omit h

theorem Joined.ping (h : Joined X Y P Q) :
    Joined { X with pingSent := X.pingSent + 1, sendPing := false } Y (P ++ [.ping (X.pingSent + 1)]) Q := by
  have hg : Grows X { X with pingSent := X.pingSent + 1, sendPing := false } :=
    { Grows.refl X with pingSent := Nat.le_succ _ }
  have hold : ∀ n ∈ pings P, n < X.pingSent + 1 := by
    intro n hn
    have hs := h.forth.sound _ (mem_pings P |>.mp hn)
    exact Nat.lt_succ_of_le hs
  refine ⟨?_, ?_, { h.sender with }, h.receiver⟩
  · refine h.forth.sender _ hg ?_ (fun _ => rfl) rfl { h.forth.credit with } ⟨?_, ?_, ?_⟩ ?_
    · intro f hf
      rw [List.mem_singleton.mp hf]
      exact Nat.le_refl _
    · rw [pings_append, List.pairwise_append]
      refine ⟨h.forth.pings.sorted, List.pairwise_singleton .., ?_⟩
      intro n hn n' hn'
      rw [List.mem_singleton.mp hn']
      exact hold n hn
    · intro hr n hn
      rw [pings_append, List.mem_append] at hn
      rcases hn with hn | hn
      · exact h.forth.pings.fresh hr n hn
      · rw [List.mem_singleton.mp hn]
        exact Nat.lt_succ_of_le h.forth.pings.received
    · exact Nat.le_succ_of_le h.forth.pings.received
    · intro f hf
      rw [List.mem_singleton.mp hf]
      rfl
  · exact Link.receiver [] h.back hg h.back.known (fun _ => rfl) rfl (Pings.tail [] h.back.pings rfl rfl)
      (h.back.handshake.congr rfl rfl rfl rfl)

theorem Builds.appendPing (h : Builds Y F Q limit (X, b)) : Builds Y F Q limit (Session.appendPing limit (X, b)) := by
  unfold Session.appendPing
  simp only
  split_ifs with hsend
  · have hl := length_le_of_fields (f := .ping (X.pingSent + 1)) X.version rfl rfl
    exact h.append rfl rfl (by omega) h.joined.ping
  · exact h

theorem Builds.appendFlowControl (h : Builds Y F Q limit (X, b)) :
    Builds Y F Q limit (Session.appendFlowControl limit (X, b)) :=
  h.appendMaxData.appendMaxStreams.appendPingReply.appendPing

end Builds

/-! ### STREAM frames -/

namespace Stream

def framed (st : Stream) (n : Nat) (fin : Bool) (buf : List UInt8) (head : Nat) (ready : Bool) : Stream :=
  { st with
    sendBuf := buf, sendHead := head, sent := st.sent + n, finSent := fin || st.finSent, inReady := ready }

structure CanFrame (st : Stream) (n : Nat) (fin : Bool) (buf : List UInt8) (head : Nat) : Prop where
  le_length : n ≤ st.unsent.length
  head_le : head ≤ buf.length
  drop_eq : buf.drop head = st.unsent.drop n
  of_fin : fin = true → st.finRequested = true ∧ n = st.unsent.length
  of_not_fin : fin = false → st.finSent = false

variable {n : Nat} {fin : Bool} {buf : List UInt8} {head : Nat}

theorem ok_framed (h : st.Ok) (hr : st.resetSent = false) (hf : st.CanFrame n fin buf head)
    (r : Bool) : (st.framed n fin buf head r).Ok := by
  have hun := h.unsent hr
  have hl : st.unsent.length = st.accepted.length - st.sent := by rw [hun, List.length_drop]
  have hle := hf.le_length
  have hsent := h.sent_le
  refine { h with sendHead := hf.head_le, sent_le := ?_, unsent := ?_, finSent := ?_, removed := ?_ }
  · change st.sent + n ≤ st.accepted.length
    omega
  · intro _
    change buf.drop head = st.accepted.drop (st.sent + n)
    rw [hf.drop_eq, hun, List.drop_drop]
  · intro hfin
    simp only [framed, Bool.or_eq_true] at hfin
    rcases hfin with hfin | hfin
    · obtain ⟨hreq, hn⟩ := hf.of_fin hfin
      exact ⟨hreq, by change st.sent + n = st.accepted.length; omega, hr⟩
    · obtain ⟨hreq, hall, -⟩ := h.finSent hfin
      exact ⟨hreq, by change st.sent + n = st.accepted.length; omega, hr⟩
  · intro hre
    obtain ⟨hs, hrc⟩ := h.removed hre
    refine ⟨?_, hrc⟩
    simp only [sendDone, framed, hr, Bool.or_false] at hs ⊢
    rw [hs, Bool.or_true]

theorem advance_framed (h : st.Ok) (hr : st.resetSent = false) (hf : st.CanFrame n fin buf head)
    (r : Bool) :
    st.sendView.advance (.data st.sent (st.unsent.take n) fin) =
      some (st.framed n fin buf head r).sendView := by
  have hun := h.unsent hr
  have hl : st.sent = st.sendView.passed.length := by
    rw [sendView, List.length_take, min_eq_left h.sent_le]
  have ht : st.accepted.take st.sent ++ st.unsent.take n = st.accepted.take (st.sent + n) := by
    rw [hun, List.take_add]
  rw [View.advance_data_eq_some]
  refine ⟨hl, ?_⟩
  cases hs : st.finSent with
  | false =>
    refine Or.inl ⟨by simp [sendView, hr, hs], ?_⟩
    simp only [sendView, framed, hr, hs, Bool.false_eq_true, if_false, Bool.or_false, ht]
  | true =>
    have hfin : fin = true := by
      refine eq_true_of_ne_false fun hc => ?_
      rw [hf.of_not_fin hc] at hs
      cases hs
    have hn : n = 0 := by
      have hall := (h.finSent hs).2.1
      have hle := hf.le_length
      rw [hun, List.length_drop] at hle
      omega
    refine Or.inr ⟨by simp [sendView, hr, hs], by rw [hn, List.take_zero], hfin, ?_⟩
    simp only [sendView, framed, hr, Bool.false_eq_true, if_false, hn, hs, Bool.or_true, Nat.add_zero]

end Stream

section Builds

variable {F : List Frame} {limit : Nat} {b : List Frame} {f : Frame}

theorem Builds.framed (r : Bool) {n : Nat} {fin : Bool} {buf : List UInt8} {head : Nat}
    (h : Builds Y F Q limit (X, b)) (hget : X.get id = some st) (hr : st.resetSent = false)
    (hf : st.CanFrame n fin buf head) (hstr : st.sent + n ≤ st.sendMax)
    (hconn : X.connSent + n ≤ X.connSendMax)
    (hroom : recordLength X.version b + (streamFrameOverhead id.toNat st.sent n + n) ≤ limit) :
    Builds Y F Q limit
      ({ X with connSent := X.connSent + n }.set id (st.framed n fin buf head r),
        b ++ [appendStreamFrame id.toNat st.sent (st.unsent.take n) fin]) := by
  have hst := h.joined.sender.stream id st hget
  have hl : (st.unsent.take n).length = n := by rw [List.length_take, min_eq_left hf.le_length]
  let f := appendStreamFrame id.toNat st.sent (st.unsent.take n) fin
  have hd : dataLength [f] = n := by
    rw [dataLength_singleton]
    exact hl
  have hs : X.Sets ({ X with connSent := X.connSent + n }.set id (st.framed n fin buf head r)) id st
      (st.framed n fin buf head r) (dataLength [f]) 0 := by
    rw [hd]
    exact ⟨hget, rfl, rfl, rfl, rfl, st.ok_framed hst hr hf r, rfl⟩
  have hc : chunks id [f] = [.data st.sent (st.unsent.take n) fin] := by
    simp [chunks, Frame.chunk, f, appendStreamFrame]
  refine h.append rfl rfl ?_ (h.joined.sends [f] hs rfl ?_ ?_ (by rw [hd]; exact hconn)
    ⟨hstr, (h.joined.forth.credit.stream id st hget).2⟩ ?_ rfl ?_)
  · rw [length_appendStreamFrame, hl]
    exact hroom
  · rw [hc, View.after_singleton]
    exact st.advance_framed hst hr hf r
  · intro id' hid
    have hne : id.toNat ≠ id'.toNat := fun heq => hid (StreamID.toNat_inj.mp heq).symm
    simp [chunks, Frame.chunk, f, appendStreamFrame, hne]
  · intro f' hf'
    rw [List.mem_singleton.mp hf']
    exact ⟨rfl, id, rfl, Session.has_of_get hget⟩
  · intro f' hf'
    rw [List.mem_singleton.mp hf']
    rfl

theorem Builds.sendFrame {n : Nat} {fin : Bool} (h : Builds Y F Q limit (X, b)) (hget : X.get id = some st)
    (hr : st.resetSent = false) (hn : n ≤ st.unsent.length)
    (hfin : fin = true → st.finRequested = true ∧ n = st.unsent.length) (hnot : fin = false → st.finSent = false)
    (hs : st.sent + n ≤ st.sendMax) (hc : X.connSent + n ≤ X.connSendMax)
    (hroom : recordLength X.version b + (streamFrameOverhead id.toNat st.sent n + n) ≤ limit) :
    Builds Y F Q limit (X.sendFrame b id st n fin).1 := by
  obtain ⟨buf, head, hh, hd, heq⟩ := st.advanceSend_eq hn (h.joined.sender.stream id st hget).sendHead
  have hb (r : Bool) := Builds.framed r h hget hr ⟨hn, hh, hd, hfin, hnot⟩ hs
    hc hroom
  unfold Session.sendFrame
  rw [heq]
  cases fin with
  | true => exact (hb false).queues (Session.queues_maybeRemove (hb false).joined.sender id)
  | false =>
    simp only [Bool.false_eq_true, if_false]
    split_ifs
    · exact hb st.inReady
    · exact hb false

theorem turnSize_spec (limit used : Nat) (id : StreamID) (st : Stream) (h : st.sent ≤ st.sendMax)
    (hconn : X.connSent ≤ X.connSendMax) (hmin : Session.minFrame ≤ limit - used) :
    let n := X.turnSize limit used id st
    n ≤ st.unsent.length ∧ st.sent + n ≤ st.sendMax ∧ X.connSent + n ≤ X.connSendMax ∧
      used + (streamFrameOverhead id.toNat st.sent n + n) ≤ limit := by
  unfold Session.turnSize Session.minFrame at *
  simp only
  generalize hq : min (min st.unsent.length (min (st.sendMax - st.sent) (X.connSendMax - X.connSent)))
    streamQuantum = quantum
  have hquantum : quantum ≤ st.unsent.length ∧ quantum ≤ st.sendMax - st.sent ∧
      quantum ≤ X.connSendMax - X.connSent := by omega
  generalize hn : min quantum (limit - used - streamFrameOverhead id.toNat st.sent quantum) = n
  have hmono : streamFrameOverhead id.toNat st.sent n ≤ streamFrameOverhead id.toNat st.sent quantum :=
    streamFrameOverhead_mono (by omega)
  have hle := streamFrameOverhead_le id.toNat st.sent n
  -- A frame without data has room, and one with data was cut to the room.
  refine ⟨by omega, by omega, by omega, ?_⟩
  rcases Nat.eq_zero_or_pos n with hzero | hpos
  · omega
  · omega

theorem Builds.sendTurn (h : Builds Y F Q limit (X, b)) (id : StreamID)
    (hmin : Session.minFrame ≤ limit - recordLength X.version b) :
    Builds Y F Q limit (Session.sendTurn limit id (X, b)).1 := by
  unfold Session.sendTurn
  simp only
  cases hget : X.get id with
  | none => exact h
  | some st =>
    have hst := h.joined.sender.stream id st hget
    have hi : Builds Y F Q limit (X.set id { st with inReady := false }, b) :=
      h.queues (Session.queues_set h.joined.sender hget (st.evolves_inReady hst false))
    obtain ⟨hn, hs, hc, hro⟩ := turnSize_spec (X := X) limit (recordLength X.version b) id st
      (h.joined.forth.credit.stream id st hget).1 h.joined.forth.credit.connSent hmin
    simp only
    generalize X.turnSize limit (recordLength X.version b) id st = n at *
    by_cases hg : st.resetSent = true
    · rw [if_pos hg]
      exact hi
    · have hr := Bool.eq_false_iff.mpr hg
      rw [if_neg hg]
      split_ifs with hzero hpending
      · exact hi
      · exact h
      · refine h.sendFrame hget hr hn ?_ ?_ hs hc hro
        · intro hfin
          simpa using hfin
        · intro hfin
          -- After its FIN a stream has nothing left, so that it can only repeat it.
          refine eq_false_of_ne_true fun hse => ?_
          obtain ⟨hreq, hall, -⟩ := hst.finSent hse
          have hl : st.unsent.length = 0 := by
            rw [hst.unsent hr, List.length_drop]
            omega
          have hz' : n = 0 := by omega
          simp [hreq, hl, hz'] at hfin

theorem Builds.sendReady (r : List StreamID) {b : Session.Building} (h : Builds Y F Q limit b) :
    Builds Y F Q limit (Session.sendReady limit r b).1 := by
  induction r generalizing b with
  | nil => exact h
  | cons id r ih =>
    unfold Session.sendReady
    split_ifs with hf
    · exact h
    · have ht := h.sendTurn id (Nat.not_lt.mp hf)
      have hr := ih ht
      simp only
      cases (Session.sendTurn limit id b).2 <;> exact hr

theorem Builds.appendStreamData {b : Session.Building} (h : Builds Y F Q limit b) :
    Builds Y F Q limit (Session.appendStreamData limit b).1 :=
  (h.sendReady b.1.ready).queues (Session.queues_of_streams (h.sendReady b.1.ready).joined.sender rfl rfl
    le_rfl le_rfl rfl)

end Builds

theorem Joined.buildRecord {F : List Frame} (h : Joined X Y (F ++ X.control) Q) :
    Joined X.buildRecord.1 Y (F ++ X.buildRecord.2.1 ++ X.buildRecord.1.control) Q ∧
      recordLength X.version X.buildRecord.2.1 ≤ X.recordLimit := by
  obtain ⟨hta, hf⟩ := takeControl_spec X.version X.recordLimit [] X.control (Nat.zero_le _)
  have ha : X.mode ≠ .modeAbort := by
    rw [h.sender.isOpen.2]
    decide
  have hq : X.mode ≠ .modeQuiet := by
    rw [h.sender.isOpen.2]
    decide
  unfold Session.buildRecord
  simp only [if_neg ha, if_neg hq]
  generalize Session.takeControl X.version X.recordLimit [] X.control = taken at *
  obtain ⟨b, control⟩ := taken
  simp only [List.nil_append] at hta hf ⊢
  have ht : Joined { X with control := control } Y (F ++ b ++ control) Q := by
    rw [List.append_assoc, hta]
    have hev : X.Evolves { X with control := control } := .of_streams h.sender rfl rfl le_rfl le_rfl
    exact h.evolves_nil hev
  by_cases hl : control = []
  · subst hl
    rw [List.append_nil] at ht
    have hb : Builds Y F Q X.recordLimit ({ X with control := [] }, b) := ⟨ht, rfl, hf⟩
    have hall := hb.appendFlowControl.appendStreamData
    rw [if_neg (not_not.mpr rfl)]
    generalize Session.appendStreamData X.recordLimit
      (Session.appendFlowControl X.recordLimit ({ X with control := [] }, b)) = done at *
    obtain ⟨⟨s, b'⟩, full⟩ := done
    have ho : s.mode = .modeOpen := hall.joined.sender.isOpen.2
    have hver : s.version = X.version := hall.joined.forth.version.symm.trans h.forth.version
    have hcon : s.control = [] := hall.control
    simp only [ho, or_true, if_true]
    refine ⟨?_, hver ▸ hall.fits⟩
    rw [hcon, List.append_nil]
    exact hall.joined
  · rw [if_pos hl]
    exact ⟨ht, hf⟩

/-! ## Records parse back -/

/-- The frame is one that a session appends. -/
def Frame.isAppended : Frame → Prop
  | .stream typ _ offset _ fin => typ = streamFrameType offset fin
  | .resetStream .. | .stopSending .. | .maxData _ | .maxStreamData .. | .maxStreamsBidi _ | .ping _ | .pingResponse _
  | .connectionClose .. | .applicationClose .. | .transportParameters _ => True
  | _ => False

def Frame.fieldsInRange (f : Frame) : Prop :=
  (∀ n ∈ f.fields, n ≤ maxValue) ∧
    match f with
    | .stream _ _ offset data _ => offset + data.length ≤ maxValue
    | _ => True

/-- `next`, until the end of the buffer. -/
def FrameParser.all (v : Version) : Nat → List UInt8 → Except TransportError (List Frame)
  | _, [] => .ok []
  | 0, _ => .error (truncated 0)
  | rounds + 1, buf => do
    let (f, rest) ← FrameParser.next v buf
    return f :: (← all v rounds rest)

theorem Frame.written_of_appended {f : Frame} (ha : f.isAppended) (hf : f.fieldsInRange) : f.Written := by
  cases f with
  | stream typ streamID offset data fin => exact ⟨ha, hf.2⟩
  | _ => trivial

theorem Frame.exists_encode (v : Version) {f : Frame} (ha : f.isAppended) (hf : f.fieldsInRange) :
    ∃ wire, f.encode v = some wire := by
  have ht : f.typ v ≤ maxValue := by
    cases f with
    | stream typ streamID o data fin =>
      obtain rfl : typ = streamFrameType o fin := ha
      change streamFrameType o fin ≤ maxValue
      unfold streamFrameType
      split_ifs <;> decide
    | transportParameters params => exact v.transportParametersType_fresh.2
    | ping se => exact v.pingType_fresh.2.1
    | pingResponse se => exact v.pingResponseType_fresh.2.1
    | _ => exact Nat.le_of_ble_eq_true rfl
  obtain ⟨bytes, hb⟩ := exists_encodeAll (List.forall_mem_cons.mpr ⟨ht, hf.1⟩)
  exact ⟨_, by rw [Frame.encode, hb]; rfl⟩

theorem FrameParser.all_encodeRecord (v : Version) {frames : List Frame} (ha : ∀ f ∈ frames, f.isAppended)
    (hf : ∀ f ∈ frames, f.fieldsInRange) :
    ∃ wire, encodeRecord v frames = some wire ∧
      ∀ rs, wire.length ≤ rs → FrameParser.all v rs wire = .ok frames := by
  induction frames with
  | nil =>
    refine ⟨[], rfl, fun rs _ => ?_⟩
    cases rs <;> rfl
  | cons f frames ih =>
    obtain ⟨ha₁, ha⟩ := List.forall_mem_cons.mp ha
    obtain ⟨hf₁, hf⟩ := List.forall_mem_cons.mp hf
    obtain ⟨head, hh⟩ := Frame.exists_encode v ha₁ hf₁
    obtain ⟨tail, ht, hrest⟩ := ih ha hf
    refine ⟨head ++ tail, encodeRecord_cons_eq_some.mpr ⟨head, tail, hh, ht, rfl⟩, fun rs hr => ?_⟩
    have hlen := Frame.length_of_encode hh
    have hpos := f.length_pos v
    rw [List.length_append] at hr
    obtain ⟨n, rfl⟩ : ∃ n, rs = n + 1 := ⟨rs - 1, by omega⟩
    have hne : head ++ tail ≠ [] := by
      intro hnil
      rw [(List.append_eq_nil_iff.mp hnil).1, List.length_nil] at hlen
      omega
    rw [FrameParser.all.eq_3 v _ n hne, FrameParser.next_reads (Frame.written_of_appended ha₁ hf₁) hh tail]
    simp [hrest n (by omega), Bind.bind, Except.bind, Pure.pure, Except.pure]

structure ParsesBack (v : Version) (frames : List Frame) : Prop where
  record : ∃ wire, encodeRecord v frames = some wire ∧ FrameParser.all v wire.length wire = .ok frames
  overhead : ∀ streamID offset data fin wire, (appendStreamFrame streamID offset data fin).encode v = some wire →
    streamFrameOverhead streamID offset data.length = wire.length - data.length
  -- A turn sends no byte beyond the credit, and a peer grants none beyond the last offset.
  credit : ∀ (s : Session) limit used id (st : Stream), st.sent ≤ st.sendMax → s.connSent ≤ s.connSendMax →
    Session.minFrame ≤ limit - used → st.sendMax ≤ maxValue →
    ∀ fin, (appendStreamFrame id.toNat st.sent (st.unsent.take (s.turnSize limit used id st)) fin).Written

theorem frames_parse_back (v : Version) {frames : List Frame} (ha : ∀ f ∈ frames, f.isAppended)
    (hf : ∀ f ∈ frames, f.fieldsInRange) : ParsesBack v frames where
  record := by
    obtain ⟨wire, hwire, hall⟩ := FrameParser.all_encodeRecord v ha hf
    exact ⟨wire, hwire, hall _ le_rfl⟩
  overhead streamID offset data fin wire h := by
    rw [Frame.length_of_encode h, length_appendStreamFrame]
    omega
  credit s limit used id st hsent hconn hmin hmax fin := by
    obtain ⟨hn, hs, -⟩ := turnSize_spec (X := s) limit used id st hsent hconn hmin
    refine ⟨rfl, ?_⟩
    rw [List.length_take]
    omega

theorem frames_parse_back_largest :
    ParsesBack draft02 [.maxData maxValue, appendStreamFrame 4 (maxValue - 1) [7] true, .ping maxValue] :=
  frames_parse_back draft02 (by simp [Frame.isAppended, appendStreamFrame])
    (by simp [Frame.fieldsInRange, Frame.fields, appendStreamFrame, maxValue])

end TrevRpc.Go.Qmux
