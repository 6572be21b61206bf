import TrevRpc.Go.Qmux.Sending

/-! # What a QMux session does with the frames of its peer -/

open TrevRpc.Varint TrevRpc.Pipe

namespace TrevRpc.Go.Qmux

variable {X Y Y' : Session} {P Q : List Frame} {f : Frame} {id : StreamID} {st : Stream}

def Handles (X Y : Session) (P Q : List Frame) (result : Session.Handled) : Prop :=
  ∃ Y' fs, result = (Y', none) ∧ Y'.control = Y.control ++ fs ∧ Joined X Y' P (Q ++ fs)

theorem Handles.of_joined (h : Joined X Y' P Q) (hcontrol : Y'.control = Y.control) : Handles X Y P Q (Y', none) :=
  ⟨Y', [], rfl, by rw [hcontrol, List.append_nil], by rw [List.append_nil]; exact h⟩

theorem Handles.of_queues {Y₁ : Session} (h : Joined X Y₁ P Q) (hcontrol : Y₁.control = Y.control)
    (hq : Y₁.Queues Y' []) : Handles X Y P Q (Y', none) :=
  .of_joined (h.symm.queues_nil hq).symm (by rw [hq.control, List.append_nil, hcontrol])

theorem Link.paramsReceived (h : Link X Y (f :: P)) (hf : f.isParameters = false) : Y.paramsReceived = true := by
  refine eq_true_of_ne_false fun hpar => ?_
  obtain ⟨-, -, -, body, rest, hP, -⟩ := h.handshake.pending hpar
  rw [List.cons_eq_cons] at hP
  rw [hP.1] at hf
  cases hf

theorem Joined.skip (h : Joined X Y (f :: P) Q) (hparams : f.isParameters = false)
    (hd : ∀ id, (Y.recvView id).after (chunks id [f]) = some (Y.recvView id))
    (hlen : f.dataLength = 0) : Joined X Y P Q where
  __ := h
  forth := by
    refine Link.receiver [f] h.forth (.refl Y) h.forth.known hd ?_ (Pings.tail [f] h.forth.pings rfl rfl)
      (Handshake.tail [f] h.forth.handshake (h.forth.paramsReceived hparams) rfl rfl)
    rw [dataLength_singleton, hlen]
    rfl

theorem Joined.skip_silent (h : Joined X Y (f :: P) Q) (hf : f.Silent) : Joined X Y P Q := by
  refine h.skip hf.isParameters (fun id => ?_) hf.dataLength
  rw [chunks_silent id (fun f' hf' => by rw [List.mem_singleton.mp hf']; exact hf)]
  rfl

/-! ## Frames of the connection -/

theorem Link.sender_credit (h : Link Y X Q) (hg : Grows Y Y') (hs : Y'.streams = Y.streams)
    (hsent : Y'.connSent = Y.connSent) (hc : Credit Y' X) : Link Y' X Q := by
  have hl := h.sender [] hg (fun f hf => absurd hf List.not_mem_nil) ?_ hsent hc
    (h.pings.silent hg.pingSent rfl) (fun f hf => absurd hf List.not_mem_nil)
  · rwa [List.append_nil] at hl
  · intro id
    unfold Session.sendView Session.get
    rw [hs]
    rfl

theorem Joined.handleParameters {body : List UInt8} (h : Joined X Y (.transportParameters body :: P) Q)
    (hs : X.maxRemote ≤ maxStreamsLimit) : Handles X Y P Q (Y.handleParameters body) := by
  have hp : Y.paramsReceived = false := by
    refine eq_false_of_ne_true fun hpar => ?_
    cases (h.forth.handshake.done hpar).2 _ List.mem_cons_self
  obtain ⟨-, hmax, hc, body', rest, hP, hr⟩ := h.forth.handshake.pending hp
  obtain ⟨-, rfl⟩ := List.cons_eq_cons.mp hP
  have hb : appendTransportParameters X.version X.localParams = some (.transportParameters body) :=
    h.forth.sound _ List.mem_cons_self
  have hd := decodeParameters_written hb h.sender.recordSize (h.sender.initialMaxStreams.trans hs)
  rw [← h.forth.version] at hd
  unfold Session.handleParameters
  simp only [hp, Bool.false_eq_true, if_false, hd]
  refine Handles.of_joined ⟨?_, ?_, h.sender, { h.receiver with }⟩ rfl
  · refine Link.receiver [_] h.forth { Grows.refl Y with } h.forth.known (fun _ => rfl) rfl
      (Pings.tail [_] h.forth.pings rfl rfl) ⟨fun _ => ⟨rfl, hr⟩, ?_⟩
    intro hf
    cases hf
  · have hop := h.back.credit.opened
    have hse := h.back.credit.connSent
    refine h.back.sender_credit { Grows.refl Y with } rfl rfl ⟨?_, h.sender.initialMaxStreams, ?_,
      h.sender.initialMaxData, h.back.credit.stream⟩
    · exact (hop.trans hmax.le).trans (Nat.zero_le _)
    · exact (hse.trans hc.le).trans (Nat.zero_le _)

theorem Joined.handlePing {sequence : Nat} (h : Joined X Y (.ping sequence :: P) Q) :
    Handles X Y P Q (Y.handlePing sequence) := by
  have hs := List.pairwise_cons.mp h.forth.pings.sorted
  have hf : ¬ (Y.receivedPing = true ∧ sequence ≤ Y.pingReceived) := by
    rintro ⟨hrec, hle⟩
    have hlt := h.forth.pings.fresh hrec sequence List.mem_cons_self
    omega
  unfold Session.handlePing
  rw [if_neg hf]
  refine Handles.of_joined ⟨?_, ?_, h.sender, { h.receiver with }⟩ rfl
  · exact Link.receiver [_] h.forth { Grows.refl Y with } h.forth.known (fun _ => rfl) rfl
      ⟨hs.2, fun _ => hs.1, h.forth.sound _ List.mem_cons_self⟩
      (Handshake.tail [_] h.forth.handshake (h.forth.paramsReceived rfl) rfl rfl)
  · exact h.back.sender_credit { Grows.refl Y with } rfl rfl { h.back.credit with }

theorem Joined.handlePingResponse {sequence : Nat} (h : Joined X Y (.pingResponse sequence :: P) Q) :
    Handles X Y P Q (Y.handlePingResponse sequence) := by
  have hle : sequence ≤ Y.pingSent := h.forth.sound _ List.mem_cons_self
  unfold Session.handlePingResponse
  rw [if_neg (Nat.not_lt.mpr hle)]
  exact Handles.of_joined (h.skip_silent ⟨fun _ => rfl, rfl, rfl, rfl⟩) rfl

theorem Joined.raise (h : Joined X Y P Q) (hd : Y.paramsReceived = true)
    {maxLocal connSendMax : Nat} (hl : Y.maxLocal ≤ maxLocal ∧ maxLocal ≤ X.maxRemote)
    (hc : Y.connSendMax ≤ connSendMax ∧ connSendMax ≤ X.connRecvMax) (wake : Bool) :
    Joined X { Y with maxLocal := maxLocal, connSendMax := connSendMax, wake := wake } P Q where
  forth := Link.receiver [] h.forth { Grows.refl Y with } h.forth.known (fun _ => rfl) rfl
    (Pings.tail [] h.forth.pings rfl rfl) (Handshake.tail [] h.forth.handshake hd rfl rfl)
  back := h.back.sender_credit { Grows.refl Y with } rfl rfl
    ⟨h.back.credit.opened.trans hl.1, hl.2, h.back.credit.connSent.trans hc.1, hc.2,
      h.back.credit.stream⟩
  sender := h.sender
  receiver := { h.receiver with }

theorem Joined.handleMaxData {m : Nat} (h : Joined X Y (.maxData m :: P) Q) :
    Handles X Y P Q (Y.handleFrame (.maxData m)) := by
  have hd := h.forth.paramsReceived rfl
  have hmax : m ≤ X.connRecvMax := h.forth.sound _ List.mem_cons_self
  have hs := h.skip_silent ⟨fun _ => rfl, rfl, rfl, rfl⟩
  unfold Session.handleFrame
  simp only
  split_ifs with hlow
  · exact Handles.of_joined (hs.raise hd ⟨le_rfl, h.back.credit.maxLocal⟩ ⟨hlow.le, hmax⟩ true) rfl
  · exact Handles.of_joined hs rfl

theorem Joined.handleMaxStreams {m : Nat} (h : Joined X Y (.maxStreamsBidi m :: P) Q)
    (hstreams : X.maxRemote ≤ maxStreamsLimit) :
    Handles X Y P Q (Y.handleFrame (.maxStreamsBidi m)) := by
  have hd := h.forth.paramsReceived rfl
  have hmax : m ≤ X.maxRemote := h.forth.sound _ List.mem_cons_self
  have hs := h.skip_silent ⟨fun _ => rfl, rfl, rfl, rfl⟩
  unfold Session.handleFrame Session.checkStreams
  simp only
  rw [if_neg (by omega)]
  split_ifs with hlow
  · exact Handles.of_joined (hs.raise hd ⟨hlow.le, hmax⟩ ⟨le_rfl, h.back.credit.connSendMax⟩ Y.wake) rfl
  · exact Handles.of_joined hs rfl

/-! ## Frames of a stream -/

theorem Joined.openRemote (h : Joined X Y (f :: P) Q) (hf : f.isParameters = false) (hid : id.opener = X.role)
    (hhas : X.has id) (hnew : Y.openedRemote ≤ id.num) :
    (Y.openRemote id.num).has id ∧ Joined X (Y.openRemote id.num) (f :: P) Q := by
  have ho : Y.role.other = X.role := by rw [h.forth.role, Role.other_other]
  have he := Y.extends_openRemote id.num
  have hlen : ((Y.openRemote id.num).streams X.role).length = id.num + 1 := by
    unfold Session.openRemote Session.openedRemote at *
    rw [← ho]
    simp only [Function.update_self, List.length_append, List.length_replicate]
    omega
  refine ⟨by rw [Session.has, hid, hlen]; exact Nat.lt_succ_self _, ?_, ?_, h.sender, he.ok h.receiver⟩
  · refine h.forth.extend_receiver he ?_
    rw [hlen]
    unfold Session.has at hhas
    rw [hid] at hhas
    exact hhas
  · refine h.back.extend_sender he ?_ ?_
    · have hr : (Y.openRemote id.num).role = Y.role := rfl
      rw [Session.openedLocal, hr, he.length_of_ne Y.role (Role.other_ne _).symm]
      exact h.back.credit.opened
    · intro id' hid'
      rw [(h.forth.handshake.done (h.forth.paramsReceived hf)).1]
      exact recvLimit_ge_of_local h.sender (hid'.trans ho)

theorem Joined.stream (h : Joined X Y (f :: P) Q) (hf : f.isParameters = false) (hhas : X.has id)
    (frameType : Nat) :
    ∃ Y', Y.stream id.toNat frameType = .ok (Y', id) ∧ Y'.control = Y.control ∧ Y'.has id ∧
      Joined X Y' (f :: P) Q := by
  have ho : Y.role.other = X.role := by rw [h.forth.role, Role.other_other]
  unfold Session.stream
  simp only [StreamID.ofNat_toNat, if_neg id.toNat_bidirectional]
  by_cases hl : id.opener = Y.role
  · have hop : id.num < Y.openedLocal := by
      have hk := h.back.known
      unfold Session.has at hhas
      rw [hl] at hhas
      exact hhas.trans_le hk
    refine ⟨Y, ?_, rfl, by rw [Session.has, hl]; exact hop, h⟩
    rw [if_pos (by simpa [Session.isLocal] using hl), if_neg (Nat.not_le.mpr hop)]
  · have hr : id.opener = X.role := by
      rcases Role.eq_or_eq_other Y.role id.opener with heq | heq
      · exact absurd heq hl
      · exact heq.trans ho
    have hli : id.num < Y.maxRemote := by
      have hop := h.forth.credit.opened.trans h.forth.credit.maxLocal
      unfold Session.has at hhas
      rw [hr] at hhas
      exact hhas.trans_le hop
    rw [if_neg (by simpa [Session.isLocal] using hl)]
    by_cases hk : id.num < Y.openedRemote
    · refine ⟨Y, if_pos hk, rfl, ?_, h⟩
      rw [Session.has, hr, ← ho]
      exact hk
    · obtain ⟨hhas', hj⟩ := h.openRemote hf hr hhas (Nat.not_lt.mp hk)
      exact ⟨Y.openRemote id.num, by rw [if_neg hk, if_neg (Nat.not_le.mpr hli)], rfl, hhas', hj⟩

theorem Joined.onStream (h : Joined X Y (f :: P) Q) (hf : f.isParameters = false) (hhas : X.has id)
    (frameType : Nat) {handle : Session → StreamID → Stream → Session.Handled}
    (hremoved : ∀ Y' st, Joined X Y' (f :: P) Q → Y'.get id = some st → st.removed = true → Joined X Y' P Q)
    (hl : ∀ Y' st, Joined X Y' (f :: P) Q → Y'.get id = some st → st.removed = false →
      Handles X Y' P Q (handle Y' id st)) :
    Handles X Y P Q (Y.onStream id.toNat frameType handle) := by
  obtain ⟨Y', hs, hcon, hhas', h'⟩ := h.stream hf hhas frameType
  obtain ⟨st, hget⟩ := Session.exists_get_of_has hhas'
  unfold Session.onStream Session.live
  simp only [hs, hget, Option.filter_some]
  cases hst : st.removed with
  | true => exact Handles.of_joined (hremoved Y' st h' hget hst) hcon
  | false =>
    obtain ⟨Y'', fs, hr, hc', hj⟩ := hl Y' st h' hget hst
    exact ⟨Y'', fs, hr, by rw [hc', hcon], hj⟩

theorem Joined.handleStopSending {errorCode : Nat} (h : Joined X Y (.stopSending id.toNat errorCode :: P) Q)
    (hhas : X.has id) : Handles X Y P Q (Y.handleFrame (.stopSending id.toNat errorCode)) := by
  have hsil : (Frame.stopSending id.toNat errorCode).Silent := ⟨fun _ => rfl, rfl, rfl, rfl⟩
  refine h.onStream rfl hhas _ (fun Y' st h' _ _ => h'.skip_silent hsil) ?_
  intro Y' st h' hget _
  unfold Session.handleStopSending
  cases hd : st.sendDone with
  | true => exact Handles.of_joined (h'.skip_silent hsil) rfl
  | false =>
    obtain ⟨fs, hcon, hj⟩ := (h'.skip_silent hsil).symm.resetSend hget hd
      (.cancelled ⟨id.toNat, errorCode, true⟩) errorCode
    exact ⟨_, fs, rfl, hcon, hj.symm⟩

theorem Joined.handleMaxStreamData {m : Nat} (h : Joined X Y (.maxStreamData id.toNat m :: P) Q)
    (hhas : X.has id) (hl : m ≤ X.recvLimit id) :
    Handles X Y P Q (Y.handleFrame (.maxStreamData id.toNat m)) := by
  have hsil : (Frame.maxStreamData id.toNat m).Silent := ⟨fun _ => rfl, rfl, rfl, rfl⟩
  refine h.onStream rfl hhas _ (fun Y' st h' _ _ => h'.skip_silent hsil) ?_
  intro Y' st h' hget _
  have hsk := h'.skip_silent hsil
  unfold Session.handleMaxStreamData
  split_ifs with hlow
  · have hst := hsk.receiver.stream id st hget
    have hc := (hsk.back.credit.stream id st hget).1
    have hs : Y'.Sets (Y'.set id { st with sendMax := m }) id st { st with sendMax := m }
        (dataLength []) 0 :=
      ⟨hget, rfl, rfl, rfl, rfl, { hst with }, rfl⟩
    have hr := hsk.symm.sends [] hs rfl rfl (fun _ _ => rfl) hsk.back.credit.connSent
      ⟨hc.trans hlow.le, hl⟩ (fun f hf => absurd hf List.not_mem_nil) rfl
      (fun f hf => absurd hf List.not_mem_nil)
    rw [List.append_nil] at hr
    exact Handles.of_queues hr.symm rfl (Session.queues_markReady hr.sender id)
  · exact Handles.of_joined hsk rfl

/-! ### Data -/

namespace Stream

variable {data : List UInt8} {fin : Bool} {u : View UInt8}

theorem of_running (h : st.recvView.ending = .running) : st.finReceived = false ∧ st.finalKnown = false := by
  unfold recvView at h
  cases hfin : st.finReceived <;> cases hk : st.finalKnown <;> simp_all

theorem of_finished (h : st.recvView.ending = .finished) : st.finReceived = true := by
  unfold recvView at h
  cases hfin : st.finReceived <;> cases hk : st.finalKnown <;> simp_all

theorem recvView_arrive (h : st.recvView.advance (.data st.received data fin) = some u) :
    (st.arrive (st.received + data.length) data fin).recvView = u := by
  obtain ⟨-, ⟨hrun, rfl⟩ | ⟨hf, rfl, rfl, rfl⟩⟩ := View.advance_data_eq_some.mp h
  · obtain ⟨hfin, hk⟩ := of_running hrun
    cases fin <;> simp [arrive, recvView, hfin, hk]
  · simp [arrive, recvView, of_finished hf]

theorem ok_arrive (h : st.Ok) (hl : st.removed = false)
    (hu : st.recvView.advance (.data st.received data fin) = some u) {buf : List UInt8} {head : Nat}
    (cap read : Nat) (hh : head ≤ buf.length)
    (hunread : st.readCancelled = false → st.resetReceived = none →
      st.returned ++ buf.drop head = st.arrived ++ data ∧ read = st.returned.length) :
    Ok { st.arrive (st.received + data.length) data fin with
      recvBuf := buf, recvCap := cap, recvHead := head, read := read } := by
  have hrec : st.received + data.length = (st.arrived ++ data).length := by
    rw [List.length_append, h.received]
  have hr : st.returned <+: st.arrived ++ data := h.returned.trans (List.prefix_append ..)
  cases fin with
  | true =>
    exact { h with
      recvHead := hh, received := hrec, final := fun _ => rfl, finReceived := fun _ => rfl
      discarded := fun _ hf => by cases hf
      returned := hr, unread := hunread
      removed := fun hrem => absurd (hl.symm.trans hrem) Bool.false_ne_true }
  | false =>
    obtain ⟨-, ⟨hrun, -⟩ | ⟨-, -, hf, -⟩⟩ := View.advance_data_eq_some.mp hu
    · have hk := (of_running hrun).2
      exact { h with
        recvHead := hh, received := hrec
        final := fun ht => nomatch hk.symm.trans ht
        returned := hr, unread := hunread
        removed := fun hrem => absurd (hl.symm.trans hrem) Bool.false_ne_true }
    · cases hf

end Stream

theorem Link.advance (h : Link X Y (f :: P)) (hget : Y.get id = some st) {c : Chunk UInt8}
    (hc : f.chunk id = some c) :
    ∃ u, st.recvView.advance c = some u ∧ u.after (chunks id P) = some (X.sendView id) := by
  have hd := h.data id
  rw [Session.recvView_of_get hget, chunks, List.filterMap_cons_some hc] at hd
  exact View.after_cons_eq_some.mp hd

theorem Link.passed_le (h : Link X Y P) (hhas : X.has id) {u : View UInt8} {cs : List (Chunk UInt8)}
    (hu : u.after cs = some (X.sendView id)) : u.passed.length ≤ Y.recvLimit id := by
  obtain ⟨st, hget⟩ := Session.exists_get_of_has hhas
  have hcred := h.credit.stream id st hget
  have hlen := (View.prefix_of_after hu).length_le
  rw [Session.sendView_of_get hget, Stream.sendView, List.length_take] at hlen
  omega

theorem Link.connReceived_le (h : Link X Y (f :: P)) : Y.connReceived + f.dataLength ≤ Y.connRecvMax := by
  have hc := h.conn
  rw [← List.singleton_append, dataLength_append, dataLength_singleton] at hc
  have hcred := h.credit.connSent.trans h.credit.connSendMax
  omega

section Data

variable {offset : Nat} {data : List UInt8} {fin : Bool} {typ : Nat}

theorem chunk_stream : (Frame.stream typ id.toNat offset data fin).chunk id = some (.data offset data fin) :=
  if_pos rfl

theorem chunk_stream_ne {id' : StreamID} (hid : id' ≠ id) :
    (Frame.stream typ id.toNat offset data fin).chunk id' = none :=
  if_neg fun heq => hid (StreamID.toNat_inj.mp heq).symm

theorem Joined.arrive (h : Joined X Y (.stream typ id.toNat st.received data fin :: P) Q)
    (hget : Y.get id = some st) (hl : st.removed = false) {buf : List UInt8} {head : Nat}
    (cap read : Nat) (hh : head ≤ buf.length)
    (hunread : st.readCancelled = false → st.resetReceived = none →
      st.returned ++ buf.drop head = st.arrived ++ data ∧ read = st.returned.length) :
    Joined X ({ Y with connReceived := Y.connReceived + data.length }.set id
      { st.arrive (st.received + data.length) data fin with
        recvBuf := buf, recvCap := cap, recvHead := head, read := read }) P Q := by
  obtain ⟨u, hu, -⟩ := h.forth.advance hget chunk_stream
  have hok := Stream.ok_arrive (h.receiver.stream id st hget) hl hu cap read hh hunread
  have hv := Stream.recvView_arrive hu
  refine h.receives ⟨hget, rfl, rfl, rfl, rfl, hok, ?_⟩ ?_ (fun _ hid => chunk_stream_ne hid) ?_
    (h.forth.paramsReceived rfl)
  · cases fin <;> rfl
  · rw [chunks, List.filterMap_cons_some chunk_stream, List.filterMap_nil, View.after_singleton, hu, ← hv]
    rfl
  · cases fin <;> exact ⟨rfl, rfl, rfl⟩

theorem Joined.receiveData (h : Joined X Y (.stream typ id.toNat offset data fin :: P) Q) (hhas : X.has id)
    (hget : Y.get id = some st) (hl : st.removed = false) :
    Handles X Y P Q (Session.handleStream typ id.toNat offset data fin Y id st) := by
  have hst := h.receiver.stream id st hget
  obtain ⟨u, hu, haf⟩ := h.forth.advance hget chunk_stream
  obtain ⟨ho, hca⟩ := View.advance_data_eq_some.mp hu
  obtain rfl : offset = st.received := ho.trans hst.received.symm
  -- The checks of the code, from the view of the sender.
  have hli : st.received + data.length ≤ st.recvMax := by
    have hle := h.forth.passed_le hhas haf
    rw [Session.recvLimit_of_get hget] at hle
    obtain ⟨-, rfl⟩ | ⟨-, rfl, -, rfl⟩ := hca
    · rw [List.length_append, ← ho] at hle
      exact hle
    · exact ho ▸ hle
  have hco : Y.connReceived + data.length ≤ Y.connRecvMax := h.forth.connReceived_le
  have hf : ¬ (st.finalKnown = true ∧ (st.finalSize < st.received + data.length ∨
      fin = true ∧ st.received + data.length ≠ st.finalSize)) := by
    rintro ⟨hk, hb⟩
    obtain ⟨hrun, -⟩ | ⟨-, rfl, -, -⟩ := hca
    · rw [(Stream.of_running hrun).2] at hk
      cases hk
    · have hsize := hst.final hk
      rw [List.length_nil] at hb
      omega
  unfold Session.handleStream
  simp only [if_neg hf, ne_eq, not_true_eq_false, if_false, if_neg (Nat.not_lt.mpr hli),
    if_neg (Nat.not_lt.mpr hco)]
  have hs : ((st.arrive (st.received + data.length) data fin).readCancelled ||
      (st.arrive (st.received + data.length) data fin).resetReceived.isSome) =
        (st.readCancelled || st.resetReceived.isSome) := by
    cases fin <;> rfl
  rw [hs]
  by_cases hd : (st.readCancelled || st.resetReceived.isSome) = true
  · rw [if_pos hd]
    have har := h.arrive hget hl st.recvCap (st.received + data.length) hst.recvHead ?_
    · have hbuf : ({ st.arrive (st.received + data.length) data fin with
          recvBuf := st.recvBuf, recvCap := st.recvCap, recvHead := st.recvHead
          read := st.received + data.length } : Stream) =
            { st.arrive (st.received + data.length) data fin with read := st.received + data.length } := by
        cases fin <;> rfl
      rw [hbuf] at har
      have hc := Session.queues_consumed har.receiver data.length
      exact Handles.of_queues har rfl
        (hc.then (Session.queues_maybeRemove (hc.evolves.ok har.receiver) id))
    · intro hcan hr
      simp [hcan, hr] at hd
  · rw [if_neg hd]
    have hh : (st.arrive (st.received + data.length) data fin).recvHead ≤
        (st.arrive (st.received + data.length) data fin).recvBuf.length := by
      cases fin <;> exact hst.recvHead
    obtain ⟨buf, cap, head, hle, hdr, heq⟩ := Stream.appendReceived_eq hh data
    have har := h.arrive hget hl cap st.read hle ?_
    · have hbuf : ({ st.arrive (st.received + data.length) data fin with
          recvBuf := buf, recvCap := cap, recvHead := head, read := st.read } : Stream) =
            (st.arrive (st.received + data.length) data fin).appendReceived data := by
        rw [heq]
        cases fin <;> rfl
      rw [hbuf] at har
      exact Handles.of_queues har rfl (Session.queues_maybeRemove har.receiver id)
    · intro hcan hr
      obtain ⟨ha, hre⟩ := hst.unread hcan hr
      have hun : (st.arrive (st.received + data.length) data fin).unread = st.unread := by
        cases fin <;> rfl
      refine ⟨?_, hre⟩
      rw [hdr, hun, ← List.append_assoc, ha]

theorem Joined.handleStream (h : Joined X Y (.stream typ id.toNat offset data fin :: P) Q)
    (hhas : X.has id) : Handles X Y P Q (Y.handleFrame (.stream typ id.toNat offset data fin)) := by
  refine h.onStream rfl hhas _ ?_ fun Y' st h' hget hl => h'.receiveData hhas hget hl
  -- A stream that has completed has its FIN, so that this can only be another.
  intro Y' st h' hget hrem
  obtain ⟨u, hu, -⟩ := h'.forth.advance hget chunk_stream
  have hd := ((h'.receiver.stream id st hget).removed hrem).2
  simp only [Stream.recvDone, Bool.and_eq_true] at hd
  obtain ⟨-, ⟨hrun, -⟩ | ⟨-, rfl, -, rfl⟩⟩ := View.advance_data_eq_some.mp hu
  · have hk := (Stream.of_running hrun).2
    rw [hd.1] at hk
    cases hk
  · refine h'.skip rfl (fun id' => ?_) rfl
    by_cases hid : id' = id
    · rw [hid, Session.recvView_of_get hget, chunks, List.filterMap_cons_some chunk_stream,
        List.filterMap_nil, View.after_singleton, hu]
    · rw [chunks, List.filterMap_cons_none (chunk_stream_ne hid)]
      rfl

end Data

/-! ### Resets -/

theorem Stream.ok_reset (h : st.Ok) (hl : st.removed = false)
    {reset : Option StreamError} (hr : st.readCancelled = true ∨ reset.isSome = true) {buf : List UInt8}
    {head : Nat} (read : Nat) (hh : head ≤ buf.length) :
    Ok { st with
      finalKnown := true, finalSize := st.received, resetReceived := reset, read := read, recvBuf := buf
      recvHead := head } := by
  refine { h with
    recvHead := hh, final := fun _ => rfl, finReceived := fun _ => rfl, discarded := fun _ _ => hr
    unread := ?_, removed := fun hrem => absurd (hl.symm.trans hrem) Bool.false_ne_true }
  intro hcan hn
  rcases hr with hr | hr
  · exact nomatch hcan.symm.trans hr
  · rw [show reset = none from hn] at hr
    cases hr

section Resets

variable {errorCode finalSize : Nat}

theorem chunk_resetStream : (Frame.resetStream id.toNat errorCode finalSize).chunk id = some (.reset finalSize) :=
  if_pos rfl

theorem chunk_resetStream_ne {id' : StreamID} (hid : id' ≠ id) :
    (Frame.resetStream id.toNat errorCode finalSize).chunk id' = none :=
  if_neg fun heq => hid (StreamID.toNat_inj.mp heq).symm

theorem Joined.reset (h : Joined X Y (.resetStream id.toNat errorCode st.received :: P) Q)
    (hget : Y.get id = some st) (hl : st.removed = false) {reset : Option StreamError}
    (hr : st.readCancelled = true ∨ reset.isSome = true) {buf : List UInt8} {head : Nat} (read : Nat)
    (hh : head ≤ buf.length) :
    Joined X (Y.set id { st with
      finalKnown := true, finalSize := st.received, resetReceived := reset, read := read, recvBuf := buf
      recvHead := head }) P Q := by
  obtain ⟨u, hu, -⟩ := h.forth.advance hget chunk_resetStream
  obtain ⟨hrun, -, rfl⟩ := View.advance_reset_eq_some.mp hu
  have hfin := (Stream.of_running hrun).1
  have hok := Stream.ok_reset (h.receiver.stream id st hget) hl hr read hh
  refine h.receives ⟨hget, rfl, rfl, rfl, rfl, hok, rfl⟩ ?_ (fun _ hid => chunk_resetStream_ne hid)
    ⟨rfl, rfl, rfl⟩ (h.forth.paramsReceived rfl)
  rw [chunks, List.filterMap_cons_some chunk_resetStream, List.filterMap_nil, View.after_singleton, hu]
  simp [Stream.recvView, hfin]

theorem Joined.receiveReset (h : Joined X Y (.resetStream id.toNat errorCode finalSize :: P) Q)
    (hhas : X.has id) (hget : Y.get id = some st) (hl : st.removed = false) :
    Handles X Y P Q (Session.handleResetStream id.toNat errorCode finalSize Y id st) := by
  have hst := h.receiver.stream id st hget
  obtain ⟨u, hu, ha⟩ := h.forth.advance hget chunk_resetStream
  obtain ⟨hrun, hs, rfl⟩ := View.advance_reset_eq_some.mp hu
  obtain ⟨hfin, hk⟩ := Stream.of_running hrun
  obtain rfl : finalSize = st.received := hs.trans hst.received.symm
  have hli : st.received ≤ st.recvMax := by
    have hle := h.forth.passed_le hhas ha
    rw [Session.recvLimit_of_get hget] at hle
    exact hs ▸ hle
  have hco : Y.connReceived ≤ Y.connRecvMax := h.forth.connReceived_le
  have hf : ¬ (st.finReceived = true ∧ st.received = st.finalSize) := by simp [hfin]
  have hsa : ¬ (st.finalKnown = true ∧ st.received ≠ st.finalSize ∨ st.received < st.received) := by
    simp [hk]
  unfold Session.handleResetStream
  simp only [if_neg hf, if_neg hsa, if_neg (Nat.not_lt.mpr hli), Nat.sub_self, Nat.add_zero,
    if_neg (Nat.not_lt.mpr hco)]
  obtain ⟨reset, hr, heq⟩ := st.endByReset_eq st.received ⟨id.toNat, errorCode, true⟩
  rw [heq]
  split_ifs
  · have hj := h.reset hget hl hr st.received (Nat.zero_le ([] : List UInt8).length)
    rw [Session.set_consumed]
    have hc := Session.queues_consumed hj.receiver (st.received - st.read)
    exact Handles.of_queues hj rfl
      (hc.then (Session.queues_maybeRemove (hc.evolves.ok hj.receiver) id))
  · have hj := h.reset hget hl hr st.read hst.recvHead
    exact Handles.of_queues hj rfl (Session.queues_maybeRemove hj.receiver id)

theorem Joined.handleResetStream (h : Joined X Y (.resetStream id.toNat errorCode finalSize :: P) Q)
    (hhas : X.has id) : Handles X Y P Q (Y.handleFrame (.resetStream id.toNat errorCode finalSize)) := by
  refine h.onStream rfl hhas _ ?_ fun Y' st h' hget hl => h'.receiveReset hhas hget hl
  -- A stream that has completed has ended, and is not reset after that.
  intro Y' st h' hget hrem
  obtain ⟨u, hu, -⟩ := h'.forth.advance hget chunk_resetStream
  have hd := ((h'.receiver.stream id st hget).removed hrem).2
  simp only [Stream.recvDone, Bool.and_eq_true] at hd
  have hk := (Stream.of_running (View.advance_reset_eq_some.mp hu).1).2
  rw [hd.1] at hk
  cases hk

end Resets

/-! ## Records -/

def Session.InRange (s : Session) : Prop :=
  (s.connSendMax ≤ maxValue ∧ s.connRecvMax ≤ maxValue) ∧
    (s.maxLocal ≤ maxStreamsLimit ∧ s.maxRemote ≤ maxStreamsLimit) ∧
      ∀ st ∈ s.streams .client ++ s.streams .server, st.sendMax ≤ maxValue ∧ st.recvMax ≤ maxValue

instance (s : Session) : Decidable s.InRange := inferInstanceAs (Decidable (_ ∧ _))

theorem Session.InRange.sendMax {s : Session} (h : s.InRange) (hget : s.get id = some st) : st.sendMax ≤ maxValue := by
  have hmem : st ∈ s.streams id.opener := List.mem_of_getElem? hget
  refine (h.2.2 st (List.mem_append.mpr ?_)).1
  cases hr : id.opener with
  | client => exact .inl (hr ▸ hmem)
  | server => exact .inr (hr ▸ hmem)

theorem Joined.handleFrame (h : Joined X Y (f :: P) Q) (hr : X.InRange) : Handles X Y P Q (Y.handleFrame f) := by
  have hs := h.forth.sound f List.mem_cons_self
  cases f with
  | stream =>
    obtain ⟨-, id, rfl, hhas⟩ := hs
    exact h.handleStream hhas
  | resetStream =>
    obtain ⟨id, rfl, hhas⟩ := hs
    exact h.handleResetStream hhas
  | stopSending =>
    obtain ⟨id, rfl, hhas⟩ := hs
    exact h.handleStopSending hhas
  | maxStreamData =>
    obtain ⟨id, rfl, hhas, hle⟩ := hs
    exact h.handleMaxStreamData hhas hle
  | maxData => exact h.handleMaxData
  | maxStreamsBidi => exact h.handleMaxStreams hr.2.1.2
  | transportParameters => exact h.handleParameters hr.2.1.2
  | ping => exact h.handlePing
  | pingResponse => exact h.handlePingResponse
  | _ => exact hs.elim

theorem Link.written (h : Link X Y (f :: P)) (hr : X.InRange) : f.Written := by
  have hso := h.sound f List.mem_cons_self
  cases f with
  | stream typ streamID offset data fin =>
    obtain ⟨htyp, id, rfl, hhas⟩ := hso
    obtain ⟨st, hget⟩ := Session.exists_get_of_has hhas
    have hd := h.data id
    rw [chunks, List.filterMap_cons_some chunk_stream] at hd
    obtain ⟨u, hu, ha⟩ := View.after_cons_eq_some.mp hd
    have hs := (View.prefix_of_after ha).length_le
    rw [Session.sendView_of_get hget, Stream.sendView, List.length_take] at hs
    have hcred := (h.credit.stream id st hget).1
    have hmax := hr.sendMax hget
    refine ⟨htyp, ?_⟩
    obtain ⟨rfl, ⟨-, rfl⟩ | ⟨-, rfl, -, rfl⟩⟩ := View.advance_data_eq_some.mp hu
    · rw [List.length_append] at hs
      omega
    · rw [List.length_nil]
      omega
  | _ => trivial

theorem Session.handleFrames_cons {s s' : Session} {buf rest : List UInt8} {rounds : Nat} (hbuf : buf ≠ [])
    (hparse : FrameParser.next s.version buf = .ok (f, rest))
    (hf : s.paramsReceived = true ∨ f.isParameters = true) (hframe : s.handleFrame f = (s', none))
    (ho : s'.closeErr = none) : s.handleFrames (rounds + 1) buf = s'.handleFrames rounds rest := by
  have hpar : ¬ ((!s.paramsReceived) = true ∧ f.typ s.version ≠ s.version.transportParametersType) := by
    rintro ⟨hp, htyp⟩
    rcases hf with hf | hf
    · rw [hf] at hp
      cases hp
    · cases f <;> simp_all [Frame.isParameters, Frame.typ]
  rw [handleFrames.eq_3 s buf rounds hbuf, hparse]
  simp only [if_neg hpar, hframe, ho, Option.isSome_none, Bool.false_eq_true, if_false]

theorem Joined.handleFrames {r : List Frame} {wire : List UInt8} {rounds : Nat}
    (h : Joined X Y (r ++ P) Q) (hr : X.InRange)
    (hw : encodeRecord X.version r = some wire) (hrounds : wire.length ≤ rounds) :
    Handles X Y P Q (Y.handleFrames rounds wire) := by
  induction r generalizing Y Q wire rounds with
  | nil =>
    obtain rfl : wire = [] := (Option.some.inj hw).symm
    have hd : Y.handleFrames rounds [] = (Y, none) := by cases rounds <;> rfl
    rw [hd]
    exact Handles.of_joined h rfl
  | cons f r ih =>
    obtain ⟨head, tail, hh, ht, rfl⟩ := encodeRecord_cons_eq_some.mp hw
    have hlen := Frame.length_of_encode hh
    have hpos := f.length_pos X.version
    rw [List.length_append] at hrounds
    obtain ⟨n, rfl⟩ : ∃ n, rounds = n + 1 := ⟨rounds - 1, by omega⟩
    obtain ⟨Y₁, fs, hfr, hcon, h₁⟩ := h.handleFrame hr
    have hp : FrameParser.next Y.version (head ++ tail) = .ok (f, tail) := by
      rw [h.forth.version]
      exact FrameParser.next_reads (h.forth.written hr) hh tail
    have hbuf : head ++ tail ≠ [] := by
      intro hnil
      rw [(List.append_eq_nil_iff.mp hnil).1, List.length_nil] at hlen
      omega
    have hfi : Y.paramsReceived = true ∨ f.isParameters = true := by
      cases hf : f.isParameters with
      | true => exact .inr rfl
      | false => exact .inl (h.forth.paramsReceived hf)
    rw [Session.handleFrames_cons hbuf hp hfi hfr h₁.receiver.isOpen.1]
    have hn : tail.length ≤ n := by omega
    obtain ⟨Y₂, fs', hre, hc', h₂⟩ := ih h₁ ht hn
    refine ⟨Y₂, fs ++ fs', hre, ?_, ?_⟩
    · rw [hc', hcon, List.append_assoc]
    · rw [← List.append_assoc]
      exact h₂

theorem Joined.handleRecord {r : List Frame} {wire : List UInt8} (h : Joined X Y (r ++ P) Q)
    (hr : X.InRange) (hw : encodeRecord X.version r = some wire) :
    Handles X Y P Q (Y.handleRecord wire) := by
  unfold Session.handleRecord
  rw [h.receiver.isOpen.1]
  exact h.handleFrames hr hw le_rfl

end TrevRpc.Go.Qmux
