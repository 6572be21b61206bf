import Mathlib.Tactic.IntervalCases
import TrevRpc.Js.Qmux.Outbound

/-! # The size of a session's records -/

open TrevRpc.Varint TrevRpc.Run TrevRpc.Modify

namespace TrevRpc.Js.Qmux

def RecordsFit (s : Session) : Prop := ∀ record ∈ s.sent, recordLength record ≤ s.recordLimit

def HasRoom (s : Session) (a : Action) : Prop :=
  0 < room a → recordLength s.pending + room a ≤ s.recordLimit

instance (s : Session) (a : Action) : Decidable (HasRoom s a) := by
  unfold HasRoom
  infer_instance

theorem room_le (a : Action) : room a ≤ 267 := by
  cases a <;> simp [room]
  omega

namespace Outbound

def writers (o : Outbound) : List Writer := o.streams.map Sending.writer

structure RecordInv (o : Outbound) : Prop where
  limit : defaultMaxRecordSize ≤ o.recordLimit
  pending : recordLength o.pending ≤ o.recordLimit
  sent : ∀ record ∈ o.sent, recordLength record ≤ o.recordLimit
  granted : ∀ data allowed, .granted data allowed ∈ o.writers → allowed ≤ o.recordLimit - 32
  fresh : o.peer = none → o.streams = [] ∧ o.pending = [] ∧
    ∀ record ∈ o.sent, recordLength record ≤ defaultMaxRecordSize

variable {o o' : Outbound}

theorem RecordInv.append (h : RecordInv o) {fs : List Frame} (hp : o.peer.isSome)
    (hr : recordLength o.pending + recordLength fs ≤ o.recordLimit) : RecordInv (o.append fs) := by
  refine ⟨h.limit, ?_, h.sent, h.granted, fun hn => ?_⟩
  · show recordLength (o.pending ++ fs) ≤ o.recordLimit
    rw [recordLength_append]
    exact hr
  · rw [show o.peer = none from hn] at hp
    cases hp

theorem mem_sent_flush {io : Bool} {r : List Frame} (h : r ∈ (o.flush io).sent) : r ∈ o.sent ∨ r = o.pending := by
  unfold Outbound.flush at h
  split_ifs at h
  · exact .inl h
  · exact (List.mem_append.mp h).imp_right List.mem_singleton.mp
  · exact .inl h

theorem pending_flush (o : Outbound) (io : Bool) : (o.flush io).pending = [] := by
  unfold Outbound.flush
  split_ifs with h
  · exact h
  all_goals rfl

theorem flush_rest (o : Outbound) (io : Bool) : (o.flush io).peer = o.peer ∧ (o.flush io).streams = o.streams := by
  unfold Outbound.flush
  split_ifs <;> exact ⟨rfl, rfl⟩

variable (h : RecordInv o)
include h

theorem RecordInv.flush (io : Bool) : RecordInv (o.flush io) := by
  obtain ⟨hp, hs⟩ := flush_rest o io
  have hl : (o.flush io).recordLimit = o.recordLimit := congrArg peerRecordLimit hp
  refine ⟨hl ▸ h.limit, ?_, fun r hr => ?_, ?_, fun hn => ?_⟩
  · rw [pending_flush]
    exact Nat.zero_le _
  · rw [hl]
    rcases mem_sent_flush hr with hr | rfl
    · exact h.sent r hr
    · exact h.pending
  · unfold writers
    rw [hs, hl]
    exact h.granted
  · obtain ⟨hnil, hpe, hse⟩ := h.fresh (hp ▸ hn)
    refine ⟨hs ▸ hnil, pending_flush o io, fun r hr => ?_⟩
    rcases mem_sent_flush hr with hr | rfl
    · exact hse r hr
    · rw [hpe]
      exact Nat.zero_le _

theorem RecordInv.of_streams {streams : List Sending}
    (hg : ∀ data al, .granted data al ∈ streams.map Sending.writer →
      .granted data al ∈ o.writers)
    (hlen : streams.length = o.streams.length) : RecordInv { o with streams } := by
  refine ⟨h.limit, h.pending, h.sent, fun data al hw => ?_, fun hn => ?_⟩
  · exact h.granted data al (hg data al hw)
  · obtain ⟨hs, hp⟩ := h.fresh hn
    exact ⟨List.eq_nil_of_length_eq_zero (by rw [hlen, hs, List.length_nil]), hp⟩

theorem RecordInv.modify (i : Nat) {f : Sending → Sending}
    (hf : ∀ st, (f st).writer = st.writer) : RecordInv (o.modify i f) := by
  refine h.of_streams (fun data allowed hw => ?_) (List.length_modify ..)
  rw [map_modify_same Sending.writer hf] at hw
  exact hw

theorem RecordInv.wake : RecordInv o.wake := by
  refine h.of_streams (fun data allowed hw => ?_) (List.length_map ..)
  rw [List.map_map, List.mem_map] at hw
  obtain ⟨st, hst, hw⟩ := hw
  rcases st.wake_cases with heq | ⟨rest, -, heq⟩
  · rw [Function.comp_apply, heq] at hw
    exact hw ▸ List.mem_map_of_mem hst
  · rw [Function.comp_apply, heq] at hw
    cases hw

theorem RecordInv.finish (error : WebTransportError) {live : List Bool}
    (hl : live.length = o.streams.length) : RecordInv (o.finish error live) := by
  unfold Outbound.finish
  split_ifs
  · exact h
  · have hc : RecordInv { o with closedError := some error } :=
      { h with }
    refine RecordInv.wake (hc.of_streams (fun data allowed hw => ?_) ?_)
    · rw [map_zipWith_same Sending.writer (fun alive st => by split_ifs <;> rfl) hl] at hw
      exact hw
    · rw [List.length_zipWith, hl, min_self]

theorem RecordInv.resetSend (i : Nat) (st : Sending) (code : Nat) (hp : o.peer.isSome)
    (hr : recordLength o.pending + 25 ≤ o.recordLimit) : RecordInv (o.resetSend i st code) := by
  have hd : RecordInv (o.modify i fun st => { st with sendDone := true }) := h.modify i fun _ => rfl
  have hlen : (Frame.resetStream (4 * i) code st.sendOffset).length ≤ 25 :=
    Frame.length_le (f := .resetStream _ _ _) rfl rfl
  unfold Outbound.resetSend
  simp only
  split_ifs
  · refine hd.append hp ?_
    rw [recordLength_singleton]
    exact (Nat.add_le_add_left hlen _).trans hr
  · exact hd

theorem RecordInv.sendStream (i : Nat) (st : Sending) {data : List UInt8}
    (fin io : Bool) (hp : o.peer.isSome) (hdata : data.length ≤ o.recordLimit - 32) :
    RecordInv (o.sendStream i st data fin io) := by
  have hl := h.limit
  have hfr : (Frame.stream (4 * i) st.sendOffset data fin).length ≤ o.recordLimit := by
    have hoverhead := streamFrameOverhead_le (4 * i) st.sendOffset data.length
    rw [length_stream]
    unfold defaultMaxRecordSize at hl
    omega
  obtain ⟨hf, -⟩ := flush_rest o io
  have ha : RecordInv (Outbound.append (if o.recordLimit < recordLength o.pending +
      (Frame.stream (4 * i) st.sendOffset data fin).length then o.flush io else o)
      [.stream (4 * i) st.sendOffset data fin]) := by
    split_ifs with hfull
    · refine (h.flush io).append (hf ▸ hp) ?_
      rw [pending_flush, recordLength_nil, recordLength_singleton, Nat.zero_add]
      exact hfr.trans (congrArg peerRecordLimit hf).ge
    · refine h.append hp ?_
      rw [recordLength_singleton]
      omega
  have hs := ha.modify i (f := fun st => { st with sendOffset := st.sendOffset + data.length })
    fun _ => rfl
  exact { hs with }

theorem RecordInv.asked {i : Nat} {rest : List UInt8} (ha : Asked o i rest o') : RecordInv o' := by
  -- The new writer is the one of stream `i`; all others are as they were.
  have hmem {f : Sending → Sending} {w : Writer} (hw : w ∈ (o.modify i f).writers) :
      w ∈ o.writers ∨ ∃ st, w = (f st).writer := by
    obtain ⟨st, hst, rfl⟩ := List.mem_map.mp hw
    rcases mem_modify hst with hst | ⟨st, -, rfl⟩
    · exact .inl (List.mem_map_of_mem hst)
    · exact .inr ⟨st, rfl⟩
  have hf (f : Sending → Sending) (hn : o.peer = none) :
      (o.modify i f).streams = [] ∧ o.pending = [] ∧
        ∀ r ∈ o.sent, recordLength r ≤ defaultMaxRecordSize := by
    obtain ⟨hnil, hre⟩ := h.fresh hn
    exact ⟨by simp [Outbound.modify, hnil], hre⟩
  cases ha with
  | granted st allowed hst herror hstream hconn hr =>
    refine ⟨h.limit, h.pending, h.sent, fun data n hw => ?_, hf _⟩
    rcases hmem hw with hold | ⟨_, hnew⟩
    · exact h.granted data n hold
    · cases hnew
      exact hr
  | parked writer ended hwr =>
    refine ⟨h.limit, h.pending, h.sent, fun data n hw => ?_, hf _⟩
    rcases hmem hw with hold | ⟨_, hnew⟩
    · exact h.granted data n hold
    · exact absurd hnew.symm (hwr data n)

theorem RecordInv.append_flush {f : Frame} (io : Bool)
    (hlen : f.length ≤ defaultMaxRecordSize)
    (hroom : recordLength o.pending + f.length ≤ o.recordLimit) :
    RecordInv ((o.append [f]).flush io) := by
  by_cases hp : o.peer.isSome
  · exact (h.append hp (by rwa [recordLength_singleton])).flush io
  · obtain ⟨hnil, hpe, hs⟩ := h.fresh (by simpa using hp)
    obtain ⟨hfp, hf⟩ := flush_rest (o.append [f]) io
    have hl : ((o.append [f]).flush io).recordLimit = o.recordLimit := congrArg peerRecordLimit hfp
    have hall : ∀ r ∈ ((o.append [f]).flush io).sent, recordLength r ≤ defaultMaxRecordSize := by
      intro r hr
      rcases mem_sent_flush hr with hr | rfl
      · exact hs r hr
      · simpa [Outbound.append, hpe] using hlen
    refine ⟨hl ▸ h.limit, ?_, fun r hr => ?_, ?_, fun _ => ⟨?_, pending_flush _ _, hall⟩⟩
    · rw [pending_flush]
      exact Nat.zero_le _
    · rw [hl]
      exact (hall r hr).trans h.limit
    · unfold writers
      rw [hf, hl]
      exact h.granted
    · rw [hf]
      exact hnil

end Outbound

/-! ## Steps -/

open Outbound

variable {s : Session} {a : Action} {o : Outbound}

theorem peer_of_started (h : RecordInv s.out) (hst : Started s) : s.out.peer.isSome := by
  rcases hst with hp | hs
  · exact hp
  · by_contra hn
    exact hs (h.fresh (by simpa using hn)).1

theorem peer_of_stream (h : RecordInv s.out) {i : Nat} {st : Sending} (hst : s.out.streams[i]? = some st) :
    s.out.peer.isSome :=
  peer_of_started h (.inr fun hnil => by simp [hnil] at hst)

theorem recordInv_step (h : RecordInv s.out) (hok : HasRoom s a) (ht : Transition s a o) : RecordInv o := by
  have hro {n : Nat} (hn : n ≤ room a) : recordLength s.out.pending + n ≤ s.out.recordLimit := by
    rcases Nat.eq_zero_or_pos (room a) with hzero | hpos
    · have := h.pending
      omega
    · exact (Nat.add_le_add_left hn _).trans (hok hpos)
  cases ht with
  | same => exact h
  | controls _ frames hs hc hlen => exact h.append (peer_of_started h hs) (hro hlen)
  | opened protocol name f hp hc hlen =>
    have hl := h.limit
    unfold defaultMaxRecordSize at hl
    refine h.append_flush true (hlen.trans (by decide)) ?_
    rw [(h.fresh hp).2.1, recordLength_nil]
    omega
  | finished _ error live hli => exact h.finish error hli
  | lastFrame _ f io error live hc hlen hli =>
    have hsm := (hlen.trans (room_le a)).trans (show 267 ≤ defaultMaxRecordSize by decide)
    refine (h.append_flush io hsm (hro hlen)).finish error ?_
    rw [hli, (flush_rest _ io).2]
    rfl
  | handshake peer hno hsi =>
    obtain ⟨hnil, hpe, hse⟩ := h.fresh hno
    have hl : defaultMaxRecordSize ≤ peerRecordLimit (some peer) := le_min hsi (by decide)
    refine ⟨hl, ?_, fun r hr => (hse r hr).trans hl, fun data n hw => ?_,
      fun hp => by simp at hp⟩
    · show recordLength s.out.pending ≤ _
      rw [hpe]
      exact Nat.zero_le _
    · simp [writers, hnil] at hw
  | woken => exact h.wake
  | raised m hmax =>
    exact RecordInv.wake { h with }
  | raisedStream i st m hst hmax =>
    exact (h.modify i (f := fun st => { st with sendMax := m }) fun _ => rfl).wake
  | stopped i code st error hresets hst hd =>
    have her := h.modify i (f := fun st => { st with writeError := some error }) fun _ => rfl
    exact (her.resetSend i st code (peer_of_stream h hst) (hro le_rfl)).modify i fun _ => rfl
  | created sendMax hp =>
    refine ⟨h.limit, h.pending, h.sent, fun data n hw => h.granted data n ?_, fun hno => ?_⟩
    · simpa [writers] using hw
    · rw [show s.peer = none from hno] at hp
      cases hp
  | asked _ i st data _ hasks hst hwr ha => exact h.asked ha
  | pieceSent i buffered st data al _ hst hwr ha =>
    refine (h.sendStream i st false s.isOpen (peer_of_stream h hst) ?_).asked ha
    have hal := h.granted data al (List.mem_map.mpr ⟨st, List.mem_of_getElem? hst, hwr⟩)
    exact (List.length_take_le _ _).trans hal
  | finSent i st hst hwr hended hd =>
    have hd := h.modify i (f := fun st => { st with sendDone := true }) fun _ => rfl
    exact (hd.sendStream i st true s.isOpen (peer_of_stream h hst) (Nat.zero_le _)).modify i fun _ => rfl
  | ended i => exact h.modify i fun _ => rfl
  | aborted i re st hst hd => exact h.modify i fun _ => rfl
  | abortReset i re st error hst hd =>
    have her := h.modify i (f := fun st => { st with writeError := st.writeError.or error }) fun _ => rfl
    exact ((her.resetSend i st cancelledCode (peer_of_stream h hst) (hro le_rfl)).wake).modify i fun _ => rfl
  | sinkReset i st hst haborted hd =>
    exact h.resetSend i st cancelledCode (peer_of_stream h hst) (hro le_rfl)
  | flushed => exact h.flush s.isOpen

/-! ## Whole runs -/

/-- Where control frames are written only to records with room, every record is within the peer's limit. -/
theorem session_recordsFit (maxFrameSize : Nat) (actions : List Action)
    (hok : Along HasRoom step (newSession maxFrameSize) actions) :
    Always (fun _ => RecordsFit) step (newSession maxFrameSize) actions := by
  refine always_of_along (I := fun _ s => RecordInv s.out) ?_ ?_ ?_ hok
  · refine ⟨show defaultMaxRecordSize ≤ peerRecordLimit none by decide, Nat.zero_le _, ?_, ?_,
      fun _ => ⟨rfl, rfl, ?_⟩⟩
    all_goals simp [newSession, Session.out, writers]
  · intro _ t h
    exact h.sent
  · intro _ t b t' h hroom hstep
    exact recordInv_step h hroom (step_cases hstep)

def largeServer : List UInt8 :=
  [0xff, 0x51, 0x53, 0x30, 0x0d, 0x0a, 0x0d, 0x0a, 15, 4, 4, 128, 16, 0, 0, 6, 4, 128, 16, 0, 0, 8, 1, 10]

theorem session_recordsFit_small :
    (∃ s, run step (newSession 1000)
        [.opened true "qmux-02.trevrpc-1", .message (some largeServer), .nextFrame, .create, .create,
          .write 0 [1, 2, 3] 0, .writePiece 0 0, .cancelRead 0, .flush, .abortSignal 1 "done", .flush] = some s ∧
      s.sent.length = 3) ∧
    Always (fun _ => RecordsFit) step (newSession 1000)
      [.opened true "qmux-02.trevrpc-1", .message (some largeServer), .nextFrame, .create, .create,
        .write 0 [1, 2, 3] 0, .writePiece 0 0, .cancelRead 0, .flush, .abortSignal 1 "done", .flush] :=
  ⟨⟨_, rfl, rfl⟩, session_recordsFit 1000 _ (by decide +kernel)⟩

def tenStreams (writer : Writer) : Session :=
  { newSession 1000 with
    peer := some
      { initialMaxData := 2 ^ 20, initialMaxStreamDataBidiRemote := 2 ^ 20, initialMaxStreamsBidi := 10 }
    streams := { sendMax := 2 ^ 20, recvMax := 1016, writer } ::
      List.replicate 9 { sendMax := 2 ^ 20, recvMax := 1016 }
    maxLocal := 10
    connSendMax := 2 ^ 20
    readyState := .open
    sent := [[.transportParameters [4, 2, 67, 248, 5, 2, 67, 248, 197, 113, 197, 148, 41, 205, 8, 69, 4, 128, 1, 0, 0]]]
    queued := [.transportParameters
      [4, 2, 67, 248, 5, 2, 67, 248, 197, 113, 197, 148, 41, 205, 8, 69, 4, 128, 1, 0, 0]] }

theorem run_tenStreams : run step (newSession 1000)
    ([.opened true "qmux-02.trevrpc-1", .message (some largeServer), .nextFrame] ++ List.replicate 10 .create) =
      some (tenStreams .idle) := rfl

variable {data : List UInt8}

theorem step_tenStreams_write (hlen : data.length = 16350) :
    step (tenStreams .idle) (.write 0 data 0) = some (tenStreams (.granted data 16350)) := by
  have hne : data ≠ [] := by
    rintro rfl
    cases hlen
  show some ((tenStreams .idle).write 0 data 0) = _
  unfold Session.write
  rw [if_neg hne]
  rfl

def cancelled (data : List UInt8) (n : Nat) : Session :=
  { tenStreams .idle with
    streams := (List.range 10).map fun i =>
      { sendMax := 2 ^ 20, recvMax := 1016, sendOffset := if i = 0 then 16350 else 0,
        readCancelled := i < n, readEnded := i < n }
    connSent := 16350
    pending := .stream 0 0 data false :: (List.range n).map fun i => .stopSending (4 * i) 1
    queued := (tenStreams .idle).queued ++
      .stream 0 0 data false :: (List.range n).map fun i => .stopSending (4 * i) 1
    flushScheduled := true }

theorem step_tenStreams_writePiece (hlen : data.length = 16350) :
    step (tenStreams (.granted data 16350)) (.writePiece 0 0) = some (cancelled data 0) := by
  have ht : data.take 16350 = data := List.take_of_length_le hlen.le
  have hf : ¬ (tenStreams (.granted data 16350)).recordLimit <
      recordLength (tenStreams (.granted data 16350)).pending + streamFrameOverhead (4 * 0) 0 16350 + 16350 := by
    show ¬ 16382 < recordLength [] + streamFrameOverhead (4 * 0) 0 16350 + 16350
    decide
  show some (((tenStreams (.granted data 16350)).sendStream 0 _ (data.take 16350) false).write 0
    (data.drop (data.take 16350).length) 0) = _
  rw [ht, List.drop_length]
  simp only [Session.sendStream, hlen]
  rw [if_neg hf]
  simp [Session.write, Session.modify, Session.queue, Session.scheduleFlush, tenStreams, cancelled,
    newSession, List.range_succ]

theorem run_cancelled (data : List UInt8) {n : Nat} (hn : n ≤ 10) :
    run step (cancelled data 0) ((List.range n).map .cancelRead) = some (cancelled data n) := by
  induction n with
  | zero => rfl
  | succ n ih =>
    rw [List.range_succ, List.map_append, List.map_singleton, run_snoc, ih (by omega)]
    show step (cancelled data n) (.cancelRead n) = _
    have hlt : n < 10 := hn
    clear ih hn
    interval_cases n <;> rfl

theorem recordLength_cancelled (hlen : data.length = 16350) : recordLength (cancelled data 10).pending = 16384 := by
  show recordLength ([.stream 0 0 data false] ++ (List.range 10).map fun i => .stopSending (4 * i) 1) = 16384
  rw [recordLength_append, recordLength_singleton, length_stream, hlen]
  rfl

theorem step_cancelled_flush (data : List UInt8) (n : Nat) :
    step (cancelled data n) .flush = some { cancelled data n with
      flushScheduled := false
      pending := []
      sent := (tenStreams .idle).sent ++ [(cancelled data n).pending] } := by
  simp [step, task, Session.flush, cancelled, tenStreams, newSession]

theorem run_cancels_overflow (data : List UInt8) (hlen : data.length = 16350) :
    ∃ s, run step (tenStreams .idle) ([.write 0 data 0, .writePiece 0 0] ++
        ((List.range 10).map .cancelRead ++ [.flush])) = some s ∧ s.peer = (tenStreams .idle).peer ∧
      ∃ r ∈ s.sent, recordLength r = 16384 := by
  refine ⟨{ cancelled data 10 with
    flushScheduled := false
    pending := []
    sent := (tenStreams .idle).sent ++ [(cancelled data 10).pending] }, ?_, rfl, _,
    List.mem_append_right _ (List.mem_singleton_self _), recordLength_cancelled hlen⟩
  simp only [List.cons_append, List.nil_append, run, step_tenStreams_write hlen,
    step_tenStreams_writePiece hlen, Option.bind_some]
  rw [run_snoc, run_cancelled data le_rfl, Option.bind_some, step_cancelled_flush]

/-- Ten reads are cancelled while a full STREAM frame is pending: the record is two bytes too long. -/
theorem session_cancels_overflow_record :
    ∃ s, run step (newSession 1000)
        ([.opened true "qmux-02.trevrpc-1", .message (some largeServer), .nextFrame] ++
          List.replicate 10 .create ++ ([.write 0 (List.replicate 16350 0) 0, .writePiece 0 0] ++
            ((List.range 10).map .cancelRead ++ [.flush]))) = some s ∧
      s.recordLimit = 16382 ∧ (∃ record ∈ s.sent, recordLength record = 16384) ∧ ¬ RecordsFit s := by
  obtain ⟨s, hrun, hpeer, record, hsent, hlen⟩ :=
    run_cancels_overflow (List.replicate 16350 0) List.length_replicate
  have hlimit : s.recordLimit = 16382 := by
    unfold Session.recordLimit
    rw [hpeer]
    rfl
  refine ⟨s, ?_, hlimit, ⟨record, hsent, hlen⟩, fun hfit => ?_⟩
  · rw [run_append, run_tenStreams, Option.bind_some, hrun]
  · have hle := hfit record hsent
    omega

end TrevRpc.Js.Qmux
