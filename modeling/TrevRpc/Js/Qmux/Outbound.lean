import TrevRpc.Lib.Modify
import TrevRpc.Js.Qmux.Session

/-!
# What a session sends

`Outbound` keeps what decides which frames a session queues and which records it sends. Every step does one of the few
things that `Transition` lists to it.
-/

open TrevRpc.Varint TrevRpc.Modify

namespace TrevRpc.Js.Qmux

def Frame.IsControl : Frame → Prop
  | .stream .. => False
  | .resetStream .. => False
  | _ => True

theorem Frame.length_le {f : Frame} {type : Nat} {fs : List Nat} (h : f.varints = type :: fs)
    (hb : f.bytes = []) : f.length ≤ encodedLen type + 8 * fs.length := by
  have hfields := encodedLenAll_le fs
  unfold Frame.length
  rw [h, hb, encodedLenAll_cons, List.length_nil]
  omega

namespace Sending

def wake (st : Sending) : Sending :=
  match st.writer with
  | .waiting data => { st with writer := .ready data }
  | _ => st

def onSessionClosed (st : Sending) (error : WebTransportError) : Sending :=
  { st with writeError := st.writeError.or error, sendDone := true, ended := true }

def held (st : Sending) : Nat :=
  match st.writer with
  | .granted data allowed => min allowed data.length
  | _ => 0

theorem wake_cases (st : Sending) :
    st.wake = st ∨ ∃ data, st.writer = .waiting data ∧ st.wake = { st with writer := .ready data } := by
  unfold wake
  split
  · exact .inr ⟨_, by assumption, rfl⟩
  · exact .inl rfl

end Sending

structure Outbound where
  peer : Option TransportParameters
  closedError : Option WebTransportError
  connSendMax : Nat
  connSent : Nat
  streams : List Sending
  pending : List Frame
  sent : List (List Frame)
  queued : List Frame

namespace Outbound

def recordLimit (o : Outbound) : Nat := peerRecordLimit o.peer

def modify (o : Outbound) (i : Nat) (f : Sending → Sending) : Outbound :=
  { o with streams := o.streams.modify i f }

def append (o : Outbound) (frames : List Frame) : Outbound :=
  { o with pending := o.pending ++ frames, queued := o.queued ++ frames }

/-- The record goes to the WebSocket if that is open, and is lost otherwise. -/
def flush (o : Outbound) (isOpen : Bool) : Outbound :=
  if o.pending = [] then o
  else { o with pending := [], sent := if isOpen then o.sent ++ [o.pending] else o.sent }

def wake (o : Outbound) : Outbound := { o with streams := o.streams.map Sending.wake }

/-- `live` tells which streams have not completed. -/
def finish (o : Outbound) (error : WebTransportError) (live : List Bool) : Outbound :=
  if o.closedError.isSome then o
  else wake { o with
    closedError := some error
    streams := List.zipWith (fun alive (st : Sending) =>
      if alive then st.onSessionClosed error else st) live o.streams }

def sendStream (o : Outbound) (i : Nat) (st : Sending) (data : List UInt8) (fin isOpen : Bool) :
    Outbound :=
  let f := Frame.stream (4 * i) st.sendOffset data fin
  let o := if o.recordLimit < recordLength o.pending + f.length then o.flush isOpen else o
  let o := (o.append [f]).modify i fun st => { st with sendOffset := st.sendOffset + data.length }
  { o with connSent := o.connSent + data.length }

def resetSend (o : Outbound) (i : Nat) (st : Sending) (code : Nat) : Outbound :=
  let o := o.modify i fun st => { st with sendDone := true }
  if o.closedError.isNone then o.append [.resetStream (4 * i) code st.sendOffset] else o

@[simp] theorem append_nil (o : Outbound) : o.append [] = o := by simp [append]

theorem append_append (o : Outbound) (xs ys : List Frame) : (o.append xs).append ys = o.append (xs ++ ys) := by
  simp [append]

end Outbound

namespace Session

def out (s : Session) : Outbound where
  peer := s.peer
  closedError := s.closedError
  connSendMax := s.connSendMax
  connSent := s.connSent
  streams := s.streams.map Stream.toSending
  pending := s.pending
  sent := s.sent
  queued := s.queued

def isOpen (s : Session) : Bool := s.readyState = .open

/-! ## The session's operations on it -/

variable {f : Stream → Stream}

theorem out_modify (s : Session) (i : Nat) (g : Sending → Sending)
    (h : ∀ st, (f st).toSending = g st.toSending) : (s.modify i f).out = s.out.modify i g := by
  unfold out modify Outbound.modify
  simp only
  rw [map_modify Stream.toSending g h]

theorem out_modify_receiving (s : Session) (i : Nat)
    (h : ∀ st, (f st).toSending = st.toSending) : (s.modify i f).out = s.out := by
  rw [s.out_modify i id h]
  simp [Outbound.modify]

theorem out_queue (s : Session) (f : Frame) : (s.queue f).out = s.out.append [f] := rfl

theorem out_flush (s : Session) : s.flush.out = s.out.flush s.isOpen := by
  unfold flush Outbound.flush isOpen out
  split_ifs <;> simp_all

theorem toSending_wake (st : Stream) : st.wake.toSending = st.toSending.wake := by
  unfold Stream.wake Sending.wake
  split <;> simp_all

theorem out_wake (s : Session) : s.wake.out = s.out.wake := by
  unfold wake Outbound.wake out
  simp only [List.map_map]
  congr 1
  exact List.map_congr_left fun st _ => toSending_wake st

theorem toSending_wakePull (st : Stream) : st.wakePull.toSending = st.toSending := by
  unfold Stream.wakePull
  split_ifs <;> rfl

theorem toSending_maybeComplete (st : Stream) : st.maybeComplete.toSending = st.toSending := by
  unfold Stream.maybeComplete
  split_ifs <;> rfl

theorem toSending_onSessionClosed (st : Stream) (error : WebTransportError) :
    (st.onSessionClosed error).toSending = st.toSending.onSessionClosed error := by
  unfold Stream.onSessionClosed
  rw [toSending_wakePull]
  rfl

theorem out_maybeComplete (s : Session) (i : Nat) : (s.modify i Stream.maybeComplete).out = s.out :=
  s.out_modify_receiving i toSending_maybeComplete

theorem out_finish (s : Session) (error : WebTransportError) :
    (s.finish error).out = s.out.finish error (s.streams.map (·.live)) := by
  unfold finish Outbound.finish
  by_cases h : s.closedError.isSome
  · rw [if_pos h, if_pos (show s.out.closedError.isSome from h)]
  · rw [if_neg h, if_neg (show ¬ s.out.closedError.isSome from h), out_wake]
    congr 1
    unfold out
    simp only [List.map_map, List.zipWith_map_left, List.zipWith_map_right, List.zipWith_self]
    congr 1
    refine List.map_congr_left fun st _ => ?_
    simp only [Function.comp_apply]
    split_ifs
    · exact toSending_onSessionClosed st error
    · rfl

theorem out_sendStream (s : Session) (i : Nat) (st : Stream) (data : List UInt8) (fin : Bool) :
    (s.sendStream i st data fin).out = s.out.sendStream i st.toSending data fin s.isOpen := by
  have hf : (if s.recordLimit < recordLength s.pending +
        streamFrameOverhead (4 * i) st.sendOffset data.length + data.length then s.flush else s).out =
      if s.out.recordLimit < recordLength s.out.pending +
        (Frame.stream (4 * i) st.sendOffset data fin).length then s.out.flush s.isOpen else s.out := by
    rw [length_stream, ← Nat.add_assoc]
    unfold recordLimit Outbound.recordLimit
    split_ifs with h1 h2 h2
    · exact out_flush s
    · exact absurd h1 h2
    · exact absurd h2 h1
    · rfl
  unfold sendStream Outbound.sendStream
  simp only [← hf, ← out_queue]
  rw [← out_modify _ i (f := fun st => { st with sendOffset := st.sendOffset + data.length }) _ fun _ => rfl]
  rfl

theorem out_resetSend (s : Session) (i : Nat) (st : Stream) (code : Nat) (h : st.sendDone = false) :
    (s.resetSend i st code).out = s.out.resetSend i st.toSending code := by
  have hmod : (s.modify i fun st => { st with sendDone := true }).out =
      s.out.modify i fun st => { st with sendDone := true } := s.out_modify i _ fun _ => rfl
  unfold resetSend Outbound.resetSend
  simp only [h, Bool.false_eq_true, if_false, ← hmod]
  rw [out_maybeComplete]
  split_ifs with h1 h2 h2
  · rfl
  · exact absurd h1 h2
  · exact absurd h2 h1
  · rfl

/-! ## The receiving side -/

def Calm (n : Nat) (s s' : Session) : Prop :=
  ∃ frames, (∀ f ∈ frames, f.IsControl) ∧ recordLength frames ≤ n ∧ s'.out = s.out.append frames

variable {s s' s'' : Session} {n m : Nat}

theorem Calm.of_out_eq (h : s'.out = s.out) : Calm 0 s s' :=
  ⟨[], by simp, by simp, by simpa using h⟩

theorem Calm.mono (h : Calm n s s') (hnm : n ≤ m) : Calm m s s' := by
  obtain ⟨fs, hc, hlen, hout⟩ := h
  exact ⟨fs, hc, by omega, hout⟩

theorem Calm.trans (h : Calm n s s') (h' : Calm m s' s'') : Calm (n + m) s s'' := by
  obtain ⟨xs, hxs, hxlen, hout⟩ := h
  obtain ⟨ys, hys, hylen, hout'⟩ := h'
  refine ⟨xs ++ ys, ?_, by simp; omega, by rw [hout', hout, Outbound.append_append]⟩
  intro f hf
  rcases List.mem_append.mp hf with hf | hf
  · exact hxs f hf
  · exact hys f hf

theorem Calm.modify (h : Calm n s s') (i : Nat)
    (hf : ∀ st, (f st).toSending = st.toSending) : Calm n s (s'.modify i f) := by
  obtain ⟨fs, hc, hlen, hout⟩ := h
  exact ⟨fs, hc, hlen, by rw [out_modify_receiving s' i hf, hout]⟩

theorem calm_queue (s : Session) {f : Frame} (hf : f.IsControl) (hlen : f.length ≤ n) :
    Calm n s (s.queue f).scheduleFlush :=
  ⟨[f], by simpa using hf, by simpa using hlen, rfl⟩

theorem Calm.ite {c : Prop} [Decidable c] {yes no : Session} (hyes : Calm n s yes) (hno : Calm n s no) :
    Calm n s (if c then yes else no) := by
  split_ifs
  · exact hyes
  · exact hno

theorem calm_consumed (s : Session) (l : Nat) : Calm 9 s (s.consumed l) := by
  unfold consumed
  refine Calm.ite (calm_queue { s with connConsumed := _, connRecvMax := _ } trivial ?_) ?_
  · exact Frame.length_le (f := .maxData _) rfl rfl
  · exact (Calm.of_out_eq rfl).mono (by omega)

theorem Calm.consumed (h : Calm n s s') (l : Nat) : Calm (n + 9) s (s'.consumed l) :=
  h.trans (calm_consumed s' l)

theorem calm_streamConsumed (s : Session) (i : Nat) (st : Stream) (length : Nat) :
    Calm 26 s (s.streamConsumed i st length) := by
  have hr : Calm 0 s (s.modify i fun st' => { st' with read := st.read + length }) :=
    (Calm.of_out_eq rfl).modify i fun _ => rfl
  unfold streamConsumed
  refine Calm.modify (Calm.consumed (n := 17) (Calm.ite ?_ (hr.mono (by omega))) length) i
    toSending_maybeComplete
  have hmax : Calm 0 s _ := hr.modify i (f := fun st' =>
    { st' with recvMax := st.read + length + s.window }) fun _ => rfl
  refine (hmax.trans (calm_queue _ (f := .maxStreamData _ _) (n := 17) trivial ?_)).mono (by omega)
  exact Frame.length_le (f := .maxStreamData _ _) rfl rfl

theorem calm_pull (s : Session) (i : Nat) (st : Stream) : Calm 26 s (s.pull i st) := by
  have hs : Calm 26 s s := (Calm.of_out_eq rfl).mono (by omega)
  unfold pull
  refine Calm.ite (hs.modify i fun _ => rfl) ?_
  split
  next c chunks _ =>
    have hc : Calm 0 s (s.modify i fun st' => { st' with chunks := chunks, reader := .idle }) :=
      (Calm.of_out_eq rfl).modify i fun _ => rfl
    exact (hc.trans (calm_streamConsumed _ i st c.length)).mono (by omega)
  next => exact Calm.ite (hs.modify i fun _ => rfl) (hs.modify i fun _ => rfl)

theorem calm_cancelRead (s : Session) (i : Nat) (st : Stream) : Calm 26 s (s.cancelRead i st) := by
  have hen : Calm 0 s (s.modify i fun st' => { st' with readEnded := true }) :=
    (Calm.of_out_eq rfl).modify i fun _ => rfl
  have hr := (hen.modify i (f := fun st' =>
    { st' with readCancelled := true, chunks := [], read := st'.received }) fun _ => rfl).consumed
      (st.received - st.read)
  unfold cancelRead
  refine Calm.ite (hen.mono (by omega)) (Calm.modify (Calm.ite ?_ ?_) i toSending_maybeComplete)
  · refine (hr.trans (calm_queue _ (f := .stopSending _ _) (n := 17) trivial ?_)).mono (by omega)
    exact Frame.length_le (f := .stopSending _ _) rfl rfl
  · exact hr.mono (by omega)

/-! ## Received frames -/

def CalmHandled (n : Nat) (s : Session) : Handled → Prop
  | .ok s' => Calm n s s'
  | .error (_, s') => s'.out = s.out

theorem calmHandled_check {c : Prop} [Decidable c] {e : ProtocolError} {h : Handled}
    (hh : CalmHandled n s h) : CalmHandled n s (if c then .error (e, s) else h) := by
  split_ifs
  · rfl
  · exact hh

theorem calmHandled_received {l frameType : Nat} {f : Session → Session}
    (h : ∀ s', Calm 0 s s' → Calm n s (f s')) :
    CalmHandled n s (s.received l frameType >>= fun s' => Except.ok (f s')) := by
  unfold received
  simp only
  split_ifs
  · rfl
  · exact h { s with connReceived := _ } (Calm.of_out_eq rfl)

theorem calm_onData (s : Session) (i : Nat) (st : Stream) (o : Nat) (data : List UInt8) (fin : Bool) :
    CalmHandled 9 s (s.onData i st o data fin) := by
  unfold onData
  refine calmHandled_check (calmHandled_check (calmHandled_check (calmHandled_received fun s' hs' => ?_)))
  have hd := hs'.modify i (f := fun st => { st with
      received := o + data.length
      finalSize := if fin then some (o + data.length) else st.finalSize
      finReceived := st.finReceived || fin }) fun _ => rfl
  refine Calm.modify (Calm.ite ?_ (Calm.ite ?_ ?_)) i fun st => by
    rw [toSending_maybeComplete, toSending_wakePull]
  · apply Calm.consumed (n := 0)
    apply hd.modify
    intro
    rfl
  · apply (hd.mono (Nat.zero_le 9)).modify
    intro
    rfl
  · exact hd.mono (Nat.zero_le 9)

theorem calm_onReset (s : Session) (i : Nat) (st : Stream) (code fs : Nat) :
    CalmHandled 9 s (s.onReset i st code fs) := by
  unfold onReset
  by_cases hfin : st.finReceived ∧ st.finalSize = some fs
  · simp only [if_pos hfin]
    exact (Calm.of_out_eq rfl).mono (by omega)
  · simp only [if_neg hfin]
    refine calmHandled_check (calmHandled_check (calmHandled_received fun s' hs' => ?_))
    refine Calm.modify ?_ i fun st => by rw [toSending_maybeComplete, toSending_wakePull]
    apply Calm.consumed (n := 0)
    apply hs'.modify
    intro
    rfl

end Session

/-! ## Steps -/

inductive Asked (o : Outbound) (i : Nat) (data : List UInt8) : Outbound → Prop
  | granted (st : Sending) (allowed : Nat) (hst : o.streams[i]? = some st) (herror : st.writeError = none)
      (hstream : allowed ≤ st.sendMax - st.sendOffset) (hconn : allowed ≤ o.connSendMax - o.connSent)
      (hrecord : allowed ≤ o.recordLimit - 32) :
      Asked o i data (o.modify i fun st => { st with writer := .granted data allowed })
  | parked (writer : Writer) (ended : Bool) (hwriter : ∀ rest allowed, writer ≠ .granted rest allowed) :
      Asked o i data (o.modify i fun st => { st with writer := writer, ended := st.ended || ended })

def room : Action → Nat
  | .message _ => 25
  | .nextFrame => 25
  | .abortSignal .. => 25
  | .abortSink _ => 25
  | .pull _ => 26
  | .resumePull _ => 26
  | .cancelRead _ => 26
  | .close _ reason => 11 + min 256 reason.length
  | _ => 0

def asks (s : Session) : Action → Option (Nat × List UInt8)
  | .write i data _ => some (i, data)
  | .resume i _ =>
    match s.out.streams[i]?.map Sending.writer with
    | some (.ready data) => some (i, data)
    | _ => none
  | .writePiece i _ =>
    match s.out.streams[i]?.map Sending.writer with
    | some (.granted data allowed) => some (i, data.drop (data.take allowed).length)
    | _ => none
  | _ => none

/-- The ID of the stream whose sending direction an action resets, unless that is done. -/
def resets (s : Session) : Action → Option Nat
  | .abortSignal i _ => some (4 * i)
  | .nextFrame =>
    match FrameParser.next.run s.incoming with
    | .ok (.stopSending id _, _) => some id
    | _ => none
  | _ => none

def Started (s : Session) : Prop := s.peer.isSome ∨ s.out.streams ≠ []

inductive Transition (s : Session) : Action → Outbound → Prop
  | same (a : Action) : Transition s a s.out
  | controls (a : Action) (frames : List Frame) (hstarted : Started s) (hcontrol : ∀ f ∈ frames, f.IsControl)
      (hroom : recordLength frames ≤ room a) : Transition s a (s.out.append frames)
  | opened (protocol : Bool) (name : String) (f : Frame) (hpeer : s.peer = none) (hcontrol : f.IsControl)
      (hlen : f.length ≤ 208) :
      Transition s (.opened protocol name) ((s.out.append [f]).flush true)
  | finished (a : Action) (error : WebTransportError) (live : List Bool)
      (hlive : live.length = s.out.streams.length) : Transition s a (s.out.finish error live)
  | lastFrame (a : Action) (f : Frame) (isOpen : Bool) (error : WebTransportError) (live : List Bool)
      (hcontrol : f.IsControl) (hroom : f.length ≤ room a) (hlive : live.length = s.out.streams.length) :
      Transition s a (((s.out.append [f]).flush isOpen).finish error live)
  | handshake (peer : TransportParameters) (hnone : s.peer = none)
      (hsize : defaultMaxRecordSize ≤ peer.maxRecordSize) :
      Transition s .nextFrame { s.out with peer := some peer, connSendMax := peer.initialMaxData }
  | woken : Transition s .nextFrame s.out.wake
  | raised (maximum : Nat) (h : s.connSendMax ≤ maximum) :
      Transition s .nextFrame { s.out with connSendMax := maximum }.wake
  | raisedStream (i : Nat) (st : Sending) (maximum : Nat) (hst : s.out.streams[i]? = some st)
      (h : st.sendMax ≤ maximum) :
      Transition s .nextFrame (s.out.modify i fun st => { st with sendMax := maximum }).wake
  | stopped (i code : Nat) (st : Sending) (error : WebTransportError) (hresets : resets s .nextFrame = some (4 * i))
      (hst : s.out.streams[i]? = some st) (hdone : st.sendDone = false) :
      Transition s .nextFrame (((s.out.modify i fun st => { st with writeError := some error }).resetSend
        i st code).modify i fun st => { st with ended := true })
  | created (sendMax : Nat) (hpeer : s.peer.isSome) :
      Transition s .create { s.out with streams := s.out.streams ++ [{ sendMax }] }
  | asked (a : Action) (i : Nat) (st : Sending) (data : List UInt8) (o : Outbound) (hasks : asks s a = some (i, data))
      (hst : s.out.streams[i]? = some st)
      (hwriter : (st.writer = .idle ∧ st.ended = false) ∨ st.writer = .ready data)
      (h : Asked s.out i data o) : Transition s a o
  | pieceSent (i buffered : Nat) (st : Sending) (data : List UInt8) (allowed : Nat) (o : Outbound)
      (hst : s.out.streams[i]? = some st) (hwriter : st.writer = .granted data allowed)
      (h : Asked (s.out.sendStream i st (data.take allowed) false s.isOpen) i
        (data.drop (data.take allowed).length) o) : Transition s (.writePiece i buffered) o
  | finSent (i : Nat) (st : Sending) (hst : s.out.streams[i]? = some st) (hwriter : st.writer = .idle)
      (hended : st.ended = false) (hdone : st.sendDone = false) :
      Transition s (.closeWriter i) (((s.out.modify i fun st => { st with sendDone := true }).sendStream
        i st [] true s.isOpen).modify i fun st => { st with ended := true })
  | ended (i : Nat) : Transition s (.closeWriter i) (s.out.modify i fun st => { st with ended := true })
  | aborted (i : Nat) (reason : String) (st : Sending) (hst : s.out.streams[i]? = some st)
      (hdone : st.sendDone = true) :
      Transition s (.abortSignal i reason)
        (s.out.modify i fun st => { st with aborted := true, ended := true })
  | abortReset (i : Nat) (reason : String) (st : Sending) (error : WebTransportError)
      (hst : s.out.streams[i]? = some st) (hdone : st.sendDone = false) :
      Transition s (.abortSignal i reason)
        ((((s.out.modify i fun st => { st with writeError := st.writeError.or error }).resetSend
          i st cancelledCode).wake).modify i fun st => { st with aborted := true, ended := true })
  | sinkReset (i : Nat) (st : Sending) (hst : s.out.streams[i]? = some st) (haborted : st.aborted = true)
      (hdone : st.sendDone = false) : Transition s (.abortSink i) (s.out.resetSend i st cancelledCode)
  | flushed : Transition s .flush (s.out.flush s.isOpen)

namespace Session

theorem getElem?_out {s : Session} {i : Nat} {st : Stream} (h : s.streams[i]? = some st) :
    s.out.streams[i]? = some st.toSending := by
  simp [out, h]

theorem asked_write (s : Session) (i : Nat) (st : Stream) (data : List UInt8) (b : Nat)
    (hst : s.streams[i]? = some st) : Asked s.out i data (s.write i data b).out := by
  have hp (writer : Writer) (hw : ∀ rest allowed, writer ≠ .granted rest allowed) :
      Asked s.out i data (s.modify i fun st => { st with writer := writer }).out := by
    rw [s.out_modify i (fun st => { st with writer := writer, ended := st.ended || false })
      fun st => by simp]
    exact .parked writer false hw
  unfold write
  split_ifs
  · exact hp .idle (by simp)
  · simp only [hst]
    cases hc : s.sendCredit st b with
    | throws error =>
      simp only
      rw [s.out_modify i (fun st => { st with writer := .idle, ended := st.ended || true })
        fun st => by simp]
      exact .parked .idle true (by simp)
    | returns allowed =>
      simp only
      rw [s.out_modify i (fun st => { st with writer := .granted data allowed }) fun _ => rfl]
      unfold sendCredit at hc
      cases her : st.writeError.or s.closedError with
      | some error => simp [her] at hc
      | none =>
        simp only [her] at hc
        split_ifs at hc
        cases hc
        refine .granted st.toSending _ (getElem?_out hst) (Option.or_eq_none_iff.mp her).1 ?_ ?_ ?_
        · exact (min_le_left _ _).trans (min_le_left _ _)
        · exact (min_le_left _ _).trans (min_le_right _ _)
        · exact min_le_right _ _
    | polls => exact hp _ (by simp)
    | waits => exact hp _ (by simp)

variable {s s' : Session} {n : Nat} {a : Action}

theorem transition_of_calm (h : Calm n s s') (hn : n ≤ room a) (hs : Started s) : Transition s a s'.out := by
  obtain ⟨fs, hc, hlen, hout⟩ := h
  rw [hout]
  exact .controls a fs hs hc (hlen.trans hn)

theorem transition_of_out_eq (h : s'.out = s.out) : Transition s a s'.out := by
  rw [h]
  exact .same a

theorem started_of_stream {i : Nat} {st : Stream} (h : s.streams[i]? = some st) : Started s := by
  refine .inr fun hnil => ?_
  have hout := getElem?_out h
  simp [hnil] at hout

theorem transition_finish (hout : s'.out = s.out) (error : WebTransportError) :
    Transition s a (s'.finish error).out := by
  rw [out_finish, hout]
  refine .finished a error _ ?_
  rw [← hout]
  simp [out]

theorem transition_queue_flush_finish (s' : Session) (hout : s'.out = s.out) {f : Frame} (hc : f.IsControl)
    (hr : f.length ≤ room a) (error : WebTransportError) :
    Transition s a ((s'.queue f).flush.finish error).out := by
  have hs : (s'.queue f).flush.streams = s'.streams := by
    unfold flush
    split_ifs <;> rfl
  rw [out_finish, out_flush, out_queue, hout, hs]
  refine .lastFrame a f _ error _ hc hr ?_
  rw [← hout]
  simp [out]

theorem transition_fail (hout : s'.out = s.out) (error : ProtocolError) (hr : 25 ≤ room a) :
    Transition s a (s'.fail error).out := by
  refine transition_queue_flush_finish { s' with incoming := [] }
    (f := .connectionClose error.code.code error.frameType []) hout trivial ?_ _
  exact (Frame.length_le (f := .connectionClose _ _ []) rfl rfl).trans hr

theorem onStream_cases {P : Handled → Prop} (s : Session) {id frameType : Nat} {f : Nat → Stream → Handled}
    (herror : ∀ e, P (.error (e, s))) (hg : P (.ok s))
    (hl : ∀ i st, id = 4 * i → s.streams[i]? = some st → P (f i st)) :
    P (s.onStream id frameType f) := by
  unfold onStream stream
  split_ifs with hid
  · exact herror _
  · cases hst : s.streams[id / 4]? with
    | none => exact herror _
    | some st =>
      simp only [bind, Except.bind]
      split_ifs
      · exact hl (id / 4) st (by omega) hst
      · exact hg

/-- What the handler of a frame may do. -/
def HandledTransition (s : Session) : Handled → Prop
  | .ok s' => Transition s .nextFrame s'.out
  | .error (_, s') => s'.out = s.out

theorem handledTransition_of_calm {h : Handled} (hout : s'.out = s.out) (hcalm : CalmHandled 9 s' h)
    (hs : Started s) : HandledTransition s h := by
  cases h with
  | ok s'' =>
    refine transition_of_calm (n := 9) ?_ (by decide) hs
    obtain ⟨fs, hc, hlen, h⟩ := hcalm
    exact ⟨fs, hc, hlen, by rw [h, hout]⟩
  | error e => exact Eq.trans hcalm hout

theorem transition_onStopSending (i : Nat) (st : Stream) (code : Nat) (hout : s'.out = s.out)
    (hst : s'.streams[i]? = some st) (hr : resets s .nextFrame = some (4 * i)) :
    Transition s .nextFrame (s'.onStopSending i st code).out := by
  unfold onStopSending
  split_ifs with hd
  · exact transition_of_out_eq hout
  · simp only
    rw [out_modify _ i (fun st => { st with ended := true }) fun _ => rfl,
      out_resetSend _ i st code (by simpa using hd),
      out_modify _ i (fun st => { st with writeError := some _ }) fun _ => rfl, hout]
    exact .stopped i code st.toSending _ hr (hout ▸ getElem?_out hst) (by simpa using hd)

theorem handledTransition_parameters (params : List UInt8) (hout : s'.out = s.out) :
    HandledTransition s (s'.parameters params) := by
  unfold parameters
  split_ifs with hp
  · exact hout
  · cases hd : decodeTransportParameters params with
    | error e => exact hout
    | ok peer =>
      have hn : s.peer = none := by
        rw [← show s'.peer = s.peer from congrArg Outbound.peer hout]
        simpa using hp
      show Transition s .nextFrame { s'.out with peer := some peer, connSendMax := peer.initialMaxData }
      rw [hout]
      exact .handshake peer hn (le_maxRecordSize_of_decode hd)

theorem handledTransition_onPing (sequence : Nat) (hout : s'.out = s.out) (hs : Started s) :
    HandledTransition s (s'.onPing sequence) := by
  unfold onPing
  split_ifs
  · exact hout
  · refine transition_of_calm (n := 16) ⟨[.ping FrameType.pingResponse sequence], by simp [Frame.IsControl], ?_,
      congrArg (Outbound.append · _) hout⟩ (by decide) hs
    rw [recordLength_singleton]
    exact Frame.length_le (f := .ping _ _) rfl rfl

theorem transition_onMaxData (maximum : Nat) (hout : s'.out = s.out) :
    Transition s .nextFrame (s'.onMaxData maximum).out := by
  unfold onMaxData
  split_ifs with hlt
  · rw [out_wake]
    show Transition s .nextFrame { s'.out with connSendMax := maximum }.wake
    have hmax : s'.connSendMax = s.connSendMax := congrArg Outbound.connSendMax hout
    rw [hout]
    exact .raised maximum (by omega)
  · exact transition_of_out_eq hout

theorem transition_onMaxStreamData (i : Nat) (st : Stream) (maximum : Nat) (hout : s'.out = s.out)
    (hst : s'.streams[i]? = some st) : Transition s .nextFrame (s'.onMaxStreamData i st maximum).out := by
  unfold onMaxStreamData
  split_ifs with hlt
  · rw [out_wake, out_modify _ i (fun st => { st with sendMax := maximum }) fun _ => rfl, hout]
    exact .raisedStream i st.toSending maximum (hout ▸ getElem?_out hst) (Nat.le_of_lt hlt)
  · exact transition_of_out_eq hout

theorem handledTransition_onStreamCount (frameType maximum : Nat) (hout : s'.out = s.out) :
    HandledTransition s (s'.onStreamCount frameType maximum) := by
  unfold onStreamCount
  split_ifs
  · exact hout
  · show Transition s .nextFrame { s' with maxLocal := maximum }.wake.out
    rw [out_wake, show Session.out { s' with maxLocal := maximum } = s.out from hout]
    exact .woken
  · exact transition_of_out_eq hout

theorem handledTransition_handle (f : Received) {rest : List UInt8} (hout : s'.out = s.out)
    (hp : FrameParser.next.run s.incoming = .ok (f, rest))
    (hf : ¬ (s.peer.isNone ∧ f.type ≠ FrameType.transportParameters)) :
    HandledTransition s (s'.handle f) := by
  have hs : HandledTransition s (.ok s') := transition_of_out_eq hout
  have hsta {i : Nat} {st : Stream} (hst : s'.streams[i]? = some st) : Started s := by
    have h := started_of_stream hst
    unfold Started at h
    rw [hout] at h
    rwa [show s'.peer = s.peer from congrArg Outbound.peer hout] at h
  cases f with
  | padding => exact hs
  | dataBlocked => exact hs
  | transportParameters ps => exact handledTransition_parameters ps hout
  | ping se =>
    refine handledTransition_onPing se hout (.inl (Option.isSome_iff_ne_none.mpr ?_))
    simpa [Received.type] using hf
  | pingResponse se => exact hout
  | resetStream id code fs =>
    refine onStream_cases s' (fun _ => hout) hs fun i st _ hst => ?_
    exact handledTransition_of_calm hout (calm_onReset s' i st code fs) (hsta hst)
  | stopSending id code =>
    refine onStream_cases s' (fun _ => hout) hs fun i st hid hst => ?_
    refine transition_onStopSending i st code hout hst ?_
    simp only [resets, hp, hid]
  | maxData ma => exact transition_onMaxData ma hout
  | maxStreamsBidi ma | maxStreamsUni ma | streamsBlockedBidi ma
  | streamsBlockedUni ma => exact handledTransition_onStreamCount _ ma hout
  | maxStreamData id ma =>
    refine onStream_cases s' (fun _ => hout) hs fun i st _ hst => ?_
    exact transition_onMaxStreamData i st ma hout hst
  | streamDataBlocked id ma => exact onStream_cases s' (fun _ => hout) hs fun _ _ _ _ => hs
  | connectionClose code frameType r => exact transition_finish hout _
  | applicationClose code r => exact transition_finish hout _
  | stream type id o data fin =>
    refine onStream_cases s' (fun _ => hout) hs fun i st _ hst => ?_
    exact handledTransition_of_calm hout (calm_onData s' i st o data fin) (hsta hst)

theorem transition_nextFrame (s : Session) : Transition s .nextFrame s.nextFrame.out := by
  unfold nextFrame
  cases hp : FrameParser.next.run s.incoming with
  | error e => exact transition_fail rfl e (by decide)
  | ok p =>
    obtain ⟨f, rest⟩ := p
    simp only
    split_ifs with hclosed hf
    · exact transition_of_out_eq rfl
    · exact transition_fail rfl _ (by decide)
    · have hha : HandledTransition s ({ s with incoming := rest }.handle f) :=
        handledTransition_handle f rfl hp hf
      cases hh : { s with incoming := rest }.handle f with
      | ok s' =>
        rw [hh] at hha
        exact hha
      | error e =>
        rw [hh] at hha
        exact transition_fail hha _ (by decide)

theorem transition_message (s : Session) (data : Option (List UInt8)) :
    Transition s (.message data) (s.message data).out := by
  unfold message
  split_ifs
  · exact transition_of_out_eq rfl
  · cases data with
    | none => exact transition_fail rfl _ (by decide)
    | some record =>
      simp only
      split_ifs
      · exact transition_fail rfl _ le_rfl
      · exact transition_of_out_eq rfl

theorem transition_opened (s : Session) (p : Bool) (name : String) (hp : s.peer = none) :
    Transition s (.opened p name) (s.opened p name).out := by
  unfold opened
  simp only
  split_ifs
  · split
    next frame hf =>
      simp only [writeTransportParameters, Option.map_eq_some_iff] at hf
      obtain ⟨body, hb, rfl⟩ := hf
      rw [out_flush, out_queue]
      refine .opened p name _ hp trivial ?_
      have hlen := length_of_encodeAll hb
      have hle := encodedLenAll_le [FrameType.transportParameters, body.length]
      have hfields := encodedLenAll_le (TransportParameters.body
        { initialMaxData := s.window, initialMaxStreamDataBidiLocal := s.window, maxRecordSize })
      have hcount := TransportParameters.length_body_le
        { initialMaxData := s.window, initialMaxStreamDataBidiLocal := s.window, maxRecordSize }
      show encodedLenAll [FrameType.transportParameters, body.length] + body.length ≤ 208
      simp only [List.length_cons, List.length_nil] at hle
      omega
    next => exact transition_of_out_eq rfl
  · apply transition_finish
    rfl

theorem transition_close (s : Session) (code : Nat) (r : List UInt8) :
    Transition s (.close code r) (s.close code r).out := by
  unfold close
  split_ifs
  · exact transition_of_out_eq rfl
  · refine transition_queue_flush_finish s (f := .applicationClose code (r.take 256)) rfl trivial ?_ _
    have hcode := encodedLen_le code
    have hr : (r.take 256).length = min 256 r.length := List.length_take
    have hlen : encodedLen (r.take 256).length ≤ encodedLen 256 := encodedLen_mono (by omega)
    have ht : encodedLen FrameType.applicationClose = 1 := rfl
    have hmax : encodedLen 256 = 2 := rfl
    simp only [Frame.length, Frame.varints, Frame.bytes, encodedLenAll_cons, room]
    rw [← hr, ht]
    show 1 + (encodedLen code + (encodedLen (r.take 256).length + 0)) + _ ≤ _
    omega

theorem transition_finishSend (s : Session) (i : Nat) (st : Stream) (hst : s.streams[i]? = some st)
    (hw : st.writer = .idle) (hended : st.ended = false) :
    Transition s (.closeWriter i)
      ((s.finishSend i st).modify i fun st => { st with ended := true }).out := by
  rw [out_modify _ i (fun st => { st with ended := true }) fun _ => rfl]
  unfold finishSend
  split_ifs with hd
  · exact .ended i
  · exact .ended i
  · rw [out_maybeComplete, out_sendStream, out_modify _ i (fun st => { st with sendDone := true }) fun _ => rfl]
    exact .finSent i st.toSending (getElem?_out hst) hw hended (by simpa using hd)

theorem transition_abortSend (s : Session) (i : Nat) (st : Stream) (r : String)
    (hst : s.streams[i]? = some st) :
    Transition s (.abortSignal i r)
      ((s.abortSend i st r).modify i fun st => { st with aborted := true, ended := true }).out := by
  rw [out_modify _ i (fun st => { st with aborted := true, ended := true }) fun _ => rfl]
  unfold abortSend
  split_ifs with hd
  · exact .aborted i r st.toSending (getElem?_out hst) hd
  · simp only
    rw [out_wake, out_resetSend _ i st _ (by simpa using hd),
      out_modify _ i (fun st => { st with writeError := st.writeError.or _ }) fun _ => rfl]
    exact .abortReset i r st.toSending _ (getElem?_out hst) (by simpa using hd)

theorem transition_resetSend (s : Session) (i : Nat) (st : Stream) (hst : s.streams[i]? = some st)
    (ha : st.aborted = true) :
    Transition s (.abortSink i) (s.resetSend i st cancelledCode).out := by
  by_cases hd : st.sendDone
  · simp only [resetSend, hd, if_true]
    exact transition_of_out_eq rfl
  · rw [out_resetSend s i st _ (by simpa using hd)]
    exact .sinkReset i st.toSending (getElem?_out hst) ha (by simpa using hd)

theorem streams_sendStream (s : Session) (i : Nat) (st : Stream) (data : List UInt8) (fin : Bool) :
    (s.sendStream i st data fin).streams =
      s.streams.modify i fun st => { st with sendOffset := st.sendOffset + data.length } := by
  unfold sendStream flush
  simp only
  split_ifs <;> rfl

theorem transition_writePiece (s : Session) (i b : Nat) (st : Stream) (data : List UInt8)
    (allowed : Nat) (hst : s.streams[i]? = some st) (hw : st.writer = .granted data allowed) :
    Transition s (.writePiece i b) (s.writePiece i st data allowed b).out := by
  refine .pieceSent i b st.toSending data allowed _ (getElem?_out hst) hw ?_
  rw [← out_sendStream]
  refine asked_write _ i { st with sendOffset := st.sendOffset + (data.take allowed).length } _ b ?_
  rw [streams_sendStream]
  simp [hst]

end Session

open Session

theorem onStream_eq_some {s s' : Session} {i : Nat} {g : Stream → Bool} {f : Stream → Session}
    (h : onStream s i g f = some s') :
    ∃ st, s.streams[i]? = some st ∧ g st = true ∧ s' = f st := by
  unfold onStream at h
  split at h
  · next st hst =>
    obtain ⟨hg, rfl⟩ := Run.of_guard h
    exact ⟨st, hst, hg, rfl⟩
  · cases h

theorem task_cases {s s' : Session} {a : Action} (h : task s a = some s') : Transition s a s'.out := by
  cases a with
  | opened p name =>
    obtain ⟨⟨-, hp⟩, rfl⟩ := Run.of_guard h
    exact transition_opened s p name (Option.isNone_iff_eq_none.mp hp)
  | message data =>
    obtain ⟨-, rfl⟩ := Run.of_guard h
    exact transition_message s data
  | nextFrame => cases h
  | create =>
    simp only [task] at h
    split at h
    · next peer hp =>
      obtain ⟨-, rfl⟩ := Run.of_guard h
      have hout : (s.createBidirectionalStream peer).out = { s.out with streams := s.out.streams ++
          [{ sendMax := peer.initialMaxStreamDataBidiRemote }] } := by
        simp [createBidirectionalStream, out]
      rw [hout]
      exact .created _ (by simp [hp])
    · cases h
  | write i data b =>
    obtain ⟨st, hst, hg, rfl⟩ := onStream_eq_some h
    exact .asked _ i st.toSending data _ rfl (getElem?_out hst) (.inl (by simpa using hg))
      (asked_write s i st data b hst)
  | resume i b =>
    simp only [task] at h
    split at h
    · next st hst =>
      split at h
      · next data hw =>
        cases h
        refine .asked _ i st.toSending data _ ?_ (getElem?_out hst) (.inr hw) (asked_write s i st data b hst)
        simp only [asks, getElem?_out hst, Option.map_some, hw]
      · cases h
    · cases h
  | writePiece i b =>
    simp only [task] at h
    split at h
    · next st hst =>
      split at h
      · next data al hw =>
        cases h
        exact transition_writePiece s i b st data al hst hw
      · cases h
    · cases h
  | closeWriter i =>
    obtain ⟨st, hst, hg, rfl⟩ := onStream_eq_some h
    simp only [Bool.not_eq_true, Bool.decide_and, Bool.and_eq_true, decide_eq_true_eq] at hg
    exact transition_finishSend s i st hst hg.1 hg.2
  | abortSignal i r =>
    obtain ⟨st, hst, -, rfl⟩ := onStream_eq_some h
    exact transition_abortSend s i st r hst
  | abortSink i =>
    obtain ⟨st, hst, hg, rfl⟩ := onStream_eq_some h
    simp only [Bool.decide_and, Bool.and_eq_true, decide_eq_true_eq] at hg
    exact transition_resetSend s i st hst hg.1
  | pull i | resumePull i =>
    obtain ⟨st, hst, -, rfl⟩ := onStream_eq_some h
    exact transition_of_calm (calm_pull s i st) le_rfl (started_of_stream hst)
  | cancelRead i =>
    obtain ⟨st, hst, -, rfl⟩ := onStream_eq_some h
    exact transition_of_calm (calm_cancelRead s i st) le_rfl (started_of_stream hst)
  | flush =>
    obtain ⟨-, rfl⟩ := Run.of_guard h
    rw [out_flush]
    exact .flushed
  | close code r =>
    cases h
    exact transition_close s code r
  | finish error =>
    cases h
    exact transition_finish rfl error

theorem step_cases {s s' : Session} {a : Action} (h : step s a = some s') : Transition s a s'.out := by
  unfold step at h
  split_ifs at h with hin ha
  · exact task_cases h
  · cases h
    subst ha
    exact transition_nextFrame s

end TrevRpc.Js.Qmux
