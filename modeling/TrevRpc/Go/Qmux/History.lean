import TrevRpc.Go.Qmux.Views

/-! # What the calls of the application have done to a stream -/

namespace TrevRpc.Go.Qmux

structure History where
  accepted : List UInt8 := []
  returned : List UInt8 := []
  closed : Bool := false

namespace Stream

def history (st : Stream) : History := ⟨st.accepted, st.returned, st.finRequested⟩

theorem history_arrive (st : Stream) (last : Nat) (data : List UInt8) (fin : Bool) :
    (st.arrive last data fin).history = st.history := by
  cases fin <;> rfl

theorem history_appendReceived (st : Stream) (data : List UInt8) : (st.appendReceived data).history = st.history := by
  unfold appendReceived
  simp only
  split_ifs <;> rfl

theorem history_endByReset (st : Stream) (fs : Nat) (err : StreamError) :
    (st.endByReset fs err).history = st.history := by
  unfold endByReset
  simp only
  split_ifs <;> rfl

theorem history_advanceSend (st : Stream) (n : Nat) : (st.advanceSend n).history = st.history := by
  unfold advanceSend
  simp only
  split_ifs <;> rfl

theorem history_appendSend (st : Stream) (space n : Nat) (p : List UInt8) (g : Nat) :
    (st.appendSend space n p g).history = { st.history with accepted := st.accepted ++ p.take n } := by
  unfold appendSend
  simp only
  split_ifs <;> rfl

theorem history_takeUnread (st : Stream) (size : Nat) :
    (st.takeUnread size).history = { st.history with returned := st.returned ++ st.unread.take size } := by
  unfold takeUnread
  simp only
  split_ifs <;> rfl

end Stream

namespace Session

variable {s s' : Session} {id : StreamID} {st st' : Stream}

def history (s : Session) (id : StreamID) : History := ((s.get id).map Stream.history).getD {}

theorem history_of_get (h : s.get id = some st) : s.history id = st.history := by
  rw [history, h]
  rfl

theorem history_set (h : s.get id = some st) : (s.set id st').history = Function.update s.history id st'.history := by
  funext id'
  by_cases hid : id' = id
  · subst hid
    rw [Function.update_self, history_of_get (get_set_self h)]
  · rw [Function.update_of_ne hid, history, get_set_ne hid, ← history]

theorem history_set_same (h : s.get id = some st) (hst : st'.history = st.history) :
    (s.set id st').history = s.history := by
  rw [history_set h, hst, ← history_of_get h, Function.update_eq_self]

theorem history_extend (r : Role) (c : Nat) {sendMax w : Nat}
    (h : s'.streams = Function.update s.streams r (s.streams r ++ List.replicate c (.new sendMax w))) :
    s'.history = s.history := by
  funext id
  unfold history get
  rw [h]
  by_cases hr : id.opener = r
  · rw [hr, Function.update_self]
    by_cases hlt : id.num < (s.streams r).length
    · rw [List.getElem?_append_left hlt]
    · rw [List.getElem?_append_right (Nat.not_lt.mp hlt), List.getElem?_eq_none (Nat.not_lt.mp hlt),
        List.getElem?_replicate]
      split_ifs <;> rfl
  · rw [Function.update_of_ne hr]

/-! ## Helpers -/

@[simp] theorem history_queueControl (s : Session) (f : Frame) : (s.queueControl f).history = s.history := rfl

@[simp] theorem history_consumed (s : Session) (n : Nat) : (s.consumed n).history = s.history := by
  unfold consumed
  simp only
  split_ifs <;> rfl

@[simp] theorem history_streamCompleted (s : Session) (id : StreamID) : (s.streamCompleted id).history = s.history := by
  unfold streamCompleted
  split_ifs <;> rfl

@[simp] theorem history_maybeRemove (s : Session) (id : StreamID) : (s.maybeRemove id).history = s.history := by
  unfold maybeRemove
  cases hget : s.get id with
  | none => rfl
  | some st =>
    simp only
    split_ifs
    · rw [history_streamCompleted]
      exact history_set_same hget rfl
    · rfl

@[simp] theorem history_markReady (s : Session) (id : StreamID) : (s.markReady id).history = s.history := by
  unfold markReady
  cases hget : s.get id with
  | none => rfl
  | some st =>
    simp only
    split_ifs
    · rfl
    · rfl
    · exact history_set_same hget rfl

theorem history_streamConsumed (h : s.get id = some st) (n : Nat) :
    (s.streamConsumed id st' n).history = Function.update s.history id st'.history := by
  unfold streamConsumed
  rw [history_maybeRemove, history_consumed]
  simp only
  split_ifs
  · exact history_set h
  · exact history_set h

theorem history_resetSend (h : s.get id = some st) (hst : st'.history = st.history) (code : Nat) :
    (s.resetSend id st' code).history = s.history := by
  unfold resetSend
  rw [history_maybeRemove, history_queueControl]
  exact history_set_same h hst

@[simp] theorem history_closeWith (s : Session) (err : SessionError) (f : Option Frame) (mode : CloseMode) :
    (s.closeWith err f mode).history = s.history := by
  unfold closeWith
  split_ifs <;> rfl

/-! ## Calls -/

@[simp] theorem history_openStreamSync (s : Session) : s.openStreamSync.1.history = s.history := by
  unfold openStreamSync
  split_ifs
  · exact history_extend s.role 1 rfl
  · rfl

@[simp] theorem history_acceptStream (s : Session) : s.acceptStream.1.history = s.history := by
  unfold acceptStream
  cases s.acceptQueue <;> rfl

/-- The bytes that a call of `Read` returns. -/
def ReadResult.bytes : ReadResult → List UInt8
  | .data bytes => bytes
  | _ => []

theorem history_read (h : s.get id = some st) (size : Nat) :
    (s.read id st size).1.history = Function.update s.history id
      { st.history with returned := st.returned ++ (s.read id st size).2.bytes } := by
  have hs : s.history = Function.update s.history id { st.history with returned := st.returned ++ [] } := by
    rw [List.append_nil]
    exact (history_of_get h ▸ Function.update_eq_self id s.history).symm
  unfold read
  by_cases hc : st.readCancelled = true
  · simp only [if_pos hc]
    exact hs
  simp only [if_neg hc]
  cases st.resetReceived with
  | some e => exact hs
  | none =>
    by_cases hun : 0 < st.unread.length
    · simp only [if_pos hun]
      rw [history_streamConsumed h, Stream.history_takeUnread]
      rfl
    simp only [if_neg hun]
    by_cases hf : st.finalKnown = true ∧ st.read = st.finalSize
    · simp only [if_pos hf]
      exact hs
    simp only [if_neg hf]
    cases s.closeErr with
    | some e => exact hs
    | none =>
      simp only
      split_ifs
      · exact hs
      · exact hs

theorem history_write (h : s.get id = some st) (p : List UInt8) (g : Nat) :
    (s.write id st p g).1.history = Function.update s.history id
      { st.history with accepted := st.accepted ++ p.take (s.write id st p g).2 } := by
  have hs : s.history =
      Function.update s.history id { st.history with accepted := st.accepted ++ p.take 0 } := by
    rw [List.take_zero, List.append_nil]
    exact (history_of_get h ▸ Function.update_eq_self id s.history).symm
  unfold write
  split_ifs with hstop
  · exact hs
  simp only
  split_ifs
  · rw [history_markReady, history_set h, Stream.history_appendSend]
  · exact hs

theorem history_close (h : s.get id = some st) :
    (s.close id st).history = s.history ∨
      (s.close id st).history = Function.update s.history id { st.history with closed := true } := by
  unfold close
  split_ifs
  · exact Or.inl rfl
  · rw [history_markReady, history_set h]
    exact Or.inr rfl

theorem history_cancelWrite (h : s.get id = some st) (code : Nat) : (s.cancelWrite id st code).history = s.history := by
  unfold cancelWrite
  split_ifs
  · rfl
  · refine history_resetSend h ?_ code
    rfl

theorem history_cancelRead (h : s.get id = some st) (code : Nat) : (s.cancelRead id st code).history = s.history := by
  unfold cancelRead
  split_ifs with hdone
  · rfl
  simp only [history_maybeRemove]
  by_cases hun : 0 < st.received - st.read
  · have hset : (s.set id { st with
        readCancelled := true, readCode := code, read := st.received, recvBuf := [], recvCap := 0
        recvHead := 0 }).history = s.history := history_set_same h rfl
    simp only [if_pos hun]
    split_ifs <;> simpa using hset
  · have hset : (s.set id { st with readCancelled := true, readCode := code }).history = s.history :=
      history_set_same h rfl
    simp only [if_neg hun]
    split_ifs <;> simpa using hset

/-! ## Records that arrive -/

theorem history_stream {frameType n : Nat} (h : s.stream n frameType = .ok (s', id)) : s'.history = s.history := by
  unfold stream at h
  simp only at h
  split_ifs at h
  all_goals
    obtain ⟨rfl, -⟩ := Prod.mk.inj (Except.ok.inj h)
    try rfl
  exact history_extend _ _ rfl

theorem history_onStream (s : Session) (n frameType : Nat) {handle : Session → StreamID → Stream → Handled}
    (h : ∀ s id st, s.get id = some st → (handle s id st).1.history = s.history) :
    (s.onStream n frameType handle).1.history = s.history := by
  unfold onStream
  cases hs : s.stream n frameType with
  | error e => rfl
  | ok f =>
    obtain ⟨s', id⟩ := f
    have hsa := history_stream hs
    cases hl : s'.live id with
    | none => simpa only [hl] using hsa
    | some st =>
      have hget : s'.get id = some st := (Option.filter_eq_some_iff.mp hl).1
      simp only [hl]
      rw [h s' id st hget, hsa]

theorem history_handleStream {typ n o : Nat} {data : List UInt8} {fin : Bool} (h : s.get id = some st) :
    (handleStream typ n o data fin s id st).1.history = s.history := by
  unfold handleStream
  simp only
  split_ifs
  · rfl
  · rfl
  · rfl
  · rfl
  · rw [history_maybeRemove, history_consumed]
    exact history_set_same h (Stream.history_arrive st _ data fin)
  · rw [history_maybeRemove]
    exact history_set_same h ((Stream.history_appendReceived _ data).trans (Stream.history_arrive st _ data fin))

theorem history_handleResetStream {n errorCode fs : Nat} (h : s.get id = some st) :
    (handleResetStream n errorCode fs s id st).1.history = s.history := by
  unfold handleResetStream
  simp only
  split_ifs
  · rfl
  · rfl
  · rfl
  · rfl
  · rw [history_maybeRemove, set_consumed, history_consumed]
    exact history_set_same h (Stream.history_endByReset st fs _)
  · rw [history_maybeRemove]
    exact history_set_same h (Stream.history_endByReset st fs _)

theorem history_handleStopSending {n errorCode : Nat} (h : s.get id = some st) :
    (handleStopSending n errorCode s id st).1.history = s.history := by
  unfold handleStopSending
  split_ifs
  · rfl
  · refine history_resetSend h ?_ errorCode
    rfl

theorem history_handleMaxStreamData {m : Nat} (h : s.get id = some st) :
    (handleMaxStreamData m s id st).1.history = s.history := by
  unfold handleMaxStreamData
  split_ifs
  · rw [history_markReady]
    exact history_set_same h rfl
  · rfl

theorem history_handleParameters (s : Session) (body : List UInt8) :
    (s.handleParameters body).1.history = s.history := by
  unfold handleParameters
  split_ifs
  · rfl
  · cases decodeParameters s.version body <;> rfl

theorem history_handleFrame (s : Session) (f : Frame) : (s.handleFrame f).1.history = s.history := by
  cases f with
  | stream => exact history_onStream s _ _ fun _ _ _ => history_handleStream
  | resetStream => exact history_onStream s _ _ fun _ _ _ => history_handleResetStream
  | stopSending => exact history_onStream s _ _ fun _ _ _ => history_handleStopSending
  | maxStreamData => exact history_onStream s _ _ fun _ _ _ => history_handleMaxStreamData
  | streamDataBlocked => exact history_onStream s _ _ fun _ _ _ _ => rfl
  | transportParameters body => exact history_handleParameters s body
  | connectionClose => exact history_closeWith ..
  | applicationClose => exact history_closeWith ..
  | padding | dataBlocked => rfl
  | maxData =>
    simp only [handleFrame]
    split_ifs <;> rfl
  | maxStreamsBidi | maxStreamsUni | streamsBlockedBidi | streamsBlockedUni =>
    simp only [handleFrame, checkStreams]
    split_ifs <;> rfl
  | ping =>
    simp only [handleFrame, handlePing]
    split_ifs <;> rfl
  | pingResponse =>
    simp only [handleFrame, handlePingResponse]
    split_ifs <;> rfl

theorem history_handleFrames (s : Session) (rounds : Nat) (buf : List UInt8) :
    (s.handleFrames rounds buf).1.history = s.history := by
  induction rounds generalizing s buf with
  | zero => cases buf <;> rfl
  | succ rounds ih =>
    cases buf with
    | nil => rfl
    | cons b buf =>
      unfold handleFrames
      cases FrameParser.next s.version (b :: buf) with
      | error e => rfl
      | ok fo =>
        obtain ⟨f, rest⟩ := fo
        simp only
        split_ifs
        · rfl
        · have hf := history_handleFrame s f
          generalize s.handleFrame f = handled at hf ⊢
          obtain ⟨s', e | e⟩ := handled
          · simp only
            split_ifs
            · exact hf
            · exact (ih s' rest).trans hf
          · exact hf

theorem history_handleRecord (s : Session) (r : List UInt8) : (s.handleRecord r).1.history = s.history := by
  unfold handleRecord
  split_ifs
  · rfl
  · exact history_handleFrames s _ r

/-! ## Building records -/

theorem history_appendFlowControl (l : Nat) (b : Building) : (appendFlowControl l b).1.history = b.1.history := by
  obtain ⟨s, b⟩ := b
  unfold appendFlowControl appendPing appendPingReply appendMaxStreams appendMaxData
  simp only
  split_ifs <;> rfl

theorem history_sendFrame {b : List Frame} {n : Nat} {fin : Bool} (h : s.get id = some st) :
    (s.sendFrame b id st n fin).1.1.history = s.history := by
  have hs := Stream.history_advanceSend st n
  unfold sendFrame
  simp only
  split_ifs
  · rw [history_maybeRemove]
    exact history_set_same h hs
  · exact history_set_same h hs
  · exact history_set_same h hs

theorem history_sendTurn (l : Nat) (id : StreamID) (b : Building) : (sendTurn l id b).1.1.history = b.1.history := by
  unfold sendTurn
  cases hget : b.1.get id with
  | none => rfl
  | some st =>
    simp only
    split_ifs
    · exact history_set_same hget rfl
    · exact history_set_same hget rfl
    · rfl
    · exact history_sendFrame hget

theorem history_sendReady (l : Nat) (r : List StreamID) (b : Building) :
    (sendReady l r b).1.1.history = b.1.history := by
  induction r generalizing b with
  | nil => rfl
  | cons id r ih =>
    unfold sendReady
    split_ifs
    · rfl
    · have hr := (ih (sendTurn l id b).1).trans (history_sendTurn l id b)
      simp only
      cases (sendTurn l id b).2 <;> exact hr

theorem history_appendStreamData (l : Nat) (b : Building) : (appendStreamData l b).1.1.history = b.1.history :=
  history_sendReady l b.1.ready b

theorem history_buildRecord (s : Session) : s.buildRecord.1.history = s.history := by
  unfold buildRecord
  simp only
  split_ifs
  all_goals try rfl
  all_goals rw [history_appendStreamData, history_appendFlowControl]
  all_goals rfl

end Session

end TrevRpc.Go.Qmux
