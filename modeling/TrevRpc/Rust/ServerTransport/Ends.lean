import TrevRpc.Lib.Run
import TrevRpc.Rust.ServerTransport.Model

/-! # A response never ends without its end -/

open TrevRpc.Run

namespace TrevRpc.Rust.ServerTransport

variable {Dict Stream : Type}

attribute [local simp] ResponseFrame.isStatus

def HasStatus (frames : List ResponseFrame) : Prop := ∃ frame ∈ frames, frame.isStatus = true

def Ended (s : State Dict Stream) : Prop :=
  (HasStatus s.written ∧ s.finished = true) ∨ s.reset = true ∨ s.stopped = true ∨
    ∃ error code, s.writeError = some error ∧ error.transportCode = some code

def EndsResponse (s : State Dict Stream) : Prop := s.phase = .returned → Ended s

/-- The frames to write fit their frames, and the transport fails with transport errors only. -/
def WritesFit (call : Call Dict Stream) (s : State Dict Stream) (e : Event) : Prop :=
  ∀ frames write result, s.phase = .writing frames write → e = .write result →
    WriteFits call.wire call.maxFrameSize s.codec frames ∧
      ∀ error, result = .error error → ¬ error.IsLocal

/-! ## A call in progress -/

/-- The response has its STATUS still to come. -/
def Response.Live : Response → Prop
  | .stream s => s.done = false
  | .lone status => status.isSome = true

def Delivers (frames : List ResponseFrame) (terminal : Bool) (response : Response) : Prop :=
  if terminal then HasStatus frames else response.Live

def InHand (written : List ResponseFrame) : Phase → Prop
  | .writing frames .reject | .writing frames .refuse | .writing frames .unary => HasStatus frames
  | .writing _ (.headers response frames terminal) => Delivers frames terminal response
  | .writing frames (.batch response terminal) => Delivers frames terminal response
  | .packing response frames terminal => Delivers frames terminal response
  | .draining | .finishing => HasStatus written
  | .receiving response => response.Live
  | .batching response batch => response.Live ∧ batch.terminal = false
  | .writing _ .answer | .serving | .dispatching | .resetting => True
  | .returned => False

structure InProgress (s : State Dict Stream) : Prop where
  finished : s.finished = false
  reset : s.reset = false
  stopped : s.stopped = false
  writeError : s.writeError = none
  inHand : InHand s.written s.phase

variable {call : Call Dict Stream} {s s' : State Dict Stream} {e : Event}

theorem InProgress.to {t : State Dict Stream} (h : InProgress s) (ht : InHand t.written t.phase)
    (hf : t.finished = s.finished := by rfl) (hr : t.reset = s.reset := by rfl)
    (hs : t.stopped = s.stopped := by rfl) (hw : t.writeError = s.writeError := by rfl) :
    InProgress t :=
  ⟨hf.trans h.finished, hr.trans h.reset, hs.trans h.stopped, hw.trans h.writeError, ht⟩

theorem pollNext_of_not_done {st : ServerResponseStream} (h : st.done = false) (p : Polled) :
    ∃ f, (st.pollNext p).1 = some f ∧
      (f.isStatus = false → (st.pollNext p).2.done = false) := by
  simp only [ServerResponseStream.pollNext, h, Bool.false_eq_true, if_false]
  cases st.headers with
  | some headers => exact ⟨_, rfl, fun _ => rfl⟩
  | none =>
    cases p with
    | failed status => exact ⟨_, rfl, by simp⟩
    | ended trailers => exact ⟨_, rfl, by simp⟩
    | body body =>
      simp only
      split
      · exact ⟨_, rfl, by simp⟩
      · exact ⟨_, rfl, fun _ => rfl⟩

variable {r : Response}

theorem next_of_live (h : r.Live) (p : Polled) : ∃ f r', r.next p = (some f, r') ∧ (f.isStatus = false → r'.Live) := by
  cases r with
  | lone ss =>
    obtain ⟨ss, rfl⟩ := Option.isSome_iff_exists.mp h
    exact ⟨_, _, rfl, by simp⟩
  | stream stream =>
    obtain ⟨f, hf, hd⟩ := pollNext_of_not_done h p
    exact ⟨f, .stream (stream.pollNext p).2, by simp [Response.next, hf], hd⟩

/-! ## Steps -/

theorem inProgress_writeBatch {b : ResponseBatch} (h : InProgress s)
    (hd : Delivers b.frames b.terminal r) :
    InProgress (s.writeBatch call r b) := by
  obtain ⟨frames, t⟩ := b
  -- The permits do not matter here.
  have hs : InProgress (if t = true then s.release else s) := by
    split
    · exact h.to h.inHand
    · exact h
  simp only [State.writeBatch]
  generalize (if t = true then s.release else s) = s₁ at hs ⊢
  cases call.datagrams with
  | none => exact hs.to hd
  | some sender =>
    simp only
    split
    · -- HEADERS that go out first are not the STATUS.
      refine hs.to ?_
      unfold Delivers HasStatus at hd
      simpa [InHand, Delivers, HasStatus] using hd
    · exact hs.to hd
    · exact hs.to hd
    · exact hs.to hd

theorem inProgress_push {response : Response} {b : ResponseBatch} {f : ResponseFrame}
    (h : InProgress s) (hl : f.isStatus = false → response.Live) :
    InProgress (s.push call response b f) := by
  have hd : Delivers (b.frames ++ [f]) f.isStatus response := by
    unfold Delivers
    split_ifs with hs
    · exact ⟨f, by simp, hs⟩
    · exact hl (eq_false_of_ne_true hs)
  simp only [State.push]
  split
  · exact inProgress_writeBatch h hd
  · rename_i hf
    have hs : f.isStatus = false := by
      by_contra hne
      simp [pushResponseFrame, hne, -ResponseFrame.isStatus] at hf
    exact h.to ⟨hl hs, hs⟩

theorem inProgress_afterBatch {t : Bool} (h : InProgress s)
    (hd : if t then HasStatus s.written else r.Live) :
    InProgress (s.afterBatch r t) := by
  cases t with
  | true => exact h.to hd
  | false => exact h.to hd

variable {fs : List ResponseFrame}

theorem inProgress_sendBatch {sender : FlowSender Dict} {ms : Option Nat} {a : List Bool} {t : Bool} (h : InProgress s)
    (hd : Delivers fs t r) :
    InProgress (s.sendBatch call sender ms a r fs t) := by
  -- A STATUS is no message, so it stays with the frames of the stream.
  have hk (os : List ResponseFrame) (hs : HasStatus fs) :
      HasStatus (os ++ fs.filter fun f => (bodyOf f).isNone) := by
    obtain ⟨f, hmem, hst⟩ := hs
    refine ⟨f, ?_, hst⟩
    cases f with
    | status status => simp [bodyOf, hmem]
    | headers metadata => simp at hst
    | message body => simp at hst
  simp only [State.sendBatch]
  split
  · rename_i hem
    refine inProgress_afterBatch (h.to h.inHand) ?_
    cases t with
    | false => exact hd
    | true =>
      obtain ⟨f, hmem, -⟩ := hk _ hd
      rw [List.isEmpty_iff] at hem
      rw [hem] at hmem
      simp at hmem
  · refine h.to ?_
    cases t with
    | false => exact hd
    | true => exact hk _ hd

theorem inProgress_afterWrite {frames : List ResponseFrame} {w : Write}
    {codec : ResponseCodec Dict Stream} (h : InProgress s) (hp : s.phase = .writing frames w) :
    InProgress ({ s with codec, written := s.written ++ frames }.afterWrite call w) := by
  have hin := h.inHand
  rw [hp] at hin
  have hap (hs : HasStatus frames) : HasStatus (s.written ++ frames) := by
    obtain ⟨f, hmem, hst⟩ := hs
    exact ⟨f, by simp [hmem], hst⟩
  cases w with
  | reject =>
    refine h.to ?_
    simp only [State.afterWrite]
    split
    · exact hap hin
    · exact hap hin
  | refuse => exact h.to (hap hin)
  | unary => exact h.to (hap hin)
  | answer => exact h.to trivial
  | headers r rest t => exact h.to hin
  | batch r t =>
    cases t with
    | true => exact h.to (hap hin)
    | false => exact h.to hin

def Inv (s : State Dict Stream) : Prop := InProgress s ∨ (s.phase = .returned ∧ Ended s)

theorem inv_writeFrames {w : Write} {r : Except Error Unit}
    (h : InProgress s) (hp : s.phase = .writing fs w)
    (hok : WritesFit call s (.write r)) (hs : s.writeFrames call fs w r = some s') :
    Inv s' := by
  obtain ⟨hf, ht⟩ := hok fs w r hp rfl
  have hc := writeResponseFrames_checks call.wire call.maxFrameSize s.codec fs
  unfold State.writeFrames at hs
  split at hs
  · rename_i error _ hw
    rw [hw] at hc
    exact absurd hf hc.1
  · cases hs
    exact .inl (inProgress_afterWrite h hp)
  · rename_i error hw
    cases hs
    obtain ⟨code, hco⟩ := Option.ne_none_iff_exists'.mp (ht error rfl)
    exact .inr ⟨rfl, .inr (.inr (.inr ⟨error, code, rfl, hco⟩))⟩
  · cases hs

theorem inv_stopBy (st : Except Error Unit) : Inv (s.stopBy st) :=
  .inr ⟨rfl, .inr (.inr (.inl rfl))⟩

theorem hasStatus_unaryResponseFrames (r : Except Status ResponseEnvelope) : HasStatus (unaryResponseFrames r) := by
  cases r with
  | error status => exact ⟨_, List.mem_singleton_self _, rfl⟩
  | ok r => exact ⟨_, List.mem_append_right _ (List.mem_cons_of_mem _ (List.mem_singleton_self _)), rfl⟩

theorem inv_step (h : InProgress s) (hok : WritesFit call s e) (hs : step call s e = some s') : Inv s' := by
  have hin := h.inHand
  unfold step at hs
  split at hs
  all_goals rename_i hp
  all_goals try rw [hp] at hin
  · exact inv_writeFrames h hp hok hs
  · cases hs
    exact .inl (h.to hin)
  · cases hs
    exact .inr ⟨rfl, .inr (.inl rfl)⟩
  · cases hs
    exact .inr ⟨rfl, .inl ⟨hin, rfl⟩⟩
  · -- A unary call.
    cases hs
    exact .inl (h.to (hasStatus_unaryResponseFrames _))
  · split at hs
    · cases hs
      exact .inl (h.to (hasStatus_unaryResponseFrames _))
    · cases hs
      exact .inl (h.to trivial)
  · cases hs
    exact inv_stopBy _
  · cases hs
    exact inv_stopBy _
  · cases hs
    exact .inl (h.to trivial)
  · cases hs
    exact .inl (h.to trivial)
  · -- A streaming call whose handler is running.
    cases hs
    exact .inl (h.to rfl)
  · cases hs
    exact .inl (h.to rfl)
  · split at hs
    · cases hs
      exact .inl (h.to rfl)
    · cases hs
      exact .inl (h.to trivial)
  · -- A streaming call at its next frame: a pump failure ends it with its own STATUS.
    split at hs
    · cases hs
      refine .inl (inProgress_push (h.to ?_) (by simp))
      exact h.inHand
    · cases hs
      exact .inl (h.to trivial)
  · obtain ⟨f, r', hn, hl⟩ := next_of_live hin ‹Polled›
    rw [hn] at hs
    cases hs
    exact .inl (inProgress_push h hl)
  · split at hs
    · cases hs
    · cases hs
      exact inv_stopBy _
  · split at hs
    · cases hs
    · cases hs
      exact .inl (h.to trivial)
  · -- The frames that are ready join the batch.
    obtain ⟨f, r', hn, hl⟩ := next_of_live hin.1 ‹Polled›
    rw [hn] at hs
    cases hs
    exact .inl (inProgress_push h hl)
  · split at hs
    · cases hs
    · cases hs
      refine .inl (inProgress_writeBatch h ?_)
      rw [hin.2]
      exact hin.1
  · split at hs
    · cases hs
    · cases hs
      exact .inl (inProgress_sendBatch h hin)
  · cases hs

theorem not_ended_of_local_failure (h : InProgress s) (hbad : ¬ WritesFit call s e)
    (hs : step call s e = some s') : s'.phase = .returned ∧ ¬ Ended s' := by
  simp only [WritesFit, not_forall] at hbad
  obtain ⟨fs, w, r, hp, rfl, hbad⟩ := hbad
  have hf (error : Error) (t : State Dict Stream) (ht : InProgress t) (hl : error.IsLocal) :
      (t.failWrite w error).phase = .returned ∧ ¬ Ended (t.failWrite w error) := by
    refine ⟨rfl, ?_⟩
    rintro (⟨-, hfin⟩ | hr | hst | ⟨error', code, herr, hco⟩)
    · exact absurd hfin (by cases w <;> simp [State.failWrite, State.cancel, ht.finished])
    · exact absurd hr (by cases w <;> simp [State.failWrite, State.cancel, ht.reset])
    · exact absurd hst (by cases w <;> simp [State.failWrite, State.cancel, ht.stopped])
    · obtain rfl : error = error' := Option.some.inj herr
      simp [Error.IsLocal, hco] at hl
  have hc := writeResponseFrames_checks call.wire call.maxFrameSize s.codec fs
  have hs' : s.writeFrames call fs w r = some s' := by
    simpa only [step, hp] using hs
  clear hs
  unfold State.writeFrames at hs'
  split at hs'
  · rename_i error hw
    rw [hw] at hc
    cases hs'
    exact hf error s h hc.2
  · rename_i hw
    rw [hw] at hc
    exact absurd ⟨hc.1, by simp⟩ hbad
  · rename_i error hw
    rw [hw] at hc
    cases hs'
    refine hf error _ (h.to h.inHand) ?_
    by_contra hne
    exact hbad ⟨hc.1, fun error' he => by cases he; exact hne⟩
  · cases hs'

theorem inProgress_handleStream (call : Call Dict Stream) : InProgress (handleStream call) := by
  have lone (ss : Status) : HasStatus [.status ss] := ⟨_, List.mem_singleton_self _, rfl⟩
  unfold handleStream
  dsimp only
  split
  · exact ⟨rfl, rfl, rfl, rfl, lone _⟩
  · split_ifs
    all_goals exact ⟨rfl, rfl, rfl, rfl, by first | trivial | exact lone _⟩

/-! ## Whole calls -/

/-- A call returns with an end of its response, exactly if no write fails on its own. -/
theorem handleStream_ends_iff (call : Call Dict Stream) (events : List Event) (s : State Dict Stream)
    (hrun : run (step call) (handleStream call) events = some s) :
    Always (fun _ => EndsResponse) (step call) (handleStream call) events ↔
      Along (WritesFit call) (step call) (handleStream call) events := by
  refine always_iff_along (I := fun _ => Inv) (.inl (inProgress_handleStream call)) ?_ ?_ ?_ hrun
  · rintro - t (h | ⟨-, h⟩) hret
    · have := h.inHand
      rw [hret] at this
      exact this.elim
    · exact h
  · rintro - t e t' (h | ⟨hret, -⟩) hok hstep
    · exact inv_step h hok hstep
    · simp [step, hret] at hstep
  · rintro - t e t' (h | ⟨hret, -⟩) hbad hstep hends
    · obtain ⟨hret', hnot⟩ := not_ended_of_local_failure h hbad hstep
      exact hnot (hends hret')
    · simp [step, hret] at hstep

def unaryCall : Call Unit Unit where
  wire :=
    { headers := fun metadata => metadata.flatMap fun entry => entry.2
      status := fun status => status.metadata.flatMap fun entry => entry.2
      answer := fun _ => []
      isPlain := fun _ => true
      compress := fun _ _ => none
      streamEncode := fun stream _ _ => (none, stream) }
  maxFrameSize := 4
  kind := .unary
  admission := .ok ()
  refusesOptimistic := false
  codec := {}
  acquiresRequest := true
  answersAtDispatch := false
  limits := ⟨none, none⟩
  datagrams := none

def unaryEvents (body : Bytes) : List Event :=
  [.handlerReturns (.ok ⟨body, [], []⟩), .write (.ok ())]

theorem handleStream_ends_iff_small_message :
    ∃ s, run (step unaryCall) (handleStream unaryCall) (unaryEvents [1, 2, 3] ++ [.finish]) = some s ∧
      Ended s ∧
      (Always (fun _ => EndsResponse) (step unaryCall) (handleStream unaryCall)
          (unaryEvents [1, 2, 3] ++ [.finish]) ↔
        Along (WritesFit unaryCall) (step unaryCall) (handleStream unaryCall)
          (unaryEvents [1, 2, 3] ++ [.finish])) :=
  ⟨_, rfl, .inl ⟨⟨_, List.mem_cons_of_mem _ (List.mem_singleton_self _), rfl⟩, rfl⟩,
    handleStream_ends_iff unaryCall _ _ rfl⟩

/-- One byte more than fits a frame: no STATUS, no reset, and no complaint of the writer. -/
theorem handleStream_large_message_never_ends :
    ∃ s, run (step unaryCall) (handleStream unaryCall) (unaryEvents [1, 2, 3, 4, 5]) = some s ∧
      s.phase = .returned ∧ s.written = [] ∧ s.finished = false ∧ s.reset = false ∧
      s.writeError = some (.frameTooLarge 5 4) ∧ ¬ EndsResponse s := by
  refine ⟨_, rfl, rfl, rfl, rfl, rfl, rfl, fun h => ?_⟩
  rcases h rfl with ⟨-, h⟩ | h | h | ⟨error, code, herror, hcode⟩
  · cases h
  · cases h
  · cases h
  · cases herror
    cases hcode

end TrevRpc.Rust.ServerTransport
