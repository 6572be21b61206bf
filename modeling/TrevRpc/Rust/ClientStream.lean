import TrevRpc.Lib.Run
import TrevRpc.Rust.Datagram

/-!
# A streaming call of the Rust client (`client/native.rs`, `client/upload.rs`)

The upload task and the response stream meet when the terminal STATUS is read: the response then stops the upload and
takes its result.
-/

open TrevRpc.Run

namespace TrevRpc.Rust.ClientStream

variable {Dict Stream : Type}

/-! ## The upload -/

def messageFrameBatch : Nat := 32

/-- `take_ready_messages` with `ready` polls ready: the batch, the rest, and whether that has ended. -/
def takeReadyMessages : Nat → List (Except Error Bytes) → List Bytes →
    Except Error (List Bytes × List (Except Error Bytes) × Bool)
  | 0, items, batch => .ok (batch, items, false)
  | ready + 1, items, batch =>
    if batch.length < messageFrameBatch then
      match items with
      | [] => .ok (batch, [], true)
      | .error error :: _ => .error error
      | .ok body :: rest => takeReadyMessages ready rest (batch ++ [body])
    else .ok (batch, items, false)

/-- Where `write_streaming_request` is. -/
inductive Upload
  | starting
  | writing (first : Bool) (batch : List Bytes) (done : Bool)
  | waiting
  | sending (batch : List Bytes) (done : Bool)
  | finishing
  | ended (result : Except Error Unit)

/-- The encoded REQUEST, the request stream, the frames of `read_response_frame` and their end. -/
structure Call (Dict Stream : Type) where
  wire : Wire Dict Stream
  maxFrameSize : Nat
  request : Bytes
  requestBody : List (Except Error Bytes)
  encoder : MessageEncoder Dict Stream
  datagrams : Option (FlowSender Dict)
  received : List ResponseFrame
  fin : Except Error Unit
  /-- The STATUS refused the optimistic call, and the call kept what it needs to be replayed. -/
  replayed : Bool

/-- Where `next_response` is. -/
inductive Reader
  | reading
  | settling (status : Status)
  | ending
  | failing (error : Error)
  | replaced
  | done
  deriving DecidableEq

structure State (Dict Stream : Type) where
  incoming : List ResponseFrame
  reader : Reader := .reading
  yielded : List (Except Error ResponseFrame) := []
  upload : Upload := .starting
  requestBody : List (Except Error Bytes)
  encoder : MessageEncoder Dict Stream

def openCall (call : Call Dict Stream) : State Dict Stream where
  incoming := call.received
  requestBody := call.requestBody
  encoder := call.encoder

inductive Action
  | start (ready : Nat)
  | next (ready : Nat)
  | write (result : Except Error Unit)
  | sendBatch (maxSize : Option Nat) (accepted : List Bool)
  | finish (result : Except Error Unit)
  | read
  | settle

/-- What follows a batch that has been sent. -/
def Upload.afterBatch (done : Bool) : Upload := if done then .finishing else .waiting

def State.takeBatch (ready : Nat) (items : List (Except Error Bytes)) (batch : List Bytes)
    (next : List Bytes → Bool → Upload) (s : State Dict Stream) : State Dict Stream :=
  match takeReadyMessages ready items batch with
  | .error error => { s with upload := .ended (.error error) }
  | .ok (batch, requestBody, done) => { s with requestBody, upload := next batch done }

def State.writeBatch (call : Call Dict Stream) (first : Bool) (batch : List Bytes) (done : Bool)
    (result : Except Error Unit) (s : State Dict Stream) : State Dict Stream :=
  let chunks :=
    if first then writeRequest call.wire call.maxFrameSize s.encoder call.request batch
    else writeMessageFrames call.wire call.maxFrameSize s.encoder batch
  match chunks, result with
  | .error error, _ | .ok _, .error error => { s with upload := .ended (.error error) }
  | .ok (_, encoder), .ok () => { s with encoder, upload := .afterBatch done }

/-- A step of the upload, on the stream or in datagrams for the messages that fit them. -/
def uploadStep (call : Call Dict Stream) (s : State Dict Stream) : Action → Option (State Dict Stream)
  | .start ready =>
    match s.upload, call.datagrams with
    | .starting, none => some (s.takeBatch ready s.requestBody [] (.writing true))
    | .starting, some _ => some { s with upload := .writing true [] false }
    | _, _ => none
  | .next ready =>
    match s.upload, s.requestBody with
    | .waiting, [] => some { s with upload := .finishing }
    | .waiting, .error error :: _ => some { s with upload := .ended (.error error) }
    | .waiting, .ok body :: rest =>
      some (s.takeBatch ready rest [body] (if call.datagrams.isSome then .sending else .writing false))
    | _, _ => none
  | .sendBatch maxSize accepted =>
    match s.upload, call.datagrams with
    | .sending batch done, some sender =>
      let onStream := (sender.sendBatch call.wire maxSize accepted batch).onStream
      some { s with
        upload := if onStream.isEmpty then .afterBatch done else .writing false onStream done }
    | _, _ => none
  | .write result =>
    match s.upload with
    | .writing first batch done => some (s.writeBatch call first batch done result)
    | _ => none
  | .finish result =>
    match s.upload with
    | .finishing => some { s with upload := .ended result }
    | _ => none
  | .read | .settle => none

/-! ## The response stream -/

/-- `abort_and_settle`: the result of an upload that has ended, or of its cancellation. -/
def abortAndSettle : Upload → Except Error Unit
  | .ended result => result
  | _ => .ok ()

/-- `drain_fin_after_terminal_status`: nothing may follow the STATUS. -/
def drainFin (incoming : List ResponseFrame) (fin : Except Error Unit) : Except Error Unit :=
  match incoming with
  | [] => fin
  | _ :: _ =>
    .error (.status { code := .internal, message := "response stream continued after terminal status" })

def statusItem (status : Status) (uploadResult drainResult : Except Error Unit) :
    Except Error ResponseFrame :=
  match drainResult with
  | .error error => .error error
  | .ok () =>
    if status.code = .ok then uploadResult.map fun () => .status status else .ok (.status status)

/-- A step of the reader, or of the upload, which goes on until the reader has settled it. -/
def step (call : Call Dict Stream) (s : State Dict Stream) : Action → Option (State Dict Stream)
  | .read =>
    match s.reader, s.incoming with
    | .reading, .status status :: rest =>
      some { s with
        incoming := rest
        reader := if call.replayed then .replaced else .settling status }
    | .reading, frame :: rest => some { s with incoming := rest, yielded := s.yielded ++ [.ok frame] }
    | .reading, [] =>
      some { s with
        reader := match call.fin with
          | .ok () => .ending
          | .error error => .failing error }
    | _, _ => none
  | .settle =>
    let uploadResult := abortAndSettle s.upload
    match s.reader with
    | .settling status =>
      some { s with
        upload := .ended uploadResult
        yielded := s.yielded ++ [statusItem status uploadResult (drainFin s.incoming call.fin)]
        reader := .done }
    | .ending => some { s with upload := .ended uploadResult, reader := .done }
    | .failing error =>
      some { s with
        upload := .ended uploadResult
        yielded := s.yielded ++ [.error error]
        reader := .done }
    | _ => none
  | action => uploadStep call s action

/-- The response is `[HEADERS] MESSAGE* STATUS` and ends cleanly. -/
def WellFormed (call : Call Dict Stream) (status : Status) : Prop :=
  call.fin = .ok () ∧ ∃ (headers : Option Metadata) (messages : List Bytes),
    call.received = headers.toList.map .headers ++ messages.map .message ++ [.status status]

/-- Once the response stream has ended, it has yielded the server's frames, the STATUS last. -/
def YieldsStatus (call : Call Dict Stream) (status : Status) (s : State Dict Stream) : Prop :=
  s.reader = .done →
    s.yielded = call.received.map .ok ∧ s.yielded.getLast? = some (.ok (.status status))

/-- An OK status does not meet an upload that has failed. -/
def UploadNotFailed (s : State Dict Stream) : Action → Prop
  | .settle => ∀ status error, s.reader = .settling status → s.upload = .ended (.error error) →
      status.code ≠ .ok
  | _ => True

/-! ## Proofs -/

def Inv (call : Call Dict Stream) (s : State Dict Stream) : Prop :=
  match s.reader with
  | .reading =>
    s.yielded ++ s.incoming.map .ok = call.received.map .ok ∧ ∃ status, .status status ∈ s.incoming
  | .settling status =>
    s.incoming = [] ∧ s.yielded ++ [.ok (.status status)] = call.received.map .ok
  | .replaced => True
  | .done => s.yielded = call.received.map .ok
  | .ending | .failing _ => False

variable {call : Call Dict Stream} {s s' : State Dict Stream} {a : Action}

theorem uploadStep_frame (h : uploadStep call s a = some s') :
    s'.incoming = s.incoming ∧ s'.reader = s.reader ∧ s'.yielded = s.yielded := by
  have ht (re : Nat) (i : List (Except Error Bytes)) (b : List Bytes)
      (next : List Bytes → Bool → Upload) : (s.takeBatch re i b next).incoming = s.incoming ∧
      (s.takeBatch re i b next).reader = s.reader ∧
      (s.takeBatch re i b next).yielded = s.yielded := by
    unfold State.takeBatch
    split <;> simp
  have hw (first : Bool) (b : List Bytes) (done : Bool) (r : Except Error Unit) :
      (s.writeBatch call first b done r).incoming = s.incoming ∧
      (s.writeBatch call first b done r).reader = s.reader ∧
      (s.writeBatch call first b done r).yielded = s.yielded := by
    unfold State.writeBatch
    dsimp only
    split <;> simp
  unfold uploadStep at h
  split at h
  all_goals try split at h
  all_goals cases h
  all_goals first | exact ht .. | exact hw .. | exact ⟨rfl, rfl, rfl⟩

variable {last : Status}

variable (hw : WellFormed call last)
include hw

theorem status_last {status : Status} {done rest : List ResponseFrame}
    (h : done ++ .status status :: rest = call.received) :
    rest = [] ∧ status = last := by
  obtain ⟨-, headers, ms, hr⟩ := hw
  have hn : ∀ f ∈ headers.toList.map .headers ++ ms.map ResponseFrame.message,
      f.isStatus = false := by
    intro f hmem
    simp only [List.mem_append, List.mem_map] at hmem
    rcases hmem with ⟨_, -, rfl⟩ | ⟨_, -, rfl⟩ <;> rfl
  rw [hr] at h
  rcases List.eq_nil_or_concat rest with rfl | ⟨init, f, rfl⟩
  · refine ⟨rfl, ?_⟩
    have := (List.append_inj' h rfl).2
    simpa using this
  · -- More frames after this STATUS would put it before the last frame.
    exfalso
    have ha : (done ++ .status status :: init) ++ [f] =
        headers.toList.map .headers ++ ms.map .message ++ [.status last] := by simpa using h
    have hi := (List.append_inj' ha rfl).1
    have hmem := hn (.status status) (by rw [← hi]; simp)
    simp [ResponseFrame.isStatus] at hmem

theorem inv_read (h : Inv call s) (hs : step call s .read = some s') : Inv call s' := by
  simp only [step] at hs
  split at hs
  · rename_i ss rest hr hin
    cases hs
    simp only [Inv, hr, hin] at h
    cases hrep : call.replayed with
    | true => simp [Inv]
    | false =>
      -- All that was yielded is a frame of the server, so the STATUS is its last one.
      obtain ⟨done, hd⟩ : ∃ done : List ResponseFrame, s.yielded = done.map .ok := by
        obtain ⟨done, _, -, hd, -⟩ := List.append_eq_map_iff.mp h.1
        exact ⟨done, hd.symm⟩
      have hf := h.1
      rw [hd, ← List.map_append, List.map_inj_right (fun _ _ => Except.ok.inj)] at hf
      obtain ⟨rfl, rfl⟩ := status_last hw hf
      simp only [Inv, Bool.false_eq_true, if_false]
      rw [hd, ← hf]
      simp
  · rename_i frame rest hnot hr hin
    cases hs
    simp only [Inv, hr, hin] at h ⊢
    refine ⟨by simpa using h.1, ?_⟩
    obtain ⟨ss, hmem⟩ := h.2
    rcases List.mem_cons.mp hmem with rfl | hre
    · exact absurd rfl (hnot ss)
    · exact ⟨ss, hre⟩
  · rename_i hr hin
    simp only [Inv, hr, hin] at h
    obtain ⟨ss, hmem⟩ := h.2
    simp at hmem
  · cases hs

theorem inv_step (h : Inv call s) (hok : UploadNotFailed s a) (hs : step call s a = some s') : Inv call s' := by
  have hupl (hu : uploadStep call s a = some s') : Inv call s' := by
    obtain ⟨hi, hr, hy⟩ := uploadStep_frame hu
    unfold Inv at h ⊢
    rw [hi, hr, hy]
    exact h
  cases a with
  | read => exact inv_read hw h hs
  | settle =>
    simp only [step] at hs
    split at hs
    · rename_i status hre
      cases hs
      simp only [Inv, hre] at h ⊢
      have hit : statusItem status (abortAndSettle s.upload) (drainFin s.incoming call.fin) =
          .ok (.status status) := by
        rw [h.1, drainFin, hw.1]
        simp only [statusItem]
        split_ifs with hc
        · cases hup : s.upload with
          | ended r =>
            cases r with
            | ok _ => rfl
            | error error => exact absurd hc (hok status error hre hup)
          | _ => rfl
        · rfl
      rw [hit]
      exact h.2
    · rename_i hre
      simp [Inv, hre] at h
    · rename_i error hre
      simp [Inv, hre] at h
    · cases hs
  | start re | next re | write r | sendBatch maxSize accepted | finish r => exact hupl hs

theorem not_yieldsStatus_of_failed (h : Inv call s)
    (hbad : ¬ UploadNotFailed s a) (hs : step call s a = some s') : ¬ YieldsStatus call last s' := by
  cases a <;> simp only [UploadNotFailed, not_true_eq_false] at hbad
  push Not at hbad
  obtain ⟨status, error, hr, hup, hc⟩ := hbad
  simp only [Inv, hr] at h
  simp only [step, hr, hup, abortAndSettle, Option.some.injEq] at hs
  subst hs
  intro hy
  have hl := (hy rfl).2
  rw [h.1, drainFin, hw.1] at hl
  simp [statusItem, hc, Except.map] at hl

omit hw

/-! ## Whole calls -/

/-- A response that is not replayed ends in its STATUS, exactly if an OK never settles a failed upload. -/
theorem response_yieldsStatus_iff (call : Call Dict Stream) (status : Status)
    (hwell : WellFormed call status) (actions : List Action) (s : State Dict Stream)
    (hrun : run (step call) (openCall call) actions = some s) :
    Always (fun _ => YieldsStatus call status) (step call) (openCall call) actions ↔
      Along UploadNotFailed (step call) (openCall call) actions := by
  obtain ⟨-, headers, messages, hreceived⟩ := id hwell
  apply always_iff_along (I := fun _ => Inv call) _ _ _ _ hrun
  · exact ⟨rfl, status, by simp [openCall, hreceived]⟩
  · intro _ t h hdone
    simp only [Inv, hdone] at h
    exact ⟨h, by simp [h, hreceived]⟩
  · intro _ t a t' h hok hstep
    exact inv_step hwell h hok hstep
  · intro _ t a t' h hbad hstep
    exact not_yieldsStatus_of_failed hwell h hbad hstep

def earlyOkCall : Call Unit Unit where
  wire :=
    { headers := fun _ => []
      status := fun _ => []
      answer := fun _ => []
      isPlain := fun _ => true
      compress := fun _ _ => none
      streamEncode := fun stream _ _ => (none, stream) }
  maxFrameSize := 4
  request := [7]
  requestBody := [.ok [1], .ok [2]]
  encoder := {}
  datagrams := none
  received := [.status { code := .ok, message := "" }]
  fin := .ok ()
  replayed := false

theorem wellFormed_earlyOkCall : WellFormed earlyOkCall { code := .ok, message := "" } :=
  ⟨rfl, none, [], rfl⟩

theorem response_yieldsStatus_open_upload :
    ∃ s, run (step earlyOkCall) (openCall earlyOkCall)
        [.start 1, .write (.ok ()), .read, .settle] = some s ∧
      s.yielded = [.ok (.status { code := .ok, message := "" })] ∧
      (Always (fun _ => YieldsStatus earlyOkCall { code := .ok, message := "" }) (step earlyOkCall)
          (openCall earlyOkCall) [.start 1, .write (.ok ()), .read, .settle] ↔
        Along UploadNotFailed (step earlyOkCall) (openCall earlyOkCall)
          [.start 1, .write (.ok ()), .read, .settle]) :=
  ⟨_, rfl, rfl, response_yieldsStatus_iff earlyOkCall _ wellFormed_earlyOkCall _ _ rfl⟩

/-- The server stops reading and answers OK: the write that fails takes the place of that status. -/
theorem response_stopped_upload_hides_ok :
    ∃ s, run (step earlyOkCall) (openCall earlyOkCall)
        [.start 1, .write (.ok ()), .next 0, .write (.error (.transport .cancelled)), .read, .settle] =
          some s ∧
      s.reader = .done ∧ s.yielded = [.error (.transport .cancelled)] ∧
      ¬ YieldsStatus earlyOkCall { code := .ok, message := "" } s := by
  refine ⟨_, rfl, rfl, rfl, fun h => ?_⟩
  cases (h rfl).2

end TrevRpc.Rust.ClientStream
