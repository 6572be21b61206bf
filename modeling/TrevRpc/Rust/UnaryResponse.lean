import TrevRpc.Rust.ResponseState
import TrevRpc.Rust.ServerTransport.Model

/-! # The language of responses (`response_state.rs`) -/

open TrevRpc.Rust.ServerTransport (ResponseEnvelope)

namespace TrevRpc.Rust

/-- A unary response as it is read, frame by frame. -/
structure UnaryResponse where
  state : ResponseState := {}
  headers : Metadata := []
  message : Option Bytes := none
  deriving DecidableEq

namespace UnaryResponse

/-- Whether the frame was the terminal status. A second MESSAGE is an error. -/
def accept (r : UnaryResponse) (frame : ResponseFrame) : Except Status Bool × UnaryResponse :=
  match r.state.accept frame with
  | (.error failure, state) => (.error failure.status, { r with state })
  | (.ok (.headers headers), state) => (.ok false, { r with state, headers })
  | (.ok (.message body), state) =>
    if r.message.isSome then
      (.error (.internal "unary response contained more than one message"), { r with state, message := some body })
    else (.ok false, { r with state, message := some body })
  | (.ok .terminal, state) => (.ok true, { r with state })

/-- The end of the stream: the one body with its metadata, or the status. -/
def finish (r : UnaryResponse) : Except Status ResponseEnvelope :=
  match r.state.finish with
  | (.error failure, _) => .error failure.status
  | (.ok (), state) =>
    match r.message with
    | none => .error (.internal "unary response contained no message")
    | some body => .ok { body, headers := r.headers, metadata := (state.terminalStatus.map (·.metadata)).getD [] }

/-- Reads the frames to the end of the stream. -/
def collect (r : UnaryResponse) : List ResponseFrame → Except Status ResponseEnvelope
  | [] => r.finish
  | frame :: rest =>
    match r.accept frame with
    | (.error status, _) => .error status
    | (.ok _, r) => r.collect rest

end UnaryResponse

def ValidMetadata (metadata : Metadata) : Prop := Connection.validateMetadata metadata = .ok ()

/-- The frames of `[HEADERS] MESSAGE* STATUS`. -/
def responseFrames (headers : Option Metadata) (messages : List Bytes) (status : Status) : List ResponseFrame :=
  headers.toList.map .headers ++ (messages.map .message ++ [.status status])

/-- The frames are such a response, and its metadata is valid. -/
structure IsResponse (frames : List ResponseFrame) (headers : Option Metadata) (messages : List Bytes)
    (status : Status) : Prop where
  frames : frames = responseFrames headers messages status
  headers : ∀ metadata ∈ headers, ValidMetadata metadata
  status : ValidMetadata status.metadata

namespace ResponseState

/-- Accepts the frames, then ends. -/
def complete (s : ResponseState) (frames : List ResponseFrame) : Option ResponseState :=
  (s.acceptAll frames).map fun s => s.finish.2

/-- A frame has come, and no STATUS. -/
def body : ResponseState := { firstFrameSeen := true }

/-- STATUS has come. -/
def ended (status : Status) : ResponseState := { firstFrameSeen := true, pendingTerminalStatus := some status }

variable {s s' : ResponseState} {frames : List ResponseFrame} {status : Status} {metadata : Metadata}

theorem validateMetadata_eq_ok : validateMetadata metadata = .ok () ↔ ValidMetadata metadata := by
  unfold validateMetadata ValidMetadata
  cases Connection.validateMetadata metadata <;> simp [Except.mapError]

theorem complete_messages (ms : List Bytes) (rest : List ResponseFrame) :
    body.complete (ms.map .message ++ rest) = body.complete rest := by
  induction ms with
  | nil => rfl
  | cons b ms ih => exact ih

theorem complete_headers (hv : ValidMetadata metadata) :
    ({} : ResponseState).complete (.headers metadata :: frames) = body.complete frames := by
  simp [complete, acceptAll, accept, ensureOpen, validateMetadata_eq_ok.mpr hv, body]

theorem complete_status (hv : ValidMetadata status.metadata) :
    body.complete (.status status :: frames) = (ended status).complete frames := by
  simp [complete, acceptAll, accept, ensureOpen, validateMetadata_eq_ok.mpr hv, body, ended]

theorem complete_body (h : ∀ metadata, frames.head? ≠ some (.headers metadata)) (hne : frames ≠ []) :
    ({} : ResponseState).complete frames = body.complete frames := by
  rcases frames with _ | ⟨_ | _ | _, rest⟩
  · exact absurd rfl hne
  · exact absurd rfl (h _)
  · rfl
  · rfl

theorem terminalStatus_ended : ((ended status).complete []).bind terminalStatus = some status := by
  by_cases hc : status.code = .ok <;> simp [complete, acceptAll, finish, ended, hc]

theorem complete_responseFrames {headers : Option Metadata} {ms : List Bytes}
    (h : IsResponse frames headers ms status) :
    ((({} : ResponseState).complete frames).bind terminalStatus) = some status := by
  have hb : (body.complete (ms.map .message ++ [.status status])).bind terminalStatus = some status := by
    rw [complete_messages, complete_status h.status]
    exact terminalStatus_ended
  rw [h.frames]
  cases headers with
  | none =>
    rw [← hb, complete_body]
    · rfl
    · cases ms <;> simp [responseFrames]
    · simp [responseFrames]
  | some metadata =>
    rw [← hb, ← complete_headers (h.headers metadata rfl)]
    rfl

theorem messages_of_complete (h : (body.complete frames).bind terminalStatus = some status) :
    ∃ ms : List Bytes, frames = ms.map .message ++ [.status status] ∧ ValidMetadata status.metadata := by
  induction frames with
  | nil => cases h
  | cons f rest ih =>
    cases f with
    | headers metadata => cases h
    | message b =>
      obtain ⟨ms, rfl, hv⟩ := ih h
      exact ⟨b :: ms, rfl, hv⟩
    | status st =>
      have hv : ValidMetadata st.metadata := by
        cases hm : validateMetadata st.metadata with
        | error e => simp [complete, acceptAll, accept, ensureOpen, body, hm] at h
        | ok => exact validateMetadata_eq_ok.mp hm
      rw [complete_status hv] at h
      cases rest with
      | nil =>
        obtain rfl := Option.some.inj (terminalStatus_ended.symm.trans h)
        exact ⟨[], rfl, hv⟩
      | cons f rest => cases h

theorem isResponse_of_complete (h : (({} : ResponseState).complete frames).bind terminalStatus = some status) :
    ∃ headers ms, IsResponse frames headers ms status := by
  by_cases hh : ∃ metadata rest, frames = .headers metadata :: rest
  · obtain ⟨metadata, rest, rfl⟩ := hh
    have hv : ValidMetadata metadata := by
      cases hm : validateMetadata metadata with
      | error e => simp [complete, acceptAll, accept, ensureOpen, hm] at h
      | ok => exact validateMetadata_eq_ok.mp hm
    rw [complete_headers hv] at h
    obtain ⟨ms, rfl, hs⟩ := messages_of_complete h
    refine ⟨some metadata, ms, rfl, ?_, hs⟩
    rintro _ ⟨rfl⟩
    exact hv
  · rw [complete_body] at h
    · obtain ⟨ms, rfl, hs⟩ := messages_of_complete h
      exact ⟨none, ms, rfl, by simp, hs⟩
    · intro metadata hhe
      obtain ⟨rest, rfl⟩ := List.head?_eq_some_iff.mp hhe
      exact hh ⟨_, _, rfl⟩
    · rintro rfl
      cases h

theorem accept_same (s : ResponseState) (f : ResponseFrame) :
    (s.accept f).2.terminalStatus = s.terminalStatus ∧ (s.accept f).2.finished = s.finished := by
  unfold accept
  split
  · exact ⟨rfl, rfl⟩
  · cases f <;> dsimp only <;> repeat' split
    all_goals exact ⟨rfl, rfl⟩

theorem acceptAll_terminalStatus (h : s.acceptAll frames = some s') : s'.terminalStatus = s.terminalStatus := by
  induction frames generalizing s with
  | nil =>
    cases h
    rfl
  | cons f rest ih =>
    have hs := accept_same s f
    rw [acceptAll] at h
    rcases hacc : s.accept f with ⟨_ | event, t⟩
    · simp [hacc] at h
    · simp only [hacc] at h hs
      exact (ih h).trans hs.1

end ResponseState

namespace UnaryResponse

open ResponseState (body ended)

variable {r : UnaryResponse} {frames : List ResponseFrame} {envelope : ResponseEnvelope} {status : Status}

theorem state_of_accept {f : ResponseFrame} {t : Bool} {r' : UnaryResponse}
    (h : r.accept f = (.ok t, r')) : ∃ e, r.state.accept f = (.ok e, r'.state) := by
  unfold accept at h
  split at h
  case h_1 => cases h
  case h_3 hacc =>
    split_ifs at h
    · cases h
    · cases h
      exact ⟨_, hacc⟩
  all_goals
    cases h
    exact ⟨_, ‹_›⟩

theorem complete_of_collect (h : r.collect frames = .ok envelope) (hs : r.state.finished = false) :
    ∃ status, (r.state.complete frames).bind ResponseState.terminalStatus = some status := by
  induction frames generalizing r with
  | nil =>
    cases hp : r.state.pendingTerminalStatus with
    | none => simp [collect, finish, ResponseState.finish, hs, hp] at h
    | some status =>
      refine ⟨status, ?_⟩
      by_cases hc : status.code = .ok <;>
        simp [ResponseState.complete, ResponseState.acceptAll, ResponseState.finish, hs, hp, hc]
  | cons f rest ih =>
    rw [collect] at h
    rcases hacc : r.accept f with ⟨_ | terminal, r'⟩
    · simp [hacc] at h
    · obtain ⟨event, hsta⟩ := state_of_accept hacc
      have hsa := (ResponseState.accept_same r.state f).2
      rw [hsta] at hsa
      simp only [hacc] at h
      obtain ⟨status, hst⟩ := ih h (hsa.trans hs)
      refine ⟨status, ?_⟩
      rw [← hst, ResponseState.complete, ResponseState.acceptAll, hsta]
      rfl

attribute [local simp] collect accept finish ResponseState.accept ResponseState.ensureOpen ResponseState.finish

theorem collect_body {headers : Metadata} {ms : List Bytes} (hv : ValidMetadata status.metadata) :
    collect ⟨body, headers, none⟩ (ms.map .message ++ [.status status]) = .ok envelope ↔
      ms = [envelope.body] ∧ status.code = .ok ∧ envelope = ⟨envelope.body, headers, status.metadata⟩ := by
  have hm := ResponseState.validateMetadata_eq_ok.mpr hv
  obtain ⟨b, hs, m⟩ := envelope
  rcases ms with _ | ⟨b₁, _ | ⟨b₂, rest⟩⟩
  · by_cases hc : status.code = .ok <;>
      simp [body, hm, hc]
  · by_cases hc : status.code = .ok
    · simp [body, hm, hc]
      grind
    · simp [body, hm, hc]
  · simp [body]

theorem collect_responseFrames {headers : Option Metadata} {ms : List Bytes}
    (h : IsResponse frames headers ms status) :
    ({} : UnaryResponse).collect frames = .ok envelope ↔
      ms = [envelope.body] ∧ status.code = .ok ∧
        envelope = ⟨envelope.body, headers.getD [], status.metadata⟩ := by
  rw [← collect_body h.status, h.frames]
  cases headers with
  | none =>
    cases ms with
    | nil => rfl
    | cons b rest => rfl
  | some metadata =>
    have hm := ResponseState.validateMetadata_eq_ok.mpr (h.headers metadata rfl)
    simp [responseFrames, hm, body]

end UnaryResponse

/-- The grammar accepts the responses and no other frames. -/
structure AcceptsResponses (frames : List ResponseFrame) : Prop where
  response : ∀ status, (∃ s, ({} : ResponseState).complete frames = some s ∧ s.terminalStatus = some status) ↔
    ∃ headers messages, IsResponse frames headers messages status
  -- No frame makes a status final, whether it is accepted or not: only the end of the stream does.
  pending : (∀ s, ({} : ResponseState).acceptAll frames = some s → s.terminalStatus = none) ∧
    ∀ (s : ResponseState) (frame : ResponseFrame), (s.accept frame).2.terminalStatus = s.terminalStatus
  unary : ∀ envelope, ({} : UnaryResponse).collect frames = .ok envelope ↔
    ∃ headers status, IsResponse frames headers [envelope.body] status ∧ status.code = .ok ∧
      envelope = ⟨envelope.body, headers.getD [], status.metadata⟩

theorem response_state_accepts_responses (frames : List ResponseFrame) : AcceptsResponses frames where
  response status := by
    rw [← Option.bind_eq_some_iff]
    constructor
    · exact ResponseState.isResponse_of_complete
    · rintro ⟨headers, messages, h⟩
      exact ResponseState.complete_responseFrames h
  pending := ⟨fun _ => ResponseState.acceptAll_terminalStatus, fun s frame => (s.accept_same frame).1⟩
  unary envelope := by
    constructor
    · intro h
      obtain ⟨status, hst⟩ := UnaryResponse.complete_of_collect h rfl
      obtain ⟨headers, messages, hresponse⟩ := ResponseState.isResponse_of_complete hst
      obtain ⟨rfl, hc, henvelope⟩ := (UnaryResponse.collect_responseFrames hresponse).mp h
      exact ⟨headers, status, hresponse, hc, henvelope⟩
    · rintro ⟨headers, status, hresponse, hc, henvelope⟩
      exact (UnaryResponse.collect_responseFrames hresponse).mpr ⟨rfl, hc, henvelope⟩

end TrevRpc.Rust
