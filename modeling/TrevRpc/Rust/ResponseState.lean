import TrevRpc.Rust.ConnectionMetadata

/-!
# The response grammar (`response_state.rs`)

A response is at most one HEADERS, then MESSAGEs, then STATUS.
-/

namespace TrevRpc.Rust

inductive ResponseStateFailureKind
  | invalidMetadata | misplacedHeaders | missingTerminalStatus | remoteStatus | trailingFrame
  deriving DecidableEq

/-- What breaks the grammar, and the status that the call then ends with. -/
structure ResponseStateFailure where
  kind : ResponseStateFailureKind
  status : Status
  deriving DecidableEq

/-- What one response frame means for the call. -/
inductive ResponseEvent
  | headers (metadata : Metadata)
  | message (body : Bytes)
  | terminal
  deriving DecidableEq

/-- The frames seen so far. The status counts only once the stream has ended after it. -/
structure ResponseState where
  firstFrameSeen : Bool := false
  pendingTerminalStatus : Option Status := none
  terminalStatus : Option Status := none
  finished : Bool := false
  deriving DecidableEq

namespace ResponseState

def validateMetadata (metadata : Metadata) : Except ResponseStateFailure Unit :=
  (Connection.validateMetadata metadata).mapError fun _ =>
    ⟨.invalidMetadata, .internal "response stream contained invalid metadata"⟩

/-- Nothing may follow STATUS. -/
def ensureOpen (s : ResponseState) : Except ResponseStateFailure Unit :=
  if s.finished || s.pendingTerminalStatus.isSome || s.terminalStatus.isSome then
    .error ⟨.trailingFrame, .internal "response stream continued after terminal status"⟩
  else .ok ()

/-- The next frame, and what it means. -/
def accept (s : ResponseState) (frame : ResponseFrame) : Except ResponseStateFailure ResponseEvent × ResponseState :=
  match s.ensureOpen with
  | .error failure => (.error failure, s)
  | .ok () =>
    let firstFrame := !s.firstFrameSeen
    let s := { s with firstFrameSeen := true }
    match frame with
    | .headers metadata =>
      if !firstFrame then
        (.error ⟨.misplacedHeaders, .internal "response stream sent HEADERS after another response frame"⟩, s)
      else
        match validateMetadata metadata with
        | .error failure => (.error failure, s)
        | .ok () => (.ok (.headers metadata), s)
    | .message body => (.ok (.message body), s)
    | .status status =>
      match validateMetadata status.metadata with
      | .error failure => (.error failure, s)
      | .ok () => (.ok .terminal, { s with pendingTerminalStatus := some status })

/-- The clean end of the stream commits the status. -/
def finish (s : ResponseState) : Except ResponseStateFailure Unit × ResponseState :=
  if s.finished then (.ok (), s)
  else
    match s.pendingTerminalStatus with
    | none =>
      (.error ⟨.missingTerminalStatus, .internal "response stream ended before final status"⟩,
        { s with finished := true })
    | some status =>
      let s := { s with finished := true, pendingTerminalStatus := none, terminalStatus := some status }
      if status.code ≠ .ok then (.error ⟨.remoteStatus, status⟩, s) else (.ok (), s)

/-! ## Sequences of frames -/

/-- The state after the frames, if all are accepted. -/
def acceptAll : ResponseState → List ResponseFrame → Option ResponseState
  | s, [] => some s
  | s, frame :: rest =>
    match s.accept frame with
    | (.ok _, s) => s.acceptAll rest
    | (.error _, _) => none

variable {s s' : ResponseState}

theorem acceptAll_append (s : ResponseState) (fs rest : List ResponseFrame) :
    s.acceptAll (fs ++ rest) = (s.acceptAll fs).bind fun s => s.acceptAll rest := by
  induction fs generalizing s with
  | nil => rfl
  | cons f fs ih =>
    rw [List.cons_append, acceptAll, acceptAll]
    rcases s.accept f with ⟨_ | _, s'⟩
    · rfl
    · exact ih s'

/-- A frame may still come. -/
def isOpen (s : ResponseState) : Bool := !s.finished && s.pendingTerminalStatus.isNone && s.terminalStatus.isNone

theorem ensureOpen_eq_ok : s.ensureOpen = .ok () ↔ s.isOpen = true := by
  unfold ensureOpen isOpen
  cases s.finished <;> cases s.pendingTerminalStatus <;> cases s.terminalStatus <;> simp

theorem isOpen_of_accept {f : ResponseFrame} {e : ResponseEvent} (h : s.accept f = (.ok e, s'))
    (hf : f.isStatus = false) : s'.isOpen = true ∧ s'.firstFrameSeen = true := by
  unfold accept at h
  cases ho : s.ensureOpen with
  | error failure => simp [ho] at h
  | ok =>
    have hs := ensureOpen_eq_ok.mp ho
    simp only [ho] at h
    cases f with
    | headers metadata =>
      simp only at h
      split at h
      · cases h
      · split at h
        · cases h
        · cases h
          exact ⟨hs, rfl⟩
    | message body =>
      cases h
      exact ⟨hs, rfl⟩
    | status status => cases hf

theorem isOpen_of_acceptAll {fs : List ResponseFrame} (hs : s.isOpen = true) (h : s.acceptAll fs = some s')
    (hf : ∀ f ∈ fs, f.isStatus = false) :
    s'.isOpen = true ∧ (s.firstFrameSeen = true ∨ fs ≠ [] → s'.firstFrameSeen = true) := by
  induction fs generalizing s with
  | nil =>
    cases h
    exact ⟨hs, by simp⟩
  | cons f rest ih =>
    rw [acceptAll] at h
    rcases hac : s.accept f with ⟨_ | event, t⟩
    · simp [hac] at h
    · simp only [hac] at h
      obtain ⟨ht, hse⟩ := isOpen_of_accept hac (hf f List.mem_cons_self)
      obtain ⟨hs', hr⟩ := ih ht h fun o hmem => hf o (List.mem_cons_of_mem f hmem)
      exact ⟨hs', fun _ => hr (.inl hse)⟩

theorem acceptAll_insert {fs rest : List ResponseFrame} (body : Bytes) (hne : fs ≠ [])
    (hframes : ∀ f ∈ fs, f.isStatus = false)
    (h : (({} : ResponseState).acceptAll (fs ++ rest)).isSome) :
    (({} : ResponseState).acceptAll (fs ++ .message body :: rest)).isSome := by
  rw [acceptAll_append] at h ⊢
  cases hf : ({} : ResponseState).acceptAll fs with
  | none => simp [hf] at h
  | some s =>
    obtain ⟨ho, hs⟩ := isOpen_of_acceptAll rfl hf hframes
    have hsa : { s with firstFrameSeen := true } = s := by rw [← hs (.inr hne)]
    rw [hf, Option.bind_some] at h
    rw [Option.bind_some, acceptAll, accept, ensureOpen_eq_ok.mpr ho]
    simpa only [hsa] using h

theorem acceptAll_prefix {fs rest : List ResponseFrame} (h : (s.acceptAll (fs ++ rest)).isSome) :
    (s.acceptAll fs).isSome := by
  rw [acceptAll_append] at h
  exact Option.isSome_of_isSome_bind h

end ResponseState

end TrevRpc.Rust
