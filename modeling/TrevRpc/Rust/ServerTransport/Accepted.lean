import TrevRpc.Rust.ServerTransport.Order
import TrevRpc.Rust.UnaryResponse

/-! # The client accepts what the server has written -/

open TrevRpc.Run

namespace TrevRpc.Rust.ServerTransport

variable {Dict Stream : Type}

def ValidFrame : ResponseFrame → Prop
  | .headers metadata => ValidMetadata metadata
  | .message _ => True
  | .status status => ValidMetadata status.metadata

/-- A response in order that has its status is complete. -/
theorem WellOrdered.isResponse {frames : List ResponseFrame} {status : Status} (h : WellOrdered frames)
    (hmem : .status status ∈ frames) (hvalid : ∀ frame ∈ frames, ValidFrame frame) :
    ∃ headers messages, IsResponse frames headers messages status := by
  obtain ⟨headers, bodies, last, hpre⟩ := h
  rcases List.prefix_concat_iff.mp hpre with rfl | hshort
  · obtain rfl : status = last := by
      cases headers <;> simpa using hmem
    refine ⟨headers, bodies, ?_, fun metadata hm => ?_, hvalid _ hmem⟩
    · cases headers <;> simp [responseFrames]
    · obtain rfl : headers = some metadata := hm
      exact hvalid (.headers metadata) (by simp)
  · have hno := hshort.subset hmem
    cases headers <;> simp at hno

/-- Whatever happens to the call, a client takes the status that was written as the response's end. -/
theorem written_status_is_accepted (call : Call Dict Stream) {events : List Event} {s : State Dict Stream}
    (hrun : run (step call) (handleStream call) events = some s) (hvalid : ∀ frame ∈ s.written, ValidFrame frame)
    {status : Status} (hstatus : .status status ∈ s.written) :
    (({} : ResponseState).complete s.written).bind ResponseState.terminalStatus = some status := by
  have h : Orderly call s :=
    run_induction (P := fun _ => Orderly call) (orderly_handleStream call)
      (fun _ _ _ _ h hstep => orderly_step h hstep) hrun
  obtain ⟨st, after, hst, -⟩ := h.run_inFlight
  obtain ⟨headers, messages, hresponse⟩ := (wellOrdered_of_run hst).isResponse hstatus hvalid
  exact ResponseState.complete_responseFrames hresponse

theorem written_status_is_accepted_datagram :
    ∃ s ∈ run (step datagramCall) (handleStream datagramCall) datagramEvents,
      (({} : ResponseState).complete s.written).bind ResponseState.terminalStatus =
        some { code := .ok, message := "" } :=
  ⟨_, rfl, @written_status_is_accepted _ _ datagramCall datagramEvents _ rfl
    (List.forall_mem_cons.mpr ⟨rfl, List.forall_mem_cons.mpr ⟨rfl, by simp⟩⟩) _ (by decide)⟩

end TrevRpc.Rust.ServerTransport
