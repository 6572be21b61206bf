import TrevRpc.Go.Qmux.Pipes

/-! # What the two sides of a QMux connection agree on -/

open TrevRpc.Pipe TrevRpc.Run

namespace TrevRpc.Go.Qmux

variable {X Y : Session} {P Q : List Frame}

theorem Stream.ended_of_finalKnown {st : Stream} (h : st.finalKnown = true) : st.recvView.ending ≠ .running := by
  unfold recvView
  cases st.finReceived <;> simp [h]

theorem Stream.sendDone_of_ended {st : Stream} (h : st.sendView.ending ≠ .running) : st.sendDone = true := by
  revert h
  unfold sendView sendDone
  cases st.resetSent <;> cases st.finSent <;> simp

theorem Joined.finalSize (h : Joined X Y P Q) {id : StreamID} {st : Stream} (hget : Y.get id = some st)
    (hk : st.finalKnown = true) : ∃ w, X.get id = some w ∧ w.sendDone = true ∧ st.finalSize = w.sent := by
  have hst := h.receiver.stream id st hget
  have hend := Stream.ended_of_finalKnown hk
  have hda := h.forth.data id
  rw [Session.recvView_of_get hget] at hda
  have hv : X.sendView id = st.recvView := by
    -- Nothing but a repeated FIN can follow an end.
    cases hc : st.recvView.ending with
    | running => exact absurd hc hend
    | finished => exact View.eq_of_after_finished hc hda
    | reset =>
      cases hch : chunks id P with
      | nil =>
        rw [hch] at hda
        exact (Option.some.inj hda).symm
      | cons c cs =>
        rw [hch, View.after] at hda
        cases c <;> simp [View.advance, hc] at hda
  cases hgetX : X.get id with
  | none =>
    rw [Session.sendView, hgetX] at hv
    rw [← hv] at hend
    exact absurd rfl hend
  | some w =>
    rw [Session.sendView_of_get hgetX] at hv
    have hp : w.accepted.take w.sent = st.arrived := congrArg View.passed hv
    refine ⟨w, rfl, Stream.sendDone_of_ended (hv ▸ hend), ?_⟩
    rw [hst.final hk, hst.received, ← hp, List.length_take_of_le (h.sender.stream id w hgetX).sent_le]

/-- What `Y` knows of `X` is what `X` says or has done, and before it knows anything `Y` uses nothing. -/
structure Agrees (X Y : Session) : Prop where
  peer : Y.paramsReceived = true → Y.peer = X.localParams.advertised
  early : Y.paramsReceived = false → Y.openedLocal = 0 ∧ Y.connSent = 0
  received : Y.connReceived ≤ X.connSent
  finalSize : ∀ id st, Y.get id = some st → st.finalKnown = true →
    ∃ w, X.get id = some w ∧ w.sendDone = true ∧ st.finalSize = w.sent

theorem Joined.agrees (h : Joined X Y P Q) : Agrees X Y where
  peer hp := (h.forth.handshake.done hp).1
  early hp := by
    obtain ⟨-, hlocal, hmax, -⟩ := h.forth.handshake.pending hp
    have ho := h.back.credit.opened
    have hs := h.back.credit.connSent
    omega
  received := by
    have hc := h.forth.conn
    omega
  finalSize _ _ := h.finalSize

namespace System

variable {v : Version} {params : Role → Parameters} {buffers : Role → Nat} {sys : System}

/-- No side uses more credit than it was told of, nor was it told of more than the other side now grants. -/
theorem credit_is_kept {actions : List Action} (hstart : start v params buffers = some sys)
    (hsize : ∀ r, (params r).RecordSizeOk) (hrange : Always (fun _ => InRange) step sys actions) :
    Always (fun _ t => ∀ r, Credit (t.session r) (t.session r.other)) step sys actions := by
  intro done t hdone ht r
  obtain ⟨⟨records, h⟩, -⟩ := always_flows hstart hsize hrange done t hdone ht
  exact (h.joined r).forth.credit

theorem credit_is_kept_hello : (run step small hello).isSome = true ∧
    Always (fun _ t => ∀ r, Credit (t.session r) (t.session r.other)) step small hello :=
  ⟨by decide +kernel, credit_is_kept smallStart_eq (fun _ => .inl rfl) (by decide +kernel)⟩

theorem sides_agree {actions : List Action} (hstart : start v params buffers = some sys)
    (hsize : ∀ r, (params r).RecordSizeOk) (hrange : Always (fun _ => InRange) step sys actions) :
    Always (fun _ t => ∀ r, Agrees (t.session r) (t.session r.other)) step sys actions := by
  intro done t hdone ht r
  obtain ⟨⟨records, h⟩, -⟩ := always_flows hstart hsize hrange done t hdone ht
  exact (h.joined r).agrees

theorem sides_agree_hello : (run step small hello).isSome = true ∧
    Always (fun _ t => ∀ r, Agrees (t.session r) (t.session r.other)) step small hello :=
  ⟨by decide +kernel, sides_agree smallStart_eq (fun _ => .inl rfl) (by decide +kernel)⟩

end System

end TrevRpc.Go.Qmux
