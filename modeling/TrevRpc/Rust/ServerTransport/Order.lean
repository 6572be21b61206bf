import TrevRpc.Rust.ServerTransport.Ends

/-! # A response is in order -/

open TrevRpc.Run

namespace TrevRpc.Rust.ServerTransport

/-! ## The order of frames -/

/-- `[HEADERS] MESSAGE* STATUS`, or a beginning of it. -/
def WellOrdered (frames : List ResponseFrame) : Prop :=
  ∃ (headers : Option Metadata) (bodies : List Bytes) (status : Status),
    frames <+: (headers.map .headers).toList ++ bodies.map .message ++ [.status status]

inductive Stage
  | opening
  | body
  | closed
  deriving DecidableEq

def Stage.next : Stage → ResponseFrame → Option Stage
  | .closed, _ => none
  | .body, .headers _ => none
  | .opening, .headers _ => some .body
  | _, .message _ => some .body
  | _, .status _ => some .closed

variable {st after : Stage} {frames : List ResponseFrame}

theorem next_message (h : st ≠ .closed) (body : Bytes) : st.next (.message body) = some .body := by
  cases st
  · rfl
  · rfl
  · exact absurd rfl h

theorem next_status (h : st ≠ .closed) (status : Status) : st.next (.status status) = some .closed := by
  cases st
  · rfl
  · rfl
  · exact absurd rfl h

theorem run_closed (h : run Stage.next .closed frames = some after) : frames = [] ∧ after = .closed := by
  cases frames with
  | nil => exact ⟨rfl, (Option.some.inj h).symm⟩
  | cons frame frames => cases h

theorem run_body (h : run Stage.next .body frames = some after) :
    ∃ bs : List Bytes, (after = .body ∧ frames = bs.map .message) ∨
      (after = .closed ∧ ∃ status, frames = bs.map .message ++ [.status status]) := by
  induction frames with
  | nil => exact ⟨[], .inl ⟨(Option.some.inj h).symm, rfl⟩⟩
  | cons f frames ih =>
    cases f with
    | headers metadata => cases h
    | message body =>
      obtain ⟨bs, ⟨rfl, rfl⟩ | ⟨rfl, status, rfl⟩⟩ := ih h
      · exact ⟨body :: bs, .inl ⟨rfl, rfl⟩⟩
      · exact ⟨body :: bs, .inr ⟨rfl, status, rfl⟩⟩
    | status status =>
      obtain ⟨rfl, rfl⟩ := run_closed h
      exact ⟨[], .inr ⟨rfl, status, rfl⟩⟩

theorem wellOrdered_of_body (headers : Option Metadata) (h : run Stage.next .body frames = some after) :
    WellOrdered ((headers.map .headers).toList ++ frames) := by
  obtain ⟨bs, ⟨-, rfl⟩ | ⟨-, ss, rfl⟩⟩ := run_body h
  · exact ⟨headers, bs, { code := .ok, message := "" }, List.prefix_append _ _⟩
  · exact ⟨headers, bs, ss, by rw [List.append_assoc]⟩

abbrev Reaches (frames : List ResponseFrame) (st : Stage) : Prop := run Stage.next .opening frames = some st

theorem Reaches.append {st : Stage} {more : List ResponseFrame} (h : Reaches frames st)
    (hr : run Stage.next st more = some after) : Reaches (frames ++ more) after := by
  unfold Reaches
  rw [run_append, h]
  exact hr

theorem wellOrdered_of_run (h : Reaches frames after) : WellOrdered frames := by
  cases frames with
  | nil => exact ⟨none, [], { code := .ok, message := "" }, List.nil_prefix⟩
  | cons f frames =>
    cases f with
    | headers m => exact wellOrdered_of_body (some m) h
    | message body => exact @wellOrdered_of_body _ (.message body :: frames) none h
    | status status =>
      obtain ⟨rfl, -⟩ := run_closed h
      exact ⟨none, [], status, List.prefix_rfl⟩

variable {f : ResponseFrame}

theorem next_of_isStatus (h : st.next f = some after) (hs : f.isStatus = true) : after = .closed := by
  cases f with
  | status status => cases st <;> cases h <;> rfl
  | headers metadata => cases hs
  | message body => cases hs

theorem closed_of_hasStatus (h : run Stage.next st frames = some after) (hs : HasStatus frames) : after = .closed := by
  induction frames generalizing st with
  | nil =>
    obtain ⟨f, hmem, -⟩ := hs
    cases hmem
  | cons f frames ih =>
    obtain ⟨st', hn, hr⟩ := Option.bind_eq_some_iff.mp h
    obtain ⟨o, hmem, ho⟩ := hs
    rcases List.mem_cons.mp hmem with rfl | hmem
    · obtain rfl := next_of_isStatus hn ho
      exact (run_closed hr).2
    · exact ih hr ⟨o, hmem, ho⟩

theorem run_opening (h : run Stage.next st frames = some .opening) : frames = [] := by
  induction frames generalizing st with
  | nil => rfl
  | cons f frames ih =>
    obtain ⟨st', hn, hr⟩ := Option.bind_eq_some_iff.mp h
    obtain rfl := ih hr
    obtain rfl : st' = .opening := Option.some.inj hr
    cases st <;> cases f <;> cases hn

def HasHeaders (frames : List ResponseFrame) : Prop := ∃ metadata, .headers metadata ∈ frames

theorem run_hasHeaders (h : run Stage.next st frames = some after) (hh : HasHeaders frames)
    (ho : after ≠ .closed) : after = .body := by
  cases after with
  | opening =>
    obtain ⟨metadata, hmem⟩ := hh
    rw [run_opening h] at hmem
    cases hmem
  | body => rfl
  | closed => exact absurd rfl ho

theorem run_body_filter (h : run Stage.next .body frames = some after) (bs : List Bytes) :
    run Stage.next .body (bs.map .message ++ frames.filter fun f => (bodyOf f).isNone) = some after := by
  induction bs with
  | cons body bs ih => exact ih
  | nil =>
    obtain ⟨bs, ⟨rfl, rfl⟩ | ⟨rfl, status, rfl⟩⟩ := run_body h
    · rw [List.filter_eq_nil_iff.mpr (by simp [bodyOf])]
      rfl
    · rw [List.filter_append, List.filter_eq_nil_iff.mpr (by simp [bodyOf])]
      rfl

/-! ## The response -/

def Response.hasHeaders : Response → Bool
  | .stream s => s.headers.isSome
  | .lone _ => false

structure Response.Follows (response : Response) (st : Stage) : Prop where
  isOpen : st ≠ .closed
  live : response.Live
  headers : response.hasHeaders = true → st = .opening

def GoesOn (after : Stage) (terminal : Bool) (response : Response) : Prop :=
  if terminal then after = .closed else response.Follows after

theorem follows_pollNext {str : ServerResponseStream} (h : Response.Follows (.stream str) st) (p : Polled)
    (hf : (str.pollNext p).1 = some f) :
    ∃ after, st.next f = some after ∧ GoesOn after f.isStatus (.stream (str.pollNext p).2) := by
  obtain ⟨headers, limits, messages, responseBodyLen, done⟩ := str
  obtain rfl : done = false := h.live
  cases headers with
  | some headers =>
    obtain rfl := Option.some.inj hf
    obtain rfl := h.headers rfl
    exact ⟨.body, rfl, by decide, rfl, by simp [Response.hasHeaders, ServerResponseStream.pollNext]⟩
  | none =>
    cases p with
    | failed status | ended trailers =>
      obtain rfl := Option.some.inj hf
      exact ⟨.closed, next_status h.isOpen _, rfl⟩
    | body body =>
      simp only [ServerResponseStream.pollNext, Bool.false_eq_true, if_false] at hf ⊢
      split at hf
      · obtain rfl := Option.some.inj hf
        exact ⟨.closed, next_status h.isOpen _, rfl⟩
      · obtain rfl := Option.some.inj hf
        exact ⟨.body, next_message h.isOpen _, by decide, rfl, by simp [Response.hasHeaders]⟩

theorem follows_next {response : Response} (h : response.Follows st) (p : Polled) :
    ∃ f response' after, response.next p = (some f, response') ∧ st.next f = some after ∧
      GoesOn after f.isStatus response' := by
  obtain ⟨f, response', hn, -⟩ := next_of_live h.live p
  cases response with
  | lone ss =>
    obtain ⟨ss, rfl⟩ := Option.isSome_iff_exists.mp h.live
    exact ⟨_, _, .closed, rfl, next_status h.isOpen _, rfl⟩
  | stream stream =>
    obtain ⟨hf, rfl⟩ := Prod.mk.inj hn
    obtain ⟨after, hst, hg⟩ := follows_pollNext h p hf
    exact ⟨f, _, after, hn, hst, hg⟩

/-! ## The call -/

variable {Dict Stream : Type} {call : Call Dict Stream} {s s' : State Dict Stream}

def State.Released (s : State Dict Stream) : Prop := s.streamPermit = false ∧ s.requestPermit = false

def Goes (s : State Dict Stream) (st : Stage) (frames : List ResponseFrame) (terminal : Bool) (response : Response) :
    Prop :=
  ∃ after, run Stage.next st frames = some after ∧ GoesOn after terminal response ∧ (terminal = true → s.Released)

def Flushed (call : Call Dict Stream) (s : State Dict Stream) (frames : List ResponseFrame) : Prop :=
  call.datagrams.isSome = true → if s.headersFlushed then HasHeaders frames else frames = []

def HasMessage (frames : List ResponseFrame) : Prop := ∃ body, .message body ∈ frames

def InOrder (call : Call Dict Stream) (s : State Dict Stream) (st : Stage) : Phase → Prop
  | .writing frames .answer => frames = [] ∧ s.written = [] ∧ s.headersFlushed = false
  | .writing frames .reject | .writing frames .refuse | .writing frames .unary =>
    run Stage.next st frames = some .closed ∧ s.Released
  | .writing frames (.headers response rest terminal) =>
    (∃ metadata, frames = [.headers metadata]) ∧ s.written = [] ∧ Goes s .body rest terminal response
  | .writing frames (.batch response terminal) =>
    Goes s st frames terminal response ∧ (terminal = false → Flushed call s (s.written ++ frames))
  | .packing response frames terminal =>
    Goes s st frames terminal response ∧ (terminal = false → Flushed call s (s.written ++ frames)) ∧
      (HasMessage frames → HasHeaders s.written)
  | .batching response batch =>
    batch.terminal = false ∧ batch.frames ≠ [] ∧ Goes s st batch.frames false response ∧ Flushed call s s.written
  | .receiving response => response.Follows st ∧ Flushed call s s.written
  | .serving | .dispatching => s.written = [] ∧ s.headersFlushed = false
  | .resetting => s.Released
  | .draining | .finishing | .returned => True

/-- What was written is in order, and what the call does next keeps it so. -/
def Orderly (call : Call Dict Stream) (s : State Dict Stream) : Prop :=
  ∃ st, Reaches s.written st ∧ InOrder call s st s.phase

theorem run_body_of_opening (h : Reaches (f :: frames) after)
    (hh : ∀ m, f ≠ .headers m) : run Stage.next .body (f :: frames) = some after := by
  cases f with
  | headers m => exact absurd rfl (hh m)
  | message body => exact h
  | status status => exact h

theorem any_bodyOf_iff : (frames.any fun f => (bodyOf f).isSome) = true ↔ HasMessage frames := by
  rw [List.any_eq_true]
  constructor
  · rintro ⟨f, hmem, hb⟩
    cases f with
    | message body => exact ⟨body, hmem⟩
    | headers metadata => cases hb
    | status status => cases hb
  · rintro ⟨body, hmem⟩
    exact ⟨_, hmem, rfl⟩

section Steps

variable {response : Response}

theorem release_eq (h : s.Released) : s.release = s := by
  obtain ⟨hs, hr⟩ := h
  cases s
  subst hs hr
  rfl

theorem opening_of_nil (hst : Reaches s.written st) (hempty : s.written = []) : st = .opening := by
  rw [hempty] at hst
  exact (Option.some.inj hst).symm

theorem orderly_writeBatch {b : ResponseBatch} (hst : Reaches s.written st) (hf : Flushed call s s.written)
    (hg : Goes s st b.frames b.terminal response) (hne : b.frames ≠ []) :
    Orderly call (s.writeBatch call response b) := by
  obtain ⟨frames, t⟩ := b
  obtain ⟨after, hrun, hon, hrel⟩ := hg
  dsimp only at hrun hon hrel hne
  have hs : (if t = true then s.release else s) = s := by
    split_ifs with hter
    · exact release_eq (hrel hter)
    · rfl
  simp only [State.writeBatch, hs]
  cases hse : call.datagrams with
  | none =>
    refine ⟨_, hst, ⟨after, hrun, hon, hrel⟩, fun _ hso => ?_⟩
    rw [hse] at hso
    cases hso
  | some sender =>
    have hfl := hf (by rw [hse]; rfl)
    obtain ⟨f, rest, rfl⟩ := List.exists_cons_of_ne_nil hne
    have hnot : st ≠ .closed := by
      rintro rfl
      cases (run_closed hrun).1
    -- HEADERS that were written are not followed by HEADERS.
    have hsc (hw : HasHeaders s.written) (metadata : Metadata) : f ≠ .headers metadata := by
      rintro rfl
      obtain rfl := run_hasHeaders hst hw hnot
      cases hrun
    cases hh : s.headersFlushed with
    | true =>
      rw [hh] at hfl
      have hfr := hsc hfl
      have hk : Flushed call { s with headersFlushed := true } (s.written ++ f :: rest) := by
        intro _
        obtain ⟨metadata, hmem⟩ := hfl
        exact ⟨metadata, List.mem_append_left _ hmem⟩
      rw [Bool.not_true, Bool.and_false]
      cases f with
      | headers metadata => exact absurd rfl (hfr metadata)
      | message body | status status => exact ⟨_, hst, ⟨after, hrun, hon, hrel⟩, fun _ => hk, fun _ => hfl⟩
    | false =>
      rw [hh] at hfl
      have hem : s.written = [] := hfl
      obtain rfl := opening_of_nil hst hem
      by_cases hmes : HasMessage (f :: rest)
      · rw [any_bodyOf_iff.mpr hmes]
        cases f with
        | headers metadata => exact ⟨_, hst, ⟨metadata, rfl⟩, hem, after, hrun, hon, hrel⟩
        | message body | status status => exact ⟨_, hst, ⟨[], rfl⟩, hem, after, run_body_of_opening hrun (by simp),
            hon, hrel⟩
      · rw [eq_false_of_ne_true (mt any_bodyOf_iff.mp hmes)]
        cases f with
        | headers metadata =>
          refine ⟨_, hst, ⟨after, hrun, hon, hrel⟩, fun _ _ => ?_, fun h => absurd h hmes⟩
          exact ⟨metadata, List.mem_append_right _ List.mem_cons_self⟩
        | message body => exact absurd ⟨body, List.mem_cons_self⟩ hmes
        | status status =>
          refine ⟨_, hst, ⟨after, hrun, hon, hrel⟩, fun hter => ?_, fun h => absurd h hmes⟩
          -- A STATUS ends the call.
          have hc := closed_of_hasStatus hrun ⟨.status status, List.mem_cons_self, rfl⟩
          rw [hter] at hon
          exact absurd hc hon.isOpen

theorem orderly_push {b : ResponseBatch} {f : ResponseFrame} {mid : Stage}
    (hst : Reaches s.written st) (hf : Flushed call s s.written)
    (hb : run Stage.next st b.frames = some mid) (hframe : mid.next f = some after)
    (hon : GoesOn after f.isStatus response) : Orderly call (s.push call response b f) := by
  have hrun : run Stage.next st (b.frames ++ [f]) = some after := run_snoc_eq_some.mpr ⟨mid, hb, hframe⟩
  have hne : b.frames ++ [f] ≠ [] := by simp
  unfold State.push
  cases hs : f.isStatus with
  | true =>
    -- The permits go back before the STATUS is written.
    have hrel : s.release.Released := ⟨rfl, rfl⟩
    have hw : s.writeBatch call response (pushResponseFrame b f) =
        s.release.writeBatch call response (pushResponseFrame b f) := by
      simp only [State.writeBatch, pushResponseFrame, hs, if_true]
      rfl
    simp only [pushResponseFrame, hs, Bool.true_or, if_true] at hw ⊢
    rw [hw]
    rw [hs] at hon
    exact orderly_writeBatch hst hf ⟨after, hrun, hon, fun _ => hrel⟩ hne
  | false =>
    rw [hs] at hon
    simp only [pushResponseFrame, hs, Bool.false_or]
    split
    · exact orderly_writeBatch hst hf ⟨after, hrun, hon, by simp⟩ hne
    · exact ⟨_, hst, rfl, hne, ⟨after, hrun, hon, by simp⟩, hf⟩

theorem orderly_afterBatch {t : Bool} (hst : Reaches s.written after) (hon : GoesOn after t response)
    (hf : t = false → Flushed call s s.written) : Orderly call (s.afterBatch response t) := by
  cases t with
  | true => exact ⟨_, hst, trivial⟩
  | false => exact ⟨_, hst, hon, hf rfl⟩

theorem sendBatch_nil (wire : Wire Dict Stream) (sender : FlowSender Dict) (ms : Option Nat) (accepted : List Bool) :
    sender.sendBatch wire ms accepted [] = { accepted } := rfl

theorem bodyOf_eq_none (h : ¬ HasMessage frames) (f : ResponseFrame) (hmem : f ∈ frames) : bodyOf f = none := by
  cases f with
  | message body => exact absurd ⟨body, hmem⟩ h
  | headers metadata => rfl
  | status status => rfl

theorem orderly_sendBatch {sender : FlowSender Dict} {ms : Option Nat} {a : List Bool} {t : Bool}
    (hst : Reaches s.written st)
    (hin : InOrder call s st (.packing response frames t)) :
    Orderly call (s.sendBatch call sender ms a response frames t) := by
  obtain ⟨⟨after, hrun, hon, hrel⟩, hf, hm⟩ := hin
  unfold State.sendBatch
  dsimp only
  generalize hse : sender.sendBatch call.wire ms a (frames.filterMap bodyOf) = packing
  -- Only messages leave the stream, and only HEADERS or other messages went before them.
  have hs : run Stage.next st
      (packing.onStream.map .message ++ frames.filter fun f => (bodyOf f).isNone) = some after := by
    by_cases hmes : HasMessage frames
    · have hnot : st ≠ .closed := by
        rintro rfl
        obtain ⟨body, hmem⟩ := hmes
        rw [(run_closed hrun).1] at hmem
        cases hmem
      obtain rfl := run_hasHeaders hst (hm hmes) hnot
      exact run_body_filter hrun packing.onStream
    · rw [List.filterMap_eq_nil_iff.mpr (bodyOf_eq_none hmes), sendBatch_nil] at hse
      rw [← hse, List.filter_eq_self.mpr fun f hmem => by rw [bodyOf_eq_none hmes f hmem]; rfl]
      exact hrun
  have hk (hter : t = false) : Flushed call s (s.written ++
      (packing.onStream.map .message ++ frames.filter fun f => (bodyOf f).isNone)) := by
    intro hso
    have hfl := hf hter hso
    cases hh : s.headersFlushed with
    | true =>
      rw [hh] at hfl
      obtain ⟨m, hmem⟩ := hfl
      refine ⟨m, ?_⟩
      simp only [List.mem_append, List.mem_filter] at hmem ⊢
      exact hmem.imp_right fun hmem => .inr ⟨hmem, rfl⟩
    | false =>
      rw [hh] at hfl
      obtain ⟨hw, rfl⟩ := List.append_eq_nil_iff.mp hfl
      rw [List.filterMap_nil, sendBatch_nil] at hse
      rw [← hse, hw]
      rfl
  split_ifs with hem
  · rw [List.isEmpty_iff] at hem
    rw [hem] at hs hk
    rw [List.append_nil] at hk
    obtain rfl : st = after := Option.some.inj hs
    exact orderly_afterBatch hst hon hk
  · exact ⟨_, hst, ⟨after, hs, hon, hrel⟩, hk⟩

variable {w : Write} {codec : ResponseCodec Dict Stream}

theorem orderly_afterWrite (hst : Reaches s.written st) (hin : InOrder call s st (.writing frames w)) :
    Orderly call ({ s with codec, written := s.written ++ frames }.afterWrite call w) := by
  cases w with
  | reject =>
    unfold State.afterWrite
    dsimp only
    split_ifs <;> exact ⟨_, hst.append hin.1, trivial⟩
  | refuse => exact ⟨_, hst.append hin.1, trivial⟩
  | unary => exact ⟨_, hst.append hin.1, trivial⟩
  | answer =>
    obtain ⟨rfl, hem, hh⟩ := hin
    exact ⟨_, hst.append rfl, by rw [State.afterWrite, hem]; rfl, hh⟩
  | headers response rest t =>
    obtain ⟨⟨m, rfl⟩, hem, hg⟩ := hin
    have hh : HasHeaders (s.written ++ [.headers m]) := ⟨m, by simp⟩
    have hb : Reaches (s.written ++ [.headers m]) .body := by
      rw [hem]
      rfl
    refine ⟨_, hb, hg, fun _ _ => ?_, fun _ => hh⟩
    obtain ⟨m, hmem⟩ := hh
    exact ⟨m, List.mem_append_left _ hmem⟩
  | batch response t =>
    obtain ⟨⟨after, hrun, hon, -⟩, hf⟩ := hin
    exact orderly_afterBatch (hst.append hrun) hon hf

theorem orderly_failWrite {error : Error} (hst : Reaches s.written st) :
    Orderly call ({ s with codec }.failWrite w error) := by
  cases w <;> exact ⟨st, hst, trivial⟩

theorem orderly_writeFrames {r : Except Error Unit}
    (hst : Reaches s.written st) (hin : InOrder call s st (.writing frames w))
    (hs : s.writeFrames call frames w r = some s') : Orderly call s' := by
  unfold State.writeFrames at hs
  split at hs
  · cases hs
    exact orderly_failWrite hst
  · cases hs
    exact orderly_afterWrite hst hin
  · cases hs
    exact orderly_failWrite hst
  · cases hs

theorem run_unaryResponseFrames (response : Except Status ResponseEnvelope) :
    Reaches (unaryResponseFrames response) .closed := by
  cases response with
  | error status => rfl
  | ok response =>
    unfold unaryResponseFrames
    dsimp only
    split_ifs <;> rfl

theorem orderly_unary (hst : Reaches s.written st) (hempty : s.written = [])
    (source : Option CancellationSource) (response : Except Status ResponseEnvelope) :
    Orderly call { (s.cancel source).release with phase := .writing (unaryResponseFrames response) .unary } := by
  obtain rfl := opening_of_nil hst hempty
  exact ⟨.opening, hst, run_unaryResponseFrames response, rfl, rfl⟩

theorem orderly_receiving (hst : Reaches s.written st)
    (hempty : s.written = []) (hh : s.headersFlushed = false) (source : Option CancellationSource)
    (hl : response.Live) :
    Orderly call { s.cancel source with phase := .receiving response } := by
  obtain rfl := opening_of_nil hst hempty
  have hf : Flushed call s s.written := by
    intro _
    rw [hh]
    exact hempty
  exact ⟨.opening, hst, ⟨nofun, hl, fun _ => rfl⟩, hf⟩

theorem cancel_none (s : State Dict Stream) : s.cancel none = s := by
  rw [State.cancel, Option.or_none]

theorem orderly_step {e : Event} (ho : Orderly call s) (hs : step call s e = some s') : Orderly call s' := by
  obtain ⟨st, hst, hin⟩ := ho
  unfold step at hs
  split at hs
  all_goals rename_i hp
  all_goals try rw [hp] at hin
  · exact orderly_writeFrames hst hin hs
  · cases hs
    exact ⟨_, hst, trivial⟩
  · cases hs
    exact ⟨_, hst, trivial⟩
  · cases hs
    exact ⟨_, hst, trivial⟩
  · -- A unary call.
    cases hs
    rw [← cancel_none s]
    exact orderly_unary hst hin.1 none _
  · split at hs
    · cases hs
      exact orderly_unary hst hin.1 _ _
    · cases hs
      exact ⟨st, hst, rfl, rfl⟩
  · cases hs
    exact ⟨st, hst, trivial⟩
  · cases hs
    exact ⟨st, hst, trivial⟩
  · cases hs
    exact ⟨st, hst, rfl, rfl⟩
  · cases hs
    exact ⟨st, hst, rfl, rfl⟩
  · -- A streaming call whose handler is running.
    cases hs
    rw [← cancel_none s]
    exact orderly_receiving hst hin.1 hin.2 none rfl
  · cases hs
    rw [← cancel_none s]
    exact orderly_receiving hst hin.1 hin.2 none rfl
  · split at hs
    · cases hs
      exact orderly_receiving hst hin.1 hin.2 _ rfl
    · cases hs
      exact ⟨st, hst, rfl, rfl⟩
  · -- A streaming call at its next frame: a pump failure ends it with its own STATUS.
    split at hs
    · cases hs
      exact orderly_push hst hin.2 rfl (next_status hin.1.isOpen _) rfl
    · cases hs
      exact ⟨st, hst, rfl, rfl⟩
  · obtain ⟨f, r', after, hn, hfr, hon⟩ := follows_next hin.1 ‹Polled›
    rw [hn] at hs
    cases hs
    exact orderly_push hst hin.2 rfl hfr hon
  · split at hs
    · cases hs
    · cases hs
      exact ⟨st, hst, trivial⟩
  · split at hs
    · cases hs
    · cases hs
      exact ⟨st, hst, rfl, rfl⟩
  · -- The frames that are ready join the batch.
    obtain ⟨-, -, ⟨mid, hb, hon, -⟩, hf⟩ := hin
    obtain ⟨f, r', after, hn, hfr, hon⟩ := follows_next hon ‹Polled›
    rw [hn] at hs
    cases hs
    exact orderly_push hst hf hb hfr hon
  · split at hs
    · cases hs
    · cases hs
      obtain ⟨hter, hne, hg, hf⟩ := hin
      exact orderly_writeBatch hst hf (by rw [hter]; exact hg) hne
  · split at hs
    · cases hs
    · cases hs
      exact orderly_sendBatch hst hin
  · cases hs

end Steps

theorem orderly_handleStream (call : Call Dict Stream) : Orderly call (handleStream call) := by
  unfold handleStream
  dsimp only
  split
  · exact ⟨.opening, rfl, rfl, rfl, rfl⟩
  · split_ifs
    · exact ⟨.opening, rfl, rfl, rfl, rfl⟩
    · exact ⟨.opening, rfl, rfl, rfl, rfl⟩
    · exact ⟨.opening, rfl, rfl, rfl⟩
    · exact ⟨.opening, rfl, rfl, rfl, rfl⟩
    · exact ⟨.opening, rfl, rfl, rfl⟩

/-! ## What else a step does -/

theorem writeBatch_same (response : Response) (b : ResponseBatch) :
    (s.writeBatch call response b).datagrams = s.datagrams ∧ (s.writeBatch call response b).reset = s.reset := by
  obtain ⟨frames, t⟩ := b
  have hs : (if t = true then s.release else s).datagrams = s.datagrams ∧
      (if t = true then s.release else s).reset = s.reset := by
    cases t <;> exact ⟨rfl, rfl⟩
  simp only [State.writeBatch]
  generalize (if t = true then s.release else s) = s₁ at hs ⊢
  cases call.datagrams with
  | none => exact hs
  | some sender =>
    dsimp only
    split <;> exact hs

theorem push_same (response : Response) (b : ResponseBatch) (f : ResponseFrame) :
    (s.push call response b f).datagrams = s.datagrams ∧ (s.push call response b f).reset = s.reset := by
  unfold State.push
  dsimp only
  split
  · exact writeBatch_same response _
  · exact ⟨rfl, rfl⟩

theorem writeFrames_same {w : Write} {r : Except Error Unit}
    (hs : s.writeFrames call frames w r = some s') : s'.datagrams = s.datagrams ∧ s'.reset = s.reset := by
  unfold State.writeFrames at hs
  split at hs
  · cases hs
    cases w <;> exact ⟨rfl, rfl⟩
  · cases hs
    cases w <;> exact ⟨rfl, rfl⟩
  · cases hs
    cases w <;> exact ⟨rfl, rfl⟩
  · cases hs

inductive Elsewhere (call : Call Dict Stream) (s s' : State Dict Stream) : Prop
  | same (datagrams : s'.datagrams = s.datagrams) (reset : s'.reset = s.reset)
  | reset (phase : s.phase = .resetting) (datagrams : s'.datagrams = s.datagrams)
  | sendBatch (sender : FlowSender Dict) (maxSize : Option Nat) (accepted : List Bool) (response : Response)
      (frames : List ResponseFrame) (terminal : Bool) (phase : s.phase = .packing response frames terminal)
      (eq : s' = s.sendBatch call sender maxSize accepted response frames terminal)

theorem Elsewhere.of_same (h : s'.datagrams = s.datagrams ∧ s'.reset = s.reset) : Elsewhere call s s' :=
  .same h.1 h.2

variable {e : Event}

theorem step_elsewhere (hs : step call s e = some s') : Elsewhere call s s' := by
  unfold step at hs
  split at hs
  all_goals rename_i hp
  · exact .of_same (writeFrames_same hs)
  · cases hs
    exact .same rfl rfl
  · cases hs
    exact .reset hp rfl
  · cases hs
    exact .same rfl rfl
  · cases hs
    exact .same rfl rfl
  · split at hs
    · cases hs
      exact .same rfl rfl
    · cases hs
      exact .same rfl rfl
  · cases hs
    exact .same rfl rfl
  · cases hs
    exact .same rfl rfl
  · cases hs
    exact .same rfl rfl
  · cases hs
    exact .same rfl rfl
  · cases hs
    exact .same rfl rfl
  · cases hs
    exact .same rfl rfl
  · split at hs
    · cases hs
      exact .same rfl rfl
    · cases hs
      exact .same rfl rfl
  · split at hs
    · cases hs
      exact .of_same (@push_same _ _ call (s.cancel _) _ _ _)
    · cases hs
      exact .same rfl rfl
  · split at hs
    · cases hs
      exact .same rfl rfl
    · cases hs
      exact .of_same (push_same ..)
  · split at hs
    · cases hs
    · cases hs
      exact .same rfl rfl
  · split at hs
    · cases hs
    · cases hs
      exact .same rfl rfl
  · split at hs
    · cases hs
      exact .of_same (writeBatch_same ..)
    · cases hs
      exact .of_same (push_same ..)
  · split at hs
    · cases hs
    · cases hs
      exact .of_same (writeBatch_same ..)
  · split at hs
    · cases hs
    · cases hs
      exact .sendBatch _ _ _ _ _ _ hp rfl
  · cases hs

/-! ## Whole calls -/

/-- The frames of the write that has begun. -/
def State.inFlight (s : State Dict Stream) : List ResponseFrame :=
  match s.phase with
  | .writing frames _ => frames
  | _ => []

theorem Orderly.run_inFlight (h : Orderly call s) : ∃ st after, Reaches s.written st ∧
    run Stage.next st s.inFlight = some after ∧ (HasStatus s.inFlight → s.Released) := by
  obtain ⟨st, hst, hin⟩ := h
  unfold State.inFlight
  cases hp : s.phase with
  | writing frames w =>
    rw [hp] at hin
    cases w with
    | answer =>
      obtain ⟨rfl, -⟩ := hin
      exact ⟨st, st, hst, rfl, fun ⟨_, hmem, _⟩ => nomatch hmem⟩
    | reject | refuse | unary => exact ⟨st, .closed, hst, hin.1, fun _ => hin.2⟩
    | headers response rest t =>
      obtain ⟨⟨metadata, rfl⟩, hem, -⟩ := hin
      obtain rfl := opening_of_nil hst hem
      refine ⟨.opening, .body, hst, rfl, ?_⟩
      rintro ⟨frame, hmem, hs⟩
      obtain rfl := List.mem_singleton.mp hmem
      cases hs
    | batch response t =>
      obtain ⟨⟨after, hrun, hon, hrel⟩, -⟩ := hin
      refine ⟨st, after, hst, hrun, fun hs => ?_⟩
      cases t with
      | true => exact hrel rfl
      | false => exact absurd (closed_of_hasStatus hrun hs) hon.isOpen
  | draining | serving | dispatching | receiving | batching | packing | resetting | finishing | returned =>
    exact ⟨st, st, hst, rfl, fun ⟨_, hmem, _⟩ => nomatch hmem⟩

theorem Orderly.headers_of_datagrams (h : Orderly call s) (hstep : step call s e = some s')
    (hs : s'.datagrams ≠ s.datagrams) : HasHeaders s.written ∧ ¬ HasStatus (s.written ++ s.inFlight) := by
  obtain ⟨st, hst, hin⟩ := h
  cases step_elsewhere hstep with
  | same hdat | reset _ hdat => exact absurd hdat hs
  | sendBatch sender maxSize accepted response frames terminal hp heq =>
    rw [hp] at hin
    obtain ⟨⟨after, hrun, -⟩, -, hm⟩ := hin
    have hmes : HasMessage frames := by
      by_contra hn
      refine hs ?_
      rw [heq]
      unfold State.sendBatch
      dsimp only
      rw [List.filterMap_eq_nil_iff.mpr (bodyOf_eq_none hn), sendBatch_nil]
      split_ifs <;> exact List.append_nil _
    have hh := hm hmes
    refine ⟨hh, fun hsta => ?_⟩
    rw [State.inFlight, hp, List.append_nil] at hsta
    obtain rfl := closed_of_hasStatus hst hsta
    obtain ⟨body, hmem⟩ := hmes
    rw [(run_closed hrun).1] at hmem
    cases hmem

theorem Orderly.released_of_reset (h : Orderly call s) (hs : step call s e = some s') (hr : s'.reset ≠ s.reset) :
    s.Released := by
  obtain ⟨st, -, hin⟩ := h
  cases step_elsewhere hs with
  | same _ hsa => exact absurd hsa hr
  | reset hp _ =>
    rw [hp] at hin
    exact hin
  | sendBatch sender maxSize accepted response frames terminal hphase heq =>
    refine absurd ?_ hr
    rw [heq]
    unfold State.sendBatch
    dsimp only
    split_ifs <;> rfl

/-- What holds of a call whenever it awaits. -/
structure ResponseInOrder (call : Call Dict Stream) (s : State Dict Stream) : Prop where
  frames : WellOrdered (s.written ++ s.inFlight)
  status : HasStatus s.inFlight → s.Released
  datagrams : ∀ e s', step call s e = some s' → s'.datagrams ≠ s.datagrams →
    HasHeaders s.written ∧ ¬ HasStatus (s.written ++ s.inFlight)
  reset : ∀ e s', step call s e = some s' → s'.reset ≠ s.reset → s.Released

theorem response_is_in_order (call : Call Dict Stream) {events : List Event} {s : State Dict Stream}
    (hrun : run (step call) (handleStream call) events = some s) : ResponseInOrder call s := by
  have h : Orderly call s :=
    run_induction (P := fun _ => Orderly call) (orderly_handleStream call)
      (fun _ _ _ _ h hstep => orderly_step h hstep) hrun
  obtain ⟨st, after, hst, hflight, hstatus⟩ := h.run_inFlight
  exact ⟨wellOrdered_of_run (hst.append hflight), hstatus, fun e s' => h.headers_of_datagrams,
    fun e s' => h.released_of_reset⟩

def datagramCall : Call Unit Unit :=
  { unaryCall with kind := .bidirectionalStreaming, datagrams := some ⟨1, 4, none⟩ }

def datagramEvents : List Event :=
  [.streamReturns [], .next (.body [1]), .notReady, .write (.ok ()), .sendBatch (some 100) [true],
    .next (.ended []), .sendBatch (some 100) [], .write (.ok ())]

theorem response_is_in_order_datagram :
    ∃ s ∈ run (step datagramCall) (handleStream datagramCall) datagramEvents,
      s.written = [.headers [], .status { code := .ok, message := "" }] ∧ s.datagrams = [[[1]]] ∧
        ResponseInOrder datagramCall s :=
  ⟨_, rfl, rfl, rfl, @response_is_in_order _ _ datagramCall datagramEvents _ rfl⟩

end TrevRpc.Rust.ServerTransport
