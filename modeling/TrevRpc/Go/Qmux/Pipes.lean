import TrevRpc.Go.Qmux.System
import TrevRpc.Go.Qmux.History

/-!
# Streams as pipes

What the reader's calls have returned is a start of what the writer's calls have accepted. A history of each stream
carries the proof.
-/

open TrevRpc.Varint TrevRpc.Pipe TrevRpc.Run

namespace TrevRpc.Go.Qmux

/-! ## Histories along a run -/

namespace Session

variable {s s' : Session}

def returnedBy (id : StreamID) (s : Session) : Call → List UInt8
  | .read id' size =>
    if id' = id then ((s.get id).map fun st => (s.read id st size).2.bytes).getD [] else []
  | _ => []

def acceptedBy (id : StreamID) (s : Session) : Call → List UInt8
  | .write id' p grown =>
    if id' = id then ((s.get id).map fun st => p.take (s.write id st p grown).2).getD [] else []
  | _ => []

structure Grown (h h' : History) (accepted returned : List UInt8) (closed : Prop) : Prop where
  accepted : h'.accepted = h.accepted ++ accepted
  returned : h'.returned = h.returned ++ returned
  closed : h'.closed = true → h.closed = true ∨ closed

theorem Grown.refl {h h' : History} (heq : h' = h) (closed : Prop) : Grown h h' [] [] closed := by
  subst heq
  exact ⟨(List.append_nil _).symm, (List.append_nil _).symm, .inl⟩

theorem history_call {c : Call} (h : s.call c = some s') (id : StreamID) :
    Grown (s.history id) (s'.history id) (s.acceptedBy id c) (s.returnedBy id c) (c = .close id) := by
  cases c with
  | openStreamSync =>
    cases h
    exact .refl (congrFun (history_openStreamSync s) id) _
  | acceptStream =>
    cases h
    exact .refl (congrFun (history_acceptStream s) id) _
  | read id' size =>
    obtain ⟨st, hget, rfl⟩ := Option.map_eq_some_iff.mp h
    rw [history_read hget, returnedBy]
    by_cases hid : id' = id
    · subst hid
      rw [Function.update_self, history_of_get hget, if_pos rfl, hget]
      exact ⟨(List.append_nil _).symm, rfl, .inl⟩
    · rw [Function.update_of_ne (Ne.symm hid), if_neg hid]
      exact .refl rfl _
  | write id' p grown =>
    obtain ⟨st, hget, rfl⟩ := Option.map_eq_some_iff.mp h
    rw [history_write hget, acceptedBy]
    by_cases hid : id' = id
    · subst hid
      rw [Function.update_self, history_of_get hget, if_pos rfl, hget]
      exact ⟨rfl, (List.append_nil _).symm, .inl⟩
    · rw [Function.update_of_ne (Ne.symm hid), if_neg hid]
      exact .refl rfl _
  | close id' =>
    obtain ⟨st, hget, rfl⟩ := Option.map_eq_some_iff.mp h
    rcases history_close hget with hc | hc
    · exact .refl (congrFun hc id) _
    · rw [hc]
      by_cases hid : id' = id
      · subst hid
        rw [Function.update_self, history_of_get hget]
        exact ⟨(List.append_nil _).symm, (List.append_nil _).symm, fun _ => .inr rfl⟩
      · rw [Function.update_of_ne (Ne.symm hid)]
        exact .refl rfl _
  | cancelWrite id' code =>
    obtain ⟨st, hget, rfl⟩ := Option.map_eq_some_iff.mp h
    exact .refl (congrFun (history_cancelWrite hget code) id) _
  | cancelRead id' code =>
    obtain ⟨st, hget, rfl⟩ := Option.map_eq_some_iff.mp h
    exact .refl (congrFun (history_cancelRead hget code) id) _
  | sendPing =>
    cases h
    exact .refl rfl _

theorem history_receive (s : Session) (record : List UInt8) : (s.receive record).history = s.history := by
  have hh := history_handleRecord s record
  unfold receive
  generalize s.handleRecord record = handled at hh
  obtain ⟨s', e | e⟩ := handled
  · exact hh
  · exact (history_closeWith ..).trans hh

end Session

namespace System

variable {sys sys' : System} {r : Role} {id : StreamID} {a : Action}

def returnedBy (r : Role) (id : StreamID) (sys : System) : Action → List UInt8
  | .call r' c => if r' = r then (sys.session r).returnedBy id c else []
  | _ => []

def acceptedBy (r : Role) (id : StreamID) (sys : System) : Action → List UInt8
  | .call r' c => if r' = r then (sys.session r).acceptedBy id c else []
  | _ => []

theorem history_set_of_eq {s : Session} {r' : Role} (h : s.history = (sys.session r').history) :
    ((sys.set r' s).session r).history = (sys.session r).history := by
  by_cases hr : r = r'
  · rw [hr, ← h]
    exact congrArg Session.history (Function.update_self ..)
  · exact congrArg Session.history (Function.update_of_ne hr ..)

theorem history_step (h : sys.step a = some sys') (r : Role) (id : StreamID) :
    Session.Grown ((sys.session r).history id) ((sys'.session r).history id) (sys.acceptedBy r id a)
      (sys.returnedBy r id a) (a = .call r (.close id)) := by
  cases a with
  | call r' c =>
    obtain ⟨s, hca, h⟩ := Option.bind_eq_some_iff.mp h
    obtain ⟨s', hen, h⟩ := Option.bind_eq_some_iff.mp h
    cases h
    obtain rfl := encoded_eq_some hen
    rw [acceptedBy, returnedBy]
    by_cases hr : r' = r
    · subst hr
      have hset : (sys.set r' s').session r' = s' := Function.update_self ..
      rw [hset, if_pos rfl, if_pos rfl]
      have hg := Session.history_call hca id
      refine ⟨hg.accepted, hg.returned, fun hc => (hg.closed hc).imp_right ?_⟩
      rintro rfl
      rfl
    · have hset : (sys.set r' s').session r = sys.session r := Function.update_of_ne (Ne.symm hr) ..
      rw [hset, if_neg hr, if_neg hr]
      exact .refl rfl _
  | build r' =>
    have hb := Session.history_buildRecord (sys.session r')
    simp only [step] at h
    generalize (sys.session r').buildRecord = built at h hb
    obtain ⟨s, frames, more, mode⟩ := built
    simp only at h
    split_ifs at h
    · cases h
      exact .refl (congrFun (history_set_of_eq hb) id) _
    · obtain ⟨re, -, h⟩ := Option.bind_eq_some_iff.mp h
      cases h
      exact .refl (congrFun (history_set_of_eq hb) id) _
  | deliver r' =>
    simp only [step] at h
    cases hf : sys.inFlight r' with
    | nil =>
      rw [hf] at h
      cases h
    | cons re rest =>
      rw [hf] at h
      obtain ⟨s', hen, h⟩ := Option.bind_eq_some_iff.mp h
      cases h
      obtain rfl := encoded_eq_some hen
      exact .refl (congrFun (history_set_of_eq (Session.history_receive _ re)) id) _

variable {params : Role → Parameters}

theorem history_start {v : Version} {bs : Role → Nat}
    (h : start v params bs = some sys) (r : Role) (id : StreamID) : (sys.session r).history id = {} := by
  unfold start at h
  obtain ⟨client, hc, h⟩ := Option.bind_eq_some_iff.mp h
  obtain ⟨server, hs, h⟩ := Option.bind_eq_some_iff.mp h
  cases h
  obtain ⟨body, -, rfl⟩ := newSession_eq_some hc
  obtain ⟨body', -, rfl⟩ := newSession_eq_some hs
  cases r <;> rfl

theorem history_run {v : Version} {bs : Role → Nat} {done : List Action}
    {t : System} (hs : start v params bs = some sys) (hrun : run step sys done = some t) (r : Role)
    (id : StreamID) :
    ((t.session r).history id).accepted = trace (acceptedBy r id) step sys done ∧
      ((t.session r).history id).returned = trace (returnedBy r id) step sys done ∧
      (((t.session r).history id).closed = true → .call r (.close id) ∈ done) := by
  induction done using List.reverseRecOn generalizing t with
  | nil =>
    obtain rfl := Option.some.inj hrun
    rw [history_start hs]
    exact ⟨rfl, rfl, fun hf => by cases hf⟩
  | append_singleton xs x ih =>
    obtain ⟨u, hu, hx⟩ := run_snoc_eq_some.mp hrun
    obtain ⟨ha, hret, hc⟩ := ih hu
    have hg := history_step hx r id
    refine ⟨?_, ?_, ?_⟩
    · rw [hg.accepted, ha, trace_snoc hu hx]
    · rw [hg.returned, hret, trace_snoc hu hx]
    · intro hc'
      rw [List.mem_append, List.mem_singleton]
      exact (hg.closed hc').imp hc Eq.symm

end System

/-! ## Both ends of a stream -/

variable {X Y : Session} {P Q : List Frame}

theorem Joined.returned_start (h : Joined X Y P Q) (id : StreamID) :
    (Y.history id).returned <+: (X.history id).accepted := by
  have hd := View.prefix_of_after (h.forth.data id)
  have hret : (Y.history id).returned <+: (Y.recvView id).passed := by
    unfold Session.history Session.recvView
    cases hget : Y.get id with
    | none => exact List.nil_prefix
    | some st => exact (h.receiver.stream id st hget).returned
  have ha : (X.sendView id).passed <+: (X.history id).accepted := by
    unfold Session.history Session.sendView
    cases X.get id with
    | none => exact List.nil_prefix
    | some st => exact List.take_prefix _ _
  exact (hret.trans hd).trans ha

variable {st : Stream}

theorem Session.read_eof {s : Session} {id : StreamID} {size : Nat}
    (h : (s.read id st size).2 = .eof) :
    st.readCancelled = false ∧ st.resetReceived = none ∧ st.unread = [] ∧ st.finalKnown = true := by
  unfold read at h
  cases hcan : st.readCancelled with
  | true =>
    rw [hcan] at h
    cases h
  | false =>
    rw [hcan, if_neg Bool.false_ne_true] at h
    cases hr : st.resetReceived with
    | some e =>
      rw [hr] at h
      cases h
    | none =>
      rw [hr] at h
      by_cases hun : 0 < st.unread.length
      · simp only [if_pos hun] at h
        cases h
      · refine ⟨rfl, rfl, List.length_eq_zero_iff.mp (Nat.eq_zero_of_not_pos hun), ?_⟩
        by_cases hf : st.finalKnown = true ∧ st.read = st.finalSize
        · exact hf.1
        · simp only [if_neg hun, if_neg hf] at h
          cases hc : s.closeErr with
          | some e =>
            rw [hc] at h
            cases h
          | none =>
            simp only [hc] at h
            split_ifs at h

theorem Stream.of_sendView_finished (h : st.sendView.ending = .finished) :
    st.resetSent = false ∧ st.finSent = true := by
  unfold sendView at h
  cases hreset : st.resetSent <;> cases hfin : st.finSent <;> simp_all

theorem Joined.eof {id : StreamID} {size : Nat} (h : Joined X Y P Q)
    (hget : Y.get id = some st) (heof : (Y.read id st size).2 = .eof) :
    ∃ w, X.get id = some w ∧ w.resetSent = false ∧ (X.history id).closed = true ∧
      (Y.history id).returned = (X.history id).accepted := by
  obtain ⟨hcan, hre, hun, hk⟩ := Session.read_eof heof
  have hst := h.receiver.stream id st hget
  have hfin : st.finReceived = true := by
    refine eq_true_of_ne_false fun hfin => ?_
    have hd := hst.discarded hk hfin
    rw [hcan, hre] at hd
    simp at hd
  have hf : st.recvView.ending = .finished := by
    unfold Stream.recvView
    rw [hfin]
    rfl
  have hda := h.forth.data id
  rw [Session.recvView_of_get hget] at hda
  have hv : X.sendView id = st.recvView := View.eq_of_after_finished hf hda
  cases hgetX : X.get id with
  | none =>
    rw [Session.sendView, hgetX] at hv
    rw [← hv] at hf
    cases hf
  | some w =>
    rw [Session.sendView_of_get hgetX] at hv
    have hw := h.sender.stream id w hgetX
    obtain ⟨hresetSent, hfinSent⟩ := Stream.of_sendView_finished (hv ▸ hf)
    obtain ⟨hr, hs, -⟩ := hw.finSent hfinSent
    rw [Session.history_of_get hgetX, Session.history_of_get hget]
    refine ⟨w, rfl, hresetSent, hr, ?_⟩
    have hret := (hst.unread hcan hre).1
    rw [hun, List.append_nil] at hret
    have hp : w.accepted.take w.sent = st.arrived := congrArg View.passed hv
    rw [hs, List.take_length] at hp
    exact hret.trans hp.symm

/-- The reader gets a start of what the writer's calls accepted, and the end only after a `Close` and all of it. -/
theorem System.reliable_pipe {v : Version} {params : Role → Parameters} {buffers : Role → Nat}
    {sys : System} {actions : List Action} (hstart : start v params buffers = some sys)
    (hsize : ∀ r, (params r).RecordSizeOk) (hrange : Always (fun _ => InRange) step sys actions) :
    Always (fun done t => ∀ writer id,
      trace (returnedBy writer.other id) step sys done <+: trace (acceptedBy writer id) step sys done ∧
        ∀ st size, (t.session writer.other).get id = some st →
          ((t.session writer.other).read id st size).2 = .eof →
            .call writer (.close id) ∈ done ∧
              (∃ w, (t.session writer).get id = some w ∧ w.resetSent = false) ∧
              trace (returnedBy writer.other id) step sys done = trace (acceptedBy writer id) step sys done)
      step sys actions := by
  intro done t hdone ht writer id
  obtain ⟨⟨records, h⟩, -⟩ := always_flows hstart hsize hrange done t hdone ht
  obtain ⟨haccepted, -, hclosed⟩ := history_run hstart ht writer id
  obtain ⟨-, hreturned, -⟩ := history_run hstart ht writer.other id
  rw [← haccepted, ← hreturned]
  refine ⟨(h.joined writer).returned_start id, fun st size hget heof => ?_⟩
  obtain ⟨w, hgetX, hreset, hclose, hall⟩ := (h.joined writer).eof hget heof
  exact ⟨hclosed hclose, ⟨w, hgetX, hreset⟩, hall⟩

theorem System.reliable_pipe_hello :
    trace (returnedBy .server ⟨.client, 0⟩) step small hello = [104, 105] ∧
      Always (fun done t => ∀ writer id,
        trace (returnedBy writer.other id) step small done <+: trace (acceptedBy writer id) step small done ∧
          ∀ st size, (t.session writer.other).get id = some st →
            ((t.session writer.other).read id st size).2 = .eof →
              .call writer (.close id) ∈ done ∧
                (∃ w, (t.session writer).get id = some w ∧ w.resetSent = false) ∧
                trace (returnedBy writer.other id) step small done =
                  trace (acceptedBy writer id) step small done) step small hello :=
  ⟨by decide +kernel, reliable_pipe smallStart_eq (fun _ => .inl rfl) (by decide +kernel)⟩

end TrevRpc.Go.Qmux
