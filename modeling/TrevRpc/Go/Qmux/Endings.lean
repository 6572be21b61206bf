import TrevRpc.Go.Qmux.Accounts

/-! # How the sending direction of a stream ends on the wire -/

open TrevRpc.Run

namespace TrevRpc.Go.Qmux

/-- Whether a frame that sends on the stream `n` ends it. -/
def Frame.sendsOn (n : Nat) : Frame → Option Bool
  | .stream _ streamID _ _ fin => if streamID = n then some fin else none
  | .resetStream streamID _ _ => if streamID = n then some true else none
  | _ => none

def endings (n : Nat) (frames : List Frame) : List Bool := frames.filterMap (Frame.sendsOn n)

def EndsOnce (n : Nat) (frames : List Frame) : Prop := (endings n frames).Pairwise fun ends _ => ends = false

instance (n : Nat) (frames : List Frame) : Decidable (EndsOnce n frames) :=
  inferInstanceAs (Decidable (List.Pairwise _ _))

variable {n : Nat} {f : Frame} {fs gs : List Frame}

@[simp] theorem endings_append (n : Nat) (fs gs : List Frame) : endings n (fs ++ gs) = endings n fs ++ endings n gs :=
  List.filterMap_append

theorem endings_eq_nil (h : ∀ f ∈ fs, f.sendsOn n = none) : endings n fs = [] := by
  rw [endings, List.filterMap_eq_nil_iff]
  exact h

theorem Frame.sendsOn_of_grants (h : f.grants = true) (n : Nat) : f.sendsOn n = none := by
  cases f <;> first | rfl | cases h

theorem Frame.sendsOn_of_closes (h : f.closes = true) (n : Nat) : f.sendsOn n = none := by
  cases f <;> first | rfl | cases h

theorem Frame.sendsOn_of_flowControl (h : f.flowControl = true) (n : Nat) : f.sendsOn n = none := by
  cases f <;> first | rfl | cases h

namespace Session

variable {s s' : Session} {id : StreamID} {st st' : Stream} {log : List Frame}

structure Ending (log : List Frame) (s : Session) : Prop where
  -- Only RESET_STREAM is queued.
  control : ∀ f ∈ s.control, ∀ n, f.sendsOn n ≠ some false
  closeFrame : ∀ f ∈ s.closeFrame, f.closes = true
  once : ∀ n, EndsOnce n (log ++ s.control)
  running : ∀ id, (∀ st, s.get id = some st → st.sendDone = false) →
    ∀ ends ∈ endings id.toNat (log ++ s.control), ends = false
  settled : ∀ id st, s.get id = some st → st.finSent = true → st.inReady = false

variable (h : Ending log s)
include h

theorem Ending.congr (hcontrol : s'.control = s.control) (hc : s'.closeFrame = s.closeFrame)
    (hget : ∀ id, (∀ st, s'.get id = some st → st.sendDone = false) → ∀ st, s.get id = some st → st.sendDone = false)
    (hs : ∀ id st, s'.get id = some st → st.finSent = true → st.inReady = false) : Ending log s' where
  control := by rw [hcontrol]; exact h.control
  closeFrame := by rw [hc]; exact h.closeFrame
  once := by rw [hcontrol]; exact h.once
  running id hid := by rw [hcontrol]; exact h.running id (hget id hid)
  settled := hs

theorem Ending.set (hget : s.get id = some st) (hd : st'.sendDone = st.sendDone)
    (hr : st'.finSent = true → st'.inReady = false) : Ending log (s.set id st') := by
  refine h.congr rfl rfl ?_ ?_
  · intro id' hid' st₁ hget₁
    by_cases hid : id' = id
    · subst hid
      obtain rfl := Option.some.inj (hget.symm.trans hget₁)
      rw [← hd]
      exact hid' st' (get_set_self hget)
    · exact hid' st₁ ((get_set_ne hid).trans hget₁)
  · intro id' st₁ hget₁
    rcases get_set_cases hget₁ with rfl | hget'
    · exact hr
    · exact h.settled id' st₁ hget'

theorem Ending.consumedBy (t : Option Nat) : Ending log (s.consumedBy t) := by
  cases t with
  | none => exact h
  | some n =>
    unfold Session.consumedBy consumed
    simp only
    split_ifs <;> exact { h with }

theorem Ending.streamCompleted (id : StreamID) : Ending log (s.streamCompleted id) := by
  unfold Session.streamCompleted
  split_ifs
  · exact h
  · exact { h with }

theorem Ending.complete (hget : s.get id = some st) :
    Ending log ((s.set id { st with removed := true }).streamCompleted id) := by
  refine Ending.streamCompleted ?_ id
  exact h.set hget rfl (h.settled id st hget)

theorem Ending.markReady (hget : s.get id = some st) (hfin : st.finSent = false) : Ending log (s.markReady id) := by
  unfold Session.markReady
  simp only [hget]
  split_ifs
  · exact h
  · exact { h with }
  · have hset : Ending log (s.set id { st with inReady := true }) := by
      refine h.set hget rfl fun ht => ?_
      exact nomatch hfin.symm.trans ht
    exact { hset with }

theorem Ending.extends {r : Role} {sendMax : Nat} (he : s.Extends s' r sendMax)
    (hcontrol : s'.control = s.control) (hc : s'.closeFrame = s.closeFrame) : Ending log s' := by
  refine h.congr hcontrol hc ?_ ?_
  · intro id hid st hget
    rcases he.get id with hs | ⟨hn, -, -⟩
    · exact hid st (hs.trans hget)
    · rw [hn] at hget
      cases hget
  · intro id st hget hfin
    rcases he.get id with hs | ⟨-, -, hnew⟩
    · exact h.settled id st (hs.symm.trans hget) hfin
    · obtain rfl := Option.some.inj (hnew.symm.trans hget)
      rfl

theorem Ending.of_endings {log' : List Frame} (hcontrol : ∀ f ∈ s'.control, ∀ n, f.sendsOn n ≠ some false)
    (hc : s'.closeFrame = s.closeFrame) (hget : ∀ id, s'.get id = s.get id)
    (hs : ∀ n, endings n (log' ++ s'.control) = endings n (log ++ s.control)) : Ending log' s' where
  control := hcontrol
  closeFrame := hc ▸ h.closeFrame
  once n := by
    rw [EndsOnce, hs]
    exact h.once n
  running id hid := by
    rw [hs]
    exact h.running id fun st hst => hid st ((hget id).trans hst)
  settled id st hst := h.settled id st ((hget id).symm.trans hst)

theorem Ending.queue (hf : ∀ n, f.sendsOn n = none) : Ending log (s.queueControl f) := by
  refine h.of_endings ?_ rfl (fun _ => rfl) fun n => ?_
  · intro g hg n
    rcases List.mem_append.mp hg with hg | hg
    · exact h.control g hg n
    · rw [List.mem_singleton.mp hg, hf]
      exact Option.some_ne_none false |>.symm
  · have hnil : endings n [f] = [] := endings_eq_nil fun g hg => by rw [List.mem_singleton.mp hg, hf]
    change endings n (log ++ (s.control ++ [f])) = _
    rw [endings_append, endings_append, endings_append, hnil, List.append_nil]

theorem Ending.emit {log' : List Frame} {e : Bool} (hget : s.get id = some st) (hd : st.sendDone = false)
    (hcontrol : ∀ f ∈ s'.control, ∀ n, f.sendsOn n ≠ some false) (hc : s'.closeFrame = s.closeFrame)
    (hs : ∀ id', s'.get id' = (s.set id st').get id')
    (hown : endings id.toNat (log' ++ s'.control) = endings id.toNat (log ++ s.control) ++ [e])
    (ho : ∀ n, n ≠ id.toNat → endings n (log' ++ s'.control) = endings n (log ++ s.control))
    (hend : st'.sendDone = e) (hr : st'.finSent = true → st'.inReady = false) : Ending log' s' := by
  have hrun := h.running id fun st₁ hget₁ => by
    obtain rfl := Option.some.inj (hget.symm.trans hget₁)
    exact hd
  refine ⟨hcontrol, hc ▸ h.closeFrame, fun n => ?_, fun id' hid' => ?_, fun id' st₁ hget₁ hfin₁ => ?_⟩
  · rw [EndsOnce]
    by_cases hn : n = id.toNat
    · rw [hn, hown]
      exact List.pairwise_append.mpr ⟨h.once id.toNat, List.pairwise_singleton .., fun _ hen _ _ => hrun _ hen⟩
    · rw [ho n hn]
      exact h.once n
  · by_cases hid : id' = id
    · subst hid
      have hdone := hid' st' ((hs id').trans (get_set_self hget))
      rw [hown, ← hend, hdone]
      simpa [or_imp, forall_and] using hrun
    · rw [ho _ fun heq => hid (StreamID.toNat_inj.mp heq)]
      exact h.running id' fun st₁ hget₁ => hid' st₁ ((hs id').trans ((get_set_ne hid).trans hget₁))
  · rw [hs] at hget₁
    rcases get_set_cases hget₁ with rfl | hget'
    · exact hr hfin₁
    · exact h.settled id' st₁ hget' hfin₁

omit h

theorem Ending.reset (code : Nat) (err : WriteError) (h : Ending log s) (hget : s.get id = some st)
    (hd : st.sendDone = false) :
    Ending log ((s.set id (st.givenUp err)).queueControl (.resetStream id.toNat code st.sent)) := by
  have hfin : st.finSent = false := (Bool.or_eq_false_iff.mp hd).1
  refine h.emit hget hd ?_ rfl (fun _ => rfl) ?_ ?_ (Bool.or_true _) ?_
  · intro g hg n
    rcases List.mem_append.mp hg with hg | hg
    · exact h.control g hg n
    · rw [List.mem_singleton.mp hg]
      simp [Frame.sendsOn]
  · simp [endings, queueControl, wakeWriter, Session.set, Frame.sendsOn]
  · intro n hn
    simp [endings, queueControl, wakeWriter, Session.set, Frame.sendsOn, hn.symm]
  · intro ht
    cases hfin.symm.trans ht

theorem Change.ending (h : Change true s s') (he : Ending log s) : Ending log s' := by
  cases h with
  | wake | accept | maxData | maxStreams | parameters | ping | sendPing => exact { he with }
  | queue hf => exact he.queue (Frame.sendsOn_of_grants hf)
  | receive t hget hr =>
    refine Ending.consumedBy ?_ t
    have hfin := congrArg Stream.Sending.finSent hr.sending
    have hre := congrArg Stream.Sending.inReady hr.sending
    refine Ending.set { he with } hget hr.sendDone fun ht => ?_
    exact hre.trans (he.settled _ _ hget (hfin.symm.trans ht))
  | complete hget => exact he.complete hget
  | send hget hs hd =>
    have hfin := (Bool.or_eq_false_iff.mp hd).1
    refine Ending.markReady (he.set hget hs.sendDone fun ht => ?_) (get_set_self hget)
      (hs.finSent.trans hfin)
    exact nomatch (hs.finSent.trans hfin).symm.trans ht
  | @raise id st maximum hget _ _ hc =>
    refine Ending.markReady (he.set hget rfl ?_) (get_set_self hget) (hc rfl)
    exact he.settled id st hget
  | reset code err hget hd => exact he.reset code err hget hd
  | openLocal ho =>
    have hsa : s.openStreamSync.1.control = s.control ∧ s.openStreamSync.1.closeFrame = s.closeFrame := by
      rw [openStreamSync, if_pos ho]
      exact ⟨rfl, rfl⟩
    exact he.extends (extends_openStreamSync ho) hsa.1 hsa.2
  | openRemote => exact he.extends (extends_openRemote _) rfl rfl
  | close err _ hfr =>
    refine { he with closeFrame := fun f hf => ?_ }
    rcases Option.or_eq_some_iff.mp hf with hf | ⟨-, hf⟩
    · exact hfr f hf
    · exact he.closeFrame f hf

/-! ## Building records -/

theorem Ending.insert (fs : List Frame) (h : Ending log s) (hfs : ∀ f ∈ fs, ∀ n, f.sendsOn n = none) :
    Ending (log ++ fs) s := by
  refine h.of_endings h.control rfl (fun _ => rfl) fun n => ?_
  have hnil : endings n fs = [] := endings_eq_nil fun f hf => hfs f hf n
  rw [endings_append, endings_append, endings_append, hnil, List.append_nil]

theorem Ending.frame {size : Nat} {fin r : Bool} {buf data : List UInt8} {head : Nat} (h : Ending log s)
    (hget : s.get id = some st) (hin : st.inReady = true) (hreset : st.resetSent = false)
    (hend : fin = true → r = false) :
    Ending (log ++ [appendStreamFrame id.toNat st.sent data fin])
      ({ s with connSent := s.connSent + size }.set id (st.framed size fin buf head r)) := by
  have hfin : st.finSent = false := by
    refine eq_false_of_ne_true fun hc => ?_
    exact nomatch (h.settled id st hget hc).symm.trans hin
  have hd : st.sendDone = false := by
    rw [Stream.sendDone, hfin, hreset]
    rfl
  -- Only an end is queued, and the stream has not ended.
  have hq : endings id.toNat s.control = [] := by
    refine endings_eq_nil fun f hf => ?_
    cases hs : f.sendsOn id.toNat with
    | none => rfl
    | some ends =>
      have hmem : ends ∈ endings id.toNat (log ++ s.control) :=
        List.mem_filterMap.mpr ⟨f, List.mem_append_right _ hf, hs⟩
      have hr := h.running id fun st₁ hget₁ => Option.some.inj (hget.symm.trans hget₁) ▸ hd
      obtain rfl := hr ends hmem
      exact absurd hs (h.control f hf id.toNat)
  refine h.emit hget hd h.control rfl (fun _ => rfl) (e := fin) ?_ ?_ ?_ ?_
  · change endings id.toNat (log ++ _ ++ s.control) = _
    rw [endings_append, endings_append, endings_append, hq]
    simp [endings, appendStreamFrame, Frame.sendsOn]
  · intro n hn
    change endings n (log ++ _ ++ s.control) = _
    simp [endings, appendStreamFrame, Frame.sendsOn, hn.symm]
  · simp [Stream.sendDone, Stream.framed, hfin, hreset]
  · intro ht
    simp only [Stream.framed, hfin, Bool.or_false] at ht
    exact hend ht

theorem Emit.ending {b b' : Building} (h : Emit b b') (he : Ending (log ++ b.2) b.1) : Ending (log ++ b'.2) b'.1 := by
  cases h with
  | @control s b t rest heq =>
    refine he.of_endings (fun f hf => he.control f ?_) rfl (fun _ => rfl) fun n => ?_
    · change f ∈ s.control
      rw [heq]
      exact List.mem_append_right _ hf
    · change endings n (log ++ (b ++ t) ++ rest) = endings n (log ++ b ++ s.control)
      rw [heq]
      simp only [endings_append, List.append_assoc]
  | flow _ _ _ _ _ _ _ _ _ hfs =>
    have hi := he.insert _ fun f hf => Frame.sendsOn_of_flowControl (hfs f hf)
    rw [List.append_assoc] at hi
    exact { hi with }
  | idle hget => exact he.set hget rfl fun _ => rfl
  | frame hget hin hr _ _ _ hend =>
    rw [← List.append_assoc]
    exact he.frame hget hin hr hend
  | complete hget => exact he.complete hget
  | schedule => exact { he with }
  | @closing s b =>
    have hi := he.insert s.closeFrame.toList fun f hf =>
      Frame.sendsOn_of_closes (he.closeFrame f (Option.mem_toList.mp hf))
    rw [List.append_assoc] at hi
    exact hi

/-! ## Runs -/

/-- The frames that a step emits. -/
def emits (s : Session) : Event → List Frame
  | .build => s.buildRecord.2.1
  | _ => []

theorem ending_start {role : Role} {v : Version} {params : Parameters} {streamSendBuffer : Nat}
    (h : newSession role v params streamSendBuffer = some s) : Ending [] s := by
  obtain ⟨body, -, rfl⟩ := newSession_eq_some h
  refine ⟨?_, ?_, fun n => List.Pairwise.nil, ?_, ?_⟩
  · intro f hf n
    rw [List.mem_singleton.mp hf]
    exact Option.some_ne_none false |>.symm
  · intro f hf
    cases hf
  · intro id _ ends hen
    cases hen
  · intro id st hget
    cases hget

theorem Path.ending (h : Path true s s') (he : Ending log s) : Ending log s' := by
  induction h with
  | refl => exact he
  | tail _ hl ih => exact hl.ending ih

theorem Emits.ending {b b' : Building} (h : Emits b b') (he : Ending (log ++ b.2) b.1) : Ending (log ++ b'.2) b'.1 := by
  induction h with
  | refl => exact he
  | tail _ hl ih => exact hl.ending ih

theorem Ending.step {e : Event} (he : Ending log s) (hs : s.Good) (hc : s.Calm e)
    (hst : s.step e = some s') : Ending (log ++ s.emits e) s' := by
  by_cases hb : e = .build
  · subst hb
    cases hst
    refine Emits.ending (buildRecord_spec hs.sane hs.readyOk).1 ?_
    rw [List.append_nil]
    exact he
  · have hn : s.emits e = [] := by
      cases e with
      | build => exact absurd rfl hb
      | call | receive | closeWithError | stop => rfl
    have hm : Moves true s s' :=
      (moves_step hs.sane (fun _ => hc) hst).resolve_right fun h => hb h.1
    obtain ⟨s₁, n, h₁, h₂⟩ := hm
    rw [hn, List.append_nil]
    exact h₂.ending { h₁.ending he with }

/-- Unless the peer raises a limit after the FIN, a stream ends at most once on the wire, and nothing follows. -/
theorem endsOnce_emitted {role : Role} {v : Version} {params : Parameters} {streamSendBuffer : Nat}
    {events : List Event} (hstart : newSession role v params streamSendBuffer = some s)
    (hcalm : Along Calm step s events) (hrun : run step s events = some s') (id : StreamID) :
    EndsOnce id.toNat (trace emits step s events) := by
  have hkept : s'.Good ∧ run step s events = some s' ∧ Ending (trace emits step s events) s' := by
    refine run_induction_along (P := fun done t => t.Good ∧ run step s done = some t ∧
      Ending (trace emits step s done) t) ⟨good_start hstart, rfl, ending_start hstart⟩ ?_ hcalm hrun
    rintro done t e t' ⟨hgood, hdone, hending⟩ hok hstep
    refine ⟨hgood.step hstep, run_snoc_eq_some.mpr ⟨t, hdone, hstep⟩, ?_⟩
    rw [trace_snoc hdone hstep]
    exact hending.step hgood hok hstep
  have honce := hkept.2.2.once id.toNat
  rw [EndsOnce, endings_append] at honce
  exact (List.pairwise_append.mp honce).1

def closes : List Event := [.receive firstRecord, .call (.close ⟨.client, 0⟩), .build]

theorem endsOnce_emitted_closes :
    ∃ s', run step narrow (closes ++ [.build]) = some s' ∧
      endings 0 (trace emits step narrow (closes ++ [.build])) = [true] ∧
      EndsOnce 0 (trace emits step narrow (closes ++ [.build])) := by
  have hrun : run step narrow (closes ++ [.build]) = some _ := rfl
  exact ⟨_, hrun, by decide +kernel, endsOnce_emitted narrow_eq (by decide +kernel) hrun ⟨.client, 0⟩⟩

/-- The peer raises the limit after the FIN, and the next record has a second one. -/
theorem fin_emitted_twice :
    ∃ record s', encodeRecord draft02 [.maxStreamData 0 10] = some record ∧
      run step narrow (closes ++ [.receive record, .build]) = some s' ∧
      endings 0 (trace emits step narrow (closes ++ [.receive record, .build])) = [true, true] ∧
      ¬ EndsOnce 0 (trace emits step narrow (closes ++ [.receive record, .build])) :=
  ⟨_, _, rfl, rfl, by decide +kernel, by decide +kernel⟩

end Session

end TrevRpc.Go.Qmux
