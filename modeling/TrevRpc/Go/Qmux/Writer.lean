import TrevRpc.Go.Qmux.Accounts

/-!
# The writer of a QMux session

It sleeps until a token wakes it, and builds records until nothing is left. Whoever leaves something to send must wake
it.
-/

open TrevRpc.Run

namespace TrevRpc.Go.Qmux

/-- Where `writeLoop` is. -/
inductive Writer
  | parked
  | building
  | flushing
  | done
  deriving DecidableEq

structure Endpoint where
  session : Session
  writer : Writer := .parked
  -- The keep-alive has set `sendPing` and not woken the writer yet.
  ticked : Bool := false

inductive Act
  | event (e : Event)
  -- The two halves of a keep-alive: only the first holds the lock.
  | ticks
  | tickWakes
  | wakes
  -- The session has ended.
  | notices
  | builds
  | flushes
  -- A write to the connection fails.
  | breaks (err : SessionError)
  deriving DecidableEq

namespace Endpoint

def step (e : Endpoint) : Act → Option Endpoint
  | .event ev =>
    if ev = .build ∨ ev = .call .sendPing then none
    else (e.session.step ev).map fun s => { e with session := s }
  | .ticks =>
    if e.ticked then none else some { e with session := { e.session with sendPing := true }, ticked := true }
  | .tickWakes => if e.ticked then some { e with session := e.session.wakeWriter, ticked := false } else none
  | .wakes =>
    if e.writer = .parked ∧ e.session.wake then
      some { e with session := { e.session with wake := false }, writer := .building }
    else none
  | .notices => if e.writer = .parked ∧ e.session.closeErr.isSome then some { e with writer := .building } else none
  | .builds =>
    if e.writer = .building then
      let (s, _, full, mode) := e.session.buildRecord
      some { e with
        session := s, writer := if mode ≠ .modeOpen then .done else if full then .building else .flushing }
    else none
  | .flushes => if e.writer = .flushing then some { e with writer := .parked } else none
  | .breaks err =>
    if e.writer = .building ∨ e.writer = .flushing then
      some { e with session := e.session.closeWith err none .modeAbort, writer := .done }
    else none

def rests (e : Endpoint) : Bool := e.writer = .parked ∨ e.writer = .flushing

end Endpoint

/-! ## Streams -/

def Stream.Scheduled (st : Stream) : Prop :=
  st.sendDone = true ∨ st.inReady = true ∨ (st.unsent = [] ∧ st.finRequested = false) ∨
    (st.unsent ≠ [] ∧ st.sent = st.sendMax)

theorem Stream.Scheduled.congr {st st' : Stream} (h : st.Scheduled) (hs : st'.sending = st.sending) :
    st'.Scheduled := by
  simp only [sending, Sending.mk.injEq] at hs
  obtain ⟨hbuf, hh, hse, hmax, hreq, hfin, hr, -, hin, -⟩ := hs
  unfold Stream.Scheduled sendDone unsent at *
  rw [hbuf, hh, hse, hmax, hreq, hfin, hr, hin]
  exact h

namespace Session

variable {calm : Bool} {s s' : Session} {id : StreamID} {st st' : Stream} {b b' : Building}

def Scheduled (s : Session) : Prop := ∀ id st, s.get id = some st → st.Scheduled

theorem Scheduled.congr (h : s.Scheduled) (hget : ∀ id, s'.get id = s.get id) : s'.Scheduled :=
  fun id st h' => h id st (hget id ▸ h')

theorem Scheduled.set (h : s.Scheduled) (id : StreamID) (hst : st.Scheduled) : (s.set id st).Scheduled := by
  intro id' st' hget
  rcases get_set_cases hget with rfl | hget'
  · exact hst
  · exact h id' st' hget'

theorem Scheduled.extends {r : Role} {sendMax : Nat} (h : s.Scheduled) (he : s.Extends s' r sendMax) :
    s'.Scheduled := by
  intro id st hget
  rcases he.get id with hs | ⟨-, -, hnew⟩
  · exact h id st (hs ▸ hget)
  · obtain rfl := Option.some.inj (hnew.symm.trans hget)
    exact .inr (.inr (.inl ⟨rfl, rfl⟩))

theorem get_consumedBy (s : Session) (n : Option Nat) (id : StreamID) : (s.consumedBy n).get id = s.get id := by
  cases n with
  | none => rfl
  | some n =>
    unfold consumedBy consumed
    simp only
    split_ifs <;> rfl

theorem Scheduled.markReady (h : s.Scheduled) (hget : s.get id = some st) :
    ((s.set id st').markReady id).Scheduled := by
  unfold Session.markReady
  rw [get_set_self hget]
  simp only
  split_ifs with hr hin
  · refine h.set id (.inl ?_)
    rw [Stream.sendDone, hr, Bool.or_true]
  · exact (h.set id (.inr (.inl hin))).congr fun _ => rfl
  · intro id' st₁ hget₁
    change Session.get ((s.set id st').set id { st' with inReady := true }) id' = some st₁ at hget₁
    by_cases hid : id' = id
    · subst hid
      rw [get_set_self (get_set_self hget)] at hget₁
      exact .inr (.inl (Option.some.inj hget₁ ▸ rfl))
    · rw [get_set_ne hid, get_set_ne hid] at hget₁
      exact h id' st₁ hget₁

theorem Change.scheduled (h : Change calm s s') (hs : s.Scheduled) : s'.Scheduled := by
  cases h with
  | wake | queue | accept | maxData | maxStreams | parameters | ping | sendPing | close =>
    exact hs.congr fun _ => rfl
  | receive t hget hr =>
    refine Scheduled.congr ?_ fun id => get_consumedBy _ t id
    exact Scheduled.set (hs.congr fun _ => rfl) _ ((hs _ _ hget).congr hr.sending)
  | complete hget =>
    have hst := hs _ _ hget
    refine Scheduled.congr ?_ fun id => get_streamCompleted _ _ id
    exact hs.set _ hst
  | send hget => exact hs.markReady hget
  | raise hget => exact hs.markReady hget
  | @reset id st code err =>
    refine Scheduled.congr (s := s.set id (st.givenUp err)) ?_ fun _ => rfl
    exact hs.set id (.inl (Bool.or_true _))
  | openLocal ho => exact hs.extends (extends_openStreamSync ho)
  | openRemote => exact hs.extends (extends_openRemote _)

theorem Emit.scheduled (h : Emit b b') (hs : b.1.Scheduled) : b'.1.Scheduled := by
  cases h with
  | control | flow | schedule | closing => exact hs.congr fun _ => rfl
  | idle hget hi =>
    refine hs.set _ ?_
    rcases hi with hr | ⟨hnil, hfin⟩ | ⟨hso, hmax⟩
    · exact .inl (Bool.or_eq_true_iff.mpr (.inr hr))
    · exact .inr (.inr (.inl ⟨hnil, hfin⟩))
    · exact .inr (.inr (.inr ⟨hso, hmax⟩))
  | @frame s b id st n fin buf head r hget _ _ _ _ _ _ hl =>
    refine Scheduled.set (hs.congr fun _ => rfl) _ ?_
    cases r with
    | true => exact .inr (.inl rfl)
    | false =>
      rcases hl rfl with hfin | hn
      · refine .inl ?_
        simp [Stream.sendDone, Stream.framed, hfin]
      · exact .inr (.inr (.inl hn))
  | complete hget =>
    have hst := hs _ _ hget
    refine Scheduled.congr ?_ fun id => get_streamCompleted _ _ id
    exact hs.set _ hst

theorem Path.scheduled (h : Path calm s s') (hs : s.Scheduled) : s'.Scheduled := by
  induction h with
  | refl => exact hs
  | tail _ hl ih => exact hl.scheduled ih

theorem Emits.scheduled (h : Emits b b') (hs : b.1.Scheduled) : b'.1.Scheduled := by
  induction h with
  | refl => exact hs
  | tail _ hl ih => exact hl.scheduled ih

theorem Moves.scheduled (h : Moves calm s s') (hs : s.Scheduled) : s'.Scheduled := by
  obtain ⟨s₁, n, h₁, h₂⟩ := h
  exact h₂.scheduled ((h₁.scheduled hs).congr fun _ => rfl)

/-! ## What the writer waits for -/

structure Due where
  control : List Frame
  sendMaxData : Bool
  sendMaxStreams : Bool
  sendPingReply : Bool
  sendPing : Bool

def due (s : Session) : Due := ⟨s.control, s.sendMaxData, s.sendMaxStreams, s.sendPingReply, s.sendPing⟩

structure Rests (s s' : Session) : Prop where
  wake : s'.wake = s.wake
  due : s'.due = s.due
  blocked : s.Blocked → s'.Blocked

theorem Rests.of_get (hw : s'.wake = s.wake) (hdue : s'.due = s.due) (hs : s'.connSent = s.connSent)
    (hmax : s'.connSendMax = s.connSendMax) (hget : ∀ id, s'.get id = s.get id) : s.Rests s' := by
  refine ⟨hw, hdue, fun hb id st h hin => ?_⟩
  rw [hs, hmax]
  rw [hget] at h
  exact hb id st h hin

theorem rests_set (hget : s.get id = some st) (hin : st'.inReady = st.inReady) (hu : st'.unsent = st.unsent) :
    s.Rests (s.set id st') := by
  refine ⟨rfl, rfl, fun hb id' st₁ hget₁ hin₁ => ?_⟩
  rcases get_set_cases hget₁ with rfl | hget'
  · rw [hu]
    exact hb id st hget (hin ▸ hin₁)
  · exact hb id' st₁ hget' hin₁

theorem rests_extends {r : Role} {sendMax : Nat} (he : s.Extends s' r sendMax) (hw : s'.wake = s.wake)
    (hdue : s'.due = s.due) : s.Rests s' := by
  refine ⟨hw, hdue, fun hb id st hget hin => ?_⟩
  have hs : s'.connSent = s.connSent := congrArg Core.connSent he.core
  have hmax : s'.connSendMax = s.connSendMax := congrArg Core.connSendMax he.core
  rw [hs, hmax]
  rcases he.get id with hsa | ⟨-, -, hnew⟩
  · exact hb id st (hsa ▸ hget) hin
  · obtain rfl := Option.some.inj (hnew.symm.trans hget)
    cases hin

theorem Rests.trans {s'' : Session} (h : s.Rests s') (h' : s'.Rests s'') : s.Rests s'' :=
  ⟨h'.wake.trans h.wake, h'.due.trans h.due, h'.blocked ∘ h.blocked⟩

theorem rests_consumedBy (s : Session) (n : Option Nat) : (s.consumedBy n).wake = true ∨ s.Rests (s.consumedBy n) := by
  cases n with
  | none => exact .inr ⟨rfl, rfl, id⟩
  | some n =>
    unfold consumedBy consumed
    simp only
    split_ifs
    · exact .inl rfl
    · exact .inr (.of_get rfl rfl rfl rfl fun _ => rfl)

theorem rests_streamCompleted (s : Session) (id : StreamID) :
    (s.streamCompleted id).wake = true ∨ s.Rests (s.streamCompleted id) := by
  unfold streamCompleted
  split_ifs
  · exact .inr ⟨rfl, rfl, fun h => h⟩
  · exact .inl rfl

theorem Change.rests (h : Change calm s s') (hs : s.Sane) : s'.wake = true ∨ s.Rests s' := by
  cases h with
  | wake | queue | maxData | ping | sendPing | close | reset => exact .inl rfl
  | accept | maxStreams => exact .inr (.of_get rfl rfl rfl rfl fun _ => rfl)
  | @receive id st st' arrived t hget hre =>
    have hc : s.Rests { s with connReceived := s.connReceived + arrived } :=
      .of_get rfl rfl rfl rfl fun _ => rfl
    refine (rests_consumedBy _ t).imp_right fun h => Rests.trans (hc.trans ?_) h
    refine rests_set hget ?_ ?_
    · exact congrArg Stream.Sending.inReady hre.sending
    · exact congrArg (fun x : Stream.Sending => x.sendBuf.drop x.sendHead) hre.sending
  | complete hget =>
    refine (rests_streamCompleted _ _).imp_right fun h => Rests.trans ?_ h
    exact rests_set hget rfl rfl
  | @send id st st' hget hse hd =>
    left
    have hr : st'.resetSent = false := hse.resetSent.trans (Bool.or_eq_false_iff.mp hd).2
    unfold markReady
    rw [get_set_self hget]
    simp only [hr, Bool.false_eq_true, if_false]
    split_ifs <;> rfl
  | raise hget =>
    unfold markReady
    rw [get_set_self hget]
    simp only
    split_ifs with hr
    · -- The writer has nothing to do for a stream that has been reset.
      exact .inr (rests_set hget rfl rfl)
    · exact .inl rfl
    · exact .inl rfl
  | openLocal ho =>
    right
    refine rests_extends (extends_openStreamSync ho) ?_ ?_ <;> rw [openStreamSync, if_pos ho]
    rfl
  | openRemote => exact .inr (rests_extends (extends_openRemote _) rfl rfl)
  | parameters peer hp =>
    refine .inr ⟨rfl, rfl, fun _ id st hget => ?_⟩
    have hpe : s.paramsReceived = true := hs.paramsReceived hget
    rw [hp] at hpe
    cases hpe

theorem Path.rests (h : Path calm s s') (hs : s.Sane) : s'.wake = true ∨ s.Rests s' := by
  induction h with
  | refl => exact .inr ⟨rfl, rfl, id⟩
  | tail hb hl ih =>
    rcases hl.rests (Path.sane hb hs) with hw | hr
    · exact .inl hw
    · rcases ih with hw | hih
      · exact .inl (hr.wake.trans hw)
      · exact .inr (hih.trans hr)

theorem Moves.rests (h : Moves calm s s') (hs : s.Sane) : s'.wake = true ∨ s.Rests s' := by
  obtain ⟨s₁, n, h₁, h₂⟩ := h
  have hc : s₁.Rests { s₁ with connReceived := s₁.connReceived + n } := .of_get rfl rfl rfl rfl fun _ => rfl
  rcases h₂.rests ((h₁.sane hs).counted _) with hw | hr
  · exact .inl hw
  · rcases h₁.rests hs with hw | hf
    · exact .inl (hr.wake.trans hw)
    · exact .inr (hf.trans (hc.trans hr))

end Session

/-! ## Runs -/

namespace Endpoint

variable {e e' : Endpoint} {a : Act} {acts : List Act}

theorem step_cases (hs : e.session.Sane) (hst : e.step a = some e') (hne : a ≠ .builds) :
    (e'.session = { e.session with sendPing := true } ∧ e'.rests = e.rests ∧ e'.ticked = true) ∨
    (e'.session = { e.session with wake := false } ∧ e'.rests = false) ∨
    (Session.Moves false e.session e'.session ∧
      (e'.session.wake = true ∨ e'.rests = false ∨ e'.rests = e.rests ∧ e'.ticked = e.ticked)) := by
  cases a with
  | event ev =>
    simp only [step] at hst
    split_ifs at hst with hev
    obtain ⟨s, hs', rfl⟩ := Option.map_eq_some_iff.mp hst
    refine .inr (.inr ⟨(Session.moves_step hs Session.not_calm hs').resolve_right ?_, .inr (.inr ⟨rfl, rfl⟩)⟩)
    rintro ⟨rfl, -⟩
    exact hev (.inl rfl)
  | ticks =>
    obtain ⟨-, rfl⟩ := of_guard_not hst
    exact .inl ⟨rfl, rfl, rfl⟩
  | tickWakes =>
    obtain ⟨-, rfl⟩ := of_guard hst
    exact .inr (.inr ⟨.of_path (Session.Change.wake _).path, .inl rfl⟩)
  | wakes =>
    obtain ⟨-, rfl⟩ := of_guard hst
    exact .inr (.inl ⟨rfl, rfl⟩)
  | notices =>
    obtain ⟨-, rfl⟩ := of_guard hst
    exact .inr (.inr ⟨.of_path .refl, .inr (.inl rfl)⟩)
  | builds => exact absurd rfl hne
  | flushes =>
    obtain ⟨hw, rfl⟩ := of_guard hst
    refine .inr (.inr ⟨.of_path .refl, .inr (.inr ⟨?_, rfl⟩)⟩)
    simp [rests, hw]
  | breaks err =>
    obtain ⟨-, rfl⟩ := of_guard hst
    exact .inr (.inr ⟨.of_path (Session.path_closeWith _ err (by simp) (by decide)), .inr (.inl rfl)⟩)

theorem builds_eq (hs : e.step .builds = some e') :
    e'.session = e.session.buildRecord.1 ∧ (e'.rests = true → e.session.buildRecord.2.2 = (false, .modeOpen)) := by
  simp only [step] at hs
  by_cases hw : e.writer = .building
  · rw [if_pos hw] at hs
    generalize e.session.buildRecord = r at hs ⊢
    obtain ⟨s, frames, full, mode⟩ := r
    cases hs
    refine ⟨rfl, fun hr => ?_⟩
    simp only [rests] at hr ⊢
    by_cases hm : mode = .modeOpen
    · cases full with
      | true => simp [hm] at hr
      | false => rw [hm]
    · simp [hm] at hr
  · rw [if_neg hw] at hs
    cases hs

theorem step_rests (hs : e.session.Sane) (hst : e.step a = some e') (hne : a ≠ .builds) (hr : e'.rests = true)
    (hw : e'.session.wake = false) :
    e.rests = true ∧ e.session.wake = false ∧ (e.session.Blocked → e'.session.Blocked) ∧
      (e'.session.due = e.session.due ∧ e'.ticked = e.ticked ∨
        e'.session.due = { e.session.due with sendPing := true } ∧ e'.ticked = true) := by
  rcases step_cases hs hst hne with ⟨hse, hsa, ht⟩ | ⟨-, hb⟩ | ⟨hm, hc⟩
  · rw [hse] at hw ⊢
    exact ⟨hsa ▸ hr, hw, fun h => h, .inr ⟨rfl, ht⟩⟩
  · exact nomatch hb.symm.trans hr
  · rcases hc with ha | hb | ⟨hsa, ht⟩
    · exact nomatch hw.symm.trans ha
    · exact nomatch hb.symm.trans hr
    · rcases hm.rests hs with ha | hq
      · exact nomatch hw.symm.trans ha
      · exact ⟨hsa ▸ hr, hq.wake ▸ hw, hq.blocked, .inl ⟨hq.due, ht⟩⟩

/-- What holds in every reachable state. -/
structure Ok (e : Endpoint) : Prop where
  good : e.session.Good
  scheduled : e.session.Scheduled
  blocked : e.rests = true → e.session.wake = false → e.session.Blocked

theorem ok_start {role : Role} {v : Version} {params : Parameters} {streamSendBuffer : Nat} {s : Session}
    (h : newSession role v params streamSendBuffer = some s) : Ok { session := s } := by
  refine ⟨Session.good_start h, ?_, fun _ hw => ?_⟩
  all_goals obtain ⟨body, -, rfl⟩ := newSession_eq_some h
  · intro id st hget
    cases hget
  · cases hw

theorem Ok.step (h : e.Ok) (hst : e.step a = some e') : e'.Ok := by
  have hs := h.good.sane
  by_cases hbu : a = .builds
  · subst hbu
    obtain ⟨hse, hl⟩ := builds_eq hst
    obtain ⟨hem, hre, hd⟩ := Session.buildRecord_spec hs h.good.readyOk
    refine ⟨?_, ?_, fun hr _ => ?_⟩ <;> rw [hse]
    · exact ⟨hem.sane hs, hre⟩
    · exact hem.scheduled h.scheduled
    · exact (hd (hl hr)).2
  · have hb (hr : e'.rests = true) (hw : e'.session.wake = false) : e'.session.Blocked := by
      obtain ⟨hr', hw', hk, -⟩ := step_rests hs hst hbu hr hw
      exact hk (h.blocked hr' hw')
    rcases step_cases hs hst hbu with ⟨hsa, -⟩ | ⟨hsa, -⟩ | ⟨hm, -⟩
    · refine ⟨?_, ?_, hb⟩ <;> rw [hsa]
      · exact ⟨hs.congr rfl rfl rfl rfl le_rfl, { h.good.readyOk with }⟩
      · exact h.scheduled.congr fun _ => rfl
    · refine ⟨?_, ?_, hb⟩ <;> rw [hsa]
      · exact ⟨hs.congr rfl rfl rfl rfl le_rfl, { h.good.readyOk with }⟩
      · exact h.scheduled.congr fun _ => rfl
    · exact ⟨hm.good h.good, hm.scheduled h.scheduled, hb⟩

theorem ok_run {role : Role} {v : Version} {params : Parameters} {streamSendBuffer : Nat} {s : Session}
    (hs : newSession role v params streamSendBuffer = some s) (hrun : run step { session := s } acts = some e) :
    e.Ok :=
  run_induction (P := fun _ => Ok) (ok_start hs) (fun _ _ _ _ h hst => h.step hst) hrun

def Served (e : Endpoint) (st : Stream) : Prop :=
  st.unsent = [] ∧ st.finRequested = false ∨
    st.unsent ≠ [] ∧ (st.sent = st.sendMax ∨ e.session.connSent = e.session.connSendMax)

/-- While the writer sleeps with no token, no stream has bytes or a FIN that it could send. -/
theorem data_never_stranded {role : Role} {v : Version} {params : Parameters} {streamSendBuffer : Nat} {s : Session}
    (hstart : newSession role v params streamSendBuffer = some s) (hrun : run step { session := s } acts = some e) :
    (e.writer = .parked → e.session.wake = false → ∀ id st, e.session.live id = some st → st.sendDone = false →
      e.Served st) ∧
    e.session.ready.Nodup ∧
    ∀ id, id ∈ e.session.ready ↔ ∃ st, e.session.get id = some st ∧ st.inReady = true := by
  have hok := ok_run hstart hrun
  refine ⟨fun hparked hwake id st hlive hopen => ?_, hok.good.readyOk.nodup, hok.good.readyOk.mem_iff⟩
  have hget : e.session.get id = some st := (Option.filter_eq_some_iff.mp hlive).1
  rcases hok.scheduled id st hget with hdone | hin | hnone | hcredit
  · exact nomatch hopen.symm.trans hdone
  · have hrests : e.rests = true := by simp [rests, hparked]
    obtain ⟨hunsent, hconn⟩ := hok.blocked hrests hwake id st hget hin
    exact .inr ⟨hunsent, .inr hconn⟩
  · exact .inl hnone
  · exact .inr ⟨hcredit.1, .inl hcredit.2⟩

def writes : List Act :=
  [.event (.receive Session.firstRecord), .event (.call (.write ⟨.client, 0⟩ [105] 0)), .wakes, .builds, .flushes]

theorem data_never_stranded_writes :
    ∃ e st, run step { session := Session.narrow } writes = some e ∧
      (e.writer = .parked ∧ e.session.wake = false ∧ e.session.live ⟨.client, 0⟩ = some st ∧ st.unsent = [105]) ∧
      e.Served st := by
  have hrun : run step { session := Session.narrow } writes = some _ := rfl
  refine ⟨_, _, hrun, ⟨rfl, rfl, rfl, rfl⟩, ?_⟩
  exact (data_never_stranded Session.narrow_eq hrun).1 rfl rfl ⟨.client, 0⟩ _ rfl rfl

end Endpoint

end TrevRpc.Go.Qmux
