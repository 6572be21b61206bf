import TrevRpc.Go.Qmux.Writer

/-!
# Control frames that wait for the writer

Flow control frames that do not fit a record wait for the next one, which `writeLoop` builds at once only if the streams
have more to send.
-/

open TrevRpc.Run

namespace TrevRpc.Go.Qmux

namespace Session

variable {s s' : Session} {b b' : Building} {limit : Nat}

def need (due : Bool) (size : Nat) : Nat := if due then size else 0

/-- The room that `appendFlowControl` may need. -/
def dueLength (s : Session) : Nat :=
  need s.sendMaxData maxFrame + need s.sendMaxStreams maxFrame + need s.sendPingReply (maxFrame + 8) +
    need s.sendPing (maxFrame + 8)

def Roomy (s : Session) : Prop :=
  (takeControl s.version s.recordLimit [] s.control).2 = [] → s.ready = [] →
    recordLength s.version (takeControl s.version s.recordLimit [] s.control).1 + s.dueLength ≤ s.recordLimit

instance : DecidablePred Roomy := fun _ => inferInstanceAs (Decidable (_ → _ → _ ≤ _))

/-- No flow control frame is due. -/
structure NothingDue (s : Session) : Prop where
  maxData : s.sendMaxData = false
  maxStreams : s.sendMaxStreams = false
  pingReply : s.sendPingReply = false
  ping : s.sendPing = false

structure Pays (v : Version) (limit size : Nat) (flag : Session → Bool) (b b' : Building) : Prop where
  version : b'.1.version = v
  longer : recordLength v b.2 ≤ recordLength v b'.2
  length_le : recordLength v b'.2 ≤ recordLength v b.2 + need (flag b.1) size
  clears : recordLength v b.2 + need (flag b.1) size ≤ limit → flag b'.1 = false

variable {v : Version}

theorem pays_ite (limit : Nat) {size : Nat} {flag : Session → Bool} {fs : List Frame} {f : Frame}
    (hv : s.version = v) (hversion : s'.version = s.version) (hflag : flag s' = false) (hf : f.length v ≤ size) :
    Pays v limit size flag (s, fs)
      (if flag s = true ∧ recordLength s.version fs + size ≤ limit then (s', fs ++ [f]) else (s, fs)) := by
  subst hv
  split_ifs with hfi
  · refine ⟨hversion, ?_, ?_, fun _ => hflag⟩ <;> simp only [recordLength_append, recordLength_singleton, need, hfi.1]
    · exact Nat.le_add_right ..
    · exact Nat.add_le_add_left hf _
  · refine ⟨rfl, le_rfl, Nat.le_add_right .., fun hr => ?_⟩
    refine eq_false_of_ne_true fun hdue => ?_
    simp only [need, hdue] at hr
    exact absurd ⟨hdue, hr⟩ hfi

theorem pays_appendMaxData (limit : Nat) (hv : b.1.version = v) :
    Pays v limit maxFrame sendMaxData b (appendMaxData limit b) :=
  pays_ite limit hv rfl rfl (length_le_of_fields _ rfl rfl)

theorem pays_appendMaxStreams (limit : Nat) (hv : b.1.version = v) :
    Pays v limit maxFrame sendMaxStreams b (appendMaxStreams limit b) :=
  pays_ite limit hv rfl rfl (length_le_of_fields _ rfl rfl)

theorem pays_appendPingReply (limit : Nat) (hv : b.1.version = v) :
    Pays v limit (maxFrame + 8) sendPingReply b (appendPingReply limit b) :=
  pays_ite limit hv rfl rfl ((length_le_of_fields _ rfl rfl).trans (Nat.le_add_right ..))

theorem pays_appendPing (limit : Nat) (hv : b.1.version = v) :
    Pays v limit (maxFrame + 8) sendPing b (appendPing limit b) :=
  pays_ite limit hv rfl rfl ((length_le_of_fields _ rfl rfl).trans (Nat.le_add_right ..))

theorem need_le (due : Bool) (size : Nat) : need due size ≤ size := by
  unfold need
  split_ifs
  · exact le_rfl
  · exact Nat.zero_le _

theorem need_mono {due due' : Bool} (h : due' = true → due = true) (size : Nat) : need due' size ≤ need due size := by
  cases due' with
  | false => exact Nat.zero_le _
  | true => rw [h rfl]

theorem eq_false_of_imp {due due' : Bool} (h : due' = true → due = true) (hdue : due = false) : due' = false := by
  cases due' with
  | false => rfl
  | true => exact (h rfl).symm.trans hdue

theorem nothingDue_appendFlowControl (hroom : recordLength b.1.version b.2 + b.1.dueLength ≤ limit ∨
      recordLength b.1.version (appendFlowControl limit b).2 + minFrame ≤ limit) :
    (appendFlowControl limit b).1.NothingDue := by
  have h₁ := pays_appendMaxData limit (b := b) rfl
  have h₂ := pays_appendMaxStreams limit h₁.version
  have h₃ := pays_appendPingReply limit h₂.version
  have h₄ := pays_appendPing limit h₃.version
  obtain ⟨-, hstreams₁, hreply₁, hping₁⟩ := (flows_appendMaxData limit b).flags
  obtain ⟨hdata₂, -, hreply₂, hping₂⟩ := (flows_appendMaxStreams limit (appendMaxData limit b)).flags
  obtain ⟨hdata₃, hstreams₃, -, hping₃⟩ :=
    (flows_appendPingReply limit (appendMaxStreams limit (appendMaxData limit b))).flags
  obtain ⟨hdata₄, hstreams₄, hreply₄, -⟩ := (flows_appendPing limit
    (appendPingReply limit (appendMaxStreams limit (appendMaxData limit b)))).flags
  unfold appendFlowControl dueLength minFrame at *
  generalize appendMaxData limit b = b₁ at *
  generalize appendMaxStreams limit b₁ = b₂ at *
  generalize appendPingReply limit b₂ = b₃ at *
  generalize appendPing limit b₃ = b₄ at *
  have hneedStreams := need_mono hstreams₁ maxFrame
  have hneedReply := need_mono (hreply₁ ∘ hreply₂) (maxFrame + 8)
  have hneedPing := need_mono (hping₁ ∘ hping₂ ∘ hping₃) (maxFrame + 8)
  have hle (due : Bool) : need due maxFrame ≤ 17 ∧ need due (maxFrame + 8) ≤ 25 := ⟨need_le .., need_le ..⟩
  have hleData := (hle b.1.sendMaxData).1
  have hleStreams := (hle b.1.sendMaxStreams).1
  have hleReply := (hle b.1.sendPingReply).2
  have hlePing := (hle b.1.sendPing).2
  have l₁ := h₁.longer
  have l₂ := h₂.longer
  have l₃ := h₃.longer
  have l₄ := h₄.longer
  have m₁ := h₁.length_le
  have m₂ := h₂.length_le
  have m₃ := h₃.length_le
  refine ⟨?_, ?_, ?_, h₄.clears ?_⟩
  · exact eq_false_of_imp (hdata₂ ∘ hdata₃ ∘ hdata₄) (h₁.clears (by omega))
  · exact eq_false_of_imp (hstreams₃ ∘ hstreams₄) (h₂.clears (by omega))
  · exact eq_false_of_imp hreply₄ (h₃.clears (by omega))
  · omega

theorem Emit.nothingDue (h : Emit b b') (hdue : b.1.wake = true ∨ b.1.NothingDue) :
    b'.1.wake = true ∨ b'.1.NothingDue := by
  cases h with
  | control | idle | frame | schedule | closing => exact hdue.imp_right fun h => { h with }
  | flow _ _ _ _ _ h₁ h₂ h₃ h₄ =>
    exact hdue.imp_right fun h => ⟨eq_false_of_imp h₁ h.maxData, eq_false_of_imp h₂ h.maxStreams,
      eq_false_of_imp h₃ h.pingReply, eq_false_of_imp h₄ h.ping⟩
  | complete =>
    unfold streamCompleted
    split_ifs
    · exact hdue.imp_right fun h => { h with }
    · exact .inl rfl

theorem Emits.nothingDue (h : Emits b b') (hdue : b.1.wake = true ∨ b.1.NothingDue) :
    b'.1.wake = true ∨ b'.1.NothingDue := by
  induction h with
  | refl => exact hdue
  | tail _ hl ih => exact hl.nothingDue ih

theorem room_of_not_full (hr : b.1.ready ≠ []) (h : (appendStreamData limit b).2 = false) :
    recordLength b.1.version b.2 + minFrame ≤ limit := by
  obtain ⟨id, ready, hc⟩ := List.exists_cons_of_ne_nil hr
  by_contra hroom
  have hf : limit - recordLength b.1.version b.2 < minFrame := by
    unfold minFrame at *
    omega
  simp only [appendStreamData, hc, sendReady, if_pos hf, Bool.true_or] at h
  cases h

theorem buildRecord_last (h : s.buildRecord.2.2 = (false, .modeOpen)) :
    ∃ t, takeControl s.version s.recordLimit [] s.control = (t, []) ∧
      let b := appendFlowControl s.recordLimit ({ s with control := [] }, t)
      s.buildRecord.1 = (appendStreamData s.recordLimit b).1.1 ∧ (appendStreamData s.recordLimit b).2 = false := by
  unfold buildRecord at h ⊢
  by_cases ha : s.mode = .modeAbort
  · simp only [if_pos ha] at h
    cases h
  by_cases hq : s.mode = .modeQuiet
  · simp only [if_neg ha, if_pos hq] at h
    cases h
  simp only [if_neg ha, if_neg hq] at h ⊢
  generalize takeControl s.version s.recordLimit [] s.control = r at h ⊢
  obtain ⟨t, control⟩ := r
  by_cases hl : control = []
  · subst hl
    refine ⟨t, rfl, ?_⟩
    simp only [ne_eq, not_true_eq_false, if_false] at h ⊢
    generalize appendStreamData s.recordLimit
      (appendFlowControl s.recordLimit ({ s with control := [] }, t)) = r at h ⊢
    obtain ⟨⟨s', frames⟩, full⟩ := r
    split_ifs at h ⊢ with hopen hlong
    · exact ⟨rfl, congrArg Prod.fst h⟩
    · cases h
    · cases h
  · simp only [ne_eq, hl, not_false_eq_true, if_true] at h
    cases h

theorem nothingDue_buildRecord (hg : s.Good) (hroomy : s.Roomy)
    (hl : s.buildRecord.2.2 = (false, .modeOpen)) :
    s.buildRecord.1.wake = true ∨ s.buildRecord.1.NothingDue := by
  obtain ⟨t, ht, heq, hfu⟩ := buildRecord_last hl
  rw [heq]
  have hf := flows_appendFlowControl s.recordLimit ({ s with control := [] }, t)
  have hs : Sane { s with control := [] } := hg.sane.congr rfl rfl rfl rfl le_rfl
  have hr : ReadyOk { s with control := [] } := { hg.readyOk with }
  have hem := (appendStreamData_spec s.recordLimit (hf.emits.sane hs) (hf.readyOk hr)).1
  refine Emits.nothingDue hem (.inr (nothingDue_appendFlowControl ?_))
  have hre : (appendFlowControl s.recordLimit ({ s with control := [] }, t)).1.ready = s.ready ∧
      (appendFlowControl s.recordLimit ({ s with control := [] }, t)).1.version = s.version := by
    obtain ⟨_, _, _, _, _, fs, -, -, -, -, -, hb⟩ := hf
    rw [hb]
    exact ⟨rfl, rfl⟩
  by_cases hi : s.ready = []
  · unfold Roomy at hroomy
    rw [ht] at hroomy
    exact .inl (hroomy rfl hi)
  · have hrm := room_of_not_full (fun hnil => hi (hre.1.symm.trans hnil)) hfu
    rw [hre.2] at hrm
    exact .inr hrm

/-- Nothing is left for the writer, but for a ping whose keep-alive is yet to wake it. -/
structure Drained (s : Session) (ticked : Bool) : Prop where
  control : s.control = []
  maxData : s.sendMaxData = false
  maxStreams : s.sendMaxStreams = false
  pingReply : s.sendPingReply = false
  ping : s.sendPing = true → ticked = true

end Session

namespace Endpoint

variable {e e' : Endpoint} {a : Act} {acts : List Act}

def Roomy (e : Endpoint) (a : Act) : Prop := a = .builds → e.session.Roomy

instance (e : Endpoint) : DecidablePred e.Roomy := fun _ => inferInstanceAs (Decidable (_ = _ → Session.Roomy _))

theorem drained_of_due {s s' : Session} {t ticked' : Bool} (h : s.Drained t)
    (hdue : s'.due = s.due ∧ ticked' = t ∨ s'.due = { s.due with sendPing := true } ∧ ticked' = true) :
    s'.Drained ticked' := by
  simp only [Session.due, Session.Due.mk.injEq] at hdue
  obtain ⟨hcon, hd, hs, hr, hp⟩ := h
  rcases hdue with ⟨⟨h₁, h₂, h₃, h₄, h₅⟩, rfl⟩ | ⟨⟨h₁, h₂, h₃, h₄, -⟩, rfl⟩
  · exact ⟨h₁.trans hcon, h₂.trans hd, h₃.trans hs, h₄.trans hr, h₅ ▸ hp⟩
  · exact ⟨h₁.trans hcon, h₂.trans hd, h₃.trans hs, h₄.trans hr, fun _ => rfl⟩

theorem drained_step (hok : e.Ok) (h : e.rests = true → e.session.wake = false → e.session.Drained e.ticked)
    (hroomy : e.Roomy a) (hst : e.step a = some e') (hr : e'.rests = true) (hw : e'.session.wake = false) :
    e'.session.Drained e'.ticked := by
  by_cases hb : a = .builds
  · subst hb
    obtain ⟨hs, hl⟩ := builds_eq hst
    have hcon := ((Session.buildRecord_spec hok.good.sane hok.good.readyOk).2.2 (hl hr)).1
    have hdue := Session.nothingDue_buildRecord hok.good (hroomy rfl) (hl hr)
    rw [← hs] at hcon hdue
    have hn := hdue.resolve_left fun ht => nomatch hw.symm.trans ht
    refine ⟨hcon, hn.maxData, hn.maxStreams, hn.pingReply, fun ht => ?_⟩
    exact nomatch hn.ping.symm.trans ht
  · obtain ⟨hr', hw', -, hdue⟩ := step_rests hok.good.sane hst hb hr hw
    exact drained_of_due (h hr' hw') hdue

/-- While each record has room for what is due, nothing is left as the writer sleeps with no token. -/
theorem control_never_stranded {role : Role} {v : Version} {params : Parameters} {streamSendBuffer : Nat} {s : Session}
    (hstart : newSession role v params streamSendBuffer = some s) (hroomy : Along Roomy step { session := s } acts) :
    Always (fun _ e => e.writer = .parked → e.session.wake = false → e.session.Drained e.ticked) step
      { session := s } acts := by
  refine always_of_along
    (I := fun _ e => e.Ok ∧ (e.rests = true → e.session.wake = false → e.session.Drained e.ticked)) ?_ ?_ ?_ hroomy
  · refine ⟨ok_start hstart, fun _ hwake => ?_⟩
    obtain ⟨body, -, rfl⟩ := newSession_eq_some hstart
    cases hwake
  · rintro _ e ⟨-, hdrained⟩ hparked
    exact hdrained (by simp [rests, hparked])
  · rintro _ e a e' ⟨hok, hdrained⟩ hroom hstep
    exact ⟨hok.step hstep, drained_step hok hdrained hroom hstep⟩

end Endpoint

/-! ## A record that is almost full -/

namespace Session

variable {s : Session}

theorem takeControl_of_fits (v : Version) {limit : Nat} {b c : List Frame}
    (h : recordLength v (b ++ c) ≤ limit) : takeControl v limit b c = (b ++ c, []) := by
  induction c generalizing b with
  | nil => rw [takeControl, List.append_nil]
  | cons f c ih =>
    rw [← List.singleton_append, ← List.append_assoc] at h ⊢
    have hf : ¬ limit < recordLength v b + f.length v := by
      rw [recordLength_append, recordLength_append, recordLength_singleton] at h
      omega
    rw [List.singleton_append, takeControl, if_neg hf]
    exact ih h

theorem buildRecord_of_tight (hm : s.mode = .modeOpen) (hr : s.ready = [])
    (hfits : recordLength s.version s.control ≤ s.recordLimit)
    (ht : s.recordLimit < recordLength s.version s.control + maxFrame) :
    s.buildRecord = ({ s with control := [] }, s.control, false, .modeOpen) := by
  have hf : ¬ recordLength s.version s.control + maxFrame ≤ s.recordLimit := Nat.not_le.mpr ht
  have hf' : ¬ recordLength s.version s.control + maxFrame + 8 ≤ s.recordLimit := by omega
  have hta : takeControl s.version s.recordLimit [] s.control = (s.control, []) :=
    takeControl_of_fits s.version (b := []) hfits
  simp [buildRecord, hm, hta, appendFlowControl, appendMaxData, appendMaxStreams, appendPingReply, appendPing,
    hf, hf', appendStreamData, hr, sendReady]

def gone (s : Session) (k : Nat) : Stream :=
  (Stream.new s.peer.initialMaxStreamDataBidiRemote s.localParams.initialMaxStreamDataBidiLocal).givenUp
    (.cancelled ⟨StreamID.toNat ⟨s.role, k⟩, 0, false⟩)

def cancelled (s : Session) (n : Nat) : Session :=
  { s with
    streams := Function.update s.streams s.role ((List.range n).map s.gone)
    control := s.control ++ (List.range n).map fun k => .resetStream (StreamID.toNat ⟨s.role, k⟩) 0 0
    wake := true }

theorem call_openStreamSync_cancelled {n : Nat} (hop : s.closeErr = none) (hn : n < s.maxLocal) :
    (s.cancelled n).call .openStreamSync = some { s.cancelled n with
      streams := Function.update s.streams s.role ((List.range n).map s.gone ++
        [Stream.new s.peer.initialMaxStreamDataBidiRemote s.localParams.initialMaxStreamDataBidiLocal]) } := by
  have ho : (s.cancelled n).openedLocal = n := by simp [openedLocal, cancelled]
  simp only [call, openStreamSync]
  rw [if_pos ⟨by rw [cancelled, hop]; rfl, by rw [ho]; exact hn⟩]
  simp [cancelled]

theorem call_cancelWrite_cancelled (s : Session) (n : Nat) :
    call { s.cancelled n with
      streams := Function.update s.streams s.role ((List.range n).map s.gone ++
        [Stream.new s.peer.initialMaxStreamDataBidiRemote s.localParams.initialMaxStreamDataBidiLocal]) }
      (.cancelWrite ⟨s.role, n⟩ 0) = some (s.cancelled (n + 1)) := by
  simp [call, get, cancelled, cancelWrite, Stream.sendDone, Stream.new, resetSend, queueControl, wakeWriter,
    maybeRemove, set, Stream.recvDone, List.range_succ, gone, Stream.givenUp]

theorem recordLength_cancelled (v : Version) (r : Role) {n : Nat} (hn : n ≤ 4096) :
    recordLength v ((List.range n).map fun k => .resetStream (StreamID.toNat ⟨r, k⟩) 0 0) = 4 * n + (n - 16) := by
  induction n with
  | zero => rfl
  | succ n ih =>
    have hb : (StreamID.toNat ⟨r, n⟩ < 2 ^ 6 ↔ n < 16) ∧ StreamID.toNat ⟨r, n⟩ < 2 ^ 14 := by
      cases r <;> simp only [StreamID.toNat, Role.toNat] <;> omega
    have hid : Varint.encodedLen (StreamID.toNat ⟨r, n⟩) = if n < 16 then 1 else 2 := by
      simp only [Varint.encodedLen, hb, if_true]
    have hlen : (Frame.resetStream (StreamID.toNat ⟨r, n⟩) 0 0).length v = 3 + if n < 16 then 1 else 2 := by
      rw [← hid]
      change 1 + (Varint.encodedLen (StreamID.toNat ⟨r, n⟩) + 2) + 0 = _
      omega
    rw [List.range_succ, List.map_append, recordLength_append, ih (by omega), List.map_singleton,
      recordLength_singleton, hlen]
    split_ifs <;> omega

end Session

namespace Endpoint

theorem run_of_tight {e : Endpoint} (hp : e.writer = .parked) (hw : e.session.wake = true)
    (hm : e.session.mode = .modeOpen) (hr : e.session.ready = [])
    (hf : recordLength e.session.version e.session.control ≤ e.session.recordLimit)
    (ht : e.session.recordLimit < recordLength e.session.version e.session.control + Session.maxFrame) :
    run step e [.wakes, .builds, .flushes] =
      some { e with session := { e.session with wake := false, control := [] } } := by
  have hb := Session.buildRecord_of_tight (s := { e.session with wake := false }) hm hr hf ht
  simp [run, step, hp, hw, hb]

def cancels (r : Role) (n : Nat) : List Act :=
  (List.range n).flatMap fun k => [.event (.call .openStreamSync), .event (.call (.cancelWrite ⟨r, k⟩ 0))]

theorem run_cancels {e : Endpoint} (ho : e.session.closeErr = none) (hs : e.session.cancelled 0 = e.session)
    {n : Nat} (hn : n ≤ e.session.maxLocal) :
    run step e (cancels e.session.role n) = some { e with session := e.session.cancelled n } := by
  induction n with
  | zero =>
    rw [hs]
    rfl
  | succ n ih =>
    have hr : cancels e.session.role (n + 1) = cancels e.session.role n ++
        [.event (.call .openStreamSync), .event (.call (.cancelWrite ⟨e.session.role, n⟩ 0))] := by
      simp [cancels, List.range_succ]
    rw [hr, run_append, ih (by omega)]
    simp [run, step, Session.step, Session.call_openStreamSync_cancelled ho (Nat.lt_of_succ_le hn),
      Session.call_cancelWrite_cancelled]

def reads : List Act :=
  [.event (.receive ((encodeRecord draft02
      [(appendTransportParameters draft02 ⟨0, 9, 9, 9, 4000, 0⟩).get (by decide +kernel),
        appendStreamFrame 0 0 [104, 101, 108, 108, 111] false]).get (by decide +kernel))),
    .event (.call (.read ⟨.client, 0⟩ 5))]

def owing : Endpoint := (run step { session := Session.narrow } reads).get (by decide +kernel)

theorem owing_eq : run step { session := Session.narrow } reads = some owing := (Option.some_get _).symm

theorem control_never_stranded_reads :
    (run step { session := Session.narrow } (reads ++ [.wakes, .builds, .flushes])).isSome = true ∧
      Always (fun _ e => e.writer = .parked → e.session.wake = false → e.session.Drained e.ticked) step
        { session := Session.narrow } (reads ++ [.wakes, .builds, .flushes]) :=
  ⟨by decide +kernel, control_never_stranded Session.narrow_eq (by decide +kernel)⟩

/-- The resets leave three bytes. MAX_DATA does not fit, and the writer sleeps. -/
theorem maxData_stranded :
    ∃ e, run step { session := Session.narrow } (reads ++ cancels .server 3272 ++ [.wakes, .builds, .flushes])
      = some e ∧
      e.writer = .parked ∧ e.session.wake = false ∧ e.session.closeErr = none ∧ e.session.sendMaxData = true := by
  have hstart : owing.session.cancelled 0 = owing.session := by
    have hstreams : Function.update owing.session.streams owing.session.role [] = owing.session.streams := by
      rw [Function.update_eq_self_iff]
      rfl
    have hwake : owing.session.wake = true := rfl
    unfold Session.cancelled
    simp only [List.range_zero, List.map_nil, List.append_nil, hstreams, ← hwake]
  have hrole : owing.session.role = .server := rfl
  have hmax : 3272 ≤ owing.session.maxLocal := by decide +kernel
  have hcancels := run_cancels (e := owing) rfl hstart hmax
  rw [hrole] at hcancels
  have hlength : recordLength draft02 (owing.session.cancelled 3272).control = 16379 := by
    have hcontrol : recordLength draft02 owing.session.control = 35 := by decide +kernel
    rw [Session.cancelled, recordLength_append, hcontrol, Session.recordLength_cancelled _ _ (by decide)]
  have hversion : (owing.session.cancelled 3272).version = draft02 := rfl
  have hlimit : (owing.session.cancelled 3272).recordLimit = 16382 := by
    rw [Session.recordLimit, Session.cancelled]
    decide +kernel
  have htight := run_of_tight (e := { owing with session := owing.session.cancelled 3272 }) rfl rfl rfl rfl
    (by rw [hversion, hlength, hlimit]; decide) (by rw [hversion, hlength, hlimit]; decide)
  refine ⟨{ owing with session := { owing.session.cancelled 3272 with wake := false, control := [] } }, ?_, rfl, rfl,
    rfl, rfl⟩
  rw [run_append, run_append, owing_eq, Option.bind_some, hcancels, Option.bind_some]
  exact htight

end Endpoint

end TrevRpc.Go.Qmux
