import TrevRpc.Kotlin.CallStream.Delivery

/-! # Whole calls -/

open TrevRpc.Run TrevRpc.Rust

namespace TrevRpc.Kotlin.CallStream

variable {s s' : State} {a : Action} {own : Bool} {total : Nat}

/-! ## Invariants of a run -/

structure Inv (total : Nat) (s : State) : Prop where
  order : Order s
  sound : s.copies.Sound optimisticCopyCap total 0 s.budget
  delivery : s.closed = false → Delivery s

theorem closed_of_moves (h : Moves s own s') (ho : s'.closed = false) : s.closed = false := by
  cases h with
  | resendCloses _ | closes => exact absurd (State.close_closed.symm.trans ho) nofun
  | _ => exact ho

theorem Inv.step (h : Inv total s) (hs : CallStream.step s a = some s') : Inv total s' := by
  have hm := step_moves hs
  refine ⟨h.order.moves hm, sound_moves h.sound hm, fun ho => ?_⟩
  exact (h.delivery (closed_of_moves hm ho)).moves h.order hm ho

theorem inv_of_run {budget : Budget} {actions : List Action} (h : run step { budget } actions = some s) :
    Inv (budget.available + budget.others) s := by
  have hs : Inv (budget.available + budget.others) { budget } :=
    ⟨Order.start budget, .start budget, fun _ => Delivery.start budget⟩
  exact run_induction (P := fun _ => Inv (budget.available + budget.others)) hs (fun _ _ _ _ => Inv.step) h

/-! ## A half-closed stream -/

theorem perform_of_closed {op : Op} {w : Wire Bytes} (ht : takes op w = true) (h : w.closed = true) :
    perform op w = w := by
  cases op with
  | send body => simp [takes, h] at ht
  | finishSend =>
    cases w
    cases h
    rfl

theorem fails_of_closed (sent : Bool) (op : Op) {w : Wire Bytes} (h : w.closed = true) : fails sent op w = w.fail := by
  unfold fails
  split_ifs with ht
  · rw [perform_of_closed ht.2 h]
  · rfl

theorem received_of_closed (ho : Order s) (h : Moves s own s') (hs : s'.stream = s.stream)
    (hc : (s.wire s.stream).closed = true) : (s'.wire s'.stream).received = (s.wire s.stream).received := by
  have hwi {t : Stream} {f : Wire Bytes → Wire Bytes}
      (hf : s.stream = t → (f (s.wire s.stream)).received = (s.wire s.stream).received) :
      ((s.onWire t f).wire s.stream).received = (s.wire s.stream).received := by
    by_cases heq : s.stream = t
    · rw [← heq, State.wire_onWire, hf heq]
    · rw [State.wire_onWire_of_ne heq]
  have hr {w : Wire Bytes} (hw : s.replayed.closed = true → w.received = s.replayed.received) :
      (State.wire { s with replayed := w } s.stream).received = (s.wire s.stream).received := by
    cases hnow : s.stream with
    | original => rfl
    | replayed =>
      rw [hnow] at hc
      exact hw hc
  have hcl : (s.close.wire s.close.stream).received = (s.wire s.stream).received := by
    unfold State.close
    split_ifs
    · rfl
    · exact hwi fun _ => rfl
  cases h with
  | completed _ ht =>
    refine hwi fun heq => ?_
    rw [perform_of_closed (heq ▸ ht) hc]
  | failed _ | cancelled _ =>
    refine hwi fun _ => ?_
    rw [fails_of_closed _ _ hc, Wire.fail_received]
  | closedOld _ => exact hwi fun _ => rfl
  | opened hp =>
    rw [ho.opening _ (.inr hp)] at hs
    cases hs
  | openedClosed _ _ => exact hr fun _ => rfl
  | resentOne _ ht | resentFinish _ ht =>
    refine hr fun hc => ?_
    rw [perform_of_closed ht hc]
  | resendFails _ _ _ =>
    refine hr fun hc => ?_
    rw [fails_of_closed _ _ hc, Wire.fail_received]
  | resendCloses _ | closes => exact hcl
  | _ => rfl

/-! ## Progress -/

namespace Writer

theorem steps_mono (w : Writer) {l level' : Nat} (h : l ≤ level') (h2 : level' ≤ 2) : w.steps l ≤ w.steps level' := by
  cases w <;> simp only [steps] <;> first | omega | (split_ifs <;> omega)

end Writer

def Receiver.steps : Receiver → Nat
  | .waiting | .finished _ => 0
  | .returning _ => 1
  | .settling _ => 2
  | .refused => 7
  | .switched copies => copies.length + 6
  | .closedOld copies => copies.length + 5
  | .opened copies => copies.length + 4

def Resend.steps : Resend → Nat
  | .idle | .finished => 0
  | .failing => 1
  | .writing copies finish => copies.length + (if finish then 2 else 1)

def State.steps (s : State) : Nat :=
  s.receiver.steps + s.resend.steps + s.copies.kept.length + s.writer.steps s.level

theorem State.level_le (s : State) : s.level ≤ 2 := by
  unfold State.level
  split_ifs <;> omega

theorem writer_less (ho : (s'.receiver, s'.resend, s'.copies, s'.resent) = (s.receiver, s.resend, s.copies, s.resent))
    (h : s'.writer.steps s.level < s.writer.steps s.level) : s'.steps < s.steps := by
  simp only [Prod.mk.injEq] at ho
  obtain ⟨hre, hres, hcop, hr⟩ := ho
  have hl : s'.level = s.level := by rw [State.level, State.level, hr, hcop]
  unfold State.steps
  rw [hre, hres, hcop, hl]
  exact Nat.add_lt_add_left h _

theorem others_less (hw : s'.writer = s.writer) (hl : s'.level ≤ s.level)
    (h : s'.receiver.steps + s'.resend.steps + s'.copies.kept.length <
      s.receiver.steps + s.resend.steps + s.copies.kept.length) :
    s'.steps < s.steps := by
  have hle := s.writer.steps_mono hl s.level_le
  unfold State.steps
  rw [hw]
  omega

theorem tryKeep_length {body : Bytes} {cs cs' : RequestCopies} {b b' : Budget}
    (h : tryKeep body cs b = some (cs', b')) : cs'.kept.length ≤ cs.kept.length + 1 := by
  unfold tryKeep at h
  split_ifs at h with hsettled
  · cases h
    exact Nat.le_succ _
  · simp [(Copies.add_kept h).1]

attribute [local simp] Receiver.steps Resend.active Resend.steps Writer.steps

theorem level_resent (h : Order s) (hr : s.resent = some false) {t : State} (hcopies : t.copies = s.copies) :
    t.level ≤ s.level := by
  have hk : s.copies.keeping = false := by
    rw [Bool.eq_false_iff]
    intro hk
    simp [h.keeping hk] at hr
  simp only [State.level, hr, hcopies, hk, Bool.false_eq_true, if_false, if_true]
  split_ifs <;> omega

variable (h : Inv total s)
include h

theorem less_of_moves (hm : Moves s true s') : s'.steps < s.steps := by
  have hlevel := level_resent h.order
  cases hm with
  | waits _ _ _ hless =>
    refine writer_less rfl (hless rfl fun hwaits => Bool.eq_false_iff.mpr fun hkeeping => ?_)
    exact h.order.waits hwaits (h.order.keeping hkeeping)
  | sends htrying _ _ hkeep =>
    have hlength := tryKeep_length hkeep
    simp only [State.steps, htrying, Writer.steps]
    omega
  | finishes htrying _ _ =>
    simp only [State.steps, htrying, Writer.steps]
    omega
  | completed hrunning _ | cancelled hrunning => exact writer_less rfl (by simp [hrunning, State.ends])
  | failed hrunning => exact writer_less rfl (by simp [hrunning])
  | explaining hfailed => exact writer_less rfl (by simp [hfailed])
  | explained hbroken =>
    refine writer_less rfl ?_
    rcases hbroken with hw | hw <;> simp [hw, State.explain, State.ends]
  | settled hphase =>
    refine others_less rfl ?_ ?_
    · simp only [State.level, Copies.settle_fst, Copies.settled_keeping, Bool.false_eq_true, if_false]
      split_ifs <;> omega
    · simp only [hphase, Receiver.steps, Copies.settle_fst, Copies.settled_kept, List.length_nil]
      omega
  | unreplayed hphase _ =>
    refine others_less rfl (Nat.le_refl _) ?_
    simp only [hphase, Receiver.steps]
    omega
  | switched hphase hclosed =>
    have hkeeping : s.copies.keeping = true := by simp [(h.delivery hclosed).keeping, hphase, Receiver.early]
    have hresent := h.order.early (by simp [hphase, Receiver.early])
    refine others_less rfl ?_ ?_
    · simp [State.level, hresent, hkeeping]
    · simp only [hphase, Receiver.steps, Copies.settle_fst, Copies.settled_kept, List.length_nil]
      omega
  | closedOld hphase | opened hphase | returned hphase =>
    refine others_less rfl (Nat.le_refl _) ?_
    simp [hphase, State.onWire]
  | openFailed hphase | openedClosed hphase _ =>
    refine others_less rfl (hlevel (h.order.holds (by simp [hphase, Receiver.holds])) rfl) ?_
    simp only [hphase, Receiver.steps]
    omega
  | launched hphase _ =>
    have hidle := h.order.resend_idle (by simp [hphase, Receiver.holds])
    refine others_less rfl (Nat.le_refl _) ?_
    simp only [hphase, hidle, Receiver.steps, Resend.steps]
    split_ifs <;> omega
  | resentOne hphase _ | resentFinish hphase _ =>
    refine others_less rfl (Nat.le_refl _) ?_
    simp [hphase]
  | resentAll hphase =>
    refine others_less rfl (hlevel (h.order.resending (by simp [hphase])).1 rfl) ?_
    simp [hphase]
  | @resendFails _ _ copies finish hphase hmore _ =>
    refine others_less rfl (Nat.le_refl _) ?_
    cases copies <;> cases finish <;> simp_all
  | resendOver hactive _ =>
    refine others_less rfl (hlevel (h.order.resending hactive).1 rfl) ?_
    cases hphase : s.resend <;> simp [hphase] at hactive ⊢
    split_ifs <;> simp
  | resendCloses hphase =>
    obtain ⟨hreceiver, hwriter⟩ : s.close.receiver = s.receiver ∧ s.close.writer = s.writer := by
      unfold State.close
      split_ifs <;> exact ⟨rfl, rfl⟩
    refine others_less hwriter (hlevel (h.order.resending (by simp [hphase])).1 s.close_copies.1) ?_
    simp [hphase, hreceiver, s.close_copies.1]

theorem own_less (hown : a.own = true) (hs : step s a = some s') : s'.steps < s.steps :=
  less_of_moves h (hown ▸ step_moves hs)

theorem quiet_of_stuck (hop : s.closed = false) (ha : s.receiver ≠ .waiting)
    (hs : ∀ a, a.own = true → step s a = none) :
    s.writer = .idle ∧ s.receiver.holds = false ∧ s.unsent = [] ∧ s.closing = false := by
  have hre : ∃ thrown, s.receiver = .finished thrown := by
    have hn := hs (.receive false) rfl
    simp only [step, State.receive] at hn
    cases hp : s.receiver with
    | waiting => exact absurd hp ha
    | finished thrown => exact ⟨thrown, rfl⟩
    | refused => simp [hp, hop] at hn
    | settling | switched | closedOld | opened | returning => simp [hp] at hn
  obtain ⟨thrown, ho⟩ := hre
  have hres : s.resend = .idle ∨ s.resend = .finished := by
    have hn := hs (.resend false false) rfl
    simp only [step, State.resendStep] at hn
    cases hp : s.resend with
    | idle => exact .inl rfl
    | finished => exact .inr rfl
    | failing => simpa [step, hp] using hs (.resendFailed true) rfl
    | writing cs f =>
      cases cs with
      | cons body cs => simp [hp] at hn
      | nil => cases f <;> simp [hp] at hn
  have hl : s.receiver.holds = false := by simp [ho, Receiver.holds]
  have hr : s.resent ≠ some false := by
    intro hr
    rcases h.order.resent hr with hh | hac
    · simp [hl] at hh
    · rcases hres with hp | hp <;> simp [hp] at hac
  have hk : s.copies.keeping = false := by simp [(h.delivery hop).keeping, ho, Receiver.early]
  have hw : s.writer = .idle := by
    cases hp : s.writer with
    | idle => rfl
    | trying op =>
      have hn := hs .attempt rfl
      cases op <;> simp [step, State.attempt, hp, hl, hr, tryKeep, hk] at hn
    | parked op => simpa [step, hp] using hs .await rfl
    | awaitingResent op => simpa [step, hp, hr] using hs .wake rfl
    | awaitingSettled op => simpa [step, hp, hk] using hs .wake rfl
    | running op t => simpa [step, hp] using hs (.fail true false) rfl
    | failed op t => simpa [step, hp] using hs .check rfl
    | explaining op t => simpa [step, hp] using hs (.explained true) rfl
  refine ⟨hw, hl, ?_, ?_⟩
  · rcases hres with hp | hp <;> simp [State.unsent, hp, hw, Resend.rest, Writer.pending]
  · rcases hres with hp | hp <;> simp [State.closing, hp, hw, Resend.finish, Writer.closing]

omit h

/-- The stream that carries the call has received each body that got a target once, in order, but for what is still to
be written, and is half-closed exactly if `finishSend` is done. A call has no target only if it was cancelled while it
waited. The copies stay within 1 MiB and are given back. Once the first frame has arrived, the coroutines end with
nothing left. -/
theorem replay_delivers_once (budget : Budget) (actions : List Action) (s : State)
    (h : run step { budget } actions = some s) :
    (s.closed = false → s.receiver.holds = false → (s.wire s.stream).failed = false →
      (s.wire s.stream).received ++ s.unsent = bodies s.taken ∧
        ((s.wire s.stream).closed = true → .finishSend ∈ s.taken ∧ s.resend.rest = []) ∧
          (.finishSend ∈ s.taken → (s.wire s.stream).closed = true ∨ s.closing = true)) ∧
    (∀ a t, step s a = some t → t.stream = s.stream → (s.wire s.stream).closed = true →
      (t.wire t.stream).received = (s.wire s.stream).received) ∧
    (s.copies.keptBytes ≤ optimisticCopyCap ∧ s.copies.keptBytes = (s.copies.kept.map List.length).sum) ∧
    (s.copies.reservations.sum = s.copies.keptBytes ∧ (s.copies.keeping = false → s.copies.reservations = []) ∧
      s.budget.Balanced (budget.available + budget.others) s.copies.reservations.sum) ∧
    (∀ more t, (∀ a ∈ more, a.own = true) → run step s more = some t → more.length ≤ s.steps) ∧
    (s.closed = false → s.receiver ≠ .waiting → (∀ a, a.own = true → step s a = none) →
      s.writer = .idle ∧ s.receiver.holds = false ∧ s.unsent = [] ∧ s.closing = false) := by
  have hinv := inv_of_run h
  refine ⟨fun hopen hlock hok => ?_, fun a t hstep => received_of_closed hinv.order (step_moves hstep),
    ⟨hinv.sound.cap, hinv.sound.bytes⟩, ⟨hinv.sound.reserved, ?_, hinv.sound.balanced⟩, ?_, quiet_of_stuck hinv⟩
  · have hdelivery := hinv.delivery hopen
    refine ⟨hdelivery.received hlock hok, fun hclosed => ⟨?_, hdelivery.resending hclosed⟩, fun hfinished => ?_⟩
    · exact hdelivery.finished.mp (hdelivery.closedBy _ hclosed)
    · exact hdelivery.closes hlock hok (hdelivery.finished.mpr hfinished)
  · intro hkeeping
    rw [hinv.sound.released hkeeping]
    rfl
  · intro more t hown hrun
    have hle := run_length_le State.steps (·.own = true) hinv (fun _ _ _ => Inv.step) (fun _ _ _ => own_less) hown hrun
    omega

/-- The second body is being written when the server refuses. The third waits for the replay and follows. -/
theorem replay_delivers_once_refused :
    ∃ s : State, s.stream = .replayed ∧ s.writer = .idle ∧
      s.calls = [(.send [1], .returned), (.send [2], .returned), (.send [3], .returned), (.finishSend, .returned)] ∧
      (s.wire s.stream).received = [[1], [2], [3]] ∧ (s.wire s.stream).closed = true := by
  let actions : List Action := [.send [1], .attempt, .complete, .send [2], .attempt, .firstFrame (some (.status true)),
    .receive true, .fail false false, .check, .send [3], .receive true, .receive true, .receive true, .attempt, .await,
    .resend true false, .resend true false, .resend true false, .wake, .attempt, .complete, .finishSend, .attempt,
    .complete,
    .receive true]
  have hrun : ∃ s ∈ run step { budget := ⟨100, 0⟩ } actions, s.stream = .replayed ∧ s.writer = .idle ∧
      s.calls = [(.send [1], .returned), (.send [2], .returned), (.send [3], .returned), (.finishSend, .returned)] ∧
      s.closed = false ∧ s.receiver.holds = false ∧ (s.wire s.stream).failed = false ∧ s.unsent = [] ∧
        s.closing = false := by
    decide
  obtain ⟨s, hs, hstream, hidle, hcalls, hopen, hlock, hok, hunsent, hclosing⟩ := hrun
  obtain ⟨hreceived, -, hcloses⟩ := (replay_delivers_once ⟨100, 0⟩ actions s hs).1 hopen hlock hok
  have htaken : s.taken = [.send [1], .send [2], .send [3], .finishSend] := by
    simp [State.taken, hcalls, hidle, Writer.taken]
  rw [htaken, hunsent, List.append_nil] at hreceived
  rw [htaken, hclosing] at hcloses
  exact ⟨s, hstream, hidle, hcalls, hreceived, by simpa using hcloses⟩

end TrevRpc.Kotlin.CallStream
