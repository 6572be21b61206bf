import TrevRpc.Kotlin.CallStream.Model

/-! # A call delivers every request once -/

open TrevRpc.Run TrevRpc.Rust

namespace TrevRpc.Kotlin.CallStream

variable {s s' : State} {a : Action} {own : Bool}

/-! ## Where the coroutines are -/

namespace Writer

def target : Writer → Option Target
  | .running _ target | .failed _ target | .explaining _ target => some target
  | _ => none

/-- The target that an operation failed on. -/
def broken : Writer → Option Target
  | .failed _ target | .explaining _ target => some target
  | _ => none

/-- The operation that has a target. -/
def taken : Writer → List Op
  | .running op _ | .failed op _ | .explaining op _ => [op]
  | _ => []

/-- It waits for a replay that there is. -/
def waitsResent : Writer → Bool
  | .parked .finishSend | .awaitingResent _ => true
  | _ => false

def pending (generation : Nat) : Writer → List Bytes
  | .running (.send body) target => if target.generation = generation then [body] else []
  | _ => []

def closing (generation : Nat) : Writer → Bool
  | .running .finishSend target => target.generation = generation
  | _ => false

variable {target : Target} {body : Bytes} {generation : Nat}

@[simp] theorem taken_running {op : Op} : (running op target).taken = [op] := rfl
@[simp] theorem closing_send : (running (.send body) target).closing generation = false := rfl
@[simp] theorem closing_finishSend :
    (running .finishSend target).closing generation = decide (target.generation = generation) := rfl

variable {w : Writer}

theorem taken_eq_nil (h : w.target = none) : w.taken = [] := by
  cases w <;> first | rfl | cases h

theorem pending_eq_nil (h : w.target = none) : w.pending generation = [] := by
  cases w <;> first | rfl | cases h

theorem closing_eq_false (h : w.target = none) : w.closing generation = false := by
  cases w <;> first | rfl | cases h

end Writer

namespace Receiver

def early : Receiver → Bool
  | .waiting | .settling _ | .refused => true
  | _ => false

def late : Receiver → Bool
  | .returning _ | .finished _ => true
  | _ => false

/-- The copies that `replay` took. -/
def held : Receiver → Option (List Bytes)
  | .switched copies | .closedOld copies | .opened copies => some copies
  | _ => none

theorem held_eq_none {r : Receiver} (h : r.holds = false) : r.held = none := by
  cases r <;> first | rfl | cases h

end Receiver

namespace Resend

def active : Resend → Bool
  | .writing .. | .failing => true
  | _ => false

def rest : Resend → List Bytes
  | .writing copies _ => copies
  | _ => []

def finish : Resend → Bool
  | .writing _ finish => finish
  | _ => false

end Resend

/-! ## What a step does -/

/-- What the writer may wait for: the resending, or first the decision about the copies. -/
def State.level (s : State) : Nat := if s.resent = some false then 1 else if s.copies.keeping then 2 else 0

/-- The steps that a writer still takes, if nothing changes its `level`. -/
def Writer.steps (level : Nat) : Writer → Nat
  | .idle => 0
  | .trying _ => 6 + 3 * level
  | .parked _ => if level = 2 then 11 else 8
  | .awaitingSettled _ => if level = 0 then 7 else 10
  | .awaitingResent _ => 7
  | .running .. => 3
  | .failed .. => 2
  | .explaining .. => 1

/-- What a step changes, and whether a coroutine of the call takes it by itself. -/
inductive Moves (s : State) : Bool → State → Prop
  | waits {own : Bool} {writer : Writer} (hfrom : s.writer.target = none) (hto : writer.target = none)
      (hwaits : writer.waitsResent = true → s.resent = some false ∨ s.writer.waitsResent = true)
      (hless : own = true → (s.writer.waitsResent = true → s.copies.keeping = false) →
        writer.steps s.level < s.writer.steps s.level) : Moves s own { s with writer }
  | dropped {op} (hfrom : s.writer.target = none) : Moves s false (s.ends op .dropped)
  | sends {body copies budget} (htrying : s.writer = .trying (.send body)) (hlock : s.receiver.holds = false)
      (hresent : s.resent ≠ some false) (hkeep : tryKeep body s.copies s.budget = some (copies, budget)) :
      Moves s true { s with copies, budget, writer := .running (.send body) ⟨s.stream, s.generation⟩ }
  | finishes (htrying : s.writer = .trying .finishSend) (hlock : s.receiver.holds = false)
      (hresent : s.resent ≠ some false) :
      Moves s true { s with sendFinished := true, writer := .running .finishSend ⟨s.stream, s.generation⟩ }
  | completed {op target} (hrunning : s.writer = .running op target) (htakes : takes op (s.wire target.stream) = true) :
      Moves s true ((s.onWire target.stream (perform op)).ends op .returned)
  | failed {op target sent} (hrunning : s.writer = .running op target) :
      Moves s true { s.onWire target.stream (fails sent op) with writer := .failed op target }
  | cancelled {op target sent} (hrunning : s.writer = .running op target) :
      Moves s true ((s.onWire target.stream (fails sent op)).ends op .failed)
  | explaining {op target} (hfailed : s.writer = .failed op target) :
      Moves s true { s with writer := .explaining op target }
  | explained {op target} (hbroken : s.writer = .failed op target ∨ s.writer = .explaining op target) :
      Moves s true (s.explain op target)
  | frame {receiver : Receiver} (hwaiting : s.receiver = .waiting) (hearly : receiver.early = true) :
      Moves s false { s with receiver }
  | handled : Moves s false { s with firstFrameHandled := true }
  | settled {accepted} (hphase : s.receiver = .settling accepted) :
      Moves s true { s with
        copies := (s.copies.settle s.budget).1, budget := (s.copies.settle s.budget).2
        receiver := .returning !accepted }
  | unreplayed (hphase : s.receiver = .refused) (hclosed : s.closed = true) :
      Moves s true { s with receiver := .returning true }
  | switched (hphase : s.receiver = .refused) (hclosed : s.closed = false) :
      Moves s true { s with
        copies := (s.copies.settle s.budget).1
        budget := (s.copies.settle s.budget).2
        generation := s.generation + 1
        resent := some false
        receiver := .switched s.copies.kept }
  | closedOld {copies} (hphase : s.receiver = .switched copies) :
      Moves s true { s.onWire s.stream Wire.fail with receiver := .closedOld copies }
  | opened {copies} (hphase : s.receiver = .closedOld copies) :
      Moves s true { s with stream := .replayed, replayed := {}, receiver := .opened copies }
  | openFailed {copies} (hphase : s.receiver = .closedOld copies) :
      Moves s true { s with resent := some true, receiver := .returning true }
  | openedClosed {copies} (hphase : s.receiver = .opened copies) (hclosed : s.closed = true) :
      Moves s true { s with replayed := s.replayed.fail, resent := some true, receiver := .returning true }
  | launched {copies} (hphase : s.receiver = .opened copies) (hclosed : s.closed = false) :
      Moves s true { s with resend := .writing copies s.sendFinished, receiver := .returning false }
  | returned {thrown} (hphase : s.receiver = .returning thrown) :
      Moves s true { s with firstFrameHandled := true, receiver := .finished thrown }
  | resentOne {body copies finish} (hphase : s.resend = .writing (body :: copies) finish)
      (htakes : takes (.send body) s.replayed = true) :
      Moves s true { s with replayed := perform (.send body) s.replayed, resend := .writing copies finish }
  | resentFinish (hphase : s.resend = .writing [] true) (htakes : takes .finishSend s.replayed = true) :
      Moves s true { s with replayed := perform .finishSend s.replayed, resend := .writing [] false }
  | resentAll (hphase : s.resend = .writing [] false) : Moves s true { s with resent := some true, resend := .finished }
  | resendFails {op sent copies finish} (hphase : s.resend = .writing copies finish)
      (hmore : copies ≠ [] ∨ finish = true)
      (hop : op = .finishSend → finish = true) :
      Moves s true { s with replayed := fails sent op s.replayed, resend := .failing }
  | resendOver {own : Bool} (hactive : s.resend.active = true) (hwhy : s.resend = .failing ∨ s.closed = true) :
      Moves s own { s with resent := some true, resend := .finished }
  | resendCloses (hphase : s.resend = .failing) : Moves s true { s.close with resent := some true, resend := .finished }
  | closes : Moves s false s.close
  | settledClosed (hclosed : s.closed = true) :
      Moves s false { s with copies := (s.copies.settle s.budget).1, budget := (s.copies.settle s.budget).2 }
  | budget {budget} (hbudget : ∀ total held, s.budget.Balanced total held → budget.Balanced total held) :
      Moves s false { s with budget }

theorem tryKeep_none {body : Bytes} {copies : RequestCopies} {budget : Budget} (h : tryKeep body copies budget = none) :
    copies.keeping = true := by
  unfold tryKeep at h
  split_ifs at h with hsettled
  simpa using hsettled

theorem attempt_moves (h : s.attempt = some s') : Moves s true s' := by
  unfold State.attempt at h
  split at h
  · next op ht =>
    have hf : s.writer.target = none := by simp [ht, Writer.target]
    dsimp only at h
    split_ifs at h with hl hr
    · cases h
      exact .waits hf rfl (fun _ => .inl hr) fun _ _ => by simp [ht, State.level, hr, Writer.steps]
    · replace hl := Bool.eq_false_iff.mpr hl
      cases op with
      | send body =>
        simp only at h
        split at h
        · next copies budget hk =>
          cases h
          exact .sends ht hl hr hk
        · next hk =>
          cases h
          exact .waits hf rfl nofun fun _ _ => by simp [ht, State.level, hr, tryKeep_none hk, Writer.steps]
      | finishSend =>
        cases h
        exact .finishes ht hl hr
  · cases h

theorem receive_moves {ok : Bool} (h : s.receive ok = some s') : Moves s true s' := by
  unfold State.receive at h
  split at h
  case h_1 => cases h
  case h_2 => cases h
  case h_3 hp =>
    cases h
    exact .settled hp
  case h_4 hp =>
    split_ifs at h with hc
    · cases h
      exact .unreplayed hp hc
    · cases h
      exact .switched hp (Bool.eq_false_iff.mpr hc)
  case h_5 hp =>
    cases h
    exact .closedOld hp
  case h_6 hp =>
    cases h
    split_ifs
    · exact .opened hp
    · exact .openFailed hp
  case h_7 hp =>
    cases h
    split_ifs with hc
    · exact .openedClosed hp hc
    · exact .launched hp (Bool.eq_false_iff.mpr hc)
  case h_8 hp =>
    cases h
    exact .returned hp

attribute [local simp] Receiver.early Receiver.late Receiver.holds Resend.active Resend.finish State.onWire State.wire
  Writer.target Writer.pending perform

theorem resendStep_moves {ok sent : Bool} (h : s.resendStep ok sent = some s') : Moves s true s' := by
  unfold State.resendStep at h
  split at h
  case h_1 hp =>
    split_ifs at h with _ ht
    · cases h
      exact .resentOne hp ht
    · cases h
      exact .resendFails hp (.inl nofun) nofun
  case h_2 hp =>
    split_ifs at h with _ ht
    · cases h
      exact .resentFinish hp ht
    · cases h
      exact .resendFails hp (.inr rfl) fun _ => rfl
  case h_3 hp =>
    cases h
    exact .resentAll hp
  case h_4 => cases h

theorem step_moves (h : step s a = some s') : Moves s a.own s' := by
  cases a with
  | send body | finishSend =>
    obtain ⟨hi, rfl⟩ := of_guard h
    exact .waits (by simp [hi]) rfl nofun nofun
  | cancel =>
    simp only [step] at h
    split at h
    case h_5 => cases h
    all_goals
      next op hw =>
      cases h
      exact .dropped (by simp [hw])
  | attempt => exact attempt_moves h
  | await =>
    simp only [step] at h
    split at h
    · next op hpa =>
      cases h
      refine .waits (by simp [hpa]) ?_ ?_ fun _ _ => ?_
      · split_ifs <;> rfl
      · split_ifs with hr
        · rintro -
          rcases hr with rfl | hr
          · exact .inr (by simp [hpa, Writer.waitsResent])
          · exact .inl hr
        · exact nofun
      · simp only [hpa]
        split_ifs with hr
        · simp only [Writer.steps]
          split_ifs <;> omega
        · simp only [State.level, if_neg (not_or.mp hr).2]
          split_ifs <;> simp [Writer.steps]
    · cases h
  | wake =>
    simp only [step] at h
    split at h
    · next op hw =>
      obtain ⟨hr, rfl⟩ := of_guard_not h
      refine .waits (by simp [hw]) rfl nofun fun _ hk => ?_
      simp [hw, State.level, hr, hk (by simp [hw, Writer.waitsResent]), Writer.steps]
    · next op hw =>
      obtain ⟨hk, rfl⟩ := of_guard_not h
      refine .waits (by simp [hw]) rfl nofun fun _ _ => ?_
      simp only [hw, State.level, if_neg hk]
      split_ifs <;> simp [Writer.steps]
    · cases h
  | complete =>
    simp only [step] at h
    split at h
    · next op target hrun =>
      obtain ⟨ht, rfl⟩ := of_guard h
      exact .completed hrun ht
    · cases h
  | fail c sent =>
    simp only [step] at h
    split at h
    · next op target hrun =>
      cases h
      cases c with
      | true => exact .cancelled hrun
      | false => exact .failed hrun
    · cases h
  | check =>
    simp only [step] at h
    split at h
    · next op target hf =>
      cases h
      split_ifs
      · exact .explaining hf
      · exact .explained (.inl hf)
    · cases h
  | explained timedOut =>
    simp only [step] at h
    split at h
    · next op target hexp =>
      obtain ⟨-, rfl⟩ := of_guard h
      exact .explained (.inr hexp)
    · cases h
  | firstFrame frame =>
    obtain ⟨hwa, rfl⟩ := of_guard h
    refine .frame hwa ?_
    split_ifs <;> rfl
  | receiveFails =>
    obtain ⟨-, rfl⟩ := of_guard h
    exact .handled
  | receive ok => exact receive_moves h
  | resend ok sent => exact resendStep_moves h
  | resendFailed e =>
    obtain ⟨hp, rfl⟩ := of_guard h
    cases e with
    | true => exact .resendOver (by simp [hp]) (.inl hp)
    | false => exact .resendCloses hp
  | close =>
    cases h
    exact .closes
  | cancelResend =>
    simp only [step] at h
    split at h
    · next hc hp =>
      cases h
      exact .resendOver (by simp [hp]) (.inr hc)
    · next hc hp =>
      cases h
      exact .resendOver (by simp [hp]) (.inr hc)
    · cases h
  | settleClosed =>
    obtain ⟨hc, rfl⟩ := of_guard h
    exact .settledClosed hc
  | lend cost =>
    obtain ⟨b, hl, rfl⟩ := Option.map_eq_some_iff.mp h
    exact .budget fun _ _ hb => hb.lend hl
  | regain cost =>
    obtain ⟨b, hre, rfl⟩ := Option.map_eq_some_iff.mp h
    exact .budget fun _ _ hb => hb.regain hre

@[simp] theorem State.wire_onWire (st : Stream) (f : Wire Bytes → Wire Bytes) :
    (s.onWire st f).wire st = f (s.wire st) := by
  cases st <;> simp

theorem State.wire_onWire_of_ne {st t : Stream} {f : Wire Bytes → Wire Bytes} (h : t ≠ st) :
    (s.onWire st f).wire t = s.wire t := by
  cases t <;> cases st <;> first | exact absurd rfl h | rfl

/-! ## The order of the coroutines -/

structure Order (s : State) : Prop where
  generation : s.generation = if s.resent = none then 0 else 1
  early : s.receiver.early = true → s.resent = none
  holds : s.receiver.holds = true → s.resent = some false
  opening : ∀ copies, s.receiver = .switched copies ∨ s.receiver = .closedOld copies → s.stream = .original
  opened : ∀ copies, s.receiver = .opened copies → s.stream = .replayed
  replayed : s.stream = .replayed → s.resent ≠ none
  resending : s.resend.active = true → s.resent = some false ∧ s.stream = .replayed
  resend : s.resend ≠ .idle → s.receiver.late = true
  resent : s.resent = some false → s.receiver.holds = true ∨ s.resend.active = true
  failing : s.resend = .failing → s.replayed.failed = true
  gone : s.resent ≠ none → s.stream = .original → (∃ copies, s.receiver = .switched copies) ∨ s.original.failed = true
  target : ∀ t, s.writer.target = some t → t = ⟨.original, 0⟩ ∨ t = ⟨s.stream, 1⟩ ∧ s.resent = some true
  broken : ∀ t, s.writer.broken = some t → (s.wire t.stream).failed = true
  waits : s.writer.waitsResent = true → s.resent ≠ none
  keeping : s.copies.keeping = true → s.resent = none

theorem tryKeep_kept {body : Bytes} {cs cs' : RequestCopies} {b b' : Budget}
    (h : tryKeep body cs b = some (cs', b')) :
    cs'.keeping = cs.keeping ∧ (cs.keeping = true → cs'.kept = cs.kept ++ [body]) := by
  unfold tryKeep at h
  split_ifs at h with hs
  · cases h
    simp [hs]
  · obtain ⟨hke, hk⟩ := Copies.add_kept h
    exact ⟨hk, fun _ => hke⟩

theorem perform_failed (op : Op) (w : Wire Bytes) : (perform op w).failed = w.failed := by cases op <;> rfl

theorem fails_failed (sent : Bool) (op : Op) (w : Wire Bytes) : (fails sent op w).failed = true := by
  unfold fails
  split_ifs <;> rfl

theorem fails_closed {sent : Bool} {op : Op} {w : Wire Bytes} (h : (fails sent op w).closed = true) :
    w.closed = true ∨ op = .finishSend := by
  unfold fails at h
  split_ifs at h
  · cases op with
    | send body => exact .inl h
    | finishSend => exact .inr rfl
  · exact .inl h

theorem Writer.target_of_broken {w : Writer} {t : Target} (h : w.broken = some t) : w.target = some t := by
  cases w <;> first | exact h | cases h

theorem Writer.broken_eq_none {w : Writer} (h : w.target = none) : w.broken = none := by
  cases w <;> first | rfl | cases h

theorem State.close_resend : s.close.resend = s.resend := by
  unfold State.close
  split_ifs <;> rfl

theorem State.close_closed : s.close.closed = true := by
  unfold State.close
  split_ifs with hc
  · exact hc
  · rfl

theorem State.closed_onWire_fail {st t : Stream} : ((s.onWire st Wire.fail).wire t).closed = (s.wire t).closed := by
  by_cases h : t = st
  · rw [h, State.wire_onWire, Wire.fail_closed]
  · rw [State.wire_onWire_of_ne h]

namespace Order

theorem start (budget : Budget) : Order { budget } := by
  constructor <;> simp [Writer.broken, Writer.waitsResent]

variable (h : Order s)
include h

theorem original (hn : s.resent = none) : s.stream = .original := by
  cases hs : s.stream with
  | original => rfl
  | replayed => exact absurd hn (h.replayed hs)

theorem oldTarget {t : Target} (hr : s.resent ≠ some true) (ht : s.writer.target = some t) : t = ⟨.original, 0⟩ :=
  (h.target t ht).resolve_right fun hnew => hr hnew.2

theorem late (ha : s.resend.active = true) : s.receiver.late = true :=
  h.resend (by rintro hi; simp [hi] at ha)

theorem writer (writer : Writer) (htarget : writer.target = none)
    (hw : writer.waitsResent = true → s.resent ≠ none) : Order { s with writer } :=
  { h with
    target := fun t ht => absurd (htarget.symm.trans ht) nofun
    broken := fun t ht => by simp [Writer.broken_eq_none htarget] at ht
    waits := hw }

theorem ends (op : Op) (o : Outcome) : Order (s.ends op o) :=
  { h.writer .idle rfl nofun with }

theorem onWire (st : Stream) (f : Wire Bytes → Wire Bytes)
    (hf : ∀ w, w.failed = true → (f w).failed = true) : Order (s.onWire st f) := by
  have hw (t : Stream) (hfa : (s.wire t).failed = true) : ((s.onWire st f).wire t).failed = true := by
    cases t
    · simp only [State.wire, State.onWire]
      split_ifs
      · exact hf _ hfa
      · exact hfa
    · simp only [State.wire, State.onWire]
      split_ifs
      · exact hf _ hfa
      · exact hfa
  refine { h with
    gone := fun hr hs => ?_, failing := fun hp => hw .replayed (h.failing hp)
    broken := fun t ht => hw _ (h.broken t ht) }
  exact (h.gone hr hs).imp_right (hw .original)

theorem close : Order s.close := by
  unfold State.close
  split_ifs
  · exact { h with }
  · exact { h.onWire s.stream Wire.fail (fun _ _ => rfl) with }

theorem resends (ha : s.resend.active = true) {resend : Resend} {w : Wire Bytes}
    (hn : resend.active = true) (hfailed : s.replayed.failed = true → w.failed = true)
    (hf : resend = .failing → w.failed = true) : Order { s with replayed := w, resend } := by
  refine { h with
    resending := fun _ => h.resending ha, resend := fun _ => h.late ha, resent := fun _ => .inr hn
    failing := hf
    broken := fun t ht => ?_ }
  have hb := h.broken t ht
  cases hs : t.stream with
  | original => simpa [hs] using hb
  | replayed =>
    rw [hs] at hb
    exact hfailed hb

theorem receiver (receiver : Receiver) (hearly : receiver.early = true → s.receiver.early = true)
    (hnow : receiver.holds = false) (ht : s.receiver.holds = false)
    (hl : s.receiver.late = true → receiver.late = true) :
    Order { s with receiver } where
  __ := h
  early hp := h.early (hearly hp)
  holds hh := absurd (hnow.symm.trans hh) nofun
  opening cs hp := by rcases hp with rfl | rfl <;> cases hnow
  opened cs hp := by
    cases hp
    cases hnow
  resend hres := hl (h.resend hres)
  resent hr := .inr ((h.resent hr).resolve_left fun hh => nomatch ht.symm.trans hh)
  gone hr hs := by
    refine .inr ((h.gone hr hs).resolve_left ?_)
    rintro ⟨cs, hp⟩
    simp [hp] at ht

theorem resend_idle (hh : s.receiver.holds = true) : s.resend = .idle := by
  by_contra hres
  have hl := h.resend hres
  cases hp : s.receiver <;> simp [hp] at hh hl

theorem leave (hh : s.receiver.holds = true) (thrown : Bool)
    (hg : s.stream = .original → s.original.failed = true) :
    Order { s with resent := some true, receiver := .returning thrown } where
  __ := h
  generation := by simpa [h.holds hh] using h.generation
  early := nofun
  holds := nofun
  opening _ hp := by rcases hp with hp | hp <;> cases hp
  opened := nofun
  replayed := by simp
  resending ha := by simp [h.resend_idle hh] at ha
  resend _ := rfl
  resent := by simp
  gone _ hs := .inr (hg hs)
  target t ht := .inl (h.oldTarget (by simp [h.holds hh]) ht)
  waits := by simp
  keeping hk := by simpa [h.holds hh] using h.keeping hk

theorem resendFinished (ha : s.resend.active = true) : Order { s with resent := some true, resend := .finished } := by
  obtain ⟨hr, hs⟩ := h.resending ha
  have hl := h.late ha
  constructor
  · simpa [hr] using h.generation
  · intro hea
    simpa [hr] using h.early hea
  · intro hh
    cases hp : s.receiver <;> simp [hp] at hh hl
  · exact h.opening
  · exact h.opened
  · simp
  · simp
  · exact fun _ => hl
  · simp
  · exact nofun
  · simp [hs]
  · exact fun t ht => .inl (h.oldTarget (by simp [hr]) ht)
  · exact h.broken
  · simp
  · intro hk
    simpa [hr] using h.keeping hk

theorem current (hr : s.resent ≠ some false) :
    (⟨s.stream, s.generation⟩ : Target) = ⟨.original, 0⟩ ∨
      (⟨s.stream, s.generation⟩ : Target) = ⟨s.stream, 1⟩ ∧ s.resent = some true := by
  have hgen := h.generation
  cases hp : s.resent with
  | none =>
    left
    simp [hgen, hp, h.original hp]
  | some r =>
    right
    cases r with
    | false => exact absurd hp hr
    | true => simp [hgen, hp]

theorem copies {copies : RequestCopies} (budget : Budget)
    (hk : copies.keeping = true → s.copies.keeping = true) : Order { s with copies, budget } :=
  { h with keeping := fun hke => h.keeping (hk hke) }

theorem moves (hm : Moves s own s') : Order s' := by
  cases hm with
  | waits _ hto hwt _ =>
    refine h.writer _ hto fun hwr => ?_
    rcases hwt hwr with hr | hth
    · simp [hr]
    · exact h.waits hth
  | dropped _ => exact h.ends _ _
  | @sends _ _ budget _ hl hr hke =>
    have hc := h.copies budget fun hk => (tryKeep_kept hke).1 ▸ hk
    exact { hc with target := fun t ht => Option.some.inj ht ▸ h.current hr, broken := nofun, waits := nofun }
  | finishes _ hl hr =>
    exact { h with target := fun t ht => Option.some.inj ht ▸ h.current hr, broken := nofun, waits := nofun }
  | completed _ _ => exact (h.onWire _ _ (fun _ hf => (perform_failed _ _).trans hf)).ends _ _
  | @failed op target sent hrun =>
    have hw := h.onWire target.stream (fails sent op) (fun _ _ => fails_failed _ _ _)
    refine { hw with
      target := fun t ht => h.target t (by simpa [hrun] using ht), broken := fun t ht => ?_
      waits := nofun }
    obtain rfl := Option.some.inj ht
    cases target.stream <;> simp [fails_failed]
  | cancelled _ => exact (h.onWire _ _ (fun _ _ => fails_failed _ _ _)).ends _ _
  | explaining hf =>
    refine { h with target := fun t ht => h.target t ?_, broken := fun t ht => h.broken t ?_, waits := nofun }
    · simpa [hf] using ht
    · simpa [hf, Writer.broken] using ht
  | explained _ => exact h.ends _ _
  | @frame r hwa hea =>
    refine h.receiver _ (fun _ => by simp [hwa]) ?_ (by simp [hwa]) (by simp [hwa])
    cases r <;> first | rfl | cases hea
  | handled => exact { h with }
  | @settled ac hp =>
    have hre := h.receiver (.returning !ac) nofun rfl (by simp [hp]) (fun _ => rfl)
    exact hre.copies _ nofun
  | unreplayed hp _ => exact h.receiver _ nofun rfl (by simp [hp]) (fun _ => rfl)
  | switched hp _ =>
    have hn : s.resent = none := h.early (by simp [hp])
    have hs := h.original hn
    have hi : s.resend = .idle := by
      by_contra hres
      simpa [hp] using h.resend hres
    constructor
    · simpa [hn] using h.generation
    · exact nofun
    · exact fun _ => rfl
    · exact fun _ _ => hs
    · exact nofun
    · simp
    · simp [hi]
    · exact fun hres => absurd hi hres
    · exact fun _ => .inl rfl
    · exact h.failing
    · exact fun _ _ => .inl ⟨_, rfl⟩
    · exact fun t ht => .inl (h.oldTarget (by simp [hn]) ht)
    · exact h.broken
    · simp
    · exact nofun
  | @closedOld cs hp =>
    have hw := h.onWire s.stream Wire.fail (fun _ _ => rfl)
    have hs := h.opening cs (.inl hp)
    have hi := h.resend_idle (by simp [hp])
    exact { hw with
      early := nofun, holds := fun _ => h.holds (by simp [hp]), opening := fun _ _ => hs
      opened := nofun, resend := fun hres => absurd hi hres, resent := fun _ => .inl rfl
      gone := fun _ _ => .inr (by simp [hs]) }
  | @opened cs hp =>
    have hh : s.receiver.holds = true := by simp [hp]
    have hr := h.holds hh
    have hi := h.resend_idle hh
    have hold (t : Target) (ht : s.writer.target = some t) := h.oldTarget (by simp [hr]) ht
    refine { h with
      early := nofun, holds := fun _ => hr, opening := fun _ hp => by rcases hp with hp | hp <;> cases hp
      opened := fun _ _ => rfl, replayed := by simp [hr], resending := by simp [hi]
      resend := fun hres => absurd hi hres, resent := fun _ => .inl rfl, gone := by simp
      failing := by simp [hi]
      target := fun t ht => .inl (hold t ht), broken := fun t ht => ?_ }
    have hf := h.broken t ht
    rw [hold t (Writer.target_of_broken ht)] at hf ⊢
    exact hf
  | @openFailed cs hp =>
    refine h.leave (by simp [hp]) _ fun hs => ?_
    refine (h.gone (by simp [h.holds (by simp [hp])]) hs).resolve_left ?_
    simp [hp]
  | @openedClosed cs hp _ =>
    have hle := h.leave (by simp [hp]) true (by simp [h.opened cs hp])
    refine { hle with failing := fun _ => rfl, broken := fun t ht => ?_ }
    have hf := h.broken t ht
    cases hs : t.stream with
    | original => simpa [hs] using hf
    | replayed => simp
  | @launched cs hp _ =>
    have hh : s.receiver.holds = true := by simp [hp]
    have hs := h.opened cs hp
    exact { h with
      early := nofun, holds := nofun, opening := fun _ hp => by rcases hp with hp | hp <;> cases hp
      opened := nofun, resending := fun _ => ⟨h.holds hh, hs⟩, resend := fun _ => rfl, resent := fun _ => .inr rfl
      failing := nofun, gone := by simp [hs] }
  | @returned th hp =>
    have hre := h.receiver (.finished th) nofun rfl (by simp [hp]) (fun _ => rfl)
    exact { hre with }
  | resentOne hp _ | resentFinish hp _ =>
    exact h.resends (by simp [hp]) rfl (fun hf => (perform_failed _ _).trans hf) nofun
  | resentAll hp => exact h.resendFinished (by simp [hp])
  | resendFails hp _ _ => exact h.resends (by simp [hp]) rfl (fun _ => fails_failed _ _ _) (fun _ => fails_failed _ _ _)
  | resendOver ha _ => exact h.resendFinished ha
  | resendCloses hp => exact h.close.resendFinished (by simp [State.close_resend, hp])
  | closes => exact h.close
  | settledClosed _ => exact h.copies _ nofun
  | budget _ => exact { h with }

end Order

/-! ## The copies and the budget -/

theorem sound_tryKeep {t : Nat} {body : Bytes} {cs cs' : RequestCopies} {b budget' : Budget}
    (h : cs.Sound optimisticCopyCap t 0 b) (hk : tryKeep body cs b = some (cs', budget')) :
    cs'.Sound optimisticCopyCap t 0 budget' := by
  unfold tryKeep at hk
  split_ifs at hk with hs
  · cases hk
    exact h
  · exact h.add (by simpa using hs) hk

theorem State.close_copies : s.close.copies = s.copies ∧ s.close.budget = s.budget := by
  unfold State.close
  split_ifs <;> exact ⟨rfl, rfl⟩

theorem sound_moves {t : Nat} (h : s.copies.Sound optimisticCopyCap t 0 s.budget) (hm : Moves s own s') :
    s'.copies.Sound optimisticCopyCap t 0 s'.budget := by
  cases hm with
  | sends _ _ _ hk => exact sound_tryKeep h hk
  | settled _ => exact h.settle
  | switched _ _ => exact h.settle
  | settledClosed _ => exact h.settle
  | resendCloses _ | closes =>
    obtain ⟨hc, hb⟩ := s.close_copies
    simp only [hc, hb]
    exact h
  | budget hb => exact { h with balanced := hb _ _ h.balanced }
  | waits | dropped | finishes | completed | failed | cancelled | explaining | explained | frame | handled | unreplayed
  | closedOld | opened | openFailed | openedClosed | launched | returned | resentOne | resentFinish | resentAll
  | resendFails | resendOver => exact h

/-! ## Delivery -/

/-- The calls that got a target, in order. -/
def State.taken (s : State) : List Op := (s.calls.filter (·.2 ≠ .dropped)).map (·.1) ++ s.writer.taken

def bodies (ops : List Op) : List Bytes := ops.filterMap Op.body

def State.unsent (s : State) : List Bytes := s.resend.rest ++ s.writer.pending s.generation

def State.closing (s : State) : Bool := s.resend.finish || s.writer.closing s.generation

structure Delivery (s : State) : Prop where
  kept : s.copies.keeping = true → s.copies.kept = bodies s.taken
  keeping : s.copies.keeping = s.receiver.early
  held : ∀ copies, s.receiver.held = some copies → copies = bodies s.taken
  fresh : ∀ copies, s.receiver = .opened copies → s.replayed.received = [] ∧ s.replayed.closed = false
  received : s.receiver.holds = false → (s.wire s.stream).failed = false →
    (s.wire s.stream).received ++ s.unsent = bodies s.taken
  finished : s.sendFinished = true ↔ .finishSend ∈ s.taken
  closedBy : ∀ stream, (s.wire stream).closed = true → s.sendFinished = true
  closes : s.receiver.holds = false → (s.wire s.stream).failed = false → s.sendFinished = true →
    (s.wire s.stream).closed = true ∨ s.closing = true
  resending : (s.wire s.stream).closed = true → s.resend.rest = []
  finishes : s.resend.finish = true → s.sendFinished = true

namespace Delivery

theorem start (budget : Budget) : Delivery { budget } := by
  constructor
  case closedBy =>
    intro st
    cases st <;> exact nofun
  all_goals simp [State.taken, Writer.taken, bodies, Receiver.held, State.unsent, Resend.rest]

theorem writer (h : Delivery s) (writer : Writer) (calls : List (Op × Outcome))
    (ht : State.taken { s with writer, calls } = s.taken)
    (hp : writer.pending s.generation = s.writer.pending s.generation)
    (hc : writer.closing s.generation = s.writer.closing s.generation) : Delivery { s with writer, calls } := by
  refine ⟨?_, h.keeping, ?_, h.fresh, ?_, ?_, h.closedBy, ?_, h.resending, h.finishes⟩
  · rw [ht]
    exact h.kept
  · rw [ht]
    exact h.held
  · rw [ht, State.unsent, hp]
    exact h.received
  · rw [ht]
    exact h.finished
  · rw [State.closing, hc]
    exact h.closes

theorem taken_ends {o : Outcome} {op : Op} (ht : s.writer.taken = [op]) (ho : o ≠ .dropped) :
    (s.ends op o).taken = s.taken := by
  rw [State.taken, State.taken, ht]
  simp [State.ends, Writer.taken, ho]

variable {t : Target}

theorem wire_of_old (ho : Order s) (htarget : s.writer.target = some t) (hold : t.generation ≠ s.generation)
    (hl : s.receiver.holds = false) {f : Wire Bytes → Wire Bytes} (hf : ∀ w, w.failed = true → (f w).failed = true)
    (hok : ((s.onWire t.stream f).wire s.stream).failed = false) :
    (s.onWire t.stream f).wire s.stream = s.wire s.stream := by
  have hgen := ho.generation
  have ht : t = ⟨.original, 0⟩ := by
    refine (ho.target t htarget).resolve_right ?_
    rintro ⟨rfl, hr⟩
    simp [hgen, hr] at hold
  subst ht
  cases hs : s.stream with
  | replayed => simp
  | original =>
    have hr : s.resent ≠ none := by
      intro hn
      simp [hgen, hn] at hold
    have hfa : s.original.failed = true := by
      refine (ho.gone hr hs).resolve_left ?_
      rintro ⟨copies, hp⟩
      simp [hp] at hl
    simp [hs, hf _ hfa] at hok

theorem rest_eq_nil {r : Resend} (h : r.active ≠ true) : r.rest = [] := by
  cases r <;> first | rfl | exact absurd rfl h

theorem stream_of_current (ho : Order s) (htarget : s.writer.target = some t)
    (hcur : t.generation = s.generation) : t.stream = s.stream ∧ s.resent ≠ some false := by
  have hgen := ho.generation
  rcases ho.target t htarget with rfl | ⟨rfl, hr⟩
  · have hn : s.resent = none := by
      by_contra hr
      simp [hgen, hr] at hcur
    exact ⟨(ho.original hn).symm, by simp [hn]⟩
  · exact ⟨rfl, by simp [hr]⟩

theorem pending_of_resending (ho : Order s) (hr : s.resent = some false) :
    s.writer.pending s.generation = [] ∧ s.writer.closing s.generation = false := by
  cases hw : s.writer with
  | running op t =>
    have ht : t = ⟨.original, 0⟩ := ho.oldTarget (by simp [hr]) (by simp [hw])
    have hgen : s.generation = 1 := by simpa [hr] using ho.generation
    cases op <;> simp [ht, hgen]
  | _ => exact ⟨rfl, rfl⟩

variable (h : Delivery s)
include h

theorem operated (ho : Order s) {op : Op} (hrun : s.writer = .running op t)
    (writer : Writer) (calls : List (Op × Outcome)) (f : Wire Bytes → Wire Bytes)
    (hf : f = perform op ∨ ∀ w, (f w).failed = true)
    (hc : ∀ w, (f w).closed = true → w.closed = true ∨ op = .finishSend)
    (htaken : State.taken { s with writer, calls } = s.taken) (hpending : writer.pending s.generation = [])
    (hclosing : writer.closing s.generation = false) : Delivery { s.onWire t.stream f with writer, calls } := by
  have htar : s.writer.target = some t := by simp [hrun]
  have hfa (w : Wire Bytes) (hw : w.failed = true) : (f w).failed = true := by
    rcases hf with rfl | hf
    · exact (perform_failed op w).trans hw
    · exact hf w
  have hth : State.taken { s.onWire t.stream f with writer, calls } = s.taken := htaken
  -- On the stream that the call has, the operation did not fail, or there is nothing to show.
  have hcur (heq : t.generation = s.generation) (hok : ((s.onWire t.stream f).wire s.stream).failed = false) :
      (s.onWire t.stream f).wire s.stream = perform op (s.wire s.stream) ∧ (s.wire s.stream).failed = false ∧
        s.resend.rest = [] := by
    obtain ⟨hs, hr⟩ := stream_of_current ho htar heq
    rw [hs, State.wire_onWire] at hok ⊢
    rcases hf with rfl | hf
    · exact ⟨rfl, (perform_failed op _).symm.trans hok, rest_eq_nil fun ha => hr (ho.resending ha).1⟩
    · simp [hf] at hok
  refine ⟨?_, h.keeping, ?_, ?_, ?_, ?_, ?_, ?_, ?_, h.finishes⟩
  · rw [hth]
    exact h.kept
  · rw [hth]
    exact h.held
  · intro cs hp
    have hr := ho.holds (by simp [show s.receiver = _ from hp])
    have ht := ho.oldTarget (by simp [hr]) htar
    simpa [ht] using h.fresh cs hp
  · rintro hl (hok : ((s.onWire t.stream f).wire s.stream).failed = false)
    rw [hth]
    change ((s.onWire t.stream f).wire s.stream).received ++ (s.resend.rest ++ writer.pending s.generation) = _
    rw [hpending]
    by_cases heq : t.generation = s.generation
    · obtain ⟨hwi, hbef, hrs⟩ := hcur heq hok
      rw [hwi, ← h.received hl hbef]
      cases op <;> simp [State.unsent, hrun, heq, hrs]
    · have hwi := wire_of_old ho htar heq hl hfa hok
      rw [hwi] at hok ⊢
      rw [← h.received hl hok]
      cases op <;> simp [State.unsent, hrun, heq]
  · rw [hth]
    exact h.finished
  · rintro st (hs : ((s.onWire t.stream f).wire st).closed = true)
    by_cases heq : st = t.stream
    · rw [heq, State.wire_onWire] at hs
      rcases hc _ hs with hs | rfl
      · exact h.closedBy _ hs
      · exact h.finished.mpr (by simp [State.taken, hrun, Writer.taken])
    · rw [State.wire_onWire_of_ne heq] at hs
      exact h.closedBy _ hs
  · rintro hl (hok : ((s.onWire t.stream f).wire s.stream).failed = false) hfin
    change ((s.onWire t.stream f).wire s.stream).closed = true ∨ (s.resend.finish || writer.closing s.generation) = true
    rw [hclosing]
    by_cases heq : t.generation = s.generation
    · obtain ⟨hwi, hbef, -⟩ := hcur heq hok
      rw [hwi]
      cases op with
      | send body => simpa [State.closing, hrun, Writer.closing] using h.closes hl hbef hfin
      | finishSend => exact .inl rfl
    · have hwi := wire_of_old ho htar heq hl hfa hok
      rw [hwi] at hok ⊢
      have hbef := h.closes hl hok hfin
      cases op <;> simpa [State.closing, hrun, Writer.closing, heq] using hbef
  · rintro (hs : ((s.onWire t.stream f).wire s.stream).closed = true)
    change s.resend.rest = []
    by_cases heq : s.stream = t.stream
    · refine rest_eq_nil fun ha => ?_
      obtain ⟨hr, hre⟩ := ho.resending ha
      have ht := ho.oldTarget (by simp [hr]) htar
      simp [ht, hre] at heq
    · rw [State.wire_onWire_of_ne heq] at hs
      exact h.resending hs

theorem targeted (hf : s.writer.target = none) (hl : s.receiver.holds = false)
    (op : Op) {copies : RequestCopies} (budget : Budget)
    (hk : copies.keeping = s.copies.keeping)
    (hkept : s.copies.keeping = true → copies.kept = s.copies.kept ++ bodies [op]) :
    Delivery { s with
      copies, budget
      sendFinished := s.sendFinished || decide (op = .finishSend)
      writer := .running op ⟨s.stream, s.generation⟩ } := by
  have ht : State.taken { s with
      copies, budget
      sendFinished := s.sendFinished || decide (op = .finishSend)
      writer := .running op ⟨s.stream, s.generation⟩ } = s.taken ++ [op] := by
    simp [State.taken, Writer.taken_eq_nil hf]
  constructor
  · intro hnow
    have hth : s.copies.keeping = true := hk ▸ hnow
    rw [ht, hkept hth, h.kept hth]
    simp [bodies]
  · exact hk.trans h.keeping
  · intro copies hh
    simp [Receiver.held_eq_none hl] at hh
  · exact h.fresh
  · rintro - (hok : (s.wire s.stream).failed = false)
    have hrec := h.received hl hok
    rw [State.unsent, Writer.pending_eq_nil hf, List.append_nil] at hrec
    rw [ht, bodies, List.filterMap_append, ← bodies, ← hrec]
    change (s.wire s.stream).received ++ (s.resend.rest ++ _) = _
    cases op <;> simp [Op.body]
  · rw [ht, List.mem_append, ← h.finished]
    cases op <;> simp
  · intro st hc
    simp [h.closedBy st hc]
  · rintro - (hok : (s.wire s.stream).failed = false) hfin
    change (s.wire s.stream).closed = true ∨ (s.resend.finish || _) = true
    cases op with
    | send body =>
      have hcl := h.closes hl hok (by simpa using hfin)
      simpa [State.closing, Writer.closing_eq_false hf] using hcl
    | finishSend => simp
  · exact h.resending
  · intro hfi
    simp [h.finishes hfi]

theorem receiver (receiver : Receiver) (copies : RequestCopies) (budget : Budget)
    (ht : s.receiver.holds = false) (hnow : receiver.holds = false)
    (hs : copies.keeping = true → copies = s.copies) (hk : copies.keeping = receiver.early) :
    Delivery { s with receiver, copies, budget } where
  __ := h
  kept hke := by
    have heq := hs hke
    rw [heq] at hke ⊢
    exact h.kept hke
  keeping := hk
  held copies hh := by simp [Receiver.held_eq_none hnow] at hh
  fresh copies hp := by
    rw [show receiver = _ from hp] at hnow
    cases hnow
  received _ := h.received ht
  closes _ := h.closes ht

theorem replay (receiver : Receiver) (hheld : receiver.held = s.receiver.held)
    (hh : receiver.holds = true) (hearly : receiver.early = s.receiver.early)
    (hf : ∀ cs, receiver = .opened cs → s.replayed.received = [] ∧ s.replayed.closed = false) :
    Delivery { s with receiver } :=
  { h with
    keeping := h.keeping.trans hearly.symm
    held := fun cs hnow => h.held cs (hheld ▸ hnow)
    fresh := hf
    received := fun hl => nomatch hh.symm.trans hl
    closes := fun hl => nomatch hh.symm.trans hl }

theorem resends (ho : Order s) (ha : s.resend.active = true) (resent : Option Bool) (resend : Resend)
    (w : Wire Bytes)
    (hrec : w.failed = false → s.replayed.failed = false ∧
      w.received ++ resend.rest = s.replayed.received ++ s.resend.rest)
    (hc : w.closed = true → s.replayed.closed = true ∨ s.resend.finish = true)
    (hclosed : w.failed = false → s.replayed.closed = true ∨ s.resend.finish = true → w.closed = true ∨
      resend.finish = true)
    (hfailing : w.closed = true → resend.rest = []) (hf : resend.finish = true → s.resend.finish = true) :
    Delivery { s with resent, resend, replayed := w } := by
  obtain ⟨hr, hs⟩ := ho.resending ha
  have hla := ho.late ha
  have hw : State.wire { s with resent, resend, replayed := w } s.stream = w := by
    rw [hs]
    rfl
  have ht : s.wire s.stream = s.replayed := by
    rw [hs]
    rfl
  refine ⟨h.kept, h.keeping, h.held, ?_, ?_, h.finished, ?_, ?_, ?_, fun hnow => h.finishes (hf hnow)⟩
  · intro copies hp
    simp [show s.receiver = _ from hp] at hla
  · intro hl hok
    rw [hw] at hok ⊢
    obtain ⟨hbef, heq⟩ := hrec hok
    have hall := h.received hl (ht ▸ hbef)
    rw [ht, State.unsent, ← List.append_assoc, ← heq, List.append_assoc] at hall
    exact hall
  · intro st hnow
    cases st with
    | original => exact h.closedBy .original hnow
    | replayed =>
      rcases hc hnow with hnow | hnow
      · exact h.closedBy .replayed hnow
      · exact h.finishes hnow
  · intro hl hok hfin
    rw [hw] at hok ⊢
    have hbef := h.closes hl (ht ▸ (hrec hok).1) hfin
    rw [ht, State.closing, (pending_of_resending ho hr).2, Bool.or_false] at hbef
    exact (hclosed hok hbef).imp_right fun hnow => Bool.or_eq_true_iff.mpr (.inl hnow)
  · intro hnow
    rw [hw] at hnow
    exact hfailing hnow

theorem moves (ho : Order s) (hm : Moves s own s') (hope : s'.closed = false) : Delivery s' := by
  cases hm with
  | @waits _ wr hfr hto _ _ =>
    refine h.writer wr s.calls ?_ ?_ ?_
    · simp [State.taken, Writer.taken_eq_nil hfr, Writer.taken_eq_nil hto]
    · rw [Writer.pending_eq_nil hfr, Writer.pending_eq_nil hto]
    · rw [Writer.closing_eq_false hfr, Writer.closing_eq_false hto]
  | dropped hfr =>
    refine h.writer .idle _ ?_ ?_ ?_
    · rw [State.taken, State.taken, Writer.taken_eq_nil hfr]
      simp [Writer.taken]
    · rw [Writer.pending_eq_nil hfr]
      rfl
    · rw [Writer.closing_eq_false hfr]
      rfl
  | @sends body cs budget ht hl hr hkp =>
    obtain ⟨hk, hke⟩ := tryKeep_kept hkp
    simpa using h.targeted (by simp [ht]) hl (.send body) budget hk hke
  | finishes ht hl hr =>
    simpa using h.targeted (by simp [ht]) hl .finishSend s.budget rfl (by simp [bodies, Op.body])
  | @completed op target hrun ht =>
    refine h.operated ho hrun .idle _ (perform op) (.inl rfl) ?_ ?_ rfl rfl
    · intro w
      cases op <;> simp
    · exact taken_ends (by simp [hrun]) (by simp)
  | @failed op target sent hrun =>
    refine h.operated ho hrun (.failed op target) s.calls _ (.inr fun _ => fails_failed _ _ _) ?_ ?_ rfl rfl
    · intro w
      exact fails_closed
    · simp [State.taken, hrun, Writer.taken]
  | @cancelled op target sent hrun =>
    refine h.operated ho hrun .idle _ _ (.inr fun _ => fails_failed _ _ _) ?_ ?_ rfl rfl
    · intro w
      exact fails_closed
    · exact taken_ends (by simp [hrun]) (by simp)
  | explaining hf =>
    refine h.writer _ s.calls ?_ ?_ ?_ <;> simp [State.taken, hf, Writer.taken, Writer.closing]
  | @explained op target hb =>
    have hta : s.writer.taken = [op] := by rcases hb with hw | hw <;> simp [hw, Writer.taken]
    refine h.writer .idle _ (taken_ends hta ?_) ?_ ?_
    · split_ifs <;> simp
    · rcases hb with hw | hw <;> simp [hw]
    · rcases hb with hw | hw <;> simp [hw, Writer.closing]
  | @frame r hwa hea =>
    refine h.receiver r s.copies s.budget (by simp [hwa]) ?_ (fun _ => rfl) ?_
    · cases r <;> first | rfl | cases hea
    · rw [h.keeping, hea, hwa]
      rfl
  | handled => exact { h with }
  | settled hp => exact h.receiver _ _ _ (by simp [hp]) rfl (by simp) rfl
  | unreplayed _ hc => simp [hc] at hope
  | switched hp _ =>
    have hk : s.copies.keeping = true := by simp [h.keeping, hp]
    refine { h with
      kept := by simp, keeping := rfl, held := fun cs hh => ?_, fresh := by simp, received := by simp
      closes := by simp }
    rw [← Option.some.inj hh]
    exact h.kept hk
  | @closedOld cs hp =>
    have hrp := h.replay (.closedOld cs) (by simp [hp, Receiver.held]) rfl (by simp [hp]) (by simp)
    refine { hrp with
      fresh := by simp, received := by simp, closedBy := fun st hc => ?_, closes := by simp
      resending := fun hc => ?_ }
    · exact h.closedBy st (State.closed_onWire_fail.symm.trans hc)
    · exact h.resending (State.closed_onWire_fail.symm.trans hc)
  | @opened cs hp =>
    refine { h with
      keeping := by simp [h.keeping, hp], held := fun cs hh => h.held cs ?_, fresh := fun _ _ => ⟨rfl, rfl⟩
      received := by simp, closedBy := fun st hc => ?_, closes := by simp, resending := by simp }
    · rw [hp]
      exact hh
    · cases st with
      | original => exact h.closedBy .original hc
      | replayed => cases hc
  | @openFailed cs hp =>
    have hr : s.resent ≠ none := by simp [ho.holds (by simp [hp])]
    have hs := ho.opening cs (.inr hp)
    have hf : (s.wire s.stream).failed = true := by
      rw [hs]
      exact (ho.gone hr hs).resolve_left (by simp [hp])
    refine { h with
      keeping := by simp [h.keeping, hp], held := by simp [Receiver.held], fresh := by simp
      received := fun _ hok => ?_, closes := fun _ hok => ?_ }
    · cases hf.symm.trans hok
    · cases hf.symm.trans hok
  | openedClosed _ hc => simp [hc] at hope
  | @launched cs hp _ =>
    have hr : s.resent = some false := ho.holds (by simp [hp])
    have hs := ho.opened cs hp
    obtain ⟨hrec, hc⟩ := h.fresh cs hp
    -- No one has a target on the new stream.
    have hpe := (pending_of_resending ho hr).1
    refine { h with
      keeping := by simp [h.keeping, hp], held := by simp [Receiver.held], fresh := by simp, received := fun _ _ => ?_
      closes := fun _ _ hfin => .inr ?_
      resending := fun hnow => ?_, finishes := id }
    · rw [hs]
      change s.replayed.received ++ (cs ++ s.writer.pending s.generation) = bodies s.taken
      rw [hrec, hpe, h.held cs (by simp [hp, Receiver.held])]
      simp
    · simp [State.closing, show s.sendFinished = true from hfin]
    · rw [hs] at hnow
      cases hc.symm.trans hnow
  | @returned t hp =>
    have hre := h.receiver (.finished t) s.copies s.budget (by simp [hp]) rfl (fun _ => rfl)
      (by simp [h.keeping, hp])
    exact { hre with }
  | @resentOne body cs f hp ht =>
    obtain ⟨hf, hc⟩ : s.replayed.failed = false ∧ s.replayed.closed = false := by simpa [takes] using ht
    refine h.resends ho (by simp [hp]) s.resent (.writing cs f) _ ?_ ?_ ?_ ?_ ?_
    · intro _
      exact ⟨hf, by simp [hp, Resend.rest]⟩
    · exact fun hnow => .inl hnow
    · intro _ hth
      simpa [hp] using hth
    · simp [hc]
    · simp [hp]
  | resentFinish hp ht =>
    have hf : s.replayed.failed = false := by simpa [takes] using ht
    refine h.resends ho (by simp [hp]) s.resent (.writing [] false) _ ?_ ?_ ?_ ?_ ?_
    · intro _
      exact ⟨hf, by simp [hp, Resend.rest]⟩
    · exact fun _ => .inr (by simp [hp])
    · exact fun _ _ => .inl rfl
    · exact fun _ => rfl
    · simp
  | resentAll hp =>
    refine h.resends ho (by simp [hp]) (some true) .finished s.replayed ?_ (fun hnow => .inl hnow) ?_ (fun _ => rfl)
      (by simp)
    · intro hf
      exact ⟨hf, by simp [hp, Resend.rest]⟩
    · intro _ hth
      simpa [hp] using hth
  | @resendFails op sent _ _ hp _ hop =>
    have hf := fails_failed sent op s.replayed
    refine h.resends ho (by simp [hp]) s.resent .failing _ ?_ ?_ ?_ (fun _ => rfl) (by simp)
    · simp [hf]
    · exact fun hnow => (fails_closed hnow).imp_right fun hfin => by simp [hp, hop hfin]
    · simp [hf]
  | resendOver ha hwhy =>
    have hf : s.replayed.failed = true := ho.failing (hwhy.resolve_right (by simp [show s.closed = false from hope]))
    refine h.resends ho ha (some true) .finished s.replayed ?_ (fun hnow => .inl hnow) ?_ (fun _ => rfl) (by simp)
    · simp [hf]
    · simp [hf]
  | resendCloses _ | closes => cases State.close_closed.symm.trans hope
  | settledClosed hc => simp [hc] at hope
  | budget _ => exact { h with }

end Delivery

end TrevRpc.Kotlin.CallStream
