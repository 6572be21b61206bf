import TrevRpc.Go.Optimistic.Delivery

/-! # Whole uploads -/

open TrevRpc.Run TrevRpc.Rust

namespace TrevRpc.Go.Optimistic

variable {maxFrameSize : Nat} {s s' : State} {a : Action}

/-! ## Invariants of a run -/

structure Inv (total : Nat) (s : State) : Prop where
  order : Order s
  accounts : Accounts total s
  delivery : Delivery s

theorem inv_of_run {budget : Budget} {actions : List Action} (h : run (step maxFrameSize) { budget } actions = some s) :
    Inv (budget.available + budget.others) s := by
  have hs : Inv (budget.available + budget.others) { budget } :=
    ⟨Order.start budget, Accounts.start budget, Delivery.start budget⟩
  refine run_induction (P := fun _ => Inv (budget.available + budget.others)) hs ?_ h
  rintro _ t a t' ⟨ho, ha, hd⟩ hst
  have hm := step_moves hst
  exact ⟨ho.moves hm, ha.moves ho hm, hd.moves ho hm⟩

namespace Inv

variable {total : Nat}

theorem received (h : Inv total s) (hc : s.generation = .optimistic ∨ s.replay = .done)
    (hok : s.stream.failed = false) :
    s.stream.received ++ s.unsent = .request (s.generation = .optimistic) :: s.encoded.map .message := by
  rcases hc with hgen | hd
  · have hs : s.stream = s.first := by simp [State.stream, h.order.optimistic hgen]
    rw [hs] at hok ⊢
    simpa [hgen] using h.delivery.first hgen hok
  · have hs : s.stream = s.second := by simp [State.stream, h.order.onNew (by simp [hd, Replay.onNew])]
    have hgen := h.order.generation.mpr (by simp [hd, Replay.took])
    rw [hs] at hok ⊢
    simpa [hgen, State.unsent] using h.delivery.second (.inr hd) hok

theorem halfClosed (h : Inv total s) (hcarried : s.generation = .optimistic ∨ s.replay = .done)
    (hok : s.stream.failed = false) (hr : s.writer ≠ .closing) : s.stream.closed = true ↔ s.closed = true := by
  rcases hcarried with hgen | hd
  · have hs : s.stream = s.first := by simp [State.stream, h.order.optimistic hgen]
    rw [hs] at hok ⊢
    constructor
    · intro hc
      rw [← Bool.not_eq_false]
      intro ho
      simp [(h.order.unclosed ho).2.1] at hc
    · intro hc
      exact (h.delivery.firstClosed hgen hok hc).resolve_left hr
  · have hs : s.stream = s.second := by simp [State.stream, h.order.onNew (by simp [hd, Replay.onNew])]
    rw [hs] at hok ⊢
    constructor
    · intro hc
      rw [← Bool.not_eq_false]
      intro ho
      simp [(h.order.unclosed ho).2.2] at hc
    · intro hc
      exact (h.delivery.secondClosed hd hok hc).resolve_left hr

theorem unsent_of_closed (h : Inv total s) (hc : s.closed = true) : s.unsent = [] := by
  obtain ⟨hh, hb, -⟩ := h.order.closed hc
  simp [State.unsent, State.pending, hh, hb]

end Inv

/-! ## Progress -/

/-- The steps that a replay has left. -/
def Replay.rest : Replay → Nat
  | .idle | .done | .failed => 0
  | .refused => 7
  | .cancelled => 6
  | .locked => 5
  | .switched => 4
  | .opened => 3
  | .checked => 2
  | .written => 1

/-- The writer has something to write. -/
def State.busy (s : State) : Bool := s.header || !s.batch.isEmpty

theorem busy_iff : s.busy = true ↔ s.header = true ∨ s.batch ≠ [] := by
  cases hh : s.header <;> simp [State.busy, hh]

def Copies.rest (c : Copies) : Nat := if c.keeping then 1 else 0

def State.writerRest (s : State) : Nat :=
  match s.writer with
  | .idle => if s.busy then 3 else 0
  | .parked _ => 5
  | .writing | .closing => 2
  | .awaiting _ => 1
  | .finished | .stopped => 0

def State.rest (s : State) : Nat := s.replay.rest + s.copies.rest + s.writerRest

def State.Quiet (s : State) : Prop :=
  s.replay.rest = 0 ∧ s.copies.keeping = false ∧
    (s.writer = .idle ∧ s.header = false ∧ s.batch = [] ∨ s.writer = .finished ∨ s.writer = .stopped)

theorem writer_less (hrep : s'.replay = s.replay) (hc : s'.copies = s.copies) (h : s'.writerRest < s.writerRest) :
    s'.rest < s.rest := by
  unfold State.rest
  rw [hrep, hc]
  omega

theorem replay_less (h : s'.replay.rest < s.replay.rest) (hcopies : s'.copies.rest ≤ s.copies.rest)
    (hwrit : s'.writerRest = s.writerRest) : s'.rest < s.rest := by
  unfold State.rest
  omega

theorem releaseCopies_rest (c : Copies) (b : Budget) : (releaseCopies c b).1.rest = 0 := by
  unfold releaseCopies
  split_ifs with hk
  · simp [Copies.rest, hk]
  · rfl

attribute [local simp] Replay.rest State.writerRest

theorem replayStep_less {ok : Bool} (h : s.replayStep ok = some s') : s'.rest < s.rest := by
  unfold State.replayStep at h
  split at h
  case h_1 => cases h
  case h_2 => cases h
  case h_3 => cases h
  case h_4 hp =>
    cases h
    exact replay_less (by simp [hp]) (Nat.le_refl _) rfl
  case h_5 hp =>
    obtain ⟨-, rfl⟩ := of_guard_not h
    exact replay_less (by simp [hp]) (Nat.le_refl _) rfl
  case h_6 hp =>
    cases h
    refine replay_less (by simp [hp]) ?_ rfl
    exact (releaseCopies_rest _ _).trans_le (Nat.zero_le _)
  case h_7 hp =>
    cases h
    split_ifs
    · exact replay_less (by simp [hp]) (Nat.le_refl _) rfl
    · exact replay_less (by simp [State.exit, hp]) (Nat.le_refl _) rfl
  case h_8 hp =>
    cases h
    split_ifs
    · exact replay_less (by simp [State.exit, hp]) (Nat.le_refl _) rfl
    · exact replay_less (by simp [hp]) (Nat.le_refl _) rfl
  case h_9 hp =>
    split_ifs at h
    all_goals
      cases h
      exact replay_less (by simp [State.exit, hp]) (Nat.le_refl _) rfl
  case h_10 hp =>
    split_ifs at h
    all_goals
      cases h
      exact replay_less (by simp [State.exit, hp]) (Nat.le_refl _) rfl

theorem own_less (hown : a.own = true) (h : step maxFrameSize s a = some s') : s'.rest < s.rest := by
  cases a with
  | wake =>
    simp only [step] at h
    split at h
    · next payload hp =>
      obtain ⟨-, rfl⟩ := of_guard_not h
      unfold State.encode
      split_ifs
      · exact writer_less rfl rfl (by simp [State.stop, hp])
      · exact writer_less rfl rfl (by simp [State.busy, hp])
    · cases h
  | beginWrite =>
    obtain ⟨⟨hi, hb, -⟩, rfl⟩ := of_guard h
    rw [← busy_iff] at hb
    split_ifs
    · refine writer_less rfl rfl ?_
      simp only [State.writerRest, hi, hb, if_true]
      exact Nat.succ_pos _
    · refine writer_less rfl rfl ?_
      simp only [State.writerRest, hi, hb, if_true]
      exact Nat.lt_succ_self _
  | endWrite ok sent =>
    obtain ⟨hw, h⟩ := Option.ite_none_right_eq_some.mp h
    dsimp only at h
    split_ifs at h
    all_goals
      cases h
      exact writer_less rfl rfl (by simp [State.busy, State.wrote, State.stop, hw])
  | endClose ok =>
    obtain ⟨hc, h⟩ := Option.ite_none_right_eq_some.mp h
    dsimp only at h
    split_ifs at h
    all_goals
      cases h
      exact writer_less rfl rfl (by simp [hc])
  | resume =>
    have hgiveUp {c : Bool} (haw : s.writer = .awaiting c) : (s.giveUp c).rest < s.rest := by
      cases c
      · exact writer_less rfl rfl (by simp [State.giveUp, State.stop, haw])
      · exact writer_less rfl rfl (by simp [State.giveUp, haw])
    simp only [step] at h
    split at h
    · next c haw _ =>
      cases h
      exact hgiveUp haw
    · next c haw _ _ =>
      cases h
      cases c
      · exact writer_less rfl rfl (by simp [State.busy, State.wrote, haw])
      · exact writer_less rfl rfl (by simp [haw])
    · next c haw _ _ =>
      cases h
      exact hgiveUp haw
    · cases h
  | settle =>
    obtain ⟨⟨hk, -⟩, rfl⟩ := of_guard h
    have hr : s.copies.rest = 1 := by simp [Copies.rest, hk]
    simp only [State.rest, releaseCopies_rest, hr]
    exact Nat.add_lt_add_right (by omega) _
  | replay ok => exact replayStep_less h
  | encode | beginClose | stop | decide | ends | lend | regain => cases hown

theorem quiet_of_stuck {total : Nat} (h : Inv total s) (hd : s.decided ≠ none)
    (hs : ∀ a, a.own = true → step maxFrameSize s a = none) : s.Quiet := by
  have hw : s.writer.holds = false := by
    cases hp : s.writer with
    | writing => simpa [step, hp] using hs (.endWrite false 0) rfl
    | closing => simpa [step, hp] using hs (.endClose false) rfl
    | idle | parked | awaiting | finished | stopped => rfl
  have hrep : s.replay = .idle ∨ s.replay = .done ∨ s.replay = .failed := by
    have hn := hs (.replay false) rfl
    simp only [step, State.replayStep] at hn
    cases hp : s.replay with
    | idle => exact .inl rfl
    | done => exact .inr (.inl rfl)
    | failed => exact .inr (.inr rfl)
    | refused | cancelled | locked | switched | opened | checked => simp [hp, hw] at hn
    | written => cases hc : s.closed <;> simp [hp, hc] at hn
  have ho : s.decided = some true → s.replay.took = true := by
    intro href
    rcases hrep with hi | hdo | hf
    · exact absurd href (h.order.refused.mp hi)
    · simp [hdo, Replay.took]
    · simp [hf, Replay.took]
  have hk : s.copies.keeping = false := by
    rw [Bool.eq_false_iff]
    intro hk
    have hse := hs .settle rfl
    cases href : s.decided with
    | none => exact hd href
    | some refused =>
      cases refused with
      | false => simp [step, hk, href] at hse
      | true =>
        have hgen := h.order.generation.mpr (ho href)
        simp [(h.delivery.kept hk).1] at hgen
  refine ⟨?_, hk, ?_⟩
  · rcases hrep with hp | hp | hp <;> simp [hp]
  have hl : s.replay.holds = false := by
    rcases hrep with hp | hp | hp <;> simp [hp, Replay.holds]
  cases hp : s.writer with
  | idle =>
    have hn := hs .beginWrite rfl
    have hb : ¬(s.header = true ∨ s.batch ≠ []) := fun hb => by simp [step, hp, hl, hb] at hn
    rw [not_or, Bool.not_eq_true, not_not] at hb
    exact .inl ⟨rfl, hb⟩
  | parked payload => simpa [step, hp, hk] using hs .wake rfl
  | writing => simp [hp, Writer.holds] at hw
  | closing => simp [hp, Writer.holds] at hw
  | awaiting closing =>
    have hn := hs .resume rfl
    cases href : s.decided with
    | none => exact absurd href hd
    | some refused =>
      cases refused with
      | false => simp [step, hp, href] at hn
      | true =>
        rcases hrep with hi | hdo | hf
        · exact absurd href (h.order.refused.mp hi)
        · simp [step, hp, href, hdo] at hn
        · simp [step, hp, href, hf] at hn
  | finished => exact .inr (.inl rfl)
  | stopped => exact .inr (.inr rfl)

/-- The stream that carries the call has received the REQUEST and each encoded message once, in order, but for those
still in the batch, and is half-closed exactly if `Close` was called. The copies stay within 1 MiB and are given back.
Once the server has decided, the threads end with nothing left in the batch. -/
theorem upload_delivers_once (maxFrameSize : Nat) (budget : Budget) (actions : List Action) (s : State)
    (h : run (step maxFrameSize) { budget } actions = some s) :
    ((s.generation = .optimistic ∨ s.replay = .done) → s.stream.failed = false →
      s.stream.received ++ s.unsent = .request (s.generation = .optimistic) :: s.encoded.map .message ∧
        (s.writer ≠ .closing → (s.stream.closed = true ↔ s.closed = true)) ∧ (s.closed = true → s.unsent = [])) ∧
    (s.copies.keptBytes ≤ maxOptimisticCopies ∧ s.copies.keptBytes = (s.copies.kept.map List.length).sum) ∧
    (s.budget.Balanced (budget.available + budget.others) (s.copies.reservations.sum + s.takenReservations.sum) ∧
      s.copies.reservations.sum = s.copies.keptBytes ∧ (s.copies.keeping = false → s.copies.reservations = []) ∧
        (s.replay.holds = false → s.takenReservations = [])) ∧
    (∀ more t, (∀ a ∈ more, a.own = true) → run (step maxFrameSize) s more = some t → more.length ≤ s.rest) ∧
    (s.decided ≠ none → (∀ a, a.own = true → step maxFrameSize s a = none) → s.Quiet) := by
  have hinv := inv_of_run h
  refine ⟨fun hcarried hok => ⟨hinv.received hcarried hok, hinv.halfClosed hcarried hok, hinv.unsent_of_closed⟩,
    ⟨hinv.accounts.sound.cap, hinv.accounts.sound.bytes⟩,
      ⟨hinv.accounts.sound.balanced, hinv.accounts.sound.reserved, ?_, hinv.accounts.taken⟩,
    ?_, quiet_of_stuck hinv⟩
  · intro hkeeping
    rw [hinv.accounts.sound.released hkeeping]
    rfl
  · intro more t hown hrun
    have hle := run_length_le (I := fun _ => True) State.rest (·.own = true) trivial (fun _ _ _ _ _ => trivial)
      (fun _ _ _ _ => own_less) hown hrun
    omega

/-- The second message is being written when the server refuses. The replay sends both, and the third follows. -/
theorem upload_delivers_once_refused :
    ∃ s : State, s.replay = .done ∧ s.encoded = [[1], [2], [3]] ∧ s.unsent = [] ∧
      s.stream.received ++ s.unsent = .request (s.generation = .optimistic) :: s.encoded.map .message ∧
        (s.stream.closed = true ↔ s.closed = true) ∧ s.closed = true := by
  let actions : List Action := [.encode [1], .beginWrite, .endWrite true 0, .encode [2], .beginWrite, .decide true,
    .replay true, .endWrite false 0, .replay true, .replay true, .replay true, .replay true, .replay true, .replay true,
    .resume, .encode [3], .beginWrite, .endWrite true 0, .beginClose, .endClose true]
  have hrun : ∃ s ∈ run (step 10) { budget := ⟨100, 0⟩ } actions, s.replay = .done ∧ s.encoded = [[1], [2], [3]] ∧
      s.unsent = [] ∧ s.stream.failed = false ∧ s.writer ≠ .closing ∧ s.closed = true := by decide
  obtain ⟨s, hs, hdone, hencoded, hunsent, hok, hreturned, hclosed⟩ := hrun
  obtain ⟨hreceived, hhalf, -⟩ := (upload_delivers_once 10 ⟨100, 0⟩ actions s hs).1 (.inr hdone) hok
  exact ⟨s, hdone, hencoded, hunsent, hreceived, hhalf hreturned, hclosed⟩

end TrevRpc.Go.Optimistic
