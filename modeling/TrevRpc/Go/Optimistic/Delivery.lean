import TrevRpc.Go.Optimistic.Model

/-!
# An optimistic upload delivers every message once

A replay takes the copies with the write lock held, so what was encoded before is written from the copies only, and what
is encoded after it from the batch only.
-/

open TrevRpc.Run TrevRpc.Rust

namespace TrevRpc.Go.Optimistic

variable {maxFrameSize : Nat} {s s' : State} {a : Action}

/-! ## What a step does -/

inductive Moves (maxFrameSize : Nat) (s : State) : State → Prop
  | encoded {payload copies budget} (hidle : s.writer = .idle)
      (hkeep : keep maxFrameSize payload s.copies s.budget = some (copies, budget)) :
      Moves maxFrameSize s ({ s with copies, budget }.encode maxFrameSize payload)
  | parked {payload} (hidle : s.writer = .idle) (hfits : payload.length ≤ maxFrameSize) :
      Moves maxFrameSize s { s with writer := .parked payload }
  | woken {payload} (hparked : s.writer = .parked payload) (hsettled : s.copies.keeping = false) :
      Moves maxFrameSize s (s.encode maxFrameSize payload)
  | skipped (hidle : s.writer = .idle) (hnone : s.unsent = []) : Moves maxFrameSize s s.wrote
  | beginWrite (hidle : s.writer = .idle) (hlock : s.replay.holds = false) :
      Moves maxFrameSize s { s with writer := .writing }
  | wrote (hwriting : s.writer = .writing) (hstream : s.stream.failed = false) :
      Moves maxFrameSize s (s.onStream (·.write s.unsent)).wrote
  | writeFailed {items} (hwriting : s.writer = .writing) (hgeneration : s.generation = .optimistic) :
      Moves maxFrameSize s { s.onStream (fun w => (w.write items).fail) with writer := .awaiting false }
  | writeStopped {items} (hwriting : s.writer = .writing) (hgeneration : s.generation = .replay) :
      Moves maxFrameSize s (s.onStream fun w => (w.write items).fail).stop
  | beginClose (hidle : s.writer = .idle) (hheader : s.header = false) (hbatch : s.batch = [])
      (hlock : s.replay.holds = false) : Moves maxFrameSize s { s with closed := true, writer := .closing }
  | closed (hclosing : s.writer = .closing) (hstream : s.stream.failed = false) :
      Moves maxFrameSize s { s.onStream Wire.close with writer := .finished }
  | closeFailed (hclosing : s.writer = .closing) (hgeneration : s.generation = .optimistic) :
      Moves maxFrameSize s { s.onStream Wire.fail with writer := .awaiting true }
  | closeStopped (hclosing : s.writer = .closing) (hgeneration : s.generation = .replay) :
      Moves maxFrameSize s { s.onStream Wire.fail with writer := .stopped }
  | gaveUp {closing} (hawaiting : s.writer = .awaiting closing) : Moves maxFrameSize s (s.giveUp closing)
  | resumedClose (hawaiting : s.writer = .awaiting true) (hdone : s.replay = .done) :
      Moves maxFrameSize s { s with writer := .finished }
  | resumedWrite (hawaiting : s.writer = .awaiting false) (hdone : s.replay = .done) : Moves maxFrameSize s s.wrote
  | stopped (hclosed : s.writer = .idle ∨ ∃ payload, s.writer = .parked payload) : Moves maxFrameSize s s.stop
  | accepted (hdecided : s.decided = none) : Moves maxFrameSize s { s with decided := some false }
  | refused (hdecided : s.decided = none) : Moves maxFrameSize s { s with decided := some true, replay := .refused }
  | settled (hkeeping : s.copies.keeping = true) (hwhy : s.decided = some false ∨ s.ended = true) :
      Moves maxFrameSize s { s with
        copies := (releaseCopies s.copies s.budget).1, budget := (releaseCopies s.copies s.budget).2 }
  | ended : Moves maxFrameSize s { s with ended := true }
  | cancelled (hphase : s.replay = .refused) :
      Moves maxFrameSize s { s with first := s.first.fail, replay := .cancelled }
  | locked (hphase : s.replay = .cancelled) (hlock : s.writer.holds = false) :
      Moves maxFrameSize s { s with replay := .locked }
  | switched (hphase : s.replay = .locked) :
      Moves maxFrameSize s { s with
        taken := s.copies.kept
        takenReservations := s.copies.reservations
        copies := (releaseCopies { s.copies with reservations := [] } s.budget).1
        budget := (releaseCopies { s.copies with reservations := [] } s.budget).2
        generation := .replay
        replay := .switched }
  | opened (hphase : s.replay = .switched) :
      Moves maxFrameSize s { s with current := .replay, second := {}, replay := .opened }
  | openFailed (hphase : s.replay = .switched) : Moves maxFrameSize s (s.exit .failed)
  | checked (hphase : s.replay = .opened) (hended : s.ended = false) :
      Moves maxFrameSize s { s with replay := .checked }
  | replayed (hphase : s.replay = .checked) :
      Moves maxFrameSize s { s with
        second := s.second.write (.request false :: s.taken.map .message), replay := .written }
  | replayFailed (hphase : s.replay = .opened ∨ s.replay = .checked ∨ s.replay = .written) :
      Moves maxFrameSize s ({ s with second := s.second.fail }.exit .failed)
  | replayClosed (hphase : s.replay = .written) (hclosed : s.closed = true) :
      Moves maxFrameSize s ({ s with second := s.second.close }.exit .done)
  | replayDone (hphase : s.replay = .written) (hclosed : s.closed = false) : Moves maxFrameSize s (s.exit .done)
  | budget {budget} (hbudget : ∀ total held, s.budget.Balanced total held → budget.Balanced total held) :
      Moves maxFrameSize s { s with budget }

theorem replayStep_moves {ok : Bool} (h : s.replayStep ok = some s') : Moves maxFrameSize s s' := by
  unfold State.replayStep at h
  split at h
  case h_1 => cases h
  case h_2 => cases h
  case h_3 => cases h
  case h_4 hp =>
    cases h
    exact .cancelled hp
  case h_5 hp =>
    obtain ⟨hl, rfl⟩ := of_guard_not h
    exact .locked hp (Bool.eq_false_iff.mpr hl)
  case h_6 hp =>
    cases h
    exact .switched hp
  case h_7 hp =>
    cases h
    split_ifs
    · exact .opened hp
    · exact .openFailed hp
  case h_8 hp =>
    cases h
    split_ifs with hen
    · exact .replayFailed (.inl hp)
    · exact .checked hp (Bool.eq_false_iff.mpr hen)
  case h_9 hp =>
    split_ifs at h
    · cases h
      exact .replayed hp
    · cases h
      exact .replayFailed (.inr (.inl hp))
  case h_10 hp =>
    split_ifs at h with hc
    · cases h
      exact .replayClosed hp hc
    · cases h
      exact .replayFailed (.inr (.inr hp))
    · cases h
      exact .replayDone hp (Bool.eq_false_iff.mpr hc)

theorem step_moves (h : step maxFrameSize s a = some s') : Moves maxFrameSize s s' := by
  cases a with
  | encode p =>
    obtain ⟨⟨hi, -⟩, h⟩ := Option.ite_none_right_eq_some.mp h
    split at h
    · next copies b hke =>
      cases h
      exact .encoded hi hke
    · next hke =>
      cases h
      refine .parked hi ?_
      by_contra hla
      simp [keep, hla] at hke
  | wake =>
    simp only [step] at h
    split at h
    · next p hpar =>
      obtain ⟨hset, rfl⟩ := of_guard_not h
      exact .woken hpar (Bool.eq_false_iff.mpr hset)
    · cases h
  | beginWrite =>
    obtain ⟨⟨hi, -, hl⟩, rfl⟩ := of_guard h
    split_ifs with hn
    · exact .skipped hi hn
    · exact .beginWrite hi hl
  | endWrite ok sent =>
    obtain ⟨hw, h⟩ := Option.ite_none_right_eq_some.mp h
    dsimp only at h
    split_ifs at h with _ hf hg
    · cases h
      exact .wrote hw (Bool.eq_false_iff.mpr hf)
    · cases h
      exact .writeFailed hw hg
    · cases h
      refine .writeStopped hw ?_
      cases hrep : s.generation with
      | optimistic => exact absurd hrep hg
      | replay => rfl
  | beginClose =>
    obtain ⟨⟨hi, hh, hb, hl⟩, rfl⟩ := of_guard h
    exact .beginClose hi hh hb hl
  | endClose ok =>
    obtain ⟨hc, h⟩ := Option.ite_none_right_eq_some.mp h
    dsimp only at h
    split_ifs at h with _ hf hg
    · cases h
      exact .closed hc (Bool.eq_false_iff.mpr hf)
    · cases h
      exact .closeFailed hc hg
    · cases h
      refine .closeStopped hc ?_
      cases hrep : s.generation with
      | optimistic => exact absurd hrep hg
      | replay => rfl
  | resume =>
    simp only [step] at h
    split at h
    · next c ha _ =>
      cases h
      exact .gaveUp ha
    · next c ha _ hdo =>
      cases h
      cases c with
      | true => exact .resumedClose ha hdo
      | false => exact .resumedWrite ha hdo
    · next c ha _ _ =>
      cases h
      exact .gaveUp ha
    · cases h
  | stop =>
    simp only [step] at h
    split at h
    · next hi =>
      cases h
      exact .stopped (.inl hi)
    · next p hpar =>
      cases h
      exact .stopped (.inr ⟨p, hpar⟩)
    · next c ha =>
      cases h
      exact .gaveUp ha
    · cases h
  | decide r =>
    obtain ⟨hd, rfl⟩ := of_guard h
    cases r with
    | true => exact .refused hd
    | false => exact .accepted hd
  | settle =>
    obtain ⟨⟨hk, hwhy⟩, rfl⟩ := of_guard h
    exact .settled hk hwhy
  | ends =>
    cases h
    exact .ended
  | replay ok => exact replayStep_moves h
  | lend cost =>
    obtain ⟨b, hle, rfl⟩ := Option.map_eq_some_iff.mp h
    exact .budget fun _ _ hbal => hbal.lend hle
  | regain cost =>
    obtain ⟨b, hr, rfl⟩ := Option.map_eq_some_iff.mp h
    exact .budget fun _ _ hbal => hbal.regain hr

/-! ## The two threads -/

/-- `Close` was called, or the writer stopped. -/
def Writer.closes : Writer → Bool
  | .closing | .awaiting true | .finished | .stopped => true
  | _ => false

def Writer.opens : Writer → Bool
  | .closing | .awaiting true | .finished => false
  | _ => true

def Replay.onNew : Replay → Bool
  | .opened | .checked | .written | .done => true
  | _ => false

attribute [local simp] Replay.took Replay.onNew Replay.holds Writer.closes Writer.opens Writer.holds State.exit
  State.onStream

structure Order (s : State) : Prop where
  lock : s.writer.holds = true → s.replay.holds = false
  generation : s.generation = .replay ↔ s.replay.took = true
  current : s.current = .replay → s.replay.took = true
  onNew : s.replay.onNew = true → s.current = .replay
  refused : s.replay = .idle ↔ s.decided ≠ some true
  batch : s.generation = .optimistic → ∀ m ∈ s.batch, m.generation = .optimistic
  awaiting : ∀ closing, s.writer = .awaiting closing → s.first.failed = true ∧ ∀ m ∈ s.batch, m.generation = .optimistic
  closed : s.closed = true → s.header = false ∧ s.batch = [] ∧ s.writer.closes = true
  unclosed : s.closed = false → s.writer.opens = true ∧ s.first.closed = false ∧ s.second.closed = false

namespace Order

theorem optimistic (h : Order s) (hg : s.generation = .optimistic) : s.current = .optimistic := by
  cases hcur : s.current with
  | optimistic => rfl
  | replay =>
    have ht := h.generation.mpr (h.current hcur)
    rw [hg] at ht
    cases ht

theorem start (budget : Budget) : Order { budget } := by
  constructor <;> simp

variable (h : Order s)
include h

theorem not_closed (hw : s.writer.closes = false) : s.closed = false := by
  rw [Bool.eq_false_iff]
  intro hc
  exact nomatch hw.symm.trans (h.closed hc).2.2

theorem is_closed (hw : s.writer.opens = false) : s.closed = true := by
  rw [← Bool.not_eq_false]
  intro ho
  exact nomatch hw.symm.trans (h.unclosed ho).1

theorem writer_waits (hrep : s.replay.holds = true) : s.writer.holds = false := by
  rw [Bool.eq_false_iff]
  intro hw
  exact nomatch hrep.symm.trans (h.lock hw)

theorem writer (hc : s.closed = false) (writer : Writer) (hh : writer.holds = false)
    (ho : writer.opens = true) (ha : ∀ c, writer ≠ .awaiting c) : Order { s with writer } where
  __ := h
  lock hw := nomatch hh.symm.trans hw
  awaiting c heq := absurd heq (ha c)
  closed := by simp [hc]
  unclosed _ := ⟨ho, (h.unclosed hc).2⟩

theorem onStream (f : Wire Frame → Wire Frame) (hc : ∀ w, (f w).closed = w.closed)
    (hfailed : ∀ w, w.failed = true → (f w).failed = true) : Order (s.onStream f) := by
  refine { h with awaiting := fun c heq => ?_, unclosed := fun ho => ?_ }
  · obtain ⟨hf, hb⟩ := h.awaiting c heq
    refine ⟨?_, hb⟩
    simp only [State.onStream]
    split_ifs
    · exact hfailed _ hf
    · exact hf
  · obtain ⟨hw, hf, hsec⟩ := h.unclosed ho
    refine ⟨hw, ?_, ?_⟩
    · simp only [State.onStream]
      split_ifs <;> simp [hc, hf]
    · simp only [State.onStream]
      split_ifs <;> simp [hc, hsec]

theorem stopped : Order { s with writer := .stopped } where
  __ := h
  lock := by simp
  awaiting := by simp
  closed hc := ⟨(h.closed hc).1, (h.closed hc).2.1, rfl⟩
  unclosed ho := ⟨rfl, (h.unclosed ho).2⟩

theorem stop : Order s.stop := (h.onStream Wire.fail (fun _ => rfl) (fun _ _ => rfl)).stopped

theorem giveUp (c : Bool) : Order (s.giveUp c) := by
  unfold State.giveUp
  split_ifs
  · exact h.stopped
  · exact h.stop

theorem copies (copies : Copies) (budget : Budget) : Order { s with copies, budget } := { h with }

theorem encode (hc : s.closed = false) {p : Bytes} : Order (s.encode maxFrameSize p) := by
  unfold State.encode
  split_ifs
  · exact h.stop
  · refine { h.writer hc .idle rfl rfl (by simp) with batch := ?_, awaiting := by simp, closed := by simp [hc] }
    intro hg m hm
    rcases List.mem_append.mp hm with hm | hm
    · exact h.batch hg m hm
    · rw [List.mem_singleton.mp hm]
      exact hg

theorem wrote (hc : s.closed = false) : Order s.wrote :=
  { h.writer hc .idle rfl rfl (by simp) with
    batch := by simp [State.wrote], awaiting := by simp [State.wrote], closed := by simp [State.wrote, hc] }

theorem replayed (replay : Replay) (hl : replay.holds = true → s.writer.holds = false)
    (ht : replay.took = s.replay.took) (honNew : replay.onNew = true → s.replay.onNew = true)
    (hi : replay = .idle ↔ s.replay = .idle) : Order { s with replay } where
  __ := h
  lock hw := by
    rw [Bool.eq_false_iff]
    intro hh
    exact nomatch hw.symm.trans (hl hh)
  generation := by
    rw [ht]
    exact h.generation
  current hcur := ht ▸ h.current hcur
  onNew hnew := h.onNew (honNew hnew)
  refused := hi.trans h.refused

theorem onSecond {w : Wire Frame} (hc : s.closed = false → w.closed = false) : Order { s with second := w } :=
  { h with unclosed := fun ho => ⟨(h.unclosed ho).1, (h.unclosed ho).2.1, hc ho⟩ }

theorem exit {r : Replay} (hh : r.holds = false) (ht : r.took = s.replay.took)
    (honNew : r.onNew = true → s.replay.onNew = true) (hi : r = .idle ↔ s.replay = .idle) :
    Order (s.exit r) :=
  { h.replayed r (fun hn => nomatch hh.symm.trans hn) ht honNew hi with }

theorem moves (hm : Moves maxFrameSize s s') : Order s' := by
  cases hm with
  | @encoded payload cs budget hi _ =>
    exact (h.copies cs budget).encode (h.not_closed (by simp [hi]))
  | parked hi _ => exact h.writer (h.not_closed (by simp [hi])) _ rfl rfl (by simp)
  | woken hpar _ => exact h.encode (h.not_closed (by simp [hpar]))
  | skipped hi _ => exact h.wrote (h.not_closed (by simp [hi]))
  | beginWrite hi hl =>
    have hc := h.not_closed (by simp [hi])
    exact { h with
      lock := fun _ => hl, awaiting := by simp, closed := by simp [hc]
      unclosed := fun _ => ⟨rfl, (h.unclosed hc).2⟩ }
  | wrote hw _ =>
    have hc := h.not_closed (by simp [hw])
    exact (h.onStream (·.write s.unsent) (fun _ => rfl) (fun _ hf => hf)).wrote hc
  | @writeFailed i hw hg =>
    have hc := h.not_closed (by simp [hw])
    have hs := h.onStream (fun w => (w.write i).fail) (fun _ => rfl) (fun _ _ => rfl)
    refine { hs with lock := by simp, awaiting := ?_, closed := by simp [hc], unclosed := ?_ }
    · intro _ _
      exact ⟨by simp [h.optimistic hg], h.batch hg⟩
    · intro ho
      exact ⟨rfl, (hs.unclosed ho).2⟩
  | @writeStopped i _ _ => exact (h.onStream (fun w => (w.write i).fail) (fun _ => rfl) (fun _ _ => rfl)).stop
  | beginClose hi hh hb hl =>
    exact { h with lock := fun _ => hl, awaiting := by simp, closed := fun _ => ⟨hh, hb, rfl⟩, unclosed := by simp }
  | closed hcl _ =>
    have hc := h.is_closed (by simp [hcl])
    obtain ⟨hh, hb, -⟩ := h.closed hc
    exact { h with lock := by simp, awaiting := by simp, closed := fun _ => ⟨hh, hb, rfl⟩, unclosed := by simp [hc] }
  | closeFailed hcl hg =>
    have hc := h.is_closed (by simp [hcl])
    obtain ⟨hh, hb, -⟩ := h.closed hc
    refine { h with lock := by simp, awaiting := ?_, closed := fun _ => ⟨hh, hb, rfl⟩, unclosed := by simp [hc] }
    intro _ _
    exact ⟨by simp [h.optimistic hg], h.batch hg⟩
  | closeStopped hcl _ => exact (h.onStream Wire.fail (fun _ => rfl) (fun _ _ => rfl)).stopped
  | gaveUp _ => exact h.giveUp _
  | resumedClose ha hdo =>
    have hc := h.is_closed (by simp [ha])
    obtain ⟨hh, hb, -⟩ := h.closed hc
    exact { h with lock := by simp, awaiting := by simp, closed := fun _ => ⟨hh, hb, rfl⟩, unclosed := by simp [hc] }
  | resumedWrite ha hdo => exact h.wrote (h.not_closed (by simp [ha]))
  | stopped _ => exact h.stop
  | accepted hd =>
    exact { h with refused := by simpa [hd] using h.refused }
  | refused hd =>
    have hi : s.replay = .idle := h.refused.mpr (by simp [hd])
    have ht : Replay.took .refused = s.replay.took := by simp [hi]
    exact { h with
      lock := by simp, generation := ht ▸ h.generation, current := ht ▸ h.current
      onNew := by simp, refused := by simp }
  | settled _ _ => exact { h with }
  | ended => exact { h with }
  | cancelled hp =>
    have hn := h.replayed .cancelled (by simp) (by simp [hp]) (by simp) (by simp [hp])
    exact { hn with awaiting := fun c heq => ⟨rfl, (h.awaiting c heq).2⟩ }
  | locked hp hl =>
    exact h.replayed _ (fun _ => hl) (by simp [hp]) (by simp) (by simp [hp])
  | switched hp =>
    have hwa := h.writer_waits (by simp [hp])
    exact { h with
      lock := fun hw => nomatch hwa.symm.trans hw
      generation := by simp, current := by simp
      onNew := by simp, refused := by simpa [hp] using h.refused, batch := by simp }
  | opened hp =>
    have hwa := h.writer_waits (by simp [hp])
    exact { h with
      lock := fun hw => nomatch hwa.symm.trans hw
      generation := by simpa [hp] using h.generation
      current := by simp, onNew := by simp, refused := by simpa [hp] using h.refused
      unclosed := fun ho => ⟨(h.unclosed ho).1, (h.unclosed ho).2.1, rfl⟩ }
  | openFailed hp => exact h.exit rfl (by simp [hp]) (by simp) (by simp [hp])
  | checked hp _ =>
    have hwa := h.writer_waits (by simp [hp])
    exact h.replayed _ (fun _ => hwa) (by simp [hp]) (by simp [hp]) (by simp [hp])
  | replayed hp =>
    have hwa := h.writer_waits (by simp [hp])
    have hn := h.replayed .written (fun _ => hwa) (by simp [hp]) (by simp [hp]) (by simp [hp])
    exact hn.onSecond fun ho => (h.unclosed ho).2.2
  | replayFailed hp =>
    have hsec := h.onSecond (w := s.second.fail) fun ho => (h.unclosed ho).2.2
    refine hsec.exit rfl ?_ (by simp) ?_
    · rcases hp with hp | hp | hp <;> simp [hp]
    · rcases hp with hp | hp | hp <;> simp [hp]
  | replayClosed hp hc =>
    have hsec := h.onSecond (w := s.second.close) fun ho => by simp [hc] at ho
    exact hsec.exit rfl (by simp [hp]) (by simp [hp]) (by simp [hp])
  | replayDone hp _ =>
    exact h.exit rfl (by simp [hp]) (by simp [hp]) (by simp [hp])
  | budget _ => exact { h with }

end Order

/-! ## The copies and the budget -/

structure Accounts (total : Nat) (s : State) : Prop where
  sound : s.copies.Sound maxOptimisticCopies total s.takenReservations.sum s.budget
  taken : s.replay.holds = false → s.takenReservations = []
  untaken : s.replay.took = false → s.takenReservations = []

namespace Accounts

variable {total : Nat}

theorem start (budget : Budget) : Accounts (budget.available + budget.others) { budget } :=
  ⟨.start budget, fun _ => rfl, fun _ => rfl⟩

variable (h : Accounts total s)
include h

theorem same (hc : s'.copies = s.copies) (hb : s'.budget = s.budget)
    (ht : s'.takenReservations = s.takenReservations) (hrep : s'.replay = s.replay) : Accounts total s' := by
  refine ⟨?_, ?_, ?_⟩
  · rw [hc, hb, ht]
    exact h.sound
  · rw [ht, hrep]
    exact h.taken
  · rw [ht, hrep]
    exact h.untaken

theorem keep {p : Bytes} {copies : Copies} {budget : Budget}
    (hkeep : Optimistic.keep maxFrameSize p s.copies s.budget = some (copies, budget)) :
    Accounts total { s with copies, budget } := by
  unfold Optimistic.keep at hkeep
  split_ifs at hkeep with hk
  · exact { h with sound := h.sound.add hk.1 hkeep }
  · cases hkeep
    exact h

theorem settle (hk : s.copies.keeping = true) :
    Accounts total { s with
      copies := (releaseCopies s.copies s.budget).1
      budget := (releaseCopies s.copies s.budget).2 } := by
  simp only [releaseCopies, hk, Bool.true_eq_false, if_false]
  exact { h with sound := h.sound.settle }

theorem taken_copies (b : Budget) : releaseCopies { s.copies with reservations := [] } b = (.settled, b) := by
  unfold releaseCopies
  cases hk : s.copies.keeping with
  | true => rfl
  | false =>
    rw [h.sound.released hk]
    rfl

theorem before (hnil : s.takenReservations = []) (replay : Replay) : Accounts total { s with replay } :=
  { h with taken := fun _ => hnil, untaken := fun _ => hnil }

theorem during (replay : Replay) (hh : replay.holds = true) (ht : replay.took = true) :
    Accounts total { s with replay } :=
  { h with
    taken := fun hn => nomatch hh.symm.trans hn
    untaken := fun hn => nomatch ht.symm.trans hn }

theorem exit (r : Replay) : Accounts total (s.exit r) := by
  refine ⟨{ h.sound with balanced := ?_ }, fun _ => rfl, fun _ => rfl⟩
  simpa using h.sound.balanced.releaseAll

theorem encode (p : Bytes) : Accounts total (s.encode maxFrameSize p) := by
  unfold State.encode
  split_ifs
  · exact h.same rfl rfl rfl rfl
  · exact h.same rfl rfl rfl rfl

theorem moves (ho : Order s) (hm : Moves maxFrameSize s s') : Accounts total s' := by
  cases hm with
  | encoded _ hke => exact (h.keep hke).encode _
  | parked _ _ | skipped _ _ | beginWrite _ _ | wrote _ _ | writeFailed _ _ | writeStopped _ _
  | beginClose _ _ _ _ | closed _ _ | closeFailed _ _ | closeStopped _ _ | resumedClose _ _
  | resumedWrite _ _ | stopped _ | accepted _ | ended => exact h.same rfl rfl rfl rfl
  | woken _ _ => exact h.encode _
  | @gaveUp c _ =>
    cases c
    · exact h.same rfl rfl rfl rfl
    · exact h.same rfl rfl rfl rfl
  | refused hd =>
    have hi : s.replay = .idle := ho.refused.mpr (by simp [hd])
    exact { h.before (h.taken (by simp [hi])) .refused with }
  | settled hk _ => exact h.settle hk
  | cancelled hp => exact { h.before (h.taken (by simp [hp])) .cancelled with }
  | locked hp _ => exact h.before (h.taken (by simp [hp])) .locked
  | switched hp =>
    have hnil : s.takenReservations = [] := h.untaken (by simp [hp])
    have hbal := h.sound.balanced
    rw [hnil] at hbal
    rw [h.taken_copies]
    refine ⟨.settled ?_, by simp, by simp⟩
    simpa using hbal
  | opened _ => exact { h.during .opened rfl rfl with }
  | openFailed _ => exact h.exit _
  | checked _ _ => exact h.during .checked rfl rfl
  | replayed _ => exact { h.during .written rfl rfl with }
  | replayFailed _ => exact (h.exit .failed).same rfl rfl rfl rfl
  | replayClosed _ _ => exact (h.exit .done).same rfl rfl rfl rfl
  | replayDone _ _ => exact h.exit _
  | budget hb => exact { h with sound := { h.sound with balanced := hb _ _ h.sound.balanced } }

end Accounts

/-! ## Delivery -/

structure Delivery (s : State) : Prop where
  kept : s.copies.keeping = true → s.generation = .optimistic ∧ s.copies.kept = s.encoded
  settled : s.generation = .optimistic → s.copies.keeping = false → s.decided = some false ∨ s.ended = true
  first : s.generation = .optimistic → s.first.failed = false →
    s.first.received ++ s.unsent = .request true :: s.encoded.map .message
  taken : s.replay = .switched ∨ s.replay = .opened → s.ended = false → s.taken ++ s.pending = s.encoded
  checked : s.replay = .checked → s.taken ++ s.pending = s.encoded
  fresh : s.replay = .opened ∨ s.replay = .checked → s.second.received = []
  second : s.replay = .written ∨ s.replay = .done → s.second.failed = false →
    s.second.received ++ s.pending.map .message = .request false :: s.encoded.map .message
  firstClosed : s.generation = .optimistic → s.first.failed = false → s.closed = true →
    s.writer = .closing ∨ s.first.closed = true
  secondClosed : s.replay = .done → s.second.failed = false → s.closed = true →
    s.writer = .closing ∨ s.second.closed = true

namespace Delivery

attribute [local simp] State.pending

theorem start (budget : Budget) : Delivery { budget } := by
  constructor <;> simp [State.unsent]

variable (h : Delivery s)
include h

theorem writer (writer : Writer) (hclosing : s.closed = true → s.writer ≠ .closing) : Delivery { s with writer } :=
  { h with
    firstClosed := fun hg hf hc =>
      .inr ((h.firstClosed hg hf hc).resolve_left (hclosing hc))
    secondClosed := fun hd hf hc =>
      .inr ((h.secondClosed hd hf hc).resolve_left (hclosing hc)) }

theorem failed (ho : Order s) (writer : Writer) (f : Wire Frame → Wire Frame)
    (hf : ∀ w, (f w).failed = true) (hr : s.replay.holds = false ∨ ∀ w, (f w).received = w.received) :
    Delivery { s.onStream f with writer } := by
  have hfi (hg : s.generation = .optimistic) : (s.onStream f).first.failed = true := by
    simp [ho.optimistic hg, hf]
  have hsec (hnew : s.replay.onNew = true) : (s.onStream f).second.failed = true := by
    simp [ho.onNew hnew, hf]
  refine { h with first := ?_, fresh := ?_, second := ?_, firstClosed := ?_, secondClosed := ?_ }
  · intro hg hok
    exact absurd ((hfi hg).symm.trans hok) (by decide)
  · intro hp
    have hh : s.replay.holds = true := by
      rcases hp with hp | hp <;> simp [show s.replay = _ from hp]
    simp only [State.onStream]
    split_ifs
    · exact (hr.resolve_left (fun hn => nomatch hh.symm.trans hn) _).trans (h.fresh hp)
    · exact h.fresh hp
  · intro hp hok
    have hnew : s.replay.onNew = true := by
      rcases hp with hp | hp <;> simp [show s.replay = _ from hp]
    exact absurd ((hsec hnew).symm.trans hok) (by decide)
  · intro hg hok
    exact absurd ((hfi hg).symm.trans hok) (by decide)
  · intro hp hok
    have hnew : s.replay.onNew = true := by simp [show s.replay = _ from hp]
    exact absurd ((hsec hnew).symm.trans hok) (by decide)

theorem stop (ho : Order s) : Delivery s.stop :=
  h.failed ho .stopped Wire.fail (fun _ => rfl) (.inr fun _ => rfl)

theorem encode (ho : Order s) (hc : s.closed = false) {payload : Bytes} {copies : Copies} {budget : Budget}
    (hkeep : copies.keeping = true → s.generation = .optimistic ∧
      copies.kept = if maxFrameSize < payload.length then s.encoded else s.encoded ++ [payload])
    (hset : copies.keeping = s.copies.keeping) :
    Delivery ({ s with copies, budget }.encode maxFrameSize payload) := by
  unfold State.encode
  split_ifs with hl
  · refine { h.stop ho with kept := fun hk => ?_, settled := fun hg hn => ?_ }
    · obtain ⟨hg, heq⟩ := hkeep hk
      rw [if_pos hl] at heq
      exact ⟨hg, heq⟩
    · exact h.settled hg (hset ▸ hn)
  · have hpe : State.pending { s with
        copies, budget, writer := .idle, batch := s.batch ++ [⟨payload, s.generation⟩]
        encoded := s.encoded ++ [payload] } = s.pending ++ [payload] := by
      simp
    constructor
    · intro hk
      simpa [hl] using hkeep hk
    · intro hg hn
      exact h.settled hg (hset ▸ hn)
    · intro hg hok
      have hf := h.first hg hok
      simp only [State.unsent] at hf ⊢
      rw [hpe]
      simp only [List.map_append, ← List.append_assoc, ← List.cons_append] at hf ⊢
      rw [hf]
    · intro hp hen
      rw [hpe, ← List.append_assoc, h.taken hp hen]
    · intro hp
      rw [hpe, ← List.append_assoc, h.checked hp]
    · exact h.fresh
    · intro hp hok
      rw [hpe, List.map_append, ← List.append_assoc, h.second hp hok]
      simp
    · simp [hc]
    · simp [hc]

theorem wrote (hn : s.generation = .optimistic → s.unsent = []) (hp : s.pending = [])
    (hc : s.closed = true → s.writer ≠ .closing) : Delivery s.wrote := by
  have hw := h.writer .idle hc
  have hp' : s.wrote.pending = s.pending := by
    rw [hp]
    rfl
  refine { hw with first := fun hg hok => ?_, taken := ?_, checked := ?_, second := ?_ }
  · have hf := h.first hg hok
    rw [hn hg] at hf
    exact hf
  · rw [hp']
    exact h.taken
  · rw [hp']
    exact h.checked
  · rw [hp']
    exact h.second

theorem sent (ho : Order s) (hw : s.writer = .writing) : Delivery (s.onStream (·.write s.unsent)).wrote := by
  have hl := ho.lock (by simp [hw])
  have hc := ho.not_closed (by simp [hw])
  have hp {p : Replay} (heq : s.replay = p) (hh : p.holds = true) : False := by
    rw [heq] at hl
    exact nomatch hh.symm.trans hl
  refine ⟨h.kept, h.settled, ?_, ?_, ?_, ?_, ?_, ?_, ?_⟩
  · intro hg hok
    have hcur := ho.optimistic hg
    simp only [State.wrote, State.onStream, hcur, if_true] at hok ⊢
    simpa [State.unsent] using h.first hg hok
  · rintro (heq | heq)
    · exact (hp heq rfl).elim
    · exact (hp heq rfl).elim
  · intro heq
    exact (hp heq rfl).elim
  · rintro (heq | heq)
    · exact (hp heq rfl).elim
    · exact (hp heq rfl).elim
  · rintro (heq | hd) hok
    · exact (hp heq rfl).elim
    · replace hd : s.replay = .done := hd
      have hcur := ho.onNew (by simp [hd])
      have hg := ho.generation.mpr (by simp [hd])
      simp only [State.wrote, State.onStream, hcur, if_true] at hok ⊢
      simpa [State.unsent, hg] using h.second (.inr hd) hok
  · simp [State.wrote, hc]
  · simp [State.wrote, hc]

theorem closes (ho : Order s) : Delivery { s.onStream Wire.close with writer := .finished } := by
  have hf : (s.onStream Wire.close).first.received = s.first.received ∧
      (s.onStream Wire.close).first.failed = s.first.failed := by
    simp only [State.onStream]
    split_ifs <;> exact ⟨rfl, rfl⟩
  have hsec : (s.onStream Wire.close).second.received = s.second.received ∧
      (s.onStream Wire.close).second.failed = s.second.failed := by
    simp only [State.onStream]
    split_ifs <;> exact ⟨rfl, rfl⟩
  refine ⟨h.kept, h.settled, ?_, h.taken, h.checked, ?_, ?_, ?_, ?_⟩
  · intro hg hok
    have heq := h.first hg (hf.2 ▸ hok)
    rw [← hf.1] at heq
    exact heq
  · intro hp
    exact hsec.1.trans (h.fresh hp)
  · intro hp hok
    have heq := h.second hp (hsec.2 ▸ hok)
    rw [← hsec.1] at heq
    exact heq
  · intro hg _ _
    right
    simp [ho.optimistic hg]
  · intro hd _ _
    right
    simp [ho.onNew (by simp [show s.replay = .done from hd])]

theorem moves (ho : Order s) (hmoves : Moves maxFrameSize s s') : Delivery s' := by
  cases hmoves with
  | @encoded payload copies budget hi hkp =>
    have hc := ho.not_closed (by simp [hi])
    unfold keep at hkp
    split_ifs at hkp with hk
    · obtain ⟨had, hs⟩ := Copies.add_kept hkp
      refine h.encode ho hc (fun hk' => ?_) hs
      obtain ⟨hg, hke⟩ := h.kept hk.1
      rw [if_neg (Nat.not_lt.mpr hk.2), had, hke]
      exact ⟨hg, rfl⟩
    · cases hkp
      refine h.encode ho hc (fun hk' => ?_) rfl
      obtain ⟨hg, hke⟩ := h.kept hk'
      rw [if_pos (Nat.lt_of_not_le fun hle => hk ⟨hk', hle⟩)]
      exact ⟨hg, hke⟩
  | parked hi _ => exact h.writer _ (by simp [hi])
  | woken hpar hset =>
    refine h.encode ho (ho.not_closed (by simp [hpar])) ?_ rfl
    simp [hset]
  | skipped hi hn =>
    have hpe : s.pending = [] := by
      rw [State.unsent, List.append_eq_nil_iff] at hn
      exact List.map_eq_nil_iff.mp hn.2
    exact h.wrote (fun _ => hn) hpe (by simp [hi])
  | beginWrite hi _ => exact h.writer _ (by simp [hi])
  | wrote hw _ => exact h.sent ho hw
  | @writeFailed i hw _ =>
    have hl := ho.lock (by simp [hw])
    exact h.failed ho _ (fun w => (w.write i).fail) (fun _ => rfl) (.inl hl)
  | @writeStopped i hw _ =>
    have hl := ho.lock (by simp [hw])
    have hf := h.failed ho s.writer (fun w => (w.write i).fail) (fun _ => rfl) (.inl hl)
    exact hf.stop (ho.onStream (fun w => (w.write i).fail) (fun _ => rfl) (fun _ _ => rfl))
  | beginClose hi hhead hbatch _ =>
    exact { h with firstClosed := fun _ _ _ => .inl rfl, secondClosed := fun _ _ _ => .inl rfl }
  | closed _ _ => exact h.closes ho
  | closeFailed _ _ | closeStopped _ _ => exact h.failed ho _ Wire.fail (fun _ => rfl) (.inr fun _ => rfl)
  | @gaveUp c ha =>
    cases c
    · exact h.stop ho
    · exact h.writer _ (by simp [ha])
  | resumedClose ha hdo => exact h.writer _ (by simp [ha])
  | resumedWrite ha hdo =>
    have hg := ho.generation.mpr (by simp [hdo])
    have hpe : s.pending = [] := by
      rw [State.pending, List.map_eq_nil_iff, List.filter_eq_nil_iff]
      intro m hm
      simp [(ho.awaiting _ ha).2 m hm, hg]
    exact h.wrote (by simp [hg]) hpe (by simp [ha])
  | stopped _ => exact h.stop ho
  | accepted hd => exact { h with settled := fun _ _ => .inl rfl }
  | refused hd =>
    refine { h with
      settled := fun hg hn => .inr ?_, taken := by simp, checked := by simp, fresh := by simp
      second := by simp, secondClosed := by simp }
    simpa [hd] using h.settled hg hn
  | settled hk hwhy =>
    refine { h with kept := ?_, settled := fun _ _ => hwhy }
    simp [releaseCopies, hk]
  | ended => exact { h with settled := fun _ _ => .inr rfl, taken := by simp }
  | cancelled hp =>
    exact { h with
      first := by simp, taken := by simp, checked := by simp, fresh := by simp, second := by simp
      firstClosed := by simp, secondClosed := by simp }
  | locked hp _ =>
    exact { h with taken := by simp, checked := by simp, fresh := by simp, second := by simp, secondClosed := by simp }
  | switched hp =>
    -- The copies are complete, unless the call ended.
    have hg : s.generation = .optimistic := by
      cases hrep : s.generation with
      | optimistic => rfl
      | replay => simpa [hp] using ho.generation.mp hrep
    have hd : s.decided = some true := by
      by_contra hd
      simpa [hp] using ho.refused.mpr hd
    have hke (hen : s.ended = false) : s.copies.kept = s.encoded := by
      cases hk : s.copies.keeping with
      | true => exact (h.kept hk).2
      | false => simpa [hd, hen] using h.settled hg hk
    have hpe : s.batch.filter (·.generation = .replay) = [] := by
      rw [List.filter_eq_nil_iff]
      intro m hm
      simp [ho.batch hg m hm]
    refine { h with
      kept := ?_, settled := by simp, first := by simp, taken := fun _ hen => ?_, checked := by simp, fresh := by simp
      second := by simp, firstClosed := by simp, secondClosed := by simp }
    · cases hk : s.copies.keeping <;> simp [releaseCopies, hk]
    · simp [hpe, hke hen]
  | opened hp =>
    exact { h with
      taken := fun _ => h.taken (.inl hp), checked := by simp, fresh := fun _ => rfl, second := by simp
      secondClosed := by simp }
  | openFailed hp | replayFailed hp =>
    exact { h with taken := by simp, checked := by simp, fresh := by simp, second := by simp, secondClosed := by simp }
  | checked hp hen =>
    exact { h with
      taken := by simp, checked := fun _ => h.taken (.inr hp) hen, fresh := fun _ => h.fresh (.inl hp)
      second := by simp, secondClosed := by simp }
  | replayed hp =>
    refine { h with
      taken := by simp, checked := by simp, fresh := by simp, second := fun _ _ => ?_
      secondClosed := by simp }
    rw [← h.checked hp, Wire.write_received, h.fresh (.inr hp)]
    simp
  | replayClosed hp _ =>
    exact { h with
      taken := by simp, checked := by simp, fresh := by simp
      second := fun _ => h.second (.inl hp), secondClosed := fun _ _ _ => .inr rfl }
  | replayDone hp hc =>
    exact { h with
      taken := by simp, checked := by simp, fresh := by simp
      second := fun _ => h.second (.inl hp), secondClosed := by simp [hc] }
  | budget _ => exact { h with }

end Delivery

end TrevRpc.Go.Optimistic
