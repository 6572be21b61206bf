import Mathlib.Data.Finset.Card
import Mathlib.Logic.Function.Basic
import TrevRpc.Lib.Run

/-!
# The draining stream of the Go server (`draining_stream.go`)

After the response a drain takes over the request side. A step is one section under the lock, or one call outside it.
-/

open TrevRpc.Run

namespace TrevRpc.Go.DrainingStream

inductive ReadError
  | eof
  | deadlineExceeded
  | aborted
  | other
  deriving DecidableEq

-- One call of each method, with the sections it has behind it.

inductive Read
  | idle
  | reading
  | read (n : Nat) (err : Option ReadError)
  | returned (n : Nat) (err : Option ReadError)
  deriving DecidableEq

inductive CancelRead
  | idle
  | first
  | interrupted
  | marked
  | returned
  deriving DecidableEq

inductive Close
  | idle
  | closed
  | returned
  deriving DecidableEq

inductive SetDeadline
  | idle
  | allowed
  | returned
  deriving DecidableEq

/-- The goroutine that `maybeDrainLocked` starts. -/
inductive Drain
  | none
  | waiting
  | ready
  | copying (discarded : Nat)
  | finished (eof : Bool)
  deriving DecidableEq

structure State where
  readers : Nat := 0
  aborted : Bool := false
  unblocked : Bool := false
  sendClosed : Bool := false
  readEnded : Bool := false
  draining : Bool := false
  reads : Nat → Read := fun _ => .idle
  cancels : Nat → CancelRead := fun _ => .idle
  closes : Nat → Close := fun _ => .idle
  deadlines : Nat → SetDeadline := fun _ => .idle
  drain : Drain := .none
  /-- How many drains were started. -/
  drains : Nat := 0
  /-- How often `stopReading` was called. -/
  stops : Nat := 0
  hasDeadline : Bool := false
  /-- A read ended the stream: EOF, or an error that is no deadline. -/
  ended : Bool := false

inductive Action
  | readEnters (i : Nat)
  | readReturns (i : Nat) (n : Nat) (err : Option ReadError)
  | readLeaves (i : Nat)
  | cancelMarks (i : Nat)
  | cancelInterrupts (i : Nat)
  | cancelUnblocks (i : Nat)
  | cancelDrains (i : Nat)
  | closeSends (i : Nat)
  | closeDrains (i : Nat)
  | deadlineChecks (i : Nat)
  | deadlineSets (i : Nat) (set : Bool)
  | drainIsAlone
  | drainSetsDeadline
  | drainReads (n : Nat) (err : Option ReadError)
  | drainReachesLimit
  deriving DecidableEq

def State.maybeDrainLocked (s : State) : State :=
  if s.draining || !s.unblocked || !s.sendClosed || s.readEnded then s
  else { s with draining := true, drain := .waiting, drains := s.drains + 1 }

def State.canReturn (s : State) (err : Option ReadError) : Bool :=
  match err with
  | some .deadlineExceeded => s.hasDeadline
  | some .aborted => false
  | _ => true

def State.drainEnds (limit discarded : Nat) (err : Option ReadError) (s : State) : State :=
  if err = none ∧ discarded ≤ limit then { s with drain := .finished true }
  else { s with drain := .finished false, stops := s.stops + 1 }

def step (limit : Nat) (s : State) : Action → Option State
  | .readEnters i =>
    if s.reads i = .idle then
      if s.aborted then
        some { s with reads := Function.update s.reads i (.returned 0 (some .aborted)) }
      else
        some { s with readers := s.readers + 1, reads := Function.update s.reads i .reading }
    else none
  | .readReturns i n err =>
    if s.reads i = .reading ∧ s.canReturn err = true then
      some { s with
        reads := Function.update s.reads i (.read n err)
        ended := s.ended || (err ≠ none && err ≠ some .deadlineExceeded) }
    else none
  | .readLeaves i =>
    match s.reads i with
    | .read n err =>
      let returned := if err ≠ none ∧ s.aborted = true ∧ err ≠ some .eof then some .aborted else err
      some { s with
        readers := s.readers - 1
        readEnded := s.readEnded || err.isSome
        reads := Function.update s.reads i (.returned n returned) }
    | _ => none
  | .cancelMarks i =>
    if s.cancels i = .idle then
      some { s with
        aborted := true
        cancels := Function.update s.cancels i (if s.aborted then .marked else .first) }
    else none
  | .cancelInterrupts i =>
    if s.cancels i = .first then
      some { s with hasDeadline := true, cancels := Function.update s.cancels i .interrupted }
    else none
  | .cancelUnblocks i =>
    if s.cancels i = .interrupted then
      some { s with unblocked := true, cancels := Function.update s.cancels i .marked }
    else none
  | .cancelDrains i =>
    if s.cancels i = .marked then
      some { s.maybeDrainLocked with cancels := Function.update s.cancels i .returned }
    else none
  | .closeSends i =>
    if s.closes i = .idle then some { s with closes := Function.update s.closes i .closed } else none
  | .closeDrains i =>
    if s.closes i = .closed then
      some { State.maybeDrainLocked { s with sendClosed := true } with
        closes := Function.update s.closes i .returned }
    else none
  | .deadlineChecks i =>
    if s.deadlines i = .idle then
      some { s with
        deadlines := Function.update s.deadlines i (if s.aborted then .returned else .allowed) }
    else none
  | .deadlineSets i set =>
    -- The zero time takes the deadline away.
    if s.deadlines i = .allowed then
      some { s with hasDeadline := set, deadlines := Function.update s.deadlines i .returned }
    else none
  | .drainIsAlone =>
    if s.drain = .waiting ∧ s.readers = 0 then some { s with drain := .ready } else none
  | .drainSetsDeadline =>
    -- A shutdown only moves this deadline.
    if s.drain = .ready then some { s with drain := .copying 0, hasDeadline := true } else none
  | .drainReads n err =>
    match s.drain with
    | .copying discarded =>
      -- `LimitReader` passes on at most what is left of the limit and one byte.
      if discarded < limit + 1 ∧ discarded + n ≤ limit + 1 ∧ s.canReturn err = true then
        match err with
        | none => some { s with drain := .copying (discarded + n) }
        | some .eof => some (s.drainEnds limit (discarded + n) none)
        | some err => some (s.drainEnds limit (discarded + n) (some err))
      else none
    | _ => none
  | .drainReachesLimit =>
    match s.drain with
    | .copying discarded =>
      if discarded < limit + 1 then none else some (s.drainEnds limit discarded none)
    | _ => none

def newDrainingStream : State := {}

/-! ## What the stream promises -/

structure Quiescent (s : State) : Prop where
  cancelled : ∃ i, s.cancels i = .returned
  closed : ∃ i, s.closes i = .returned
  reads : ∀ i, s.reads i = .idle ∨ ∃ n err, s.reads i = .returned n err
  cancels : ∀ i, s.cancels i = .idle ∨ s.cancels i = .returned
  closes : ∀ i, s.closes i = .idle ∨ s.closes i = .returned

/-- An aborted request side is drained unless it had ended, to its end or until the peer is stopped. -/
def Disposes (s : State) : Prop :=
  (Quiescent s → s.draining = true ∨ s.ended = true) ∧
    ∀ eof, s.drain = .finished eof → eof = true ∨ 0 < s.stops

/-- A read that a deadline failed returns only once the drain has started, or another read has ended the side. -/
def NotByDeadline (s : State) : Action → Prop
  | .readLeaves i =>
    ∀ n, s.reads i = .read n (some .deadlineExceeded) → s.draining = true ∨ s.ended = true
  | _ => True

/-! ## The invariant -/

structure Inv (s : State) : Prop where
  read_ended : ∀ i n err, s.reads i = .read n (some err) → err ≠ .deadlineExceeded → s.ended = true
  readEnded : s.readEnded = true → s.draining = true ∨ s.ended = true
  aborted : ∀ i, s.cancels i ≠ .idle → s.aborted = true
  unblocked : s.aborted = true →
    s.unblocked = true ∨ ∃ i, s.cancels i = .first ∨ s.cancels i = .interrupted
  sendClosed : ∀ i, s.closes i = .returned → s.sendClosed = true
  drains : s.unblocked = true → s.sendClosed = true →
    s.draining = true ∨ s.readEnded = true ∨ ∃ i, s.cancels i = .marked
  finished : ∀ eof, s.drain = .finished eof → eof = true ∨ 0 < s.stops

variable {limit : Nat} {s s' : State} {a : Action}

theorem inv_new : Inv newDrainingStream := by
  constructor <;> simp [newDrainingStream]

variable {i : Nat} (h : Inv s)
include h

theorem inv_setRead {readers : Nat} {r : Read} {ended : Bool}
    (hended : s.ended = true → ended = true)
    (hr : ∀ n err, r = .read n (some err) → err ≠ .deadlineExceeded → ended = true) :
    Inv { s with readers, ended, reads := Function.update s.reads i r } where
  __ := h
  read_ended := by
    intro j n err hj hne
    by_cases hij : j = i
    · subst hij
      simp only [Function.update_self] at hj
      exact hr n err hj hne
    · simp only [Function.update_of_ne hij] at hj
      exact hended (h.read_ended j n err hj hne)
  readEnded := fun hre => (h.readEnded hre).imp_right hended

theorem inv_readLeaves (hok : NotByDeadline s (.readLeaves i))
    (hs : step limit s (.readLeaves i) = some s') : Inv s' := by
  simp only [step] at hs
  split at hs
  · rename_i n err hr
    cases hs
    have hset : Inv { s with readers := s.readers - 1, reads := Function.update s.reads i (.returned n
        (if err ≠ none ∧ s.aborted = true ∧ err ≠ some .eof then some .aborted else err)) } :=
      inv_setRead h id (by simp)
    refine { hset with readEnded := fun hre => ?_, drains := fun hu hc => ?_ }
    · cases err with
      | none => exact h.readEnded (by simpa using hre)
      | some err =>
        by_cases hdl : err = .deadlineExceeded
        · subst hdl
          exact hok n hr
        · exact .inr (h.read_ended i n err hr hdl)
    · rcases h.drains hu hc with hd | hre | hm
      · exact .inl hd
      · exact .inr (.inl (by simp [hre]))
      · exact .inr (.inr hm)
  · cases hs

theorem inv_setCancel {c : CancelRead} {unblocked hasDeadline : Bool}
    (haborted : s.aborted = true) (hunblocked : s.unblocked = true → unblocked = true)
    (hunblock : unblocked = true ∨ c = .first ∨ c = .interrupted ∨
      (s.cancels i ≠ .first ∧ s.cancels i ≠ .interrupted))
    (hdrain : unblocked = true → s.sendClosed = true →
      s.draining = true ∨ s.readEnded = true ∨ c = .marked ∨
        (s.unblocked = true ∧ s.cancels i ≠ .marked)) :
    Inv { s with unblocked, hasDeadline, cancels := Function.update s.cancels i c } where
  __ := h
  aborted := fun _ _ => haborted
  unblocked := by
    intro _
    rcases hunblock with hu | hc | hc | ⟨hf, hi⟩
    · exact .inl hu
    · exact .inr ⟨i, .inl (by simp [hc])⟩
    · exact .inr ⟨i, .inr (by simp [hc])⟩
    · rcases h.unblocked haborted with hu | ⟨j, hj⟩
      · exact .inl (hunblocked hu)
      · have hij : j ≠ i := by
          rintro rfl
          rcases hj with hj | hj
          · exact hf hj
          · exact hi hj
        exact .inr ⟨j, by simpa [hij] using hj⟩
  drains := by
    intro hu hc
    rcases hdrain hu hc with hd | hre | hm | ⟨hu', hm⟩
    · exact .inl hd
    · exact .inr (.inl hre)
    · exact .inr (.inr ⟨i, by simp [hm]⟩)
    · rcases h.drains hu' hc with hd | hre | ⟨j, hj⟩
      · exact .inl hd
      · exact .inr (.inl hre)
      · have hij : j ≠ i := by
          rintro rfl
          exact hm hj
        exact .inr (.inr ⟨j, by simpa [hij] using hj⟩)

theorem inv_cancelMarks (hs : step limit s (.cancelMarks i) = some s') : Inv s' := by
  obtain ⟨hi, rfl⟩ := of_guard hs
  cases hab : s.aborted with
  | true =>
    have hset : Inv { s with cancels := Function.update s.cancels i .marked } :=
      inv_setCancel h hab id (by simp [hi]) (by simp)
    exact { hset with aborted := fun _ _ => rfl, unblocked := fun _ => hset.unblocked hab }
  | false =>
    -- Nobody has aborted before, so nobody else is on the way to unblock or to drain.
    have hn : ∀ j, s.cancels j = .idle := by
      intro j
      by_contra hj
      simp [h.aborted j hj] at hab
    refine { h with aborted := fun _ _ => rfl, unblocked := fun _ => .inr ⟨i, by simp⟩, drains := fun hu hc => ?_ }
    rcases h.drains hu hc with hd | hre | ⟨j, hj⟩
    · exact .inl hd
    · exact .inr (.inl hre)
    · simp [hn j] at hj

theorem inv_cancelDrains (hs : step limit s (.cancelDrains i) = some s') : Inv s' := by
  obtain ⟨hm, rfl⟩ := of_guard hs
  have hab : s.aborted = true := h.aborted i (by simp [hm])
  unfold State.maybeDrainLocked
  split_ifs with hc
  · refine inv_setCancel h hab id (by simp [hm]) fun hu hse => ?_
    have hno : s.draining = true ∨ s.readEnded = true := by simpa [hu, hse] using hc
    exact hno.imp_right .inl
  · have hdr : Inv { s with draining := true, drain := .waiting, drains := s.drains + 1 } :=
      { h with readEnded := fun _ => .inl rfl, drains := fun _ _ => .inl rfl, finished := by simp }
    exact inv_setCancel hdr hab id (by simp [hm]) fun _ _ => .inl rfl

theorem inv_closeDrains (hs : step limit s (.closeDrains i) = some s') : Inv s' := by
  obtain ⟨-, rfl⟩ := of_guard hs
  unfold State.maybeDrainLocked
  split_ifs with hc
  · refine { h with sendClosed := fun _ _ => rfl, drains := fun hu _ => ?_ }
    have hno : s.draining = true ∨ s.readEnded = true := by simpa [show s.unblocked = true from hu] using hc
    exact hno.imp_right .inl
  · exact { h with
      readEnded := fun _ => .inl rfl, sendClosed := fun _ _ => rfl, drains := fun _ _ => .inl rfl, finished := by simp }

theorem inv_drainEnds {d : Nat} {err : Option ReadError} : Inv (s.drainEnds limit d err) := by
  unfold State.drainEnds
  split_ifs
  · exact { h with finished := fun eof he => .inl (by cases he; rfl) }
  · exact { h with finished := fun eof _ => .inr (Nat.succ_pos _) }

theorem inv_step (hok : NotByDeadline s a) (hs : step limit s a = some s') : Inv s' := by
  cases a with
  | readLeaves i => exact inv_readLeaves h hok hs
  | cancelMarks i => exact inv_cancelMarks h hs
  | cancelDrains i => exact inv_cancelDrains h hs
  | closeDrains i => exact inv_closeDrains h hs
  | readEnters i =>
    simp only [step] at hs
    split_ifs at hs
    all_goals
      cases hs
      exact inv_setRead h id (by simp)
  | readReturns i n err =>
    obtain ⟨-, rfl⟩ := of_guard hs
    refine inv_setRead h (by simp +contextual) ?_
    intro m err' he hne
    cases he
    simp [hne]
  | cancelInterrupts i =>
    obtain ⟨hf, rfl⟩ := of_guard hs
    exact inv_setCancel h (h.aborted i (by simp [hf])) id (by simp)
      (fun hu _ => .inr (.inr (.inr ⟨hu, by simp [hf]⟩)))
  | cancelUnblocks i =>
    obtain ⟨hint, rfl⟩ := of_guard hs
    exact inv_setCancel h (h.aborted i (by simp [hint])) (fun _ => rfl) (.inl rfl)
      (fun _ _ => .inr (.inr (.inl rfl)))
  | closeSends i =>
    obtain ⟨-, rfl⟩ := of_guard hs
    refine { h with sendClosed := fun j hj => ?_ }
    by_cases hij : j = i
    · subst hij
      simp at hj
    · exact h.sendClosed j (by simpa [hij] using hj)
  | deadlineChecks i | deadlineSets i set =>
    obtain ⟨-, rfl⟩ := of_guard hs
    exact { h with }
  | drainIsAlone | drainSetsDeadline =>
    obtain ⟨-, rfl⟩ := of_guard hs
    exact { h with finished := by simp }
  | drainReads n err =>
    simp only [step] at hs
    split at hs
    · split_ifs at hs
      split at hs
      · cases hs
        exact { h with finished := by simp }
      · cases hs
        exact inv_drainEnds h
      · cases hs
        exact inv_drainEnds h
    · cases hs
  | drainReachesLimit =>
    simp only [step] at hs
    split at hs
    · split_ifs at hs
      cases hs
      exact inv_drainEnds h
    · cases hs

theorem disposes_of_inv : Disposes s := by
  refine ⟨fun hq => ?_, h.finished⟩
  obtain ⟨i, hi⟩ := hq.cancelled
  obtain ⟨j, hj⟩ := hq.closed
  have hun : s.unblocked = true := by
    rcases h.unblocked (h.aborted i (by simp [hi])) with hu | ⟨k, hk⟩
    · exact hu
    · rcases hq.cancels k with hk' | hk' <;> simp [hk'] at hk
  rcases h.drains hun (h.sendClosed j hj) with hd | hre | ⟨k, hk⟩
  · exact .inl hd
  · exact h.readEnded hre
  · rcases hq.cancels k with hk' | hk' <;> simp [hk'] at hk

omit h

/-! ## Whole runs -/

/-- Where no read fails on a deadline before the drain starts, an aborted request side is disposed of. -/
theorem drainingStream_disposes (limit : Nat) (actions : List Action)
    (hok : Along NotByDeadline (step limit) newDrainingStream actions) :
    Always (fun _ => Disposes) (step limit) newDrainingStream actions := by
  refine always_of_along (I := fun _ => Inv) inv_new ?_ ?_ hok
  · intro _ t h
    exact disposes_of_inv h
  · intro _ t a t' h hok hstep
    exact inv_step h hok hstep

/-- The abort interrupts a read, which leaves after `Close` has started the drain. -/
theorem drainingStream_disposes_late_read :
    let actions : List Action := [.readEnters 0, .cancelMarks 0, .cancelInterrupts 0,
      .readReturns 0 0 (some .deadlineExceeded), .cancelUnblocks 0, .cancelDrains 0,
      .closeSends 0, .closeDrains 0, .readLeaves 0]
    (∃ s, run (step 8) newDrainingStream actions = some s ∧ s.draining = true) ∧
      Always (fun _ => Disposes) (step 8) newDrainingStream actions :=
  ⟨⟨_, rfl, rfl⟩, drainingStream_disposes 8 _
    (by simp [Along, NotByDeadline, step, newDrainingStream, State.canReturn, State.maybeDrainLocked])⟩

theorem not_disposes (hq : Quiescent s) (hd : s.draining = false) (he : s.ended = false) :
    Quiescent s ∧ ¬ Disposes s := by
  refine ⟨hq, fun h => ?_⟩
  rcases h.1 hq with h | h
  · simp [hd] at h
  · simp [he] at h

theorem eq_or_eq_of_single {A : Type} {f : Nat → A} {first o : A} (h : f 0 = first)
    (hs : ∀ n, f (n + 1) = o) (i : Nat) : f i = o ∨ f i = first := by
  cases i with
  | zero => exact .inr h
  | succ n => exact .inl (hs n)

/-- The abort interrupts a read, whose deadline error counts as the end: nobody drains, and nobody stops the peer. -/
theorem drainingStream_interrupted_read_never_drains :
    ∃ s, run (step 8) newDrainingStream [.readEnters 0, .cancelMarks 0, .cancelInterrupts 0,
        .readReturns 0 0 (some .deadlineExceeded), .readLeaves 0, .cancelUnblocks 0, .cancelDrains 0,
        .closeSends 0, .closeDrains 0] = some s ∧
      (Quiescent s ∧ ¬ Disposes s) ∧ s.draining = false ∧ s.ended = false ∧ s.stops = 0 := by
  refine ⟨_, rfl, not_disposes ⟨⟨0, rfl⟩, ⟨0, rfl⟩, fun i => ?_, ?_, ?_⟩ rfl rfl, rfl, rfl, rfl⟩
  · exact (eq_or_eq_of_single rfl (fun _ => rfl) i).imp_right fun h => ⟨_, _, h⟩
  · exact eq_or_eq_of_single rfl fun _ => rfl
  · exact eq_or_eq_of_single rfl fun _ => rfl

/-! ## One reader at a time -/

def Read.inside : Read → Bool
  | .reading | .read .. => true
  | _ => false

def Drain.alone : Drain → Bool
  | .none | .waiting => false
  | _ => true

structure Alone (s : State) : Prop where
  readers : ∃ inside : Finset Nat, (∀ i, i ∈ inside ↔ (s.reads i).inside = true) ∧ inside.card = s.readers
  aborted : ∀ i, s.cancels i ≠ .idle → s.aborted = true
  unblocked : s.unblocked = true → s.aborted = true
  closed : s.sendClosed = true → ∃ i, s.closes i = .returned
  draining : s.draining = true → s.unblocked = true ∧ s.sendClosed = true
  drain : s.draining = false → s.drain = .none
  drains : s.drains = s.draining.toNat
  alone : s.drain.alone = true → s.readers = 0
  stops : s.stops ≤ 1 ∧ (s.stops = 1 → s.drain = .finished false)

namespace Alone

theorem new : Alone newDrainingStream where
  readers := ⟨∅, by simp [newDrainingStream, Read.inside], rfl⟩
  aborted _ h := absurd rfl h
  unblocked := nofun
  closed := nofun
  draining := nofun
  drain _ := rfl
  drains := rfl
  alone := nofun
  stops := ⟨Nat.zero_le _, nofun⟩

theorem started (h : Alone s) (ha : s.drain.alone = true) :
    s.draining = true ∧ s.aborted = true ∧ s.sendClosed = true := by
  have hd : s.draining = true := by
    by_contra hd
    simp [h.drain (by simpa using hd), Drain.alone] at ha
  obtain ⟨hu, hc⟩ := h.draining hd
  exact ⟨hd, h.unblocked hu, hc⟩

theorem maybeDrainLocked (h : Alone s) : Alone s.maybeDrainLocked := by
  unfold State.maybeDrainLocked
  split_ifs with hc
  · exact h
  · simp only [Bool.or_eq_true, Bool.not_eq_true', not_or, Bool.not_eq_true, Bool.not_eq_false] at hc
    obtain ⟨⟨⟨hd, hu⟩, hs⟩, -⟩ := hc
    refine { h with
      draining := fun _ => ⟨hu, hs⟩, drain := nofun, drains := ?_, alone := nofun
      stops := ⟨h.stops.1, fun hone => ?_⟩ }
    · simp [h.drains, hd]
    · have hfinished := h.stops.2 hone
      rw [h.drain hd] at hfinished
      cases hfinished

theorem setCancel (h : Alone s) (i : Nat) (c : CancelRead) {unblocked hasDeadline : Bool} (ha : s.aborted = true)
    (hu : s.unblocked = true → unblocked = true) :
    Alone { s with unblocked, hasDeadline, cancels := Function.update s.cancels i c } :=
  { h with
    aborted := fun _ _ => ha, unblocked := fun _ => ha
    draining := fun hd => ⟨hu (h.draining hd).1, (h.draining hd).2⟩ }

theorem setRead (h : Alone s) (i : Nat) {r : Read} {readEnded ended : Bool} (hr : r.inside = (s.reads i).inside) :
    Alone { s with readEnded, ended, reads := Function.update s.reads i r } := by
  obtain ⟨ins, hmem, hcard⟩ := h.readers
  refine { h with readers := ⟨ins, fun j => ?_, hcard⟩ }
  by_cases hj : j = i
  · subst hj
    simp [hmem, hr]
  · simp [hj, hmem]

theorem enters (h : Alone s) {i : Nat} (hi : s.reads i = .idle) (ha : s.aborted = false) :
    Alone { s with readers := s.readers + 1, reads := Function.update s.reads i .reading } := by
  obtain ⟨inside, hmem, hcard⟩ := h.readers
  have hnot : i ∉ inside := by simp [hmem, hi, Read.inside]
  refine { h with readers := ⟨insert i inside, fun j => ?_, ?_⟩, alone := fun halone => ?_ }
  · by_cases hj : j = i
    · subst hj
      simp [Read.inside]
    · simp [hj, hmem]
  · rw [Finset.card_insert_of_notMem hnot, hcard]
  · simp [(h.started halone).2.1] at ha

variable {err : Option ReadError}

theorem leaves (h : Alone s) {i n : Nat} {r : Option ReadError} {readEnded : Bool}
    (hi : s.reads i = .read n err) :
    Alone { s with
      readers := s.readers - 1, readEnded, reads := Function.update s.reads i (.returned n r) } := by
  obtain ⟨inside, hmem, hcard⟩ := h.readers
  have hin : i ∈ inside := by simp [hmem, hi, Read.inside]
  refine { h with readers := ⟨inside.erase i, fun j => ?_, ?_⟩, alone := fun halone => ?_ }
  · by_cases hj : j = i
    · subst hj
      simp [Read.inside]
    · simp [hj, hmem]
  · rw [Finset.card_erase_of_mem hin, hcard]
  · change s.readers - 1 = 0
    rw [h.alone halone]

theorem drainEnds (h : Alone s) {d n : Nat} (hd : s.drain = .copying d) : Alone (s.drainEnds limit n err) := by
  have halone : s.drain.alone = true := by simp [hd, Drain.alone]
  have hstops : s.stops = 0 := by
    by_contra hne
    have hf := h.stops.2 (Nat.le_antisymm h.stops.1 (Nat.pos_of_ne_zero hne))
    simp [hd] at hf
  unfold State.drainEnds
  split_ifs
  · exact { h with
      drain := fun hfalse => by simp [(h.started halone).1] at hfalse
      alone := fun _ => h.alone halone, stops := ⟨h.stops.1, fun h1 => by simp [hstops] at h1⟩ }
  · exact { h with
      drain := fun hfalse => by simp [(h.started halone).1] at hfalse
      alone := fun _ => h.alone halone, stops := ⟨by simp [hstops], fun _ => rfl⟩ }

theorem goesOn (h : Alone s) {drain : Drain} {hasDeadline : Bool} (hd : s.drain ≠ .none)
    (hs : s.drain ≠ .finished false)
    (ha : drain.alone = true → s.readers = 0) : Alone { s with drain, hasDeadline } where
  __ := h
  drain hfalse := absurd (h.drain hfalse) hd
  alone := ha
  stops := ⟨h.stops.1, fun h1 => absurd (h.stops.2 h1) hs⟩

theorem step (h : Alone s) (hs : step limit s a = some s') : Alone s' := by
  cases a with
  | readEnters i =>
    obtain ⟨hi, hs⟩ := Option.ite_none_right_eq_some.mp hs
    split_ifs at hs with ha
    · cases hs
      exact h.setRead i (by simp [hi, Read.inside])
    · cases hs
      exact h.enters hi (Bool.eq_false_iff.mpr ha)
  | readReturns i n err =>
    obtain ⟨⟨hi, -⟩, rfl⟩ := of_guard hs
    exact h.setRead i (by simp [hi, Read.inside])
  | readLeaves i =>
    simp only [DrainingStream.step] at hs
    split at hs
    · next n err hi =>
      cases hs
      exact h.leaves hi
    · cases hs
  | cancelMarks i =>
    obtain ⟨-, rfl⟩ := of_guard hs
    exact { h with aborted := fun _ _ => rfl, unblocked := fun _ => rfl }
  | cancelInterrupts i =>
    obtain ⟨hi, rfl⟩ := of_guard hs
    exact h.setCancel i _ (h.aborted i (by simp [hi])) id
  | cancelUnblocks i =>
    obtain ⟨hi, rfl⟩ := of_guard hs
    exact h.setCancel i _ (h.aborted i (by simp [hi])) fun _ => rfl
  | cancelDrains i =>
    obtain ⟨hi, rfl⟩ := of_guard hs
    have hset : Alone { s with cancels := Function.update s.cancels i .returned } :=
      h.setCancel i _ (h.aborted i (by simp [hi])) id
    have hm := hset.maybeDrainLocked
    unfold State.maybeDrainLocked at hm ⊢
    split_ifs at hm ⊢
    · exact hm
    · exact hm
  | closeSends i =>
    obtain ⟨hi, rfl⟩ := of_guard hs
    refine { h with closed := fun hc => ?_ }
    obtain ⟨j, hj⟩ := h.closed hc
    refine ⟨j, ?_⟩
    have hne : j ≠ i := by
      rintro rfl
      simp [hi] at hj
    simp [hne, hj]
  | closeDrains i =>
    obtain ⟨hi, rfl⟩ := of_guard hs
    have hclosed : Alone { s with sendClosed := true, closes := Function.update s.closes i .returned } :=
      { h with closed := fun _ => ⟨i, by simp⟩, draining := fun hd => ⟨(h.draining hd).1, rfl⟩ }
    have hm := hclosed.maybeDrainLocked
    unfold State.maybeDrainLocked at hm ⊢
    split_ifs at hm ⊢
    · exact hm
    · exact hm
  | deadlineChecks i =>
    obtain ⟨-, rfl⟩ := of_guard hs
    exact { h with }
  | deadlineSets i set =>
    obtain ⟨-, rfl⟩ := of_guard hs
    exact { h with }
  | drainIsAlone =>
    obtain ⟨⟨hd, hr⟩, rfl⟩ := of_guard hs
    exact h.goesOn (by simp [hd]) (by simp [hd]) fun _ => hr
  | drainSetsDeadline =>
    obtain ⟨hd, rfl⟩ := of_guard hs
    exact h.goesOn (by simp [hd]) (by simp [hd]) fun _ => h.alone (by simp [hd, Drain.alone])
  | drainReads n err =>
    simp only [DrainingStream.step] at hs
    split at hs
    · next d hd =>
      split_ifs at hs
      split at hs
      · cases hs
        exact h.goesOn (by simp [hd]) (by simp [hd]) fun _ => h.alone (by simp [hd, Drain.alone])
      · cases hs
        exact h.drainEnds hd
      · cases hs
        exact h.drainEnds hd
    · cases hs
  | drainReachesLimit =>
    simp only [DrainingStream.step] at hs
    split at hs
    · next d hd =>
      split_ifs at hs
      cases hs
      exact h.drainEnds hd
    · cases hs

end Alone

/-- The peer is stopped safely, and the underlying stream has one reader at a time. -/
structure OneReader (limit : Nat) (s : State) : Prop where
  stopsOnce : s.stops ≤ 1
  stopsLate : 0 < s.stops → s.sendClosed = true ∧ ∃ i, s.closes i = .returned
  drainsOnce : s.drains ≤ 1
  exclusive : ∀ discarded, s.drain = .copying discarded → ∀ i, (s.reads i).inside = false
  -- Once the drain is the only reader, a `Read` returns without reading.
  aborted : s.drain.alone = true → ∀ i s', step limit s (.readEnters i) = some s' →
    s'.reads i = .returned 0 (some .aborted)

theorem drainingStream_has_one_reader (limit : Nat) (actions : List Action) {s : State}
    (h : run (step limit) newDrainingStream actions = some s) : OneReader limit s := by
  have hinv : Alone s := run_induction (P := fun _ => Alone) .new (fun _ _ _ _ hinv hs => hinv.step hs) h
  have hzero (ha : s.drain.alone = true) (i : Nat) : (s.reads i).inside = false := by
    obtain ⟨inside, hmem, hcard⟩ := hinv.readers
    rw [hinv.alone ha, Finset.card_eq_zero] at hcard
    simpa [hcard] using hmem i
  refine ⟨hinv.stops.1, fun hpos => ?_, ?_, fun discarded hd => ?_, fun ha i s' hs => ?_⟩
  · have hf := hinv.stops.2 (Nat.le_antisymm hinv.stops.1 hpos)
    obtain ⟨-, -, hc⟩ := hinv.started (by simp [hf, Drain.alone])
    exact ⟨hc, hinv.closed hc⟩
  · rw [hinv.drains]
    exact Bool.toNat_le _
  · exact hzero (by simp [hd, Drain.alone])
  · obtain ⟨-, hs⟩ := Option.ite_none_right_eq_some.mp hs
    rw [if_pos (hinv.started ha).2.1] at hs
    cases hs
    simp

theorem drainingStream_has_one_reader_at_limit :
    let actions : List Action := [.readEnters 0, .cancelMarks 0, .cancelInterrupts 0, .cancelUnblocks 0, .closeSends 0,
      .closeDrains 0, .cancelDrains 0, .readReturns 0 1 none, .readLeaves 0, .drainIsAlone, .drainSetsDeadline,
      .drainReads 9 none, .drainReachesLimit]
    ∃ s, run (step 8) newDrainingStream actions = some s ∧ s.stops = 1 ∧ OneReader 8 s := by
  intro actions
  exact ⟨_, rfl, rfl, drainingStream_has_one_reader 8 actions rfl⟩

end TrevRpc.Go.DrainingStream
