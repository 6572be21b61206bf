import TrevRpc.Lib.Run

/-!
# The JS dial race (`trevrpc-js/src/race.js`)

An event is one callback that the event loop runs: a dial's promise reaction, the timer, the abort listener.
-/

open TrevRpc.Run

namespace TrevRpc.Js.Race

/-! ## The code -/

inductive Candidate
  | primary
  | fallback
  deriving DecidableEq

/-- What a dial fails with; a `TrevRpcError` by its code's name and its `statusMessage`. -/
inductive DialError
  | status (name statusMessage : String)
  | abortError
  | other (message : String)
  deriving DecidableEq

/-- The `message` that `TrevRpcError`'s constructor sets. -/
def errorMessage (name statusMessage : String) : String :=
  if statusMessage = "" then name else name ++ ": " ++ statusMessage

/-- The `message` of the error that `statusFromTransportError` returns. -/
def statusFromTransportError : DialError → String
  | .status name statusMessage => errorMessage name statusMessage
  | .abortError => errorMessage "Cancelled" "transport closed locally"
  | .other message => errorMessage "Unavailable" ("transport unavailable: " ++ message)

/-- The race's promise; `unavailable` has the `statusMessage` of the error it rejects with. -/
inductive Outcome (Session Reason : Type)
  | pending
  | resolved (session : Session) (transport : String)
  | cancelled (reason : Reason)
  | unavailable (message : String)
  deriving DecidableEq

/-- A candidate's `dial`; `threw` has a rejection still to be seen. -/
inductive Dial
  | idle
  | dialing
  | threw (error : DialError)
  | connected
  | failed
  deriving DecidableEq

variable {Session Reason : Type}

/-- What one race is given. -/
structure Config (Reason : Type) where
  transport : Candidate → String
  /-- The error a candidate's `dial` throws synchronously, if it does. -/
  throws : Candidate → Option DialError
  signal : Option (Option Reason)

structure State (Session Reason : Type) where
  dials : Candidate → Dial
  attempts : List Candidate
  abandoned : List Candidate
  errors : List String
  settled : Bool
  fallbackStarted : Bool
  timer : Bool
  /-- `onAbort` is registered on the signal. -/
  listening : Bool
  signalAborted : Bool
  promise : Outcome Session Reason
  closed : List Session

def State.give (outcome : Outcome Session Reason) (s : State Session Reason) : State Session Reason :=
  match s.promise with
  | .pending => { s with promise := outcome }
  | _ => s

def settle (winner : Option Candidate) (s : State Session Reason) : State Session Reason :=
  { s with
    settled := true
    timer := false
    listening := false
    abandoned := s.abandoned ++ s.attempts.filter fun c => some c ≠ winner }

def start (cfg : Config Reason) (c : Candidate) (s : State Session Reason) : State Session Reason :=
  { s with
    attempts := s.attempts ++ [c]
    dials := Function.update s.dials c (match cfg.throws c with
      | none => .dialing
      | some error => .threw error) }

def startFallback (cfg : Config Reason) (s : State Session Reason) : State Session Reason :=
  if !s.fallbackStarted && !s.settled then
    start cfg .fallback { s with fallbackStarted := true, timer := false }
  else s

def onAbort (reason : Reason) (s : State Session Reason) : State Session Reason :=
  if s.settled then s else (settle none s).give (.cancelled reason)

def onSession (cfg : Config Reason) (c : Candidate) (session : Session) (s : State Session Reason) :
    State Session Reason :=
  if s.settled then { s with closed := s.closed ++ [session] }
  else (settle (some c) s).give (.resolved session (cfg.transport c))

/-- What a failed candidate adds to the text of the whole race's error. -/
def errorText (cfg : Config Reason) (c : Candidate) (error : DialError) : String :=
  cfg.transport c ++ ": " ++ statusFromTransportError error

def unavailableText (errors : List String) : String :=
  "transport unavailable: " ++ "; ".intercalate errors

def onError (cfg : Config Reason) (c : Candidate) (error : DialError) (s : State Session Reason) :
    State Session Reason :=
  let s := { s with attempts := s.attempts.erase c }
  if s.settled then s
  else
    let s := { s with errors := s.errors ++ [errorText cfg c error] }
    if c = .primary then startFallback cfg s
    else if s.attempts.length = 0 then
      (settle none s).give (.unavailable (unavailableText s.errors))
    else s

def emptyState : State Session Reason where
  dials := fun _ => .idle
  attempts := []
  abandoned := []
  errors := []
  settled := false
  fallbackStarted := false
  timer := false
  listening := false
  signalAborted := false
  promise := .pending
  closed := []

def dialRace (cfg : Config Reason) : State Session Reason :=
  match cfg.signal with
  | some (some reason) => onAbort reason { emptyState with signalAborted := true }
  | some none => { start cfg .primary { emptyState with listening := true } with timer := true }
  | none => { start cfg .primary emptyState with timer := true }

inductive Event (Session Reason : Type)
  | connects (c : Candidate) (session : Session)
  | fails (c : Candidate) (error : DialError)
  | timerFires
  | aborts (reason : Reason)
  deriving DecidableEq

/-- A dial settles once, a timer fires while it is set, and a signal aborts once. -/
def step (cfg : Config Reason) (s : State Session Reason) :
    Event Session Reason → Option (State Session Reason)
  | .connects c session =>
    if s.dials c = .dialing then
      some (onSession cfg c session { s with dials := Function.update s.dials c .connected })
    else none
  | .fails c error =>
    if s.dials c = .dialing ∨ s.dials c = .threw error then
      some (onError cfg c error { s with dials := Function.update s.dials c .failed })
    else none
  | .timerFires => if s.timer then some (startFallback cfg { s with timer := false }) else none
  | .aborts reason =>
    if cfg.signal.isSome ∧ s.signalAborted = false then
      let s := { s with signalAborted := true }
      some (if s.listening then onAbort reason s else s)
    else none

/-! ## What the race is for -/

/-- What the events so far ask of the promise, and the sessions that came too late for it. -/
structure Verdict (Session Reason : Type) where
  failed : List (Candidate × DialError)
  outcome : Outcome Session Reason
  late : List Session

/-- The first dial to connect wins, an abort before that cancels, and two failures are final. -/
def Verdict.next (cfg : Config Reason) (v : Verdict Session Reason) :
    Event Session Reason → Verdict Session Reason
  | .connects c session =>
    match v.outcome with
    | .pending => { v with outcome := .resolved session (cfg.transport c) }
    | _ => { v with late := v.late ++ [session] }
  | .fails c error =>
    let failed := v.failed ++ [(c, error)]
    match v.outcome with
    | .pending =>
      if failed.length = 2 then
        { v with
          failed
          outcome := .unavailable (unavailableText (failed.map fun f => errorText cfg f.1 f.2)) }
      else { v with failed }
    | _ => { v with failed }
  | .timerFires => v
  | .aborts reason =>
    match v.outcome with
    | .pending => { v with outcome := .cancelled reason }
    | _ => v

def verdict (cfg : Config Reason) (events : List (Event Session Reason)) : Verdict Session Reason :=
  events.foldl (Verdict.next cfg)
    { failed := []
      outcome := match cfg.signal with
        | some (some reason) => .cancelled reason
        | _ => .pending
      late := [] }

/-- The promise has the outcome its events ask for, late sessions are closed, and two failures settle it. -/
def Settles (cfg : Config Reason) (events : List (Event Session Reason))
    (s : State Session Reason) : Prop :=
  s.promise = (verdict cfg events).outcome ∧ s.closed = (verdict cfg events).late ∧
    ((∀ c, s.dials c = .failed) → s.signalAborted = false → s.promise ≠ .pending)

/-- The primary does not fail after the fallback has failed, while the race is open. -/
def PrimaryFirst (s : State Session Reason) (e : Event Session Reason) : Prop :=
  ∀ error, e = .fails .primary error → s.settled = false → s.dials .fallback ≠ .failed

/-! ## The open race -/

/-- A dial that the race still waits for. -/
def Running (d : Dial) : Prop := d = .dialing ∨ ∃ error, d = .threw error

inductive Shape (s : State Session Reason) (failed : List (Candidate × DialError)) : Prop
  | primaryOnly (hl : failed = []) (ha : s.attempts = [.primary]) (hf : s.fallbackStarted = false)
      (hp : Running (s.dials .primary)) (hb : s.dials .fallback = .idle)
  | both (hl : failed = []) (ha : s.attempts = [.primary, .fallback]) (hf : s.fallbackStarted = true)
      (hp : Running (s.dials .primary)) (hb : Running (s.dials .fallback))
  | primaryFailed (error : DialError) (hl : failed = [(.primary, error)])
      (ha : s.attempts = [.fallback]) (hf : s.fallbackStarted = true)
      (hp : s.dials .primary = .failed) (hb : Running (s.dials .fallback))
  | fallbackFailed (error : DialError) (hl : failed = [(.fallback, error)])
      (ha : s.attempts = [.primary]) (hf : s.fallbackStarted = true)
      (hp : Running (s.dials .primary)) (hb : s.dials .fallback = .failed)

/-- What holds of an open race. -/
structure Open (cfg : Config Reason) (v : Verdict Session Reason) (s : State Session Reason) : Prop where
  shape : Shape s v.failed
  errors : s.errors = v.failed.map fun f => errorText cfg f.1 f.2
  notAborted : s.signalAborted = false
  listening : s.listening = cfg.signal.isSome

structure Inv (cfg : Config Reason) (v : Verdict Session Reason) (s : State Session Reason) : Prop where
  promise : s.promise = v.outcome
  closed : s.closed = v.late
  settled : s.settled = true ↔ v.outcome ≠ .pending
  isOpen : s.settled = false → Open cfg v s

variable {cfg : Config Reason} {v : Verdict Session Reason} {s s' : State Session Reason}
  {e : Event Session Reason}

theorem give_of_pending (outcome : Outcome Session Reason) (h : s.promise = .pending) :
    s.give outcome = { s with promise := outcome } := by
  simp [State.give, h]

theorem Inv.pending (h : Inv cfg v s) (ho : s.settled = false) : v.outcome = .pending := by
  by_contra hne
  exact absurd (h.settled.mpr hne) (by simp [ho])

theorem running_of_start (cfg : Config Reason) (c : Candidate) (s : State Session Reason) :
    Running ((start cfg c s).dials c) := by
  simp only [start, Function.update_self]
  cases cfg.throws c with
  | none => exact Or.inl rfl
  | some error => exact Or.inr ⟨error, rfl⟩

theorem inv_dialRace (cfg : Config Reason) : Inv cfg (verdict cfg []) (dialRace cfg : State Session Reason) := by
  have hrun := running_of_start cfg .primary (emptyState : State Session Reason)
  rcases hs : cfg.signal with _ | _ | reason
  all_goals constructor
  all_goals simp [dialRace, verdict, hs, start, emptyState, onAbort, settle, State.give]
  all_goals
    refine ⟨.primaryOnly rfl rfl rfl ?_ ?_, rfl, rfl, by simp [hs]⟩
    · simpa [start] using hrun
    · simp

theorem inv_step_settled (h : Inv cfg v s) (hset : s.settled = true)
    (hs : step cfg s e = some s') : Inv cfg (v.next cfg e) s' := by
  have hne : v.outcome ≠ .pending := h.settled.mp hset
  have hout : (v.next cfg e).outcome = v.outcome := by
    cases e <;> simp [Verdict.next]
  have hset' : s'.settled = true ∧ s'.promise = s.promise ∧ s'.closed = (v.next cfg e).late := by
    cases e <;> obtain ⟨-, rfl⟩ := of_guard hs
    case connects c session =>
      simp [onSession, hset, Verdict.next, h.closed]
    case fails c error =>
      simp [onError, hset, Verdict.next, h.closed]
    case timerFires => simp [startFallback, hset, Verdict.next, h.closed]
    case aborts reason =>
      simp [onAbort, hset, Verdict.next, h.closed]
  refine ⟨?_, hset'.2.2, ?_, ?_⟩
  · rw [hset'.2.1, hout, h.promise]
  · simp [hset'.1, hout, hne]
  · simp [hset'.1]

theorem Inv.of_settled (hset : s.settled = true) (hp : s.promise = v.outcome)
    (hc : s.closed = v.late) (hne : v.outcome ≠ .pending) : Inv cfg v s :=
  ⟨hp, hc, by simp [hset, hne], by simp [hset]⟩

theorem Inv.of_open (hset : s.settled = false) (hp : s.promise = v.outcome)
    (hc : s.closed = v.late) (hpending : v.outcome = .pending) (ho : Open cfg v s) : Inv cfg v s :=
  ⟨hp, hc, by simp [hset, hpending], fun _ => ho⟩

variable {c : Candidate}

theorem inv_connects {session : Session} (h : Inv cfg v s) (ho : s.settled = false)
    (hs : step cfg s (.connects c session) = some s') :
    Inv cfg (v.next cfg (.connects c session)) s' := by
  have hp := h.pending ho
  obtain ⟨-, rfl⟩ := of_guard hs
  have hpr : s.promise = .pending := h.promise.trans hp
  simp only [onSession, ho, Bool.false_eq_true, if_false, Verdict.next, hp]
  rw [give_of_pending _ (by simpa [settle] using hpr)]
  exact .of_settled rfl rfl h.closed (by simp)

theorem inv_aborts {r : Reason} (h : Inv cfg v s) (ho : s.settled = false)
    (hs : step cfg s (.aborts r) = some s') :
    Inv cfg (v.next cfg (.aborts r)) s' := by
  have hp := h.pending ho
  have hop := h.isOpen ho
  obtain ⟨⟨hsig, -⟩, rfl⟩ := of_guard hs
  have hpr : s.promise = .pending := h.promise.trans hp
  have hl : s.listening = true := by rw [hop.listening, hsig]
  simp only [hl, if_true, onAbort, ho, Bool.false_eq_true, if_false, Verdict.next, hp]
  rw [give_of_pending _ (by simpa [settle] using hpr)]
  exact .of_settled rfl rfl h.closed (by simp)

theorem startFallback_of_started (hf : s.fallbackStarted = true) : startFallback cfg s = s := by
  simp [startFallback, hf]

theorem startFallback_of_open (hf : s.fallbackStarted = false) (ho : s.settled = false) :
    startFallback cfg s = start cfg .fallback { s with fallbackStarted := true, timer := false } := by
  simp [startFallback, hf, ho]

variable {error : DialError}

theorem next_fails_first (hp : v.outcome = .pending)
    (hl : v.failed = []) :
    v.next cfg (.fails c error) = { v with failed := [(c, error)] } := by
  simp [Verdict.next, hp, hl]

theorem next_fails_second {first : Candidate × DialError}
    (hp : v.outcome = .pending) (hl : v.failed = [first]) :
    v.next cfg (.fails c error) =
      { v with
        failed := [first, (c, error)]
        outcome := .unavailable
          (unavailableText [errorText cfg first.1 first.2, errorText cfg c error]) } := by
  simp [Verdict.next, hp, hl]

variable (h : Inv cfg v s)
include h

theorem inv_timerFires (ho : s.settled = false)
    (hs : step cfg s .timerFires = some s') : Inv cfg (v.next cfg .timerFires) s' := by
  obtain ⟨hsh, herr, hab, hlis⟩ := h.isOpen ho
  obtain ⟨-, rfl⟩ := of_guard hs
  -- Once the fallback has started, the timer has nothing to do.
  cases hsh with
  | primaryOnly hl ha hf hp hb =>
    rw [startFallback_of_open (by exact hf) (by exact ho)]
    refine .of_open ho h.promise h.closed (h.pending ho) ⟨?_, herr, hab, hlis⟩
    refine .both hl (by simp [start, ha]) rfl ?_ (running_of_start ..)
    simpa [start] using hp
  | both hl ha hf hp hb | primaryFailed error hl ha hf hp hb | fallbackFailed error hl ha hf hp hb =>
    rw [startFallback_of_started (by exact hf)]
    refine .of_open ho h.promise h.closed (h.pending ho) ⟨?_, herr, hab, hlis⟩
    first
      | exact .both hl ha hf hp hb
      | exact .primaryFailed error hl ha hf hp hb
      | exact .fallbackFailed error hl ha hf hp hb

theorem inv_fails_primary (ho : s.settled = false)
    (hok : s.dials .fallback ≠ .failed) (hs : step cfg s (.fails .primary error) = some s') :
    Inv cfg (v.next cfg (.fails .primary error)) s' := by
  have hpe := h.pending ho
  obtain ⟨hsh, herr, hab, hlis⟩ := h.isOpen ho
  obtain ⟨hd, rfl⟩ := of_guard hs
  simp only [onError, ho, Bool.false_eq_true, if_false, if_true]
  cases hsh with
  | primaryOnly hl ha hf hp hb =>
    rw [startFallback_of_open (by exact hf) (by exact rfl), next_fails_first hpe hl]
    refine .of_open rfl h.promise h.closed hpe ⟨?_, by simp [start, herr, hl], hab, hlis⟩
    exact .primaryFailed error rfl (by simp [start, ha]) rfl (by simp [start]) (running_of_start ..)
  | both hl ha hf hp hb =>
    rw [startFallback_of_started (by exact hf), next_fails_first hpe hl]
    refine .of_open rfl h.promise h.closed hpe ⟨?_, by simp [herr, hl], hab, hlis⟩
    exact .primaryFailed error rfl (by simp [ha]) hf (by simp) (by simpa using hb)
  | primaryFailed e' hl ha hf hp hb => simp [hp] at hd
  | fallbackFailed e' hl ha hf hp hb => exact absurd hb hok

theorem inv_fails_fallback (ho : s.settled = false)
    (hs : step cfg s (.fails .fallback error) = some s') :
    Inv cfg (v.next cfg (.fails .fallback error)) s' := by
  have hpe := h.pending ho
  have hpr : s.promise = .pending := h.promise.trans hpe
  obtain ⟨hsh, herr, hab, hlis⟩ := h.isOpen ho
  obtain ⟨hd, rfl⟩ := of_guard hs
  simp only [onError, ho, Bool.false_eq_true, if_false, reduceCtorEq]
  cases hsh with
  | primaryOnly hl ha hf hp hb => simp [hb] at hd
  | both hl ha hf hp hb =>
    have hone : (s.attempts.erase .fallback).length ≠ 0 := by simp [ha]
    rw [if_neg hone, next_fails_first hpe hl]
    refine .of_open rfl h.promise h.closed hpe ⟨?_, by simp [herr, hl], hab, hlis⟩
    exact .fallbackFailed error rfl (by simp [ha]) hf (by simpa using hp) (by simp)
  | primaryFailed e' hl ha hf hp hb =>
    have hn : (s.attempts.erase .fallback).length = 0 := by simp [ha]
    rw [if_pos hn, next_fails_second hpe hl, give_of_pending _ (by exact hpr)]
    refine .of_settled rfl ?_ h.closed (by simp)
    simp [herr, hl]
  | fallbackFailed e' hl ha hf hp hb => simp [hb] at hd

theorem inv_step (hok : PrimaryFirst s e) (hs : step cfg s e = some s') : Inv cfg (v.next cfg e) s' := by
  rcases Bool.eq_false_or_eq_true s.settled with hset | ho
  · exact inv_step_settled h hset hs
  cases e with
  | connects c session => exact inv_connects h ho hs
  | timerFires => exact inv_timerFires h ho hs
  | aborts reason => exact inv_aborts h ho hs
  | fails c error =>
    cases c with
    | primary => exact inv_fails_primary h ho (hok error rfl ho) hs
    | fallback => exact inv_fails_fallback h ho hs

theorem stuck_of_primary_last (hbad : ¬ PrimaryFirst s e)
    (hs : step cfg s e = some s') :
    (∀ c, s'.dials c = .failed) ∧ s'.signalAborted = false ∧ s'.promise = .pending := by
  simp only [PrimaryFirst, not_forall, not_not] at hbad
  obtain ⟨error, rfl, ho, hb⟩ := hbad
  have hpr : s.promise = .pending := h.promise.trans (h.pending ho)
  obtain ⟨hsh, -, hab, -⟩ := h.isOpen ho
  obtain ⟨-, rfl⟩ := of_guard hs
  simp only [onError, ho, Bool.false_eq_true, if_false, if_true]
  have hf : s.fallbackStarted = true := by
    cases hsh with
    | primaryOnly hl ha hf hp hb' => simp [hb'] at hb
    | both _ _ hf | primaryFailed _ _ _ hf | fallbackFailed _ _ _ hf => exact hf
  rw [startFallback_of_started (by exact hf)]
  refine ⟨fun c => ?_, hab, hpr⟩
  cases c with
  | primary => simp
  | fallback => simpa using hb

omit h

theorem verdict_snoc (cfg : Config Reason) (es : List (Event Session Reason))
    (e : Event Session Reason) : verdict cfg (es ++ [e]) = (verdict cfg es).next cfg e := by
  simp [verdict, List.foldl_append]

theorem settles_of_inv {es : List (Event Session Reason)} (h : Inv cfg (verdict cfg es) s) : Settles cfg es s := by
  refine ⟨h.promise, h.closed, fun hfa _ hpe => ?_⟩
  have ho : s.settled = false := by
    by_contra hset
    exact h.settled.mp (by simpa using hset) (h.promise.symm.trans hpe)
  cases (h.isOpen ho).shape with
  | primaryOnly hl ha hf hp hb => simp [hfa] at hb
  | both hl ha hf hp hb => simp [Running, hfa] at hp
  | primaryFailed error hl ha hf hp hb => simp [Running, hfa] at hb
  | fallbackFailed error hl ha hf hp hb => simp [Running, hfa] at hp

/-! ## Whole races -/

/-- A race settles as its events ask, exactly if the primary never fails after the fallback. -/
theorem dialRace_settles_iff (cfg : Config Reason) (events : List (Event Session Reason))
    (s : State Session Reason) (hrun : run (step cfg) (dialRace cfg) events = some s) :
    Always (Settles cfg) (step cfg) (dialRace cfg) events ↔
      Along PrimaryFirst (step cfg) (dialRace cfg) events := by
  refine always_iff_along (I := fun done t => Inv cfg (verdict cfg done) t)
    (inv_dialRace cfg) (fun done t => settles_of_inv) ?_ ?_ hrun
  · intro done t e t' h hok hstep
    rw [verdict_snoc]
    exact inv_step h hok hstep
  · intro done t e t' h hbad hstep hsettles
    obtain ⟨hfailed, hab, hpend⟩ := stuck_of_primary_last h hbad hstep
    exact hsettles.2.2 hfailed hab hpend

def webTransportRace : Config Unit where
  transport
    | .primary => "webtransport"
    | .fallback => "websocket"
  throws := fun _ => none
  signal := none

theorem dialRace_fallback_wins :
    ∃ s : State Nat Unit,
      run (step webTransportRace) (dialRace webTransportRace)
          [.timerFires, .fails .primary .abortError, .connects .fallback 7] = some s ∧
        (Always (Settles webTransportRace) (step webTransportRace) (dialRace webTransportRace)
            [.timerFires, .fails .primary .abortError, .connects .fallback 7] ↔
          Along PrimaryFirst (step webTransportRace)
            (dialRace webTransportRace : State Nat Unit)
            [.timerFires, .fails .primary .abortError, .connects .fallback 7]) :=
  ⟨_, rfl, dialRace_settles_iff webTransportRace _ _ rfl⟩

/-- The timer adds the fallback, which fails first; when the primary fails, nobody rejects the promise. -/
theorem dialRace_primary_last_stays_pending :
    ∃ s : State Nat Unit,
      run (step webTransportRace) (dialRace webTransportRace)
          [.timerFires, .fails .fallback (.other "refused"), .fails .primary (.other "timed out")] =
        some s ∧
      (∀ c, s.dials c = .failed) ∧ s.signalAborted = false ∧ s.promise = .pending ∧
      ¬ Settles webTransportRace
        [.timerFires, .fails .fallback (.other "refused"), .fails .primary (.other "timed out")] s := by
  refine ⟨_, rfl, ?_, rfl, rfl, ?_⟩
  · intro c
    cases c <;> rfl
  · rintro ⟨-, -, h⟩
    refine h (fun c => ?_) rfl rfl
    cases c <;> rfl

end TrevRpc.Js.Race
