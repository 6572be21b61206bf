import TrevRpc.Lib.Budget
import TrevRpc.Lib.Effect
import TrevRpc.Lib.Run
import TrevRpc.Rust.Framing

/-!
# The requests of an optimistic call (`client/replay.rs`)

`pollUpload` keeps a copy of each request until the response reader settles or refuses the call. Every operation runs
under the lock.
-/

open TrevRpc.Run

namespace TrevRpc.Rust.Replay

/-- The most request bytes that a call keeps. -/
def maxKeptBytes : Nat := 2 ^ 20

inductive Decision
  | pending
  | settled
  | refused
  deriving DecidableEq

abbrev Item := Except Error Bytes

structure State (W : Type) where
  /-- The caller's requests not yet pulled, `none` once they ended. -/
  source : Option (List Item)
  kept : List Bytes := []
  keptBytes : Nat := 0
  reservation : Option Nat := none
  /-- A request that was pulled but not sent, because keeping it would exceed the limits. -/
  held : Option Bytes := none
  decision : Decision := .pending
  waker : Option W := none

variable {W : Type}

/-! ## The operations -/

def pollItems (ready : Bool) : List Item → Poll (Option Item)
  | [] => if ready then .ready none else .pending
  | item :: _ => if ready then .ready (some item) else .pending

namespace State

def keep (request : Bytes) (s : State W) (budget : Budget) : Option (State W × Budget) :=
  if s.keptBytes + request.length ≤ maxKeptBytes then
    (budget.reserve request.length).map fun budget =>
      ({ s with
          -- `absorb` adds the costs of the two reservations.
          reservation := some (s.reservation.getD 0 + request.length)
          kept := s.kept ++ [request]
          keptBytes := s.keptBytes + request.length }, budget)
  else none

def pollSource (ready : Bool) (s : State W) : Poll (Option Item) × State W :=
  match s.source with
  | none => (.ready none, s)
  | some items =>
    match pollItems ready items with
    | .ready none => (.ready none, { s with source := none })
    | .ready (some item) => (.ready (some item), { s with source := some items.tail })
    | .pending => (.pending, s)

/-- The next request for the original upload. -/
def pollUpload (waker : W) (ready : Bool) (s : State W) (budget : Budget) :
    Poll (Option Item) × State W × Budget :=
  match s.decision with
  -- The replay owns the requests.
  | .refused => (.pending, { s with waker := some waker }, budget)
  | .settled =>
    match s.held with
    | some request => (.ready (some (.ok request)), { s with held := none }, budget)
    | none => ((s.pollSource ready).1, (s.pollSource ready).2, budget)
  | .pending =>
    if s.held.isSome then (.pending, { s with waker := some waker }, budget)
    else
      match s.pollSource ready with
      | (.ready (some (.ok request)), s) =>
        match s.keep request budget with
        | some (s, budget) => (.ready (some (.ok request)), s, budget)
        -- The request waits here for the decision, so that a replay still sends it.
        | none => (.pending, { s with held := some request, waker := some waker }, budget)
      | (other, s) => (other, s, budget)

/-- The copies are dropped, and the upload goes on without keeping any. -/
def settle (s : State W) (budget : Budget) : State W × Budget × Option W :=
  if s.decision ≠ .pending then (s, budget, none)
  else
    ({ s with decision := .settled, kept := [], keptBytes := 0, reservation := none, waker := none },
      budget.release (s.reservation.getD 0), s.waker)

/-- Hands the requests over to the replay: the copies and the held request, then the rest. -/
def refuse (s : State W) (budget : Budget) : (List Bytes × Option (List Item)) × State W × Budget × Option W :=
  ((s.kept ++ s.held.toList, s.source),
    { s with
      decision := .refused, reservation := none, keptBytes := 0, kept := [], held := none, source := none
      waker := none },
    budget.release (s.reservation.getD 0), s.waker)

end State

/-- The stream that the replayed call sends: the requests handed over, chained with the rest. -/
structure Replayed where
  requests : List Bytes
  rest : Option (List Item)

namespace Replayed

def contents (r : Replayed) : List Item := r.requests.map .ok ++ r.rest.getD []

def poll (ready : Bool) (r : Replayed) : Poll (Option Item) × Replayed :=
  match r with
  | ⟨request :: requests, rest⟩ => (.ready (some (.ok request)), ⟨requests, rest⟩)
  | ⟨[], none⟩ => (.ready none, r)
  | ⟨[], some items⟩ => (pollItems ready items, if ready then ⟨[], some items.tail⟩ else r)

end Replayed

/-! ## One call -/

structure System (W : Type) where
  state : State W
  budget : Budget
  handed : List Item := []
  replayed : Option Replayed := none
  yielded : List Item := []
  woken : List W := []

inductive Action (W : Type)
  | pollUpload (waker : W) (ready : Bool)
  | settle
  | refuse
  | pollReplayed (ready : Bool)
  | lend (cost : Nat)
  | regain (cost : Nat)

/-- The item that a poll handed out. -/
def handedOut : Poll (Option Item) → List Item
  | .ready item => item.toList
  | .pending => []

def step (s : System W) : Action W → Option (System W)
  | .pollUpload waker ready =>
    let (polled, state, budget) := s.state.pollUpload waker ready s.budget
    some { s with state, budget, handed := s.handed ++ handedOut polled }
  | .settle =>
    let (state, budget, woken) := s.state.settle s.budget
    some { s with state, budget, woken := s.woken ++ woken.toList }
  | .refuse =>
    let ((requests, rest), state, budget, woken) := s.state.refuse s.budget
    some { s with state, budget, replayed := some ⟨requests, rest⟩, woken := s.woken ++ woken.toList }
  | .pollReplayed ready =>
    s.replayed.map fun replayed =>
      let (polled, replayed) := replayed.poll ready
      { s with replayed := some replayed, yielded := s.yielded ++ handedOut polled }
  | .lend cost => (s.budget.lend cost).map fun budget => { s with budget }
  | .regain cost => (s.budget.regain cost).map fun budget => { s with budget }

/-- A call whose caller has these requests. -/
def start (items : List Item) (budget : Budget) : System W := { state := { source := some items }, budget }

/-- The server decides once: the reader refuses no call that it settled or refused before. -/
def Action.Once (s : System W) : Action W → Prop
  | .refuse => s.state.decision = .pending
  | _ => True

/-! ## What holds in every run -/

def messages (items : List Item) : List Bytes := items.filterMap Except.toOption

@[simp] theorem messages_append (xs ys : List Item) : messages (xs ++ ys) = messages xs ++ messages ys :=
  List.filterMap_append

@[simp] theorem messages_map_ok (requests : List Bytes) : messages (requests.map .ok) = requests := by
  induction requests with
  | nil => rfl
  | cons request requests ih => simpa [messages, Except.toOption] using ih

theorem State.pollSource_spec (r : Bool) (s : State W) :
    ∃ source, (s.pollSource r).2 = { s with source } ∧
      handedOut (s.pollSource r).1 ++ source.getD [] = s.source.getD [] := by
  obtain ⟨source, kept, keptBytes, reservation, held, decision, waker⟩ := s
  rcases source with - | items
  · exact ⟨_, rfl, rfl⟩
  · cases items <;> cases r <;> exact ⟨_, rfl, rfl⟩

theorem State.keep_eq_some {r : Bytes} {s s' : State W} {budget b' : Budget}
    (h : s.keep r budget = some (s', b')) :
    s.keptBytes + r.length ≤ maxKeptBytes ∧ budget.reserve r.length = some b' ∧
      s' = { s with
        reservation := some (s.reservation.getD 0 + r.length)
        kept := s.kept ++ [r]
        keptBytes := s.keptBytes + r.length } := by
  unfold keep at h
  split_ifs at h with hcap
  obtain ⟨b, hb, h⟩ := Option.map_eq_some_iff.mp h
  cases h
  exact ⟨hcap, hb, rfl⟩

theorem Replayed.poll_spec (ready : Bool) (r : Replayed) :
    handedOut (r.poll ready).1 ++ (r.poll ready).2.contents = r.contents := by
  obtain ⟨rs, rest⟩ := r
  rcases rs with - | ⟨request, rs⟩
  · rcases rest with - | items
    · rfl
    · cases items <;> cases ready <;> rfl
  · rfl

/-- What a call keeps, and if the server decides `once` what its replay owes. -/
structure Inv (items : List Item) (total : Nat) (once : Prop) (s : System W) : Prop where
  taken : s.state.decision ≠ .refused → s.handed ++ (s.state.held.map .ok).toList ++ s.state.source.getD [] = items
  handed : s.handed <+: items
  unreplayed : s.state.decision ≠ .refused → s.replayed = none ∧ s.yielded = []
  replayed : s.state.decision = .refused →
    ∃ r, s.replayed = some r ∧ (once → messages (s.yielded ++ r.contents) = messages items)
  kept : s.state.decision = .pending → s.state.kept = messages s.handed
  dropped : s.state.decision ≠ .pending → s.state.kept = [] ∧ s.state.reservation = none
  bytes : s.state.keptBytes = (s.state.kept.map List.length).sum
  cap : s.state.keptBytes ≤ maxKeptBytes
  reserved : s.state.reservation.getD 0 = s.state.keptBytes
  balanced : s.budget.Balanced total s.state.keptBytes

namespace Inv

variable {items : List Item} {total : Nat} {once : Prop} {s s' : System W}

theorem start (items : List Item) (b : Budget) :
    Inv items (b.available + b.others) once (Replay.start (W := W) items b) where
  taken _ := rfl
  handed := List.nil_prefix
  unreplayed _ := ⟨rfl, rfl⟩
  replayed := by rintro ⟨⟩
  kept _ := rfl
  dropped h := absurd rfl h
  bytes := rfl
  cap := Nat.zero_le _
  reserved := rfl
  balanced := rfl

theorem keptBytes_eq_zero (h : Inv items total once s) (hdec : s.state.decision ≠ .pending) :
    s.state.keptBytes = 0 := by
  rw [h.bytes, (h.dropped hdec).1]
  rfl

variable {source : Option (List Item)}

variable (h : Inv items total once s)
include h

theorem polled (hd : s.state.decision ≠ .refused) (hh : s.state.held = none) {out : List Item}
    (hout : out ++ source.getD [] = s.state.source.getD []) (hk : s.state.decision = .pending → messages out = []) :
    Inv items total once { s with state := { s.state with source }, handed := s.handed ++ out } := by
  have ht := h.taken hd
  have ht' : (s.handed ++ out) ++ (s.state.held.map .ok).toList ++ source.getD [] = items := by
    rw [hh] at ht ⊢
    simpa [hout] using ht
  refine { h with taken := fun _ => ht', handed := ?_, kept := ?_ }
  · rw [← ht', List.append_assoc]
    exact List.prefix_append _ _
  · intro hp
    simp [h.kept hp, hk hp]

theorem waker (waker : Option W) : Inv items total once { s with state := { s.state with waker } } :=
  { h with }

theorem keep (hp : s.state.decision = .pending) (hh : s.state.held = none)
    {r : Bytes} (hout : .ok r :: source.getD [] = s.state.source.getD [])
    {state : State W} {budget : Budget}
    (hk : ({ s.state with source } : State W).keep r s.budget = some (state, budget)) :
    Inv items total once { s with state, budget, handed := s.handed ++ [.ok r] } := by
  obtain ⟨hcap, hr, rfl⟩ := State.keep_eq_some hk
  have hne : s.state.decision ≠ .refused := by simp [hp]
  have ht : (s.handed ++ [.ok r]) ++ source.getD [] = items := by
    have ht := h.taken hne
    rw [hh, ← hout] at ht
    simpa using ht
  refine { h with
    taken := ?_, handed := ?_, kept := ?_, dropped := ?_, bytes := ?_, cap := hcap, reserved := ?_, balanced := ?_ }
  · intro _
    simpa [hh] using ht
  · rw [← ht]
    exact List.prefix_append _ _
  · intro _
    simp [h.kept hp, messages, Except.toOption]
  · intro hdec
    exact absurd hp hdec
  · simp [h.bytes]
  · simp [h.reserved]
  · exact h.balanced.reserve hr

theorem hold (hh : s.state.held = none)
    {request : Bytes} (hout : .ok request :: source.getD [] = s.state.source.getD []) :
    Inv items total once { s with state := { s.state with source, held := some request } } := by
  refine { h with taken := ?_ }
  intro hne
  have ht := h.taken hne
  rw [hh, ← hout] at ht
  simpa using ht

theorem pollUpload {w : W} {ready : Bool} (hs : Replay.step s (.pollUpload w ready) = some s') :
    Inv items total once s' := by
  obtain ⟨source', hso, hout⟩ := s.state.pollSource_spec ready
  obtain ⟨⟨so, kept, kb, r, held, d, ow⟩, budget, handed, replayed, yielded, woken⟩ := s
  rcases hpol : State.pollSource ready ⟨so, kept, kb, r, held, d, ow⟩ with
    ⟨polled, state⟩
  simp only [hpol] at hso hout
  subst hso
  cases d with
  | refused =>
    cases hs
    simpa [handedOut] using h.waker (some w)
  | settled =>
    cases held with
    | none =>
      simp only [Replay.step, State.pollUpload, hpol] at hs
      cases hs
      exact h.polled (by simp) rfl hout (by simp)
    | some request =>
      cases hs
      have ht := h.taken (by simp)
      refine { h with taken := fun _ => ?_, handed := ?_, kept := by simp }
      · simpa [handedOut] using ht
      · rw [← ht]
        exact List.prefix_append _ _
  | pending =>
    cases held with
    | some request =>
      cases hs
      simpa [handedOut] using h.waker (some w)
    | none =>
      simp only [Replay.step, State.pollUpload, Option.isSome_none, Bool.false_eq_true, if_false, hpol] at hs
      rcases polled with (_ | (error | request)) | _
      · cases hs
        exact h.polled (by simp) rfl hout (fun _ => rfl)
      · cases hs
        exact h.polled (by simp) rfl hout (fun _ => rfl)
      · simp only at hs
        split at hs
        · next state' budget' hk =>
          cases hs
          exact h.keep rfl rfl hout hk
        · cases hs
          simpa [handedOut] using (h.hold rfl hout).waker (some w)
      · cases hs
        exact h.polled (by simp) rfl hout (fun _ => rfl)

theorem settle (hs : Replay.step s .settle = some s') : Inv items total once s' := by
  simp only [Replay.step, State.settle] at hs
  split_ifs at hs with hdec
  · cases hs
    simpa using h
  · have hp : s.state.decision = .pending := by simpa using hdec
    have hne : s.state.decision ≠ .refused := by simp [hp]
    cases hs
    refine ⟨fun _ => h.taken hne, h.handed, fun _ => h.unreplayed hne, by simp, by simp, fun _ => ⟨rfl, rfl⟩, rfl,
      Nat.zero_le _, rfl, ?_⟩
    rw [h.reserved]
    exact Budget.Balanced.release (by simpa using h.balanced)

theorem refuse (ho : once → s.state.decision = .pending) (hs : Replay.step s .refuse = some s') :
    Inv items total once s' := by
  simp only [Replay.step, State.refuse] at hs
  cases hs
  refine ⟨by simp, h.handed, by simp, fun _ => ⟨_, rfl, fun honce => ?_⟩, by simp, fun _ => ⟨rfl, rfl⟩, rfl,
    Nat.zero_le _, rfl, ?_⟩
  · have hp := ho honce
    have hne : s.state.decision ≠ .refused := by simp [hp]
    have hh : messages (s.state.held.map Except.ok).toList = s.state.held.toList := by
      cases s.state.held <;> rfl
    rw [(h.unreplayed hne).2, ← h.taken hne]
    simp [Replayed.contents, h.kept hp, hh]
  · rw [h.reserved]
    exact Budget.Balanced.release (by simpa using h.balanced)

theorem pollReplayed {ready : Bool} (hs : Replay.step s (.pollReplayed ready) = some s') : Inv items total once s' := by
  obtain ⟨r, hr, rfl⟩ := Option.map_eq_some_iff.mp hs
  have hre : s.state.decision = .refused := by
    by_contra hne
    rw [(h.unreplayed hne).1] at hr
    cases hr
  refine { h with unreplayed := fun hne => absurd hre hne, replayed := fun _ => ⟨_, rfl, fun honce => ?_⟩ }
  obtain ⟨r', hr', hm⟩ := h.replayed hre
  cases hr.symm.trans hr'
  rw [← hm honce, List.append_assoc, r.poll_spec]

theorem step {a : Action W} (ho : once → a.Once s) (hs : Replay.step s a = some s') : Inv items total once s' := by
  cases a with
  | pollUpload waker r => exact h.pollUpload hs
  | settle => exact h.settle hs
  | refuse => exact h.refuse ho hs
  | pollReplayed r => exact h.pollReplayed hs
  | lend cost =>
    obtain ⟨b, hl, rfl⟩ := Option.map_eq_some_iff.mp hs
    exact { h with balanced := h.balanced.lend hl }
  | regain cost =>
    obtain ⟨b, hr, rfl⟩ := Option.map_eq_some_iff.mp hs
    exact { h with balanced := h.balanced.regain hr }

end Inv

variable {r : Replayed}

theorem Replayed.poll_ready {item : Item} {rest : List Item} (h : r.contents = item :: rest) :
    (r.poll true).1 = .ready (some item) ∧ (r.poll true).2.contents = rest := by
  obtain ⟨_ | ⟨request, requests⟩, _ | items⟩ := r
  · cases h
  · cases items with
    | nil => cases h
    | cons _ _ =>
      cases h
      exact ⟨rfl, rfl⟩
  all_goals
    cases h
    exact ⟨rfl, rfl⟩

theorem Replayed.poll_ended (h : r.contents = []) : (r.poll true).1 = .ready none := by
  obtain ⟨_ | ⟨request, requests⟩, _ | items⟩ := r
  · rfl
  · cases items with
    | nil => rfl
    | cons _ _ => cases h
  all_goals cases h

theorem run_pollReplayed (items : List Item) {s : System W} (hr : s.replayed = some r)
    (hi : r.contents = items) :
    ∃ s' r', run step s (List.replicate items.length (.pollReplayed true)) = some s' ∧ s'.replayed = some r' ∧
      s'.yielded = s.yielded ++ items ∧ (r'.poll true).1 = .ready none := by
  induction items generalizing s r with
  | nil => exact ⟨s, r, rfl, hr, by simp, Replayed.poll_ended hi⟩
  | cons item rest ih =>
    obtain ⟨hpol, hre⟩ := Replayed.poll_ready hi
    have hs : step s (.pollReplayed true) =
        some { s with replayed := some (r.poll true).2, yielded := s.yielded ++ [item] } := by
      simp [step, hr, hpol, handedOut]
    obtain ⟨s', r', hrun, hr', hy, hen⟩ :=
      ih (s := { s with replayed := some (r.poll true).2, yielded := s.yielded ++ [item] }) rfl hre
    refine ⟨s', r', ?_, hr', by simpa using hy, hen⟩
    rw [List.length_cons, List.replicate_succ, run, hs]
    exact hrun

theorem inv_run {items : List Item} {budget : Budget} {actions : List (Action W)} {once : Prop} {s : System W}
    (ho : once → Along (fun s a => a.Once s) step (start items budget) actions)
    (hrun : run step (start items budget) actions = some s) : Inv items (budget.available + budget.others) once s :=
  run_induction_along (P := fun _ => Inv items _ once) (.start items budget)
    (fun _ _ _ _ h hok hstep => h.step hok hstep) (along_of_imp ho) hrun

/-- The copies are within the cap and are what is reserved. A replay starts from the first request. -/
theorem replay_loses_nothing {items : List Item} {budget : Budget} {actions : List (Action W)} {s : System W}
    (hrun : run step (start items budget) actions = some s) :
    (s.state.decision ≠ .refused →
      s.handed ++ (s.state.held.map .ok).toList ++ s.state.source.getD [] = items) ∧
    s.handed <+: items ∧
    (Along (fun s a => a.Once s) step (start items budget) actions → s.state.decision = .refused →
      ∃ r, s.replayed = some r ∧ messages s.yielded ++ messages r.contents = messages items ∧
        ∃ s' r', run step s (List.replicate r.contents.length (.pollReplayed true)) = some s' ∧
          messages s'.yielded = messages items ∧ s'.replayed = some r' ∧ (r'.poll true).1 = .ready none) ∧
    s.state.keptBytes = (s.state.kept.map List.length).sum ∧ s.state.keptBytes ≤ maxKeptBytes ∧
    s.state.reservation.getD 0 = s.state.keptBytes ∧
    s.budget.Balanced (budget.available + budget.others) s.state.keptBytes ∧
    (s.state.decision ≠ .pending → s.state.keptBytes = 0 ∧ s.state.reservation = none) := by
  have h := inv_run id hrun
  refine ⟨h.taken, h.handed, fun honce hrefused => ?_, h.bytes, h.cap, h.reserved, h.balanced, fun hdecided => ?_⟩
  · obtain ⟨r, hr, hmessages⟩ := h.replayed hrefused
    obtain ⟨s', r', hall, hr', hyielded, hended⟩ := run_pollReplayed r.contents hr rfl
    exact ⟨r, hr, by simpa using hmessages honce, s', r', hall, by rw [hyielded, hmessages honce], hr', hended⟩
  · exact ⟨h.keptBytes_eq_zero hdecided, (h.dropped hdecided).2⟩

instance (s : System W) : (a : Action W) → Decidable (a.Once s)
  | .refuse => inferInstanceAs (Decidable (_ = _))
  | .pollUpload _ _ | .settle | .pollReplayed _ | .lend _ | .regain _ => isTrue trivial

def refusedWithHeld : List (Action Nat) :=
  [.pollUpload 7 true, .pollUpload 7 true, .refuse, .pollReplayed true, .pollUpload 7 true]

theorem replay_loses_nothing_held :
    ∃ s r, run step (start [.ok [1, 1, 1], .ok [2, 2], .ok [3]] ⟨4, 0⟩) refusedWithHeld = some s ∧
      s.handed = [.ok [1, 1, 1]] ∧ s.yielded = [.ok [1, 1, 1]] ∧ s.replayed = some r ∧
      messages s.yielded ++ messages r.contents = [[1, 1, 1], [2, 2], [3]] ∧ s.budget = ⟨4, 0⟩ := by
  have honce : Along (fun s a => a.Once s) step (start [.ok [1, 1, 1], .ok [2, 2], .ok [3]] ⟨4, 0⟩) refusedWithHeld :=
    by decide
  obtain ⟨-, -, hreplayed, -⟩ :=
    replay_loses_nothing (rfl : run step (start [.ok [1, 1, 1], .ok [2, 2], .ok [3]] ⟨4, 0⟩) refusedWithHeld = some _)
  obtain ⟨r, hr, hmessages, -⟩ := hreplayed honce rfl
  exact ⟨_, r, rfl, rfl, rfl, hr, hmessages, rfl⟩

/-- A settled call has dropped its copies: a refusal after that replays only the rest. -/
theorem refused_after_settled :
    ∃ s r, run step (start [.ok [1], .ok [2]] ⟨4, 0⟩) [.pollUpload 7 true, .settle, .refuse] = some s ∧
      s.state.decision = .refused ∧ s.replayed = some r ∧
      messages s.yielded ++ messages r.contents = [[2]] :=
  ⟨_, _, rfl, rfl, rfl, rfl⟩

end TrevRpc.Rust.Replay
