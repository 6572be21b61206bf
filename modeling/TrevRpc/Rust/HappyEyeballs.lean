import TrevRpc.Lib.Run
import TrevRpc.Rust.Framing

/-!
# Dialing the addresses of a host (`happy_eyeballs` of `client/resolve.rs`)

A step is one round of the loop. An attempt is known by the place of its address in the list.
-/

open TrevRpc.Run

namespace TrevRpc.Rust.HappyEyeballs

variable {Addr T : Type*}

structure State (Addr T : Type*) where
  pending : List Addr
  started : List Addr := []
  attempts : List (Nat × Addr) := []
  failures : List (Addr × Error) := []
  more : Bool := false
  result : Option (Except Error (Addr × T)) := none

inductive Action (T : Type*)
  | completes (i : Nat) (result : Except Error T)
  | expires

def everyAttemptFailed (display : Addr × Error → String) : List (Addr × Error) → Error
  | [(_, error)] => error
  | [] => .status { code := .unavailable, message := "no address to connect to" }
  | failures =>
    .status { code := .unavailable, message := "transport unavailable: " ++ "; ".intercalate (failures.map display) }

namespace State

def startNext (s : State Addr T) : State Addr T :=
  match s.pending with
  | [] => s
  | addr :: pending =>
    { s with pending, started := s.started ++ [addr], attempts := s.attempts ++ [(s.started.length, addr)] }

/-- The end of a round, and the condition of the loop. -/
def loop (display : Addr × Error → String) (s : State Addr T) : State Addr T :=
  { s with
    more := !s.pending.isEmpty
    result := if s.attempts.isEmpty then some (.error (everyAttemptFailed display s.failures)) else s.result }

end State

def start (display : Addr × Error → String) (addrs : List Addr) : State Addr T :=
  (State.startNext { pending := addrs }).loop display

def step (display : Addr × Error → String) (s : State Addr T) : Action T → Option (State Addr T)
  | .completes i result =>
    if s.result.isSome then none
    else
      (s.attempts.lookup i).map fun addr =>
        let s := { s with attempts := s.attempts.filter (·.1 ≠ i) }
        match result with
        | .ok connection => { s with result := some (.ok (addr, connection)) }
        | .error error => (State.startNext { s with failures := s.failures ++ [(addr, error)] }).loop display
  | .expires => if s.result.isNone ∧ s.more then some (s.startNext.loop display) else none

def Action.success : Action T → Option (Nat × T)
  | .completes i (.ok connection) => some (i, connection)
  | _ => none

variable {display : Addr × Error → String} {addrs : List Addr} {s s' : State Addr T} {actions : List (Action T)}

theorem startNext_result : s.startNext.result = s.result := by
  unfold State.startNext
  split <;> rfl

theorem startNext_pending (h : s.startNext.attempts = []) : s.startNext.pending = [] := by
  unfold State.startNext at h ⊢
  split at h
  · assumption
  · simp at h

/-- An attempt that was started runs until it completes. -/
structure Attempts (addrs : List Addr) (actions : List (Action T)) (s : State Addr T) : Prop where
  all : s.started ++ s.pending = addrs
  addr : ∀ i addr, (i, addr) ∈ s.attempts → s.started[i]? = some addr
  each : ∀ i < s.started.length, (∃ addr, (i, addr) ∈ s.attempts) ∨ ∃ result, .completes i result ∈ actions

theorem Attempts.startNext (h : Attempts addrs actions s) : Attempts addrs actions s.startNext := by
  unfold State.startNext
  split
  · exact h
  · next addr pending hp =>
    refine ⟨by simp [← h.all, hp], fun i a hi => ?_, fun i hi => ?_⟩
    · rcases List.mem_append.mp hi with hi | hi
      · have hi := h.addr i a hi
        rwa [List.getElem?_append_left (List.getElem?_eq_some_iff.mp hi).1]
      · cases List.mem_singleton.mp hi
        simp
    · simp only [List.length_append, List.length_singleton] at hi
      by_cases hlt : i < s.started.length
      · exact (h.each i hlt).imp_left fun ⟨a, ha⟩ => ⟨a, List.mem_append_left _ ha⟩
      · exact .inl ⟨addr, by simp [show i = s.started.length by omega]⟩

theorem Attempts.completes (h : Attempts addrs actions s) (i : Nat) (result : Except Error T) :
    Attempts addrs (actions ++ [.completes i result]) { s with attempts := s.attempts.filter (·.1 ≠ i) } where
  all := h.all
  addr j a hj := h.addr j a (List.mem_of_mem_filter hj)
  each j hj := by
    by_cases hji : j = i
    · exact .inr ⟨result, by simp [hji]⟩
    · exact (h.each j hj).imp (fun ⟨a, ha⟩ => ⟨a, by simpa [hji] using ha⟩) fun ⟨r, hr⟩ => ⟨r, by simp [hr]⟩

/-- Waits for attempts, and returns the first success or, with none left, an error. -/
structure Returns (display : Addr × Error → String) (addrs : List Addr) (actions : List (Action T))
    (s : State Addr T) : Prop where
  waits : s.result = none → s.attempts ≠ []
  success : match actions.findSome? Action.success with
    | none => ∀ x, s.result ≠ some (.ok x)
    | some (i, connection) => ∃ addr, addrs[i]? = some addr ∧ s.result = some (.ok (addr, connection))
  failure : ∀ e, s.result = some (.error e) → e = everyAttemptFailed display s.failures ∧ s.attempts = [] ∧
    s.pending = []

theorem Returns.no_success (h : Returns display addrs actions s) (hr : ∀ x, s.result ≠ some (.ok x)) :
    actions.findSome? Action.success = none := by
  have hs := h.success
  split at hs
  · assumption
  · obtain ⟨_, -, hs⟩ := hs
    exact absurd hs (hr _)

theorem returns_loop (hr : s.result = none) (hf : actions.findSome? Action.success = none) :
    Returns display addrs actions (s.startNext.loop display) := by
  unfold State.loop
  by_cases hem : s.startNext.attempts = []
  · simp only [hem, List.isEmpty_nil, if_true]
    exact ⟨nofun, by simp [hf], fun e he => ⟨by simpa using he.symm, rfl, startNext_pending hem⟩⟩
  · simp only [List.isEmpty_iff, hem, if_false, startNext_result, hr]
    exact ⟨fun _ => hem, by simp [hf], nofun⟩

theorem mem_of_lookup {l : List (Nat × Addr)} {i : Nat} {addr : Addr} (h : l.lookup i = some addr) : (i, addr) ∈ l := by
  obtain ⟨before, after, rfl, -⟩ := List.lookup_eq_some_iff.mp h
  simp

theorem step_keeps {a : Action T} (h : Attempts addrs actions s) (hret : Returns display addrs actions s)
    (hs : step display s a = some s') :
    Attempts addrs (actions ++ [a]) s' ∧ Returns display addrs (actions ++ [a]) s' := by
  cases a with
  | expires =>
    obtain ⟨⟨hr, -⟩, rfl⟩ := of_guard hs
    rw [Option.isNone_iff_eq_none] at hr
    have hno := hret.no_success (by simp [hr])
    have h : Attempts addrs (actions ++ [.expires]) s := { h with each := by simpa using h.each }
    exact ⟨{ h.startNext with }, returns_loop hr (by simp [hno, Action.success])⟩
  | completes i result =>
    obtain ⟨hr, hs⟩ := Option.ite_none_left_eq_some.mp hs
    obtain ⟨addr, hl, rfl⟩ := Option.map_eq_some_iff.mp hs
    rw [Option.not_isSome_iff_eq_none] at hr
    have hno := hret.no_success (by simp [hr])
    have hc := h.completes i result
    cases result with
    | error error =>
      have hc : Attempts addrs (actions ++ [.completes i (.error error)]) { s with
        attempts := s.attempts.filter (·.1 ≠ i), failures := s.failures ++ [(addr, error)] } := { hc with }
      exact ⟨{ hc.startNext with }, returns_loop hr (by simp [hno, Action.success])⟩
    | ok connection =>
      have hi := h.addr i addr (mem_of_lookup hl)
      have ha : addrs[i]? = some addr := by
        rw [← h.all, List.getElem?_append_left (List.getElem?_eq_some_iff.mp hi).1, hi]
      exact ⟨{ hc with }, nofun, by simp [hno, Action.success, ha], nofun⟩

/-- The attempts start in the order of the list, one for each entry. The first one to succeed is the result, and an
error is returned only when all have failed. -/
theorem happy_eyeballs_tries_all (hrun : run (step display) (start display addrs) actions = some s) :
    s.started <+: addrs ∧ (s.result = none → s.attempts ≠ []) ∧
      (match actions.findSome? Action.success with
      | none => ∀ x, s.result ≠ some (.ok x)
      | some (i, connection) => ∃ addr, addrs[i]? = some addr ∧ s.result = some (.ok (addr, connection))) ∧
      ∀ e, s.result = some (.error e) → s.started = addrs ∧ e = everyAttemptFailed display s.failures ∧
        ∀ i < addrs.length, ∃ error, .completes i (.error error) ∈ actions := by
  have hstart : Attempts addrs ([] : List (Action T)) { pending := addrs } := ⟨rfl, by simp, by simp⟩
  obtain ⟨h, hret⟩ := run_induction (P := fun done t => Attempts addrs done t ∧ Returns display addrs done t)
    (s := start display addrs) ⟨{ hstart.startNext with }, returns_loop rfl rfl⟩
    (fun _ _ _ _ h hs => step_keeps h.1 h.2 hs) hrun
  refine ⟨⟨_, h.all⟩, hret.waits, hret.success, fun e he => ?_⟩
  obtain ⟨heq, hem, hp⟩ := hret.failure e he
  have hall := h.all
  rw [hp, List.append_nil] at hall
  refine ⟨hall, heq, fun i hi => ?_⟩
  obtain ⟨addr, ha⟩ | ⟨error | connection, hmem⟩ := h.each i (hall ▸ hi)
  · simp [hem] at ha
  · exact ⟨error, hmem⟩
  · cases List.findSome?_eq_none_iff.mp (hret.no_success (by simp [he])) _ hmem

/-- The second attempt starts when the delay expires, and the third when the first has failed. -/
theorem happy_eyeballs_tries_third : ∃ s, run (step (fun _ => "")) (start (fun _ => "") [10, 20, 10])
    [.expires, .completes 0 (.error .encode), .completes 2 (.ok ())] = some s ∧ s.result = some (.ok (10, ())) := by
  refine ⟨_, rfl, ?_⟩
  obtain ⟨addr, ha, hr⟩ := (@happy_eyeballs_tries_all Nat Unit (fun _ => "") [10, 20, 10] _
    [.expires, .completes 0 (.error .encode), .completes 2 (.ok ())] rfl).2.2.1
  cases ha
  exact hr

end TrevRpc.Rust.HappyEyeballs
