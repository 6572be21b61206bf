import TrevRpc.Rust.Datagram.Responses

/-!
# Merged requests (`MergedRequests` of `datagram.rs`)

The messages of a call's stream and those that came as datagrams. What the stream has ready at a poll, and when
datagrams arrive, is the choice of the run.
-/

open TrevRpc.Run

open TrevRpc.Rust.Responses (Source)

namespace TrevRpc.Rust.Requests

abbrev Output := List (Source × Except Error Bytes)

structure Merged where
  requests : List (Except Error Bytes)
  queue : List Bytes := []
  datagrams : Bool := true
  count : Nat := 0
  requestsDone : Bool := false
  datagramsFirst : Bool := false
  output : Output := []
  ended : Bool := false
  arrived : List Bytes := []
  deriving DecidableEq

abbrev Polls := Merged → Poll (Option (Source × Except Error Bytes)) × Merged

namespace Merged

/-- A queue that is dropped takes no message. -/
def arrive (messages : List Bytes) (s : Merged) : Merged :=
  if s.datagrams then { s with queue := s.queue ++ messages, arrived := s.arrived ++ messages } else s

/-- The gated stream, if it is ready. At its end, `drain` dispatches what has arrived. -/
def pollRequests (ready : Bool) (drained : List Bytes) : Polls := fun s =>
  if s.requestsDone || !ready then (.pending, s)
  else
    match s.requests with
    | .error error :: rest =>
      (.ready (some (.stream, .error error)), { s with requests := rest, requestsDone := true, datagrams := false })
    | .ok message :: rest => (.ready (some (.stream, .ok message)), { s with requests := rest })
    | [] => (.pending, { s.arrive drained with requestsDone := true })

/-- Without a sender, an empty queue is as pending as any other until the stream has ended. -/
def pollDatagrams : Polls := fun s =>
  if !s.datagrams then (.pending, s)
  else
    match s.queue with
    | message :: rest => (.ready (some (.datagram, .ok message)), { s with queue := rest, count := s.count + 1 })
    | [] => (.pending, { s with datagrams := !s.requestsDone })

def orElse (first second : Polls) : Polls := fun s =>
  match first s with
  | (.pending, s) => second s
  | result => result

def pollBoth (ready : Bool) (drained : List Bytes) : Polls := fun s =>
  if s.datagramsFirst then orElse pollDatagrams (pollRequests ready drained) s
  else orElse (pollRequests ready drained) pollDatagrams s

def pollRest : Polls := fun s =>
  if s.requestsDone then orElse pollDatagrams (fun s => (.ready none, { s with datagrams := false })) s
  else (.pending, s)

def pollNext (ready : Bool) (drained : List Bytes) : Polls := fun s =>
  orElse (pollBoth ready drained) pollRest { s with datagramsFirst := !s.datagramsFirst }

def hand (result : Poll (Option (Source × Except Error Bytes))) (s : Merged) : Merged :=
  match result with
  | .pending => s
  | .ready none => { s with ended := true }
  | .ready (some out) => { s with output := s.output ++ [out] }

end Merged

inductive Action
  | arrive (message : Bytes)
  | poll (ready : Bool) (drained : List Bytes)
  deriving DecidableEq

/-- The merged stream may be polled after its end. -/
def step (s : Merged) : Action → Option Merged
  | .arrive message => some (s.arrive [message])
  | .poll ready drained =>
    let (result, s) := s.pollNext ready drained
    some (s.hand result)

/-! ## What is merged -/

def yielded (source : Source) (output : Output) : List (Except Error Bytes) :=
  (output.filter (·.1 = source)).map (·.2)

def Failed (output : Output) : Prop := ∃ source error, (source, .error error) ∈ output

variable (source : Source) (o : Output)

@[simp] theorem yielded_snoc (out : Source × Except Error Bytes) :
    yielded source (o ++ [out]) = yielded source o ++ if out.1 = source then [out.2] else [] := by
  unfold yielded
  split_ifs with h <;> simp [h]

@[simp] theorem failed_snoc_ok (message : Bytes) : Failed (o ++ [(source, .ok message)]) ↔ Failed o := by
  simp [Failed]

@[simp] theorem failed_snoc_error (error : Error) : Failed (o ++ [(source, .error error)]) :=
  ⟨source, error, by simp⟩

structure Inv (items : List (Except Error Bytes)) (s : Merged) : Prop where
  stream : yielded .stream s.output ++ s.requests = items
  queued : s.datagrams = true → yielded .datagram s.output ++ s.queue.map .ok = s.arrived.map .ok
  delivered : yielded .datagram s.output <+: s.arrived.map .ok
  count : s.count = (yielded .datagram s.output).length
  done : s.requestsDone = true → Failed s.output ∨ s.requests = []
  dropped : s.datagrams = false →
    s.requestsDone = true ∧ (Failed s.output ∨ yielded .datagram s.output = s.arrived.map .ok)
  failed : Failed s.output → s.datagrams = false
  ended : s.ended = true → s.datagrams = false

namespace Inv

open Merged

attribute [local simp] Merged.hand

variable {items : List (Except Error Bytes)} {s : Merged}

theorem arrive (h : Inv items s) (messages : List Bytes) : Inv items (s.arrive messages) := by
  unfold Merged.arrive
  split_ifs with hd
  · have hq := h.queued hd
    refine { h with queued := fun _ => ?_, delivered := ?_, dropped := fun hn => absurd (hd.symm.trans hn) nofun }
    · simp only [List.map_append, ← hq, List.append_assoc]
    · rw [List.map_append]
      exact h.delivered.trans (List.prefix_append ..)
  · exact h

def Keeps (items : List (Except Error Bytes)) (polls : Polls) : Prop :=
  ∀ s, Inv items s → Inv items ((polls s).2.hand (polls s).1)

theorem keeps_pollDatagrams : Keeps items pollDatagrams := by
  intro s h
  unfold pollDatagrams
  split_ifs with hd
  · exact h
  · replace hd : s.datagrams = true := by simpa using hd
    have ha := h.queued hd
    split
    · next message rest hq =>
      rw [hq, List.map_cons] at ha
      refine ⟨?_, ?_, ?_, ?_, ?_, fun hn => absurd (hd.symm.trans hn) nofun, ?_, h.ended⟩
      · simpa using h.stream
      · simpa using fun _ => ha
      · simp [← ha]
      · simp [h.count]
      · simpa using h.done
      · simpa using h.failed
    · next hq =>
      refine { h with
        queued := fun _ => ha, dropped := fun hn => ⟨by simpa using hn, .inr (by simpa [hq] using ha)⟩
        failed := fun hf => absurd (hd.symm.trans (h.failed hf)) nofun
        ended := fun he => absurd (hd.symm.trans (h.ended he)) nofun }

theorem keeps_pollRequests (ready : Bool) (drained : List Bytes) : Keeps items (pollRequests ready drained) := by
  intro s h
  unfold pollRequests
  split_ifs with hr
  · exact h
  · have hs := h.stream
    replace hr : s.requestsDone = false := by
      rw [Bool.or_eq_true, not_or, Bool.not_eq_true] at hr
      exact hr.1
    split
    · next error rest hi =>
      rw [hi] at hs
      refine ⟨by simpa using hs, nofun, ?_, ?_, ?_, ?_, fun _ => rfl, fun _ => rfl⟩
      · simpa using h.delivered
      · simpa using h.count
      · simp
      · simp
    · next message rest hi =>
      rw [hi] at hs
      refine ⟨by simpa using hs, ?_, ?_, ?_, fun hn => absurd (hr.symm.trans hn) nofun, ?_, ?_, h.ended⟩
      · simpa using h.queued
      · simpa using h.delivered
      · simpa using h.count
      · simpa using h.dropped
      · simpa using h.failed
    · next hi =>
      have ha := h.arrive drained
      refine { ha with done := fun _ => .inr ?_, dropped := fun hn => ⟨rfl, (ha.dropped hn).2⟩ }
      unfold Merged.arrive
      split_ifs <;> exact hi

theorem Keeps.orElse {first second : Polls} (hf : Keeps items first) (hs : Keeps items second) :
    Keeps items (orElse first second) := by
  intro s h
  have hinv := hf s h
  unfold Merged.orElse
  split
  · next t ht =>
    rw [ht] at hinv
    exact hs t hinv
  · exact hinv

theorem dropped_of_pending (hr : s.requestsDone = true) (hp : (pollDatagrams s).1 = .pending) :
    (pollDatagrams s).2.datagrams = false := by
  unfold pollDatagrams at hp ⊢
  split_ifs at hp ⊢ with hd
  · simpa using hd
  · cases hq : s.queue with
    | nil => simp [hr]
    | cons message rest => simp [hq] at hp

theorem keeps_pollRest : Keeps items pollRest := by
  intro s h
  unfold pollRest
  split_ifs with hr
  · have hinv := keeps_pollDatagrams s h
    have hd := dropped_of_pending hr
    unfold Merged.orElse
    split
    · next t ht =>
      rw [ht] at hinv hd
      have hd := hd rfl
      exact { hinv with
        queued := nofun, dropped := fun _ => hinv.dropped hd, failed := fun _ => rfl, ended := fun _ => rfl }
    · exact hinv
  · exact h

theorem keeps_pollNext (ready : Bool) (drained : List Bytes) : Keeps items (pollNext ready drained) := by
  intro s h
  have hboth : Keeps items (pollBoth ready drained) := by
    intro s h
    unfold pollBoth
    split_ifs
    · exact Keeps.orElse keeps_pollDatagrams (keeps_pollRequests ready drained) s h
    · exact Keeps.orElse (keeps_pollRequests ready drained) keeps_pollDatagrams s h
  exact hboth.orElse keeps_pollRest _ { h with }

theorem step {a : Action} {s' : Merged} (h : Inv items s) (hs : Requests.step s a = some s') : Inv items s' := by
  cases a with
  | arrive message =>
    cases hs
    exact h.arrive [message]
  | poll ready drained =>
    cases hs
    exact keeps_pollNext ready drained s h

/-- A merged stream that has ended or failed has dropped both sources. -/
theorem silent_step {a : Action} {s' : Merged} (hr : s.requestsDone = true) (hd : s.datagrams = false)
    (hs : Requests.step s a = some s') : s'.requestsDone = true ∧ s'.datagrams = false ∧ s'.output = s.output := by
  cases a with
  | arrive message =>
    cases hs
    simp [Merged.arrive, hr, hd]
  | poll ready drained =>
    cases hs
    simp [pollBoth, pollRest, Merged.orElse, pollDatagrams, pollRequests, hr, hd]

end Inv

structure Merges (items : List (Except Error Bytes)) (s : Merged) : Prop where
  stream : yielded .stream s.output <+: items
  datagrams : yielded .datagram s.output <+: s.arrived.map .ok
  count : s.count = (yielded .datagram s.output).length
  all : s.ended = true → ¬ Failed s.output →
    yielded .stream s.output = items ∧ yielded .datagram s.output = s.arrived.map .ok
  silent : s.ended = true ∨ Failed s.output → ∀ more t, run step s more = some t → t.output = s.output

/-- Whatever is ready at each poll, each message is yielded once and in the order of its source. -/
theorem requests_merge_once {items : List (Except Error Bytes)} {actions : List Action} {s : Merged}
    (hrun : run step { requests := items } actions = some s) : Merges items s := by
  have h : Inv items s := run_induction (P := fun _ => Inv items)
    ⟨rfl, fun _ => rfl, List.prefix_rfl, rfl, by simp, by simp, by simp [Failed], by simp⟩
      (fun _ _ _ _ => Inv.step) hrun
  refine ⟨?_, h.delivered, h.count, fun hended hok => ?_, fun hover more t hmore => ?_⟩
  · rw [← h.stream]
    exact List.prefix_append ..
  · obtain ⟨hdone, hall⟩ := h.dropped (h.ended hended)
    have hstream := h.stream
    rw [(h.done hdone).resolve_left hok, List.append_nil] at hstream
    exact ⟨hstream, hall.resolve_left hok⟩
  · have hd : s.datagrams = false := hover.elim h.ended h.failed
    refine (run_induction (P := fun _ t => t.requestsDone = true ∧ t.datagrams = false ∧ t.output = s.output)
      ⟨(h.dropped hd).1, hd, rfl⟩ ?_ hmore).2.2
    rintro - u a u' ⟨hr, hd, ho⟩ hs
    obtain ⟨hr', hd', ho'⟩ := Inv.silent_step hr hd hs
    exact ⟨hr', hd', ho'.trans ho⟩

/-- The second message arrives as the end of the stream is seen, and is yielded before it. -/
theorem requests_merge_once_drained :
    let actions := [.arrive [1], .poll true [], .poll true [], .poll true [[2]], .poll true [], .poll true []]
    ∃ s, run step { requests := [.ok [7]] } actions = some s ∧ s.ended = true ∧
      s.output.map (·.2) = [.ok [1], .ok [7], .ok [2]] ∧ Merges [.ok [7]] s :=
  ⟨_, rfl, rfl, rfl, @requests_merge_once _ [.arrive [1], .poll true [], .poll true [], .poll true [[2]], .poll true [],
    .poll true []] _ rfl⟩

end TrevRpc.Rust.Requests
