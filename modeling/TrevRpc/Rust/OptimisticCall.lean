import TrevRpc.Rust.Verdict

/-! # An optimistic call: the reader of its first stream and the upload of its requests -/

open TrevRpc.Run

namespace TrevRpc.Rust.Replay

variable {W : Type} {s s' : System W} {actions : List (Action W)}

def Action.decision : Action W → Option Decision
  | .settle => some .settled
  | .refuse => some .refused
  | _ => none

theorem State.decision_pollUpload (w : W) (ready : Bool) (s : State W) (budget : Budget) :
    (s.pollUpload w ready budget).2.1.decision = s.decision := by
  obtain ⟨source, hso, -⟩ := s.pollSource_spec ready
  rcases hpol : s.pollSource ready with ⟨polled, state⟩
  obtain rfl : state = { s with source } := by rw [← hso, hpol]
  unfold pollUpload
  split
  · rfl
  · cases s.held <;> simp [hpol]
  · rw [hpol]
    split_ifs
    · rfl
    · rcases polled with (_ | (_ | request)) | _ <;> try rfl
      dsimp only
      split
      · next hk =>
        obtain ⟨-, -, rfl⟩ := State.keep_eq_some hk
        rfl
      · rfl

theorem decision_step {a : Action W} (ha : a.decision = none) (hs : step s a = some s') :
    s'.state.decision = s.state.decision := by
  cases a with
  | pollUpload w re =>
    cases hs
    exact State.decision_pollUpload w re _ _
  | settle => cases ha
  | refuse => cases ha
  | pollReplayed _ | lend _ | regain _ =>
    obtain ⟨_, -, rfl⟩ := Option.map_eq_some_iff.mp hs
    rfl

theorem decision_step_pending {a : Action W} {d : Decision} (ha : a.decision = some d)
    (hp : s.state.decision = .pending) (hs : step s a = some s') : s'.state.decision = d := by
  cases a with
  | settle =>
    cases ha
    simp only [step, State.settle, hp] at hs
    cases hs
    rfl
  | refuse =>
    cases ha
    cases hs
    rfl
  | _ => cases ha

variable {items : List Item} {budget : Budget}

/-- With at most one decision, no refusal comes after one. -/
theorem inv_of_decisions (hrun : run step (start items budget) actions = some s)
    (hlen : (actions.filterMap Action.decision).length ≤ 1) :
    Inv items (budget.available + budget.others) True s ∧
      s.state.decision = (actions.filterMap Action.decision).headD .pending := by
  induction actions using List.reverseRecOn generalizing s with
  | nil =>
    cases hrun
    exact ⟨.start items budget, rfl⟩
  | append_singleton done a ih =>
    obtain ⟨t, ht, hs⟩ := run_snoc_eq_some.mp hrun
    rw [List.filterMap_append] at hlen ⊢
    cases ha : a.decision with
    | none =>
      simp only [List.filterMap_cons, ha, List.filterMap_nil, List.append_nil] at hlen ⊢
      obtain ⟨hinv, hdec⟩ := ih ht hlen
      refine ⟨hinv.step (fun _ => ?_) hs, (decision_step ha hs).trans hdec⟩
      cases a <;> trivial
    | some d =>
      simp only [List.filterMap_cons, ha, List.filterMap_nil, List.length_append] at hlen ⊢
      have hnil : done.filterMap Action.decision = [] := List.length_eq_zero_iff.mp (by simpa using hlen)
      rw [hnil] at ih ⊢
      obtain ⟨hinv, hdec⟩ := ih ht (Nat.zero_le _)
      refine ⟨hinv.step (fun _ => ?_) hs, decision_step_pending ha hdec hs⟩
      cases a <;> trivial

/-- One stream carries all the requests. It is the second only if the server refused the first. -/
structure Carried (refused : Bool) (items : List Item) (s : System W) : Prop where
  upload : s.replayed = none → s.handed ++ (s.state.held.map .ok).toList ++ s.state.source.getD [] = items
  replay : ∀ r, s.replayed = some r → refused = true ∧ messages (s.yielded ++ r.contents) = messages items

theorem Inv.carried {total : Nat} {refused : Bool} (h : Inv items total True s)
    (hr : s.state.decision = .refused → refused = true) : Carried refused items s where
  upload hnone := h.taken fun hdec => by
    obtain ⟨r, hsome, -⟩ := h.replayed hdec
    cases hnone.symm.trans hsome
  replay r hsome := by
    have hdec : s.state.decision = .refused := by
      by_contra hne
      cases hsome.symm.trans (h.unreplayed hne).1
    obtain ⟨r', hsome', hm⟩ := h.replayed hdec
    cases hsome.symm.trans hsome'
    exact ⟨hr hdec, hm trivial⟩

variable {Enc Dec : Type}

/-- Whatever the first stream reads, and however the reader's decision falls between the polls of the upload. -/
theorem optimistic_call_carries_once (payloads : Payloads) (z : Libzstd Enc Dec) (maxFrameSize : Nat)
    {reading : ResponseReading Dec} (hnew : reading.New) (hreplay : reading.replay = true) (raws : List RawFrame)
    {decoded : Decoded Dec} (hdecoded : decoded ∈ decodeFrames payloads z maxFrameSize reading raws)
    (hreader : actions.filterMap Action.decision <+: (decoded.2.asks (W := W)).filterMap Action.decision)
    (hrun : run step (start items budget) actions = some s) :
    Carried (firstRefuses payloads raws) items s := by
  obtain ⟨hrefused, -, hexclusive⟩ := decodeFrames_verdict hnew hreplay _ decoded hdecoded
  have hasks : (decoded.2.asks (W := W)).filterMap Action.decision =
      if decoded.2.refused then [.refused] else if decoded.2.settled then [.settled] else [] := by
    unfold ResponseReading.asks
    cases hs : decoded.2.settled <;> cases hr : decoded.2.refused <;> simp_all [Action.decision]
  rw [hasks] at hreader
  obtain ⟨hinv, hdecision⟩ := inv_of_decisions hrun (hreader.length_le.trans (by split_ifs <;> simp))
  rw [← hrefused]
  refine hinv.carried fun hdecided => ?_
  rw [hdecided] at hdecision
  cases hds : actions.filterMap Action.decision with
  | nil => simp [hds] at hdecision
  | cons d ds =>
    rw [hds] at hdecision hreader
    obtain rfl : Decision.refused = d := hdecision
    by_contra hne
    rw [if_neg hne] at hreader
    split_ifs at hreader <;> simp at hreader

theorem optimistic_call_carries_once_held : ∃ s r,
    run step (start [.ok [1, 1, 1], .ok [2, 2], .ok [3]] ⟨4, 0⟩) refusedWithHeld = some s ∧ s.replayed = some r ∧
      messages (s.yielded ++ r.contents) = [[1, 1, 1], [2, 2], [3]] := by
  have h := optimistic_call_carries_once samplePayloads stored 64
    (⟨rfl, rfl, rfl⟩ : ResponseReading.New { accept := .none, replay := true }) rfl [(FrameType.status, [1])]
    List.mem_cons_self (List.prefix_rfl : refusedWithHeld.filterMap Action.decision <+: _)
    (rfl : run step (start [.ok [1, 1, 1], .ok [2, 2], .ok [3]] ⟨4, 0⟩) refusedWithHeld = some _)
  exact ⟨_, _, rfl, rfl, (h.replay _ rfl).2⟩

end TrevRpc.Rust.Replay
