import TrevRpc.Go.Qmux.System
import TrevRpc.Go.Qmux.Turns

/-!
# A QMux session and any peer

The peer may send any bytes, and a record may be built at any time. A value that is too large to encode makes the code
panic, which no run here rules out.
-/

open TrevRpc.Run

namespace TrevRpc.Go.Qmux

inductive Event
  | call (c : Call)
  | receive (record : List UInt8)
  | closeWithError (code : Nat) (message : List UInt8)
  -- The idle timeout, or the end of the connection.
  | stop (err : SessionError) (mode : CloseMode)
  | build
  deriving DecidableEq

namespace Session

variable {calm : Bool} {s s' : Session} {e : Event} {events : List Event} {role : Role} {v : Version}
    {params : Parameters}
  {streamSendBuffer : Nat}

def step (s : Session) : Event → Option Session
  | .call c => s.call c
  | .receive record => some (s.receive record)
  | .closeWithError code message => some (s.closeWithError code message)
  | .stop err mode => if mode = .modeOpen then none else some (s.closeWith err none mode)
  | .build => some s.buildRecord.1

/-- What holds in every reachable state. -/
structure Good (s : Session) : Prop where
  sane : s.Sane
  readyOk : s.ReadyOk

theorem good_start (h : newSession role v params streamSendBuffer = some s) : s.Good := by
  obtain ⟨body, -, rfl⟩ := newSession_eq_some h
  refine ⟨⟨?_, le_rfl, fun _ => ⟨rfl, rfl, fun _ => rfl⟩⟩, List.nodup_nil, ?_⟩
  · intro id st hget
    cases hget
  · intro id
    refine iff_of_false List.not_mem_nil ?_
    rintro ⟨st, hget, -⟩
    cases hget

theorem path_call {c : Call} (hs : s.Sane) (h : s.call c = some s') : Path calm s s' := by
  cases c with
  | openStreamSync =>
    cases h
    exact path_openStreamSync s
  | acceptStream =>
    cases h
    exact path_acceptStream s
  | read id size =>
    obtain ⟨st, hget, rfl⟩ := Option.map_eq_some_iff.mp h
    exact path_read hs hget size
  | write id p g =>
    obtain ⟨st, hget, rfl⟩ := Option.map_eq_some_iff.mp h
    exact path_write hs hget p g
  | close id =>
    obtain ⟨st, hget, rfl⟩ := Option.map_eq_some_iff.mp h
    exact path_close hs hget
  | cancelWrite id code =>
    obtain ⟨st, hget, rfl⟩ := Option.map_eq_some_iff.mp h
    exact path_cancelWrite hget code
  | cancelRead id code =>
    obtain ⟨st, hget, rfl⟩ := Option.map_eq_some_iff.mp h
    exact path_cancelRead hs hget code
  | sendPing =>
    cases h
    exact (Change.sendPing s).path

def Moves (calm : Bool) (s s' : Session) : Prop :=
  ∃ s₁ n, Path calm s s₁ ∧ Path calm { s₁ with connReceived := s₁.connReceived + n } s'

theorem Moves.of_path (h : Path calm s s') : Moves calm s s' := ⟨s', 0, h, .refl⟩

def Calm (s : Session) : Event → Prop
  | .receive record => s.recordRaisesFinished record.length record = false
  | _ => True

instance (s : Session) : DecidablePred s.Calm
  | .receive record => inferInstanceAs (Decidable (s.recordRaisesFinished record.length record = false))
  | .call _ | .closeWithError .. | .stop .. | .build => inferInstanceAs (Decidable True)

/-- The session refuses no frame. -/
def Accepts (s : Session) : Event → Prop
  | .receive record => (s.handleRecord record).2 = none
  | _ => True

instance (s : Session) : DecidablePred s.Accepts
  | .receive record => inferInstanceAs (Decidable ((s.handleRecord record).2 = none))
  | .call _ | .closeWithError .. | .stop .. | .build => inferInstanceAs (Decidable True)

theorem path_step (hs : s.Sane) (hc : calm = true → s.Calm e) (hok : s.Accepts e) (h : s.step e = some s') :
    Path calm s s' ∨ e = .build ∧ s' = s.buildRecord.1 := by
  cases e with
  | call c => exact .inl (path_call hs h)
  | receive r =>
    cases h
    have hl : Leads calm s (s.handleRecord r) := leads_handleRecord hs hc
    change (s.handleRecord r).2 = none at hok
    unfold receive
    generalize s.handleRecord r = result at hl hok ⊢
    obtain ⟨s', err⟩ := result
    obtain rfl : err = none := hok
    exact .inl hl.path
  | closeWithError code message =>
    cases h
    refine .inl (path_closeWith s _ ?_ (by decide))
    intro f hf
    obtain rfl := Option.mem_some.mp hf
    rfl
  | stop err mode =>
    simp only [step] at h
    split_ifs at h with hm
    cases h
    exact .inl (path_closeWith s err (by simp) hm)
  | build => exact .inr ⟨rfl, (Option.some.inj h).symm⟩

theorem moves_step (hs : s.Sane) (hc : calm = true → s.Calm e) (h : s.step e = some s') :
    Moves calm s s' ∨ e = .build ∧ s' = s.buildRecord.1 := by
  by_cases hok : s.Accepts e
  · exact (path_step hs hc hok h).imp_left .of_path
  · cases e with
    | receive r =>
      cases h
      have hl : Leads calm s (s.handleRecord r) := leads_handleRecord hs hc
      change ¬ (s.handleRecord r).2 = none at hok
      unfold receive
      generalize s.handleRecord r = result at hl hok ⊢
      obtain ⟨s', err⟩ := result
      obtain ⟨err, rfl⟩ := Option.ne_none_iff_exists'.mp hok
      obtain ⟨s₁, n, hp, rfl, -⟩ := hl
      exact .inl ⟨s₁, n, hp, path_fail _ err⟩
    | call | closeWithError | stop | build => exact absurd trivial hok

theorem not_calm : false = true → s.Calm e := fun h => absurd h Bool.false_ne_true

theorem Path.good (h : Path calm s s') (hs : s.Good) : s'.Good := ⟨h.sane hs.sane, h.readyOk hs.readyOk⟩

theorem Good.counted (hs : s.Good) (n : Nat) : Good { s with connReceived := n } :=
  ⟨hs.sane.counted n, { hs.readyOk with }⟩

theorem Moves.good (h : Moves calm s s') (hs : s.Good) : s'.Good := by
  obtain ⟨s₁, n, hp, hp'⟩ := h
  exact hp'.good ((hp.good hs).counted _)

theorem Good.step (hs : s.Good) (h : s.step e = some s') : s'.Good := by
  rcases moves_step hs.sane not_calm h with hm | ⟨-, rfl⟩
  · exact hm.good hs
  · obtain ⟨hem, hr, -⟩ := buildRecord_spec hs.sane hs.readyOk
    exact ⟨hem.sane hs.sane, hr⟩

theorem invariant {I : Session → Prop} (hstart : newSession role v params streamSendBuffer = some s) (h0 : I s)
    (hcount : ∀ s n, I s → I { s with connReceived := n })
    (hc : ∀ s s', s.Good → Change false s s' → I s → I s')
    (hemi : ∀ b b' : Building, b.1.Sane → Emit b b' → I b.1 → I b'.1)
    (hrun : run step s events = some s') : s'.Good ∧ I s' := by
  have hp {s s' : Session} (hs : s.Good) (h : Path false s s') (hI : I s) : I s' := by
    induction h with
    | refl => exact hI
    | tail hbe hl ih => exact hc _ _ (Path.good hbe hs) hl ih
  refine run_induction (P := fun _ s => s.Good ∧ I s) ⟨good_start hstart, h0⟩ ?_ hrun
  rintro _ s e s' ⟨hs, hI⟩ hst
  refine ⟨hs.step hst, ?_⟩
  rcases moves_step hs.sane not_calm hst with ⟨s₁, n, h₁, h₂⟩ | ⟨-, rfl⟩
  · exact hp ((h₁.good hs).counted _) h₂ (hcount _ _ (hp hs h₁ hI))
  · obtain ⟨hem, -, -⟩ := buildRecord_spec hs.sane hs.readyOk
    have hbu {b b' : Building} (h : Emits b b') (hb : b.1.Sane) (hIb : I b.1) : I b'.1 := by
      induction h with
      | refl => exact hIb
      | tail hbe hl ih => exact hemi _ _ (Emits.sane hbe hb) hl ih
    exact hbu hem hs.sane hI

end Session

end TrevRpc.Go.Qmux
