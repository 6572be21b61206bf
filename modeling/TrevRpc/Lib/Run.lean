import Mathlib.Algebra.Order.Ring.Nat
import Mathlib.Data.List.Basic
import Mathlib.Data.List.Infix

/-!
# Runs of a state machine

A run is the list of actions that a machine took. What may happen from outside is a choice of the next action.
-/

namespace TrevRpc.Run

variable {σ α : Type*}

/-- The state after `actions`, or `none` if one of them was not possible. -/
def run (step : σ → α → Option σ) : σ → List α → Option σ
  | s, [] => some s
  | s, a :: rest => (step s a).bind fun s' => run step s' rest

theorem of_guard {c : Prop} [Decidable c] {s s' : σ} (h : (if c then some s else none) = some s') : c ∧ s = s' :=
  (Option.ite_none_right_eq_some.mp h).imp_right Option.some.inj

theorem of_guard_not {c : Prop} [Decidable c] {s s' : σ} (h : (if c then none else some s) = some s') : ¬ c ∧ s = s' :=
  (Option.ite_none_left_eq_some.mp h).imp_right Option.some.inj

def trace {β : Type*} (out : σ → α → List β) (step : σ → α → Option σ) : σ → List α → List β
  | _, [] => []
  | s, a :: rest =>
    match step s a with
    | none => []
    | some s' => out s a ++ trace out step s' rest

/-- Every step of the run meets `ok` in the state before the step. -/
def Along (ok : σ → α → Prop) (step : σ → α → Option σ) : σ → List α → Prop
  | _, [] => True
  | s, a :: rest => ok s a ∧ ∀ s', step s a = some s' → Along ok step s' rest

instance decidableAlong (ok : σ → α → Prop) [∀ s a, Decidable (ok s a)] (step : σ → α → Option σ) :
    (s : σ) → (actions : List α) → Decidable (Along ok step s actions)
  | _, [] => isTrue trivial
  | s, a :: rest =>
    match h : step s a with
    | none => decidable_of_iff (ok s a) (by simp [Along, h])
    | some s' =>
      have := decidableAlong ok step s' rest
      decidable_of_iff (ok s a ∧ Along ok step s' rest) (by simp [Along, h])

/-- `P` holds in every state of the run, of that state and the actions that led to it. -/
def Always (P : List α → σ → Prop) (step : σ → α → Option σ) (s : σ) (actions : List α) : Prop :=
  ∀ done s', done <+: actions → run step s done = some s' → P done s'

variable {step : σ → α → Option σ} {ok : σ → α → Prop} {s s' : σ} {a : α} {actions : List α}

@[simp] theorem run_nil : run step s [] = some s := rfl

theorem run_append (xs ys : List α) : run step s (xs ++ ys) = (run step s xs).bind fun s' => run step s' ys := by
  induction xs generalizing s with
  | nil => rfl
  | cons x xs ih =>
    simp only [List.cons_append, run]
    cases step s x with
    | none => rfl
    | some t => simpa using ih

theorem run_snoc : run step s (actions ++ [a]) = (run step s actions).bind fun t => step t a := by
  rw [run_append]
  congr 1
  funext t
  simp [run]

theorem run_snoc_eq_some :
    run step s (actions ++ [a]) = some s' ↔ ∃ t, run step s actions = some t ∧ step t a = some s' := by
  rw [run_snoc, Option.bind_eq_some_iff]

theorem trace_snoc {β : Type*} {out : σ → α → List β} {t : σ} (hrun : run step s actions = some t)
    (hs : step t a = some s') :
    trace out step s (actions ++ [a]) = trace out step s actions ++ out t a := by
  induction actions generalizing s with
  | nil =>
    obtain rfl : s = t := Option.some.inj hrun
    simp [trace, hs]
  | cons x xs ih =>
    obtain ⟨u, hu, hr⟩ := Option.bind_eq_some_iff.mp hrun
    simp only [List.cons_append, trace, hu]
    rw [ih hr, List.append_assoc]

theorem along_snoc :
    Along ok step s (actions ++ [a]) ↔
      Along ok step s actions ∧ ∀ t, run step s actions = some t → ok t a := by
  induction actions generalizing s with
  | nil => simp [Along]
  | cons x xs ih =>
    simp only [List.cons_append, Along, run, Option.bind_eq_some_iff, ih]
    constructor
    · rintro ⟨hx, h⟩
      exact ⟨⟨hx, fun t ht => (h t ht).1⟩, fun t ⟨u, hu, hrun⟩ => (h u hu).2 t hrun⟩
    · rintro ⟨⟨hx, h⟩, hl⟩
      exact ⟨hx, fun t ht => ⟨h t ht, fun u hu => hl u ⟨t, ht, hu⟩⟩⟩

/-- A condition for `ok` at every step, taken to each step. -/
theorem along_of_imp {c : Prop} (h : c → Along ok step s actions) : Along (fun s a => c → ok s a) step s actions := by
  induction actions generalizing s with
  | nil => trivial
  | cons a rest ih => exact ⟨fun hc => (h hc).1, fun s' hs => ih fun hc => (h hc).2 s' hs⟩

theorem along_and {ok' : σ → α → Prop} (h : Along ok step s actions) (h' : Along ok' step s actions) :
    Along (fun s a => ok s a ∧ ok' s a) step s actions := by
  induction actions generalizing s with
  | nil => trivial
  | cons a rest ih => exact ⟨⟨h.1, h'.1⟩, fun s' hs => ih (h.2 s' hs) (h'.2 s' hs)⟩

variable {P : List α → σ → Prop}

theorem always_snoc :
    Always P step s (actions ++ [a]) ↔
      Always P step s actions ∧ ∀ t, run step s (actions ++ [a]) = some t → P (actions ++ [a]) t := by
  simp only [Always, List.prefix_concat_iff]
  constructor
  · intro h
    exact ⟨fun done t hd => h done t (Or.inr hd), fun t => h _ t (Or.inl rfl)⟩
  · rintro ⟨h, hl⟩ done t (rfl | hd)
    · exact hl t
    · exact h done t hd

variable {Q : σ → Prop}

theorem always_state_nil : Always (fun _ => Q) step s [] ↔ Q s := by
  constructor
  · intro h
    exact h [] s List.prefix_rfl rfl
  · rintro h done t hd ht
    rw [List.prefix_nil.mp hd] at ht
    exact Option.some.inj ht ▸ h

theorem always_state_cons :
    Always (fun _ => Q) step s (a :: actions) ↔
      Q s ∧ ∀ t, step s a = some t → Always (fun _ => Q) step t actions := by
  constructor
  · intro h
    refine ⟨h [] s List.nil_prefix rfl, fun t ht done u hd hu => h (a :: done) u ?_ ?_⟩
    · exact (List.prefix_cons_inj a).mpr hd
    · rw [run, ht]
      exact hu
  · rintro ⟨hs, h⟩ done u hd hu
    rcases List.prefix_cons_iff.mp hd with rfl | ⟨done, rfl, hr⟩
    · exact Option.some.inj hu ▸ hs
    · obtain ⟨t, ht, hu⟩ := Option.bind_eq_some_iff.mp hu
      exact h t ht done u hr hu

instance decidableAlways (Q : σ → Prop) [DecidablePred Q] (step : σ → α → Option σ) :
    (s : σ) → (actions : List α) → Decidable (Always (fun _ => Q) step s actions)
  | s, [] => decidable_of_iff (Q s) always_state_nil.symm
  | s, a :: rest =>
    match h : step s a with
    | none => decidable_of_iff (Q s) (by simp [always_state_cons, h])
    | some t =>
      have := decidableAlways Q step t rest
      decidable_of_iff (Q s ∧ Always (fun _ => Q) step t rest) (by simp [always_state_cons, h])

/-! ## Rules -/

theorem run_induction (h0 : P [] s)
    (hs : ∀ done t a t', P done t → step t a = some t' → P (done ++ [a]) t')
    (hrun : run step s actions = some s') : P actions s' := by
  induction actions using List.reverseRecOn generalizing s' with
  | nil =>
    simp only [run_nil, Option.some.injEq] at hrun
    exact hrun ▸ h0
  | append_singleton xs x ih =>
    obtain ⟨t, ht, hx⟩ := run_snoc_eq_some.mp hrun
    exact hs xs t x s' (ih ht) hx

/-- `run_induction` for a run whose steps all meet `ok`. -/
theorem run_induction_along (h0 : P [] s)
    (hs : ∀ done t a t', P done t → ok t a → step t a = some t' → P (done ++ [a]) t')
    (hok : Along ok step s actions) (hrun : run step s actions = some s') : P actions s' := by
  induction actions using List.reverseRecOn generalizing s' with
  | nil =>
    simp only [run_nil, Option.some.injEq] at hrun
    exact hrun ▸ h0
  | append_singleton xs x ih =>
    obtain ⟨t, ht, hx⟩ := run_snoc_eq_some.mp hrun
    rw [along_snoc] at hok
    exact hs xs t x s' (ih hok.1 ht) (hok.2 t ht) hx

theorem along_of_append {done rest : List α} (h : Along ok step s (done ++ rest)) : Along ok step s done := by
  induction rest using List.reverseRecOn with
  | nil => simpa using h
  | append_singleton ys y ih =>
    rw [← List.append_assoc, along_snoc] at h
    exact ih h.1

/-- When a step that meets `ok` keeps `I`, what `I` gives always holds in a run of such steps. -/
theorem always_of_along {I : List α → σ → Prop} (h0 : I [] s)
    (hP : ∀ done t, I done t → P done t)
    (good : ∀ done t a t', I done t → ok t a → step t a = some t' → I (done ++ [a]) t')
    (hok : Along ok step s actions) : Always P step s actions := by
  rintro done t ⟨rest, rfl⟩ ht
  exact hP done t (run_induction_along h0 good (along_of_append hok) ht)

/-- When each step keeps `I` and makes `μ` smaller, a run takes no more steps than `μ` was. -/
theorem run_length_le {I : σ → Prop} (μ : σ → Nat) (own : α → Prop) (h0 : I s)
    (keep : ∀ t a t', I t → step t a = some t' → I t') (less : ∀ t a t', I t → own a → step t a = some t' → μ t' < μ t)
    (hown : ∀ a ∈ actions, own a) (hrun : run step s actions = some s') : actions.length + μ s' ≤ μ s := by
  induction actions generalizing s with
  | nil =>
    obtain rfl := Option.some.inj hrun
    simp
  | cons a rest ih =>
    obtain ⟨t, ht, hr⟩ := Option.bind_eq_some_iff.mp hrun
    have hle := ih (keep s a t h0 ht) (fun b hb => hown b (List.mem_cons_of_mem a hb)) hr
    have hlt := less s a t h0 (hown a List.mem_cons_self) ht
    rw [List.length_cons]
    omega

/-- When a step from `Q` keeps `I`, what `I` and `Q` give always holds in a run that always meets `Q`. -/
theorem always_of_always {I : List α → σ → Prop} (h0 : I [] s)
    (hP : ∀ done t, I done t → Q t → P done t)
    (good : ∀ done t a t', I done t → Q t → step t a = some t' → I (done ++ [a]) t')
    (hQ : Always (fun _ => Q) step s actions) : Always P step s actions := by
  intro done t hd ht
  refine hP done t ?_ (hQ done t hd ht)
  induction done using List.reverseRecOn generalizing t with
  | nil => exact Option.some.inj ht ▸ h0
  | append_singleton xs x ih =>
    obtain ⟨u, hu, hx⟩ := run_snoc_eq_some.mp ht
    have hxs : xs <+: actions := (List.prefix_append xs [x]).trans hd
    exact good xs u x t (ih u hxs hu) (hQ xs u hxs hu) hx

/-- When `ok` steps keep `I` and others break `P`, then `P` always holds in exactly the runs of `ok` steps. -/
theorem always_iff_along {I : List α → σ → Prop} (h0 : I [] s)
    (hP : ∀ done t, I done t → P done t)
    (good : ∀ done t a t', I done t → ok t a → step t a = some t' → I (done ++ [a]) t')
    (bad : ∀ done t a t', I done t → ¬ ok t a → step t a = some t' → ¬ P (done ++ [a]) t')
    (hrun : run step s actions = some s') :
    Always P step s actions ↔ Along ok step s actions := by
  refine ⟨fun h => ?_, always_of_along h0 hP good⟩
  induction actions using List.reverseRecOn generalizing s' with
  | nil => trivial
  | append_singleton xs x ih =>
    obtain ⟨t, ht, hx⟩ := run_snoc_eq_some.mp hrun
    rw [always_snoc] at h
    have hxs : Along ok step s xs := ih ht h.1
    rw [along_snoc]
    refine ⟨hxs, fun u hu => ?_⟩
    obtain rfl : t = u := by
      rw [ht] at hu
      exact Option.some.inj hu
    by_contra hbad
    exact bad xs t x s' (run_induction_along h0 good hxs ht) hbad hx (h.2 s' hrun)

end TrevRpc.Run
