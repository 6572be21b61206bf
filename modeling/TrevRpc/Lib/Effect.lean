import Mathlib.Algebra.Order.Ring.Nat
import Mathlib.Tactic.Common

/-! # Computations that change a state and may fail -/

namespace TrevRpc

inductive Poll (α : Type)
  | ready (value : α)
  | pending

def Effect (ε σ α : Type) : Type := σ → Except ε α × σ

namespace Effect

variable {ε σ τ α β : Type}

instance : Monad (Effect ε σ) where
  pure a := fun s => (.ok a, s)
  bind m f := fun s =>
    match m s with
    | (.error e, s) => (.error e, s)
    | (.ok a, s) => f a s

def fail (e : ε) : Effect ε σ α := fun s => (.error e, s)

def lift (x : Except ε α) : Effect ε σ α := fun s => (x, s)

variable {m : Effect ε σ α} {f : α → Effect ε σ β} {s s' : σ} {a : α} {b : β}

theorem bind_ok (h : m s = (.ok a, s')) : (m >>= f) s = f a s' := by
  simp only [Bind.bind, h]

theorem bind_error {e : ε} (h : m s = (.error e, s')) : (m >>= f) s = (.error e, s') := by
  simp only [Bind.bind, h]

theorem bind_eq_ok : (m >>= f) s = (.ok b, s') ↔ ∃ a t, m s = (.ok a, t) ∧ f a t = (.ok b, s') := by
  rcases h : m s with ⟨e | a, t⟩
  · rw [bind_error h]
    simp
  · rw [bind_ok h]
    constructor
    · intro hf
      exact ⟨a, t, rfl, hf⟩
    · rintro ⟨_, _, heq, hf⟩
      cases heq
      exact hf

theorem id_map_eq (m : Effect ε σ α) : id <$> m = m := by
  funext s
  rcases h : m s with ⟨e | a, t⟩
  · exact bind_error h
  · exact bind_ok h

theorem bind_assoc_eq {γ : Type} (m : Effect ε σ α) (f : α → Effect ε σ β) (g : β → Effect ε σ γ) :
    m >>= f >>= g = m >>= fun a => f a >>= g := by
  funext s
  rcases h : m s with ⟨e | a, t⟩
  · rw [bind_error (bind_error h), bind_error h]
  · simp only [bind, h]

instance : LawfulMonad (Effect ε σ) := LawfulMonad.mk' _ id_map_eq (fun _ _ => rfl) bind_assoc_eq

/-! ## What a success leaves -/

/-- A success leaves no more than there was. -/
def Within (size : σ → Nat) (m : Effect ε σ α) : Prop := ∀ s a s', m s = (.ok a, s') → size s' ≤ size s

variable {size : σ → Nat}

theorem Within.pure (a : α) : Within size (Pure.pure a : Effect ε σ α) := by
  intro s _ s' h
  cases h
  exact Nat.le_refl _

theorem Within.lift (x : Except ε α) : Within size (lift x : Effect ε σ α) := by
  intro s _ s' h
  cases h
  exact Nat.le_refl _

theorem Within.fail (e : ε) : Within size (fail e : Effect ε σ α) := by
  intro s _ s' h
  cases h

theorem Within.bind (hm : Within size m) (hf : ∀ a, Within size (f a)) : Within size (m >>= f) := by
  intro s b s' h
  obtain ⟨a, t, ht, hs'⟩ := bind_eq_ok.mp h
  exact Nat.le_trans (hf a t b s' hs') (hm s a t ht)

theorem Within.ite {c : Prop} [Decidable c] {m n : Effect ε σ α} (hm : Within size m) (hn : Within size n) :
    Within size (if c then m else n) := by
  split_ifs
  · exact hm
  · exact hn

/-! ## What is seen of a computation -/

def seen (view : σ → τ) (x : Except ε α × σ) : Except ε α × τ := (x.1, view x.2)

def Sees (view : σ → τ) (m : Effect ε σ α) (n : Effect ε τ α) : Prop := ∀ s, seen view (m s) = n (view s)

variable {view : σ → τ} {n : Effect ε τ α} {g : α → Effect ε τ β}

theorem Sees.eq (h : Sees view m n) {x : Except ε α} (hm : m s = (x, s')) : n (view s) = (x, view s') := by
  rw [← h s, hm]
  rfl

theorem Sees.pure (a : α) : Sees view (Pure.pure a : Effect ε σ α) (Pure.pure a) := fun _ => rfl

theorem Sees.lift (x : Except ε α) : Sees view (lift x) (lift x) := fun _ => rfl

theorem Sees.fail (e : ε) : Sees view (fail e : Effect ε σ α) (fail e) := fun _ => rfl

theorem seen_bind {t : τ} (hm : seen view (m s) = n t) (hf : ∀ a, Sees view (f a) (g a)) :
    seen view ((m >>= f) s) = (n >>= g) t := by
  rcases h : m s with ⟨e | a, s'⟩ <;> rw [h] at hm
  · rw [bind_error h, bind_error hm.symm]
    rfl
  · rw [bind_ok h, bind_ok hm.symm]
    exact hf a s'

theorem Sees.bind (hm : Sees view m n) (hf : ∀ a, Sees view (f a) (g a)) : Sees view (m >>= f) (n >>= g) :=
  fun s => seen_bind (hm s) hf

end Effect

end TrevRpc
