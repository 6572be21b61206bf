import Mathlib.Data.List.Basic
import Mathlib.Tactic.Linarith

/-!
# Which attempts must validate their address (`RetryPolicy` of `udp.rs`)

Instants are nanoseconds, and tokens billionths of an attempt.
-/

namespace TrevRpc.Rust

def u128Max : Nat := 2 ^ 128 - 1

/-- The rate is not zero in the source, which nothing here needs. -/
inductive AddressValidation
  | off
  | always
  | aboveRate (rate : UInt32)

structure RetryPolicy where
  validation : AddressValidation
  tokens : Nat
  last : Nat

namespace RetryPolicy

def attempt : Nat := 1000000000

def capacity (policy : RetryPolicy) : Nat :=
  match policy.validation with
  | .aboveRate rate => min (rate.toNat * attempt) u128Max
  | _ => 0

def new (validation : AddressValidation) (now : Nat) : RetryPolicy :=
  let policy : RetryPolicy := { validation, tokens := 0, last := now }
  { policy with tokens := policy.capacity }

def refill (policy : RetryPolicy) (rate now : Nat) : RetryPolicy :=
  let elapsed := now - policy.last
  if 0 < elapsed then
    { policy with
      tokens := min (min (policy.tokens + min (elapsed * rate) u128Max) u128Max) policy.capacity
      last := now }
  else policy

def shouldRetry (policy : RetryPolicy) (now : Nat) : Bool × RetryPolicy :=
  match policy.validation with
  | .off => (false, policy)
  | .always => (true, policy)
  | .aboveRate rate =>
    let policy := policy.refill rate.toNat now
    if attempt ≤ policy.tokens then (false, { policy with tokens := policy.tokens - attempt }) else (true, policy)

/-- The policy after attempts at `times`. -/
def after (policy : RetryPolicy) (times : List Nat) :
    RetryPolicy := times.foldl (fun p now => (p.shouldRetry now).2) policy

/-- How many of the attempts at `times` pass without a Retry from `a` to `b`. -/
def passed (a b : Nat) : RetryPolicy → List Nat → Nat
  | _, [] => 0
  | policy, now :: times =>
    (if a ≤ now ∧ now ≤ b ∧ (policy.shouldRetry now).1 = false then 1 else 0) +
      passed a b (policy.shouldRetry now).2 times

structure Sound (r : UInt32) (p : RetryPolicy) : Prop where
  validation : p.validation = .aboveRate r
  tokens : p.tokens ≤ r.toNat * attempt

variable {r : UInt32} {p : RetryPolicy}

theorem new_sound (r : UInt32) (now : Nat) : (new (.aboveRate r) now).Sound r where
  validation := rfl
  tokens := by simp [new, RetryPolicy.capacity]

variable (h : p.Sound r)
include h

theorem Sound.capacity : p.capacity = r.toNat * attempt := by
  have hr := r.toNat_lt
  simp only [RetryPolicy.capacity, h.validation, attempt, u128Max]
  omega

/-- No sum is cut at the width of the integers before it is cut at the capacity. -/
theorem Sound.refill_tokens (now : Nat) : (p.refill r.toNat now).tokens =
    min (p.tokens + (now - p.last) * r.toNat) (r.toNat * attempt) := by
  have hr := r.toNat_lt
  have ht := h.tokens
  unfold refill
  dsimp only
  split_ifs with he
  · simp only [h.capacity, attempt, u128Max]
    generalize (now - p.last) * r.toNat = back
    omega
  · simp [Nat.le_zero.mp (Nat.not_lt.mp he), ht]

theorem Sound.shouldRetry (now : Nat) :
    (p.shouldRetry now).2.Sound r ∧ (p.shouldRetry now).2.last = max p.last now ∧
      (p.shouldRetry now).2.tokens + (if (p.shouldRetry now).1 then 0 else attempt) =
        (p.refill r.toNat now).tokens ∧
      ((p.shouldRetry now).1 = true → (p.refill r.toNat now).tokens < attempt) := by
  have hp : (p.refill r.toNat now).validation = .aboveRate r ∧
      (p.refill r.toNat now).last = max p.last now := by
    unfold refill
    dsimp only
    split_ifs
    · exact ⟨h.validation, by dsimp only; omega⟩
    · exact ⟨h.validation, by omega⟩
  have ht : (p.refill r.toNat now).tokens ≤ r.toNat * attempt := h.refill_tokens now ▸ min_le_right _ _
  simp only [RetryPolicy.shouldRetry, h.validation]
  by_cases he : attempt ≤ (p.refill r.toNat now).tokens
  · simp only [he, if_true, Bool.false_eq_true, if_false, Nat.sub_add_cancel]
    exact ⟨⟨hp.1, (Nat.sub_le _ _).trans ht⟩, hp.2, trivial, nofun⟩
  · simp only [he, if_false, if_true, Nat.add_zero]
    exact ⟨⟨hp.1, ht⟩, hp.2, trivial, fun _ => Nat.not_le.mp he⟩

theorem Sound.after (times : List Nat) : (p.after times).Sound r := by
  induction times generalizing p with
  | nil => exact h
  | cons now times ih => exact ih (h.shouldRetry now).1

omit h

theorem cost_le (a b now : Nat) (retry : Bool) :
    (if a ≤ now ∧ now ≤ b ∧ retry = false then 1 else 0) * attempt ≤ if retry then 0 else attempt := by
  split_ifs <;> simp_all

variable {times : List Nat}

theorem passed_eq_zero {a b : Nat} (h : ∀ t ∈ times, b < t) : passed a b p times = 0 := by
  induction times generalizing p with
  | nil => rfl
  | cons now times ih =>
    have hnow := h now List.mem_cons_self
    rw [passed, if_neg (by omega), ih fun t ht => h t (List.mem_cons_of_mem _ ht)]

theorem Sound.passed_le_tokens (h : p.Sound r) (a b : Nat) (hs : times.Pairwise (· ≤ ·)) :
    passed a b p times * attempt ≤ p.tokens + (b - p.last) * r.toNat := by
  induction times generalizing p with
  | nil => simp [passed]
  | cons now times ih =>
    by_cases hb : now ≤ b
    · obtain ⟨h', hlast, htokens, -⟩ := h.shouldRetry now
      have hrest := ih h' (List.pairwise_cons.mp hs).2
      have hin : (now - p.last) * r.toNat + (b - max p.last now) * r.toNat ≤
          (b - p.last) * r.toNat := by
        rw [← Nat.add_mul]
        exact Nat.mul_le_mul_right _ (by omega)
      have hback := (h.refill_tokens now).trans_le (min_le_left _ _)
      rw [hlast] at hrest
      rw [passed, Nat.add_mul]
      have hcost := cost_le a b now (p.shouldRetry now).1
      omega
    · rw [passed_eq_zero fun t ht => ?_, Nat.zero_mul]
      · exact Nat.zero_le _
      · have := List.pairwise_cons.mp hs
        grind

theorem Sound.passed_le (h : p.Sound r) (a b : Nat) (hs : times.Pairwise (· ≤ ·)) :
    passed a b p times * attempt ≤ r.toNat * attempt + (b - a) * r.toNat := by
  induction times generalizing p with
  | nil => simp [passed]
  | cons now times ih =>
    obtain ⟨h', hlast, htokens, -⟩ := h.shouldRetry now
    have htimes := (List.pairwise_cons.mp hs).2
    rw [passed]
    by_cases ha : now < a
    · rw [if_neg (by omega), Nat.zero_add]
      exact ih h' htimes
    · have hrest := h'.passed_le_tokens a b htimes
      have hin : (b - max p.last now) * r.toNat ≤ (b - a) * r.toNat := Nat.mul_le_mul_right _ (by omega)
      have hfull := (h.refill_tokens now).trans_le (min_le_right _ _)
      rw [hlast] at hrest
      rw [Nat.add_mul]
      have hcost := cost_le a b now (p.shouldRetry now).1
      omega

theorem shouldRetry_limits_attempts (rate : UInt32) (start : Nat) {times : List Nat} (hs : times.Pairwise (· ≤ ·)) :
    (∀ a T, passed a (a + T) (new (.aboveRate rate) start) times ≤ rate.toNat + rate.toNat * T / 10 ^ 9) ∧
      ∀ done now left, times = done ++ now :: left →
        let policy := (new (.aboveRate rate) start).after done
        policy.tokens ≤ policy.capacity ∧ policy.capacity = rate.toNat * 10 ^ 9 ∧
          (policy.refill rate.toNat now).tokens =
            min (policy.tokens + (now - policy.last) * rate.toNat) policy.capacity ∧
          ((policy.shouldRetry now).1 = true → (policy.refill rate.toNat now).tokens < 10 ^ 9) := by
  refine ⟨fun a T => ?_, fun done now left _ => ?_⟩
  · have hle := (new_sound rate start).passed_le a (a + T) hs
    rw [Nat.add_sub_cancel_left, Nat.mul_comm T, attempt] at hle
    omega
  · have h := (new_sound rate start).after done
    obtain ⟨-, -, -, hretry⟩ := h.shouldRetry now
    exact ⟨h.capacity ▸ h.tokens, h.capacity, h.capacity ▸ h.refill_tokens now, hretry⟩

theorem shouldRetry_limits_burst :
    passed 7 (7 + 10) (new (.aboveRate 2) 7) [7, 7, 9] = 2 ∧
      passed 7 (7 + 10) (new (.aboveRate 2) 7) [7, 7, 9] ≤ 2 + 2 * 10 / 10 ^ 9 :=
  ⟨by decide, (@shouldRetry_limits_attempts 2 7 [7, 7, 9] (by decide)).1 7 10⟩

end RetryPolicy

end TrevRpc.Rust
