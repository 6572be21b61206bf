import Mathlib.Algebra.Order.Ring.Nat
import Mathlib.Data.Finset.Dedup
import Mathlib.Data.Finset.Card

/-! # The keys stored last -/

namespace TrevRpc.Recent

variable {κ : Type*} [DecidableEq κ]

/-- The keys of a store for `cap` of them, oldest first, after `key` is stored. -/
def push (cap : Nat) (keys : List κ) (key : κ) : List κ :=
  let others := keys.filter (· ≠ key)
  (if others.length = cap then others.tail else others) ++ [key]

/-- The keys after the last `key` of a history, newest first. -/
def since (key : κ) (history : List κ) : List κ := history.reverse.takeWhile (· ≠ key)

@[simp] theorem since_concat_self (key : κ) (history : List κ) : since key (history ++ [key]) = [] := by
  simp [since]

theorem since_concat {key o : κ} (h : o ≠ key) (history : List κ) :
    since key (history ++ [o]) = o :: since key history := by
  simp [since, h]

/-- Behind a key in the store is what came since; since a key that is not there, too many others came. -/
structure Tracks (cap : Nat) (history keys : List κ) : Prop where
  nodup : keys.Nodup
  length_le : keys.length ≤ cap
  stored : ∀ key ∈ keys, key ∈ history
  position : ∀ key ∈ history,
    (∃ older newer, keys = older ++ key :: newer ∧ (since key history).toFinset = newer.toFinset) ∨
      key ∉ keys ∧ cap ≤ (since key history).toFinset.card

variable {cap : Nat} {history keys : List κ}

theorem Tracks.nil (cap : Nat) : Tracks cap ([] : List κ) [] :=
  ⟨List.nodup_nil, Nat.zero_le _, by simp, by simp⟩

theorem push_eq (cap : Nat) (keys : List κ) (key : κ) :
    ∃ os, push cap keys key = os ++ [key] ∧ os.Sublist (keys.filter (· ≠ key)) ∧
      (keys.length ≤ cap → 0 < cap → os.length < cap) := by
  unfold push
  simp only
  split_ifs with hf
  · refine ⟨_, rfl, List.tail_sublist _, fun _ hcap => ?_⟩
    rw [List.length_tail, hf]
    omega
  · refine ⟨_, rfl, List.Sublist.refl _, fun hlen _ => ?_⟩
    have := List.length_filter_le (· ≠ key) keys
    omega

theorem push_position (cap : Nat) {key o : κ} {older newer : List κ} (hn : (older ++ o :: newer).Nodup)
    (hne : o ≠ key) :
    (∃ o', push cap (older ++ o :: newer) key = o' ++ o :: (newer.filter (· ≠ key) ++ [key])) ∨
      o ∉ push cap (older ++ o :: newer) key ∧ (newer.filter (· ≠ key)).length + 1 = cap := by
  have hf : (older ++ o :: newer).filter (· ≠ key) =
      older.filter (· ≠ key) ++ o :: newer.filter (· ≠ key) := by
    rw [List.filter_append, List.filter_cons_of_pos (by simpa using hne)]
  have hfr : o ∉ newer := (List.nodup_cons.mp (List.nodup_append.mp hn).2.1).1
  unfold push
  simp only [hf]
  split_ifs with hfu
  · cases hold : older.filter (· ≠ key) with
    | nil =>
      rw [hold] at hfu
      refine .inr ⟨?_, by simpa using hfu⟩
      simp [hfr, hne]
    | cons oldest rest => exact .inl ⟨rest, by simp⟩
  · exact .inl ⟨older.filter (· ≠ key), by simp⟩

theorem Tracks.push (h : Tracks cap history keys) (hcap : 0 < cap) (key : κ) :
    Tracks cap (history ++ [key]) (Recent.push cap keys key) := by
  obtain ⟨os, hp, hsub, hlen⟩ := push_eq cap keys key
  have hot : ∀ o ∈ os, o ∈ keys ∧ o ≠ key := by
    intro o ho
    simpa using List.mem_filter.mp (hsub.subset ho)
  refine ⟨?_, ?_, ?_, ?_⟩
  · rw [hp, List.nodup_append]
    refine ⟨(h.nodup.filter _).sublist hsub, List.nodup_singleton key, ?_⟩
    intro o ho k hk
    rw [List.mem_singleton.mp hk]
    exact (hot o ho).2
  · rw [hp, List.length_append, List.length_singleton]
    exact hlen h.length_le hcap
  · intro o ho
    rw [hp] at ho
    rcases List.mem_append.mp ho with ho | ho
    · exact List.mem_append_left _ (h.stored o (hot o ho).1)
    · exact List.mem_append_right _ ho
  · intro o ho
    by_cases hne : o = key
    · subst hne
      exact .inl ⟨os, [], hp, by simp⟩
    · have hmem : o ∈ history := by simpa [hne] using ho
      rw [since_concat (Ne.symm hne)]
      rcases h.position o hmem with ⟨older, n, rfl, hs⟩ | ⟨hg, hm⟩
      · have hset : (key :: since o history).toFinset = (n.filter (· ≠ key) ++ [key]).toFinset := by
          ext k
          simp only [List.toFinset_cons, hs, Finset.mem_insert, List.mem_toFinset, List.mem_append,
            List.mem_filter, decide_eq_true_eq, List.mem_singleton]
          tauto
        rcases push_position cap h.nodup hne with ⟨o', hat⟩ | ⟨hg, hf⟩
        · exact .inl ⟨o', _, hat, hset⟩
        · refine .inr ⟨hg, ?_⟩
          rw [hset, List.toFinset_card_of_nodup, List.length_append, List.length_singleton, hf]
          have hn : n.Nodup := (List.nodup_cons.mp (List.nodup_append.mp h.nodup).2.1).2
          rw [List.nodup_append]
          refine ⟨hn.filter _, List.nodup_singleton key, ?_⟩
          intro k hk k' hk'
          rw [List.mem_singleton.mp hk']
          simpa using (List.mem_filter.mp hk).2
      · refine .inr ⟨?_, hm.trans (Finset.card_le_card ?_)⟩
        · rw [hp]
          simp only [List.mem_append, List.mem_singleton, not_or]
          exact ⟨fun hin => hg (hot o hin).1, hne⟩
        · simp

/-- A key is in the store exactly if it was stored, and fewer than `cap` others were since. -/
theorem Tracks.mem_iff (h : Tracks cap history keys) (key : κ) :
    key ∈ keys ↔ key ∈ history ∧ (since key history).toFinset.card < cap := by
  constructor
  · intro hkey
    have hmem := h.stored key hkey
    refine ⟨hmem, ?_⟩
    rcases h.position key hmem with ⟨o, n, rfl, hs⟩ | ⟨hg, -⟩
    · rw [hs]
      have hlen := h.length_le
      rw [List.length_append, List.length_cons] at hlen
      have hcard := n.toFinset_card_le
      omega
    · exact absurd hkey hg
  · rintro ⟨hmem, hfew⟩
    rcases h.position key hmem with ⟨o, n, rfl, -⟩ | ⟨-, hmany⟩
    · simp
    · omega

end TrevRpc.Recent
