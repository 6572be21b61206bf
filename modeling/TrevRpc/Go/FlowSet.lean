import TrevRpc.Lib.Recent
import TrevRpc.Lib.Run

/-!
# The flows that have ended (`flowSet` of `datagram.go`)

From `next` around, the ring holds the flows in the order in which they were added. Adding one again changes nothing.
-/

open TrevRpc.Run

namespace TrevRpc.Go

structure FlowSet where
  capacity : Nat
  ring : List Nat := []
  next : Nat := 0
  set : Finset Nat := ∅

def FlowSet.add (s : FlowSet) (id : Nat) : FlowSet :=
  if s.capacity = 0 then s
  else if id ∈ s.set then s
  else if s.ring.length < s.capacity then { s with ring := s.ring ++ [id], set := insert id s.set }
  else
    { s with
      ring := s.ring.set s.next id
      next := (s.next + 1) % s.capacity
      set := insert id (s.set.erase (s.ring.getD s.next 0)) }

def FlowSet.has (s : FlowSet) (id : Nat) : Bool := id ∈ s.set

/-- The server's flows, with those that `add` put into the set, oldest first. -/
structure FlowMux where
  flows : Finset Nat := ∅
  ended : FlowSet
  added : List Nat := []

inductive FlowCall
  | register (id : Nat)
  | release (id : Nat)

/-- `register` fails for a live flow, and only the first `release` of a flow does something. -/
def FlowMux.step (m : FlowMux) : FlowCall → Option FlowMux
  | .register id => if id ∈ m.flows then none else some { m with flows := insert id m.flows }
  | .release id =>
    if id ∈ m.flows then
      some {
        flows := m.flows.erase id
        ended := m.ended.add id
        added := if m.ended.has id then m.added else m.added ++ [id] }
    else none

namespace FlowSet

variable {s : FlowSet} {id : Nat} {keys : List Nat}

structure Holds (s : FlowSet) (keys : List Nat) : Prop where
  nodup : keys.Nodup
  set : s.set = keys.toFinset
  length : keys.length ≤ s.capacity
  ring : ∃ a b, keys = a ++ b ∧ s.ring = b ++ a ∧ s.next = b.length ∧ (b = [] ∨ keys.length = s.capacity ∧ a ≠ [])

theorem Holds.push_eq (h : s.Holds keys) (hid : id ∉ s.set) :
    Recent.push s.capacity keys id = (if keys.length = s.capacity then keys.tail else keys) ++ [id] := by
  rw [h.set, List.mem_toFinset] at hid
  have hf : keys.filter (· ≠ id) = keys := List.filter_eq_self.mpr fun o ho => decide_eq_true fun heq => hid (heq ▸ ho)
  simp only [Recent.push, hf]

theorem Holds.add (h : s.Holds keys) (hcap : 0 < s.capacity) (hid : id ∉ s.set) :
    (s.add id).Holds (Recent.push s.capacity keys id) := by
  rw [h.push_eq hid]
  obtain ⟨hnodup, hset, hlen, a, b, rfl, hr, hn, hfull⟩ := h
  rw [FlowSet.add, if_neg hcap.ne', if_neg hid, hr, hn]
  rw [hset, List.mem_toFinset] at hid
  rw [List.length_append] at hlen
  by_cases hroom : a.length + b.length < s.capacity
  · obtain rfl : b = [] := hfull.resolve_right fun hf => by grind
    rw [if_pos (by simpa using hroom), if_neg (by simpa using hroom.ne)]
    refine ⟨by grind, ?_, by grind, a ++ [id], [], by simp, by simp, rfl, .inl rfl⟩
    ext o
    simp [hset]
  · have hle : a.length + b.length = s.capacity := by omega
    obtain ⟨x, a, rfl⟩ : ∃ x a', a = x :: a' := List.exists_cons_of_ne_nil (by grind)
    rw [if_neg (by grind), if_pos (by grind)]
    refine ⟨by grind, ?_, by grind, ?_⟩
    · ext o
      simp [hset]
      grind
    · cases a with
      | nil => exact ⟨b ++ [id], [], by simp, by simp, by simp [← hle, Nat.add_comm], .inl rfl⟩
      | cons y a =>
        refine ⟨y :: a, b ++ [id], by simp, by simp, ?_, .inr ⟨by grind, by simp⟩⟩
        rw [List.length_append, List.length_singleton]
        exact Nat.mod_eq_of_lt (by grind)

end FlowSet

def FlowMux.Remembers (capacity : Nat) (m : FlowMux) : Prop :=
  m.ended.capacity = capacity ∧ ∃ keys, m.ended.Holds keys ∧ Recent.Tracks capacity m.added keys

theorem FlowMux.Remembers.step {capacity : Nat} {m m' : FlowMux} {c : FlowCall} (h : m.Remembers capacity)
    (hcap : 0 < capacity)
    (hs : m.step c = some m') : m'.Remembers capacity := by
  obtain ⟨rfl, keys, hk, ht⟩ := h
  cases c with
  | register o =>
    obtain ⟨-, rfl⟩ := of_guard_not hs
    exact ⟨rfl, keys, hk, ht⟩
  | release o =>
    obtain ⟨-, rfl⟩ := of_guard hs
    have hc : (m.ended.add o).capacity = m.ended.capacity := by
      unfold FlowSet.add
      split_ifs <;> rfl
    by_cases ho : o ∈ m.ended.set
    · simp only [FlowSet.add, FlowSet.has, ho, if_true, ite_self, decide_true]
      exact ⟨rfl, keys, hk, ht⟩
    · simp only [FlowSet.has, ho, decide_false, Bool.false_eq_true, if_false]
      exact ⟨hc, _, hk.add hcap ho, ht.push hcap o⟩

end TrevRpc.Go
