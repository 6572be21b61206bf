import Mathlib.Algebra.Order.BigOperators.Group.List
import Mathlib.Data.Finset.Basic
import TrevRpc.Rust.Datagram.Codec
import TrevRpc.Rust.Delivery
import TrevRpc.Rust.Queue

/-!
# The demultiplexer of a server's datagrams (`Demux` of `datagram.rs`)

Datagrams of flows that a server has not seen yet are held for a while, and flows that ended are remembered.
-/

open TrevRpc.Run

namespace TrevRpc.Rust.Demux

variable {Enc Dec : Type}

def maxHeldDatagrams : Nat := 64

def maxHeldBytes : Nat := 64 * 1024

/-- In nanoseconds. -/
def heldDatagramTtl : Nat := 500 * 1000000

def minEndedFlows : Nat := 16

def endedFlowsPerStream : Nat := 2

def unlimitedStreamsAssumed : Nat := 1024

def queueLimits : Queue.Limits := ⟨4 * 32, 64 * 1024⟩

/-! ## Ended flows -/

structure EndedFlows where
  capacity : Nat
  order : List Nat := []
  set : Finset Nat := ∅

namespace EndedFlows

def contains (e : EndedFlows) (flow : Nat) : Bool := flow ∈ e.set

def evict (capacity : Nat) : List Nat → Finset Nat → List Nat × Finset Nat
  | [], set => ([], set)
  | oldest :: rest, set =>
    if capacity < rest.length + 1 then evict capacity rest (set.erase oldest) else (oldest :: rest, set)

def insert (flow : Nat) (e : EndedFlows) : EndedFlows :=
  if flow ∈ e.set then e
  else
    let (order, set) := evict e.capacity (e.order ++ [flow]) (Insert.insert flow e.set)
    { e with order, set }

def remove (flow : Nat) (e : EndedFlows) : EndedFlows :=
  if flow ∈ e.set then { e with order := e.order.filter (· ≠ flow), set := e.set.erase flow } else e

end EndedFlows

/-! ## Held datagrams -/

structure Held where
  flow : Nat
  messages : Datagram.Messages
  heldAt : Nat

def Held.len (held : Held) : Nat := held.messages.datagram.length

structure HeldDatagrams where
  held : List Held := []
  bytes : Nat := 0

namespace HeldDatagrams

def expireLoop (now : Nat) : List Held → Nat → HeldDatagrams
  | [], bytes => ⟨[], bytes⟩
  | front :: rest, bytes =>
    if now - front.heldAt < heldDatagramTtl then ⟨front :: rest, bytes⟩ else expireLoop now rest (bytes - front.len)

def expire (now : Nat) (h : HeldDatagrams) : HeldDatagrams := expireLoop now h.held h.bytes

def hold (flow : Nat) (messages : Datagram.Messages) (now : Nat) (h : HeldDatagrams) : HeldDatagrams :=
  let h := h.expire now
  let len := messages.datagram.length
  if maxHeldDatagrams ≤ h.held.length || maxHeldBytes < h.bytes + len then h
  else ⟨h.held ++ [⟨flow, messages, now⟩], h.bytes + len⟩

def claimLoop (flow : Nat) : List Held → Nat → List Datagram.Messages × HeldDatagrams
  | [], bytes => ([], ⟨[], bytes⟩)
  | held :: rest, bytes =>
    if held.flow = flow then
      let (claimed, kept) := claimLoop flow rest (bytes - held.len)
      (held.messages :: claimed, kept)
    else
      let (claimed, kept) := claimLoop flow rest bytes
      (claimed, { kept with held := held :: kept.held })

def claim (flow now : Nat) (h : HeldDatagrams) : List Datagram.Messages × HeldDatagrams :=
  let h := h.expire now
  if h.held.all (·.flow ≠ flow) then ([], h) else claimLoop flow h.held h.bytes

end HeldDatagrams

/-! ## The state of a connection -/

inductive Role
  | server
  | client
  deriving DecidableEq

structure Slot where
  sink : Option (Queue.State Bytes Unit)
  accept : Accept

/-- A call with the messages that came before its REQUEST. Once they are queued, it has the flow's guard. -/
structure Call where
  flow : Nat
  early : List Bytes

structure State where
  flows : Nat → Option Slot := fun _ => none
  ended : EndedFlows
  held : HeldDatagrams := {}
  calls : List Call := []

structure Shared where
  role : Role
  prefixBytes : Bytes
  maxFrameSize : Nat

namespace State

variable (z : Libzstd Enc Dec) (shared : Shared)

def setFlow (flow : Nat) (slot : Option Slot) (s : State) : State :=
  { s with flows := Function.update s.flows flow slot }

def push (flow : Nat) (messages : List Bytes) (s : State) : State :=
  match s.flows flow with
  | some { sink := some sink, accept } =>
    let sink := messages.foldl (fun sink message => (sink.trySend queueLimits message message.length).state) sink
    s.setFlow flow (some { sink := some sink, accept })
  | _ => s

def dispatch (datagram : Bytes) (now : Nat) (s : State) : State :=
  match (Datagram.ownDatagram shared.prefixBytes datagram).bind (Datagram.decode · shared.maxFrameSize) with
  | none => s
  | some (flow, messages) =>
    match s.flows flow with
    | some slot =>
      match slot.sink, messages.inflate z slot.accept shared.maxFrameSize with
      | some _, some messages => s.push flow messages
      | _, _ => s
    | none =>
      if shared.role = .server && !s.ended.contains flow then { s with held := s.held.hold flow messages now } else s

def unregister (flow : Nat) (s : State) : State :=
  let s := s.setFlow flow none
  if shared.role = .server then { s with ended := s.ended.insert flow } else s

inductive FlowInUse
  | flowInUse

/-- Registers a flow and claims the datagrams that came before, to be queued without the lock. -/
def openServerFlow (flow : Nat) (streams : Bool) (accept : Accept) (now : Nat) (s : State) : Except FlowInUse State :=
  if flow = 0 ∨ Varint.maxValue < flow then .error .flowInUse
  else if (s.flows flow).isSome then .error .flowInUse
  else
    let (claimed, held) := s.held.claim flow now
    let early := claimed.flatMap fun messages => (messages.inflate z accept shared.maxFrameSize).getD []
    let call := { flow, early := if streams then early else [] }
    let sink : Option (Queue.State Bytes Unit) := if streams then some {} else none
    .ok ({ s with ended := s.ended.remove flow, held, calls := s.calls ++ [call] }.setFlow flow (some { sink, accept }))

end State

def server (maxStreams : Option Nat) : State where
  ended :=
    { capacity := max (min (maxStreams.getD unlimitedStreamsAssumed * endedFlowsPerStream) (2 ^ 64 - 1)) minEndedFlows }

inductive Action
  | dispatch (datagram : Bytes) (now : Nat)
  | openFlow (flow : Nat) (streams : Bool) (accept : Accept) (now : Nat)
  | pushEarly (i : Nat)
  | dropGuard (i : Nat)
  | receive (flow : Nat) (sink : Queue.State Bytes Unit)

def step (z : Libzstd Enc Dec) (shared : Shared) (s : State) : Action → Option State
  | .dispatch datagram now => some (s.dispatch z shared datagram now)
  | .openFlow flow streams accept now =>
    match s.openServerFlow z shared flow streams accept now with
    | .ok s => some s
    | .error _ => some s
  | .pushEarly i =>
    match s.calls[i]? with
    | some ⟨flow, message :: early⟩ => some ({ s with calls := s.calls.set i ⟨flow, early⟩ }.push flow [message])
    | _ => none
  | .dropGuard i =>
    match s.calls[i]? with
    | some ⟨flow, []⟩ => some ({ s with calls := s.calls.eraseIdx i }.unregister shared flow)
    | _ => none
  | .receive flow sink =>
    match s.flows flow with
    | some { sink := some _, accept } => some (s.setFlow flow (some { sink := some sink, accept }))
    | _ => none

/-! ## Ended flows are remembered once -/

structure EndedFlows.Sound (e : EndedFlows) : Prop where
  mem_iff : ∀ flow, flow ∈ e.set ↔ flow ∈ e.order
  nodup : e.order.Nodup
  length_le : e.order.length ≤ e.capacity

namespace EndedFlows

theorem evict_sound (capacity : Nat) {o : List Nat} {set : Finset Nat} (hmem : ∀ flow, flow ∈ set ↔ flow ∈ o)
    (hn : o.Nodup) :
    Sound ⟨capacity, (evict capacity o set).1, (evict capacity o set).2⟩ ∧
      (evict capacity o set).2 ⊆ set := by
  induction o generalizing set with
  | nil => exact ⟨⟨hmem, hn, Nat.zero_le _⟩, subset_rfl⟩
  | cons ol rest ih =>
    obtain ⟨hnot, hr⟩ := List.nodup_cons.mp hn
    unfold evict
    split
    · have hmem' : ∀ flow, flow ∈ set.erase ol ↔ flow ∈ rest := by
        intro flow
        rw [Finset.mem_erase, hmem, List.mem_cons]
        constructor
        · rintro ⟨hne, rfl | hin⟩
          exacts [absurd rfl hne, hin]
        · intro hin
          exact ⟨by rintro rfl; exact hnot hin, .inr hin⟩
      exact ⟨(ih hmem' hr).1, (ih hmem' hr).2.trans (Finset.erase_subset _ _)⟩
    · rename_i hlen
      exact ⟨⟨hmem, hn, by simpa using hlen⟩, subset_rfl⟩

variable {e : EndedFlows} {flow : Nat}

@[simp] theorem insert_capacity : (e.insert flow).capacity = e.capacity := by
  unfold EndedFlows.insert
  split <;> rfl

@[simp] theorem remove_capacity : (e.remove flow).capacity = e.capacity := by
  unfold EndedFlows.remove
  split <;> rfl

theorem Sound.insert (h : e.Sound) (flow : Nat) :
    (e.insert flow).Sound ∧ ∀ o ∈ (e.insert flow).set, o = flow ∨ o ∈ e.set := by
  unfold EndedFlows.insert
  split
  · exact ⟨h, fun _ => .inr⟩
  · rename_i hnot
    have hmem : ∀ o, o ∈ Insert.insert flow e.set ↔ o ∈ e.order ++ [flow] := by
      intro o
      rw [Finset.mem_insert, h.mem_iff, List.mem_append, List.mem_singleton, or_comm]
    have hn : (e.order ++ [flow]).Nodup := by
      rw [← List.concat_eq_append, List.nodup_concat]
      exact ⟨fun hin => hnot ((h.mem_iff flow).mpr hin), h.nodup⟩
    obtain ⟨hs, hsub⟩ := evict_sound e.capacity hmem hn
    exact ⟨hs, fun o hin => Finset.mem_insert.mp (hsub hin)⟩

theorem Sound.remove (h : e.Sound) (flow : Nat) : (e.remove flow).Sound := by
  unfold EndedFlows.remove
  split
  · refine ⟨fun other => ?_, h.nodup.filter _, (List.length_filter_le _ _).trans h.length_le⟩
    simp [h.mem_iff, and_comm]
  · exact h

theorem mem_remove {o : Nat} : o ∈ (e.remove flow).set ↔ o ≠ flow ∧ o ∈ e.set := by
  unfold EndedFlows.remove
  split
  · exact Finset.mem_erase
  · rename_i hnot
    exact ⟨fun hin => ⟨by rintro rfl; exact hnot hin, hin⟩, And.right⟩

end EndedFlows

/-! ## The held datagrams are within the bounds -/

structure HeldDatagrams.Sound (h : HeldDatagrams) : Prop where
  length_le : h.held.length ≤ maxHeldDatagrams
  bytes_eq : h.bytes = (h.held.map Held.len).sum
  bytes_le : h.bytes ≤ maxHeldBytes

namespace HeldDatagrams

theorem Sound.sublist {h h' : HeldDatagrams} (hs : h.Sound) (hsub : h'.held.Sublist h.held)
    (hb : h'.bytes = (h'.held.map Held.len).sum) : h'.Sound where
  length_le := hsub.length_le.trans hs.length_le
  bytes_eq := hb
  bytes_le := by
    have hle : (h'.held.map Held.len).sum ≤ (h.held.map Held.len).sum := (hsub.map _).sum_le_sum (by simp)
    rw [hb]
    exact hle.trans (hs.bytes_eq ▸ hs.bytes_le)

theorem expireLoop_spec (now : Nat) (held : List Held) :
    (expireLoop now held (held.map Held.len).sum).held.Sublist held ∧
      (expireLoop now held (held.map Held.len).sum).bytes =
        ((expireLoop now held (held.map Held.len).sum).held.map Held.len).sum := by
  induction held with
  | nil => exact ⟨.slnil, rfl⟩
  | cons front rest ih =>
    unfold expireLoop
    split
    · exact ⟨.refl _, rfl⟩
    · rw [List.map_cons, List.sum_cons, Nat.add_sub_cancel_left]
      exact ⟨ih.1.cons _, ih.2⟩

theorem claimLoop_spec (flow : Nat) (held : List Held) (more : Nat) :
    (claimLoop flow held (more + (held.map Held.len).sum)).2 =
      ⟨held.filter (·.flow ≠ flow), more + ((held.filter (·.flow ≠ flow)).map Held.len).sum⟩ := by
  induction held generalizing more with
  | nil => rfl
  | cons f rest ih =>
    unfold claimLoop
    split
    · rename_i hf
      have hb : more + ((f :: rest).map Held.len).sum - f.len = more + (rest.map Held.len).sum := by
        rw [List.map_cons, List.sum_cons]
        omega
      simp only [hb, ih, hf, ne_eq, not_true_eq_false, decide_false, Bool.false_eq_true, not_false_eq_true,
        List.filter_cons_of_neg]
    · rename_i hf
      have hb : more + ((f :: rest).map Held.len).sum = more + f.len + (rest.map Held.len).sum := by
        rw [List.map_cons, List.sum_cons]
        omega
      simp only [hb, ih]
      simp [hf, Nat.add_assoc]

variable {h : HeldDatagrams}

theorem Sound.expire (hs : h.Sound) (now : Nat) : (h.expire now).Sound ∧ (h.expire now).held ⊆ h.held := by
  have hsp := expireLoop_spec now h.held
  rw [← hs.bytes_eq] at hsp
  exact ⟨hs.sublist hsp.1 hsp.2, hsp.1.subset⟩

theorem Sound.hold (hs : h.Sound) (flow : Nat) (ms : Datagram.Messages) (now : Nat) :
    (h.hold flow ms now).Sound ∧
      ∀ held ∈ (h.hold flow ms now).held, held ∈ h.held ∨ held.flow = flow := by
  obtain ⟨hexp, hsub⟩ := hs.expire now
  unfold HeldDatagrams.hold
  dsimp only
  split
  · exact ⟨hexp, fun held hin => .inl (hsub hin)⟩
  · rename_i hr
    simp only [Bool.or_eq_true, decide_eq_true_eq, not_or, not_le, not_lt] at hr
    refine ⟨⟨?_, ?_, hr.2⟩, fun held hin => ?_⟩
    · rw [List.length_append]
      exact hr.1
    · simp [hexp.bytes_eq, Held.len]
    · rcases List.mem_append.mp hin with hin | hin
      · exact .inl (hsub hin)
      · exact .inr (by rw [List.mem_singleton.mp hin])

theorem Sound.claim (hs : h.Sound) (flow now : Nat) :
    (h.claim flow now).2.Sound ∧ ∀ held ∈ (h.claim flow now).2.held, held ∈ h.held ∧ held.flow ≠ flow := by
  obtain ⟨hexp, hsub⟩ := hs.expire now
  unfold HeldDatagrams.claim
  dsimp only
  split
  · rename_i hall
    refine ⟨hexp, fun held hin => ⟨hsub hin, ?_⟩⟩
    simpa using List.all_eq_true.mp hall held hin
  · have hsp := claimLoop_spec flow (h.expire now).held 0
    rw [Nat.zero_add, ← hexp.bytes_eq, Nat.zero_add] at hsp
    rw [hsp]
    refine ⟨hexp.sublist List.filter_sublist rfl, fun held hin => ?_⟩
    obtain ⟨hin, hne⟩ := List.mem_filter.mp hin
    exact ⟨hsub hin, by simpa using hne⟩

end HeldDatagrams

/-! ## What holds in every state -/

structure Inv (capacity : Nat) (s : State) : Prop where
  capacity_eq : s.ended.capacity = capacity
  ended : s.ended.Sound
  held : s.held.Sound
  unknown : ∀ held ∈ s.held.held, s.flows held.flow = none ∧ held.flow ∉ s.ended.set
  apart : ∀ flow, (s.flows flow).isSome → flow ∉ s.ended.set
  calls_nodup : (s.calls.map Call.flow).Nodup
  live_iff : ∀ flow, (s.flows flow).isSome ↔ flow ∈ s.calls.map Call.flow

namespace Inv

variable {z : Libzstd Enc Dec} {prefixBytes : Bytes} {maxFrameSize capacity flow : Nat} {s : State}

theorem initial (ms : Option Nat) : Inv (server ms).ended.capacity (server ms) where
  capacity_eq := rfl
  ended := ⟨fun _ => by simp [server], .nil, Nat.zero_le _⟩
  held := ⟨Nat.zero_le _, rfl, Nat.zero_le _⟩
  unknown := by simp [server]
  apart := by simp [server]
  calls_nodup := .nil
  live_iff := by simp [server]

variable (h : Inv capacity s)
include h

theorem setSlot (hl : (s.flows flow).isSome) (slot : Slot) : Inv capacity (s.setFlow flow (some slot)) := by
  have hs : ∀ o, (Function.update s.flows flow (some slot) o).isSome ↔ (s.flows o).isSome := by
    intro o
    rcases eq_or_ne o flow with rfl | hne
    · simp [hl]
    · rw [Function.update_of_ne hne]
  refine { h with unknown := fun held hin => ⟨?_, (h.unknown held hin).2⟩, apart := ?_, live_iff := ?_ }
  · rw [← Option.not_isSome_iff_eq_none]
    exact (hs _).not.mpr (by simp [(h.unknown held hin).1])
  · exact fun o ho => h.apart o ((hs o).mp ho)
  · exact fun o => (hs o).trans (h.live_iff o)

theorem push (flow : Nat) (ms : List Bytes) : Inv capacity (s.push flow ms) := by
  unfold State.push
  split
  · rename_i hs
    exact h.setSlot (by simp [hs]) _
  · exact h

theorem hold (hl : s.flows flow = none) (hended : flow ∉ s.ended.set)
    (ms : Datagram.Messages) (now : Nat) : Inv capacity { s with held := s.held.hold flow ms now } := by
  obtain ⟨hs, hmem⟩ := h.held.hold flow ms now
  refine { h with held := hs, unknown := fun held hin => ?_ }
  rcases hmem held hin with hin | hf
  · exact h.unknown held hin
  · rw [hf]
    exact ⟨hl, hended⟩

theorem dispatch (d : Bytes) (now : Nat) : Inv capacity (s.dispatch z ⟨.server, prefixBytes, maxFrameSize⟩ d now) := by
  unfold State.dispatch
  split
  · exact h
  · rename_i flow messages _
    split
    · split
      · exact h.push flow _
      · exact h
    · rename_i hl
      split
      · rename_i hen
        exact h.hold hl (by simpa [EndedFlows.contains] using hen) messages now
      · exact h

theorem register (hl : s.flows flow = none) (now : Nat) (early : List Bytes) (slot : Slot) :
    Inv capacity
      ({ s with
          ended := s.ended.remove flow
          held := (s.held.claim flow now).2
          calls := s.calls ++ [Call.mk flow early] }.setFlow flow (some slot)) := by
  obtain ⟨hs, hmem⟩ := h.held.claim flow now
  have hf : ∀ other, other ≠ flow → Function.update s.flows flow (some slot) other = s.flows other :=
    fun other hne => Function.update_of_ne hne _ _
  refine ⟨EndedFlows.remove_capacity.trans h.capacity_eq, h.ended.remove flow, hs, fun held hin => ?_,
    fun other ho => ?_, ?_, fun other => ?_⟩
  · obtain ⟨hin, hne⟩ := hmem held hin
    obtain ⟨hn, hen⟩ := h.unknown held hin
    exact ⟨(hf _ hne).trans hn, fun hmem => hen (EndedFlows.mem_remove.mp hmem).2⟩
  · intro hen
    obtain ⟨hne, hen⟩ := EndedFlows.mem_remove.mp hen
    exact h.apart other (hf other hne ▸ ho) hen
  · have hnot : flow ∉ s.calls.map Call.flow := fun hin => by simpa [hl] using (h.live_iff flow).mpr hin
    change ((s.calls ++ [Call.mk flow early]).map Call.flow).Nodup
    rw [List.map_append, List.map_singleton, ← List.concat_eq_append, List.nodup_concat]
    exact ⟨hnot, h.calls_nodup⟩
  · change (Function.update s.flows flow (some slot) other).isSome ↔
      other ∈ (s.calls ++ [Call.mk flow early]).map Call.flow
    rw [List.map_append, List.mem_append, ← h.live_iff]
    rcases eq_or_ne other flow with rfl | hne
    · simp
    · simp [hne]

theorem openServerFlow {streams : Bool} {a : Accept} {now : Nat} {s' : State}
    (hs : s.openServerFlow z ⟨.server, prefixBytes, maxFrameSize⟩ flow streams a now = .ok s') :
    Inv capacity s' := by
  unfold State.openServerFlow at hs
  by_cases hr : flow = 0 ∨ Varint.maxValue < flow
  · simp [hr] at hs
  rw [if_neg hr] at hs
  cases hl : s.flows flow with
  | some slot => simp [hl] at hs
  | none =>
    rw [hl] at hs
    injection hs with hs
    rw [← hs]
    exact h.register hl now _ _

theorem unregister {i : Nat} (hc : s.calls[i]? = some ⟨flow, []⟩) :
    Inv capacity ({ s with calls := s.calls.eraseIdx i }.unregister ⟨.server, prefixBytes, maxFrameSize⟩ flow) := by
  obtain ⟨hi, hget⟩ := List.getElem?_eq_some_iff.mp hc
  obtain ⟨hs, hmem⟩ := h.ended.insert flow
  have hl : (s.flows flow).isSome := (h.live_iff flow).mpr (List.mem_map.mpr ⟨_, List.mem_of_getElem? hc, rfl⟩)
  have her : (s.calls.eraseIdx i).map Call.flow = (s.calls.map Call.flow).erase flow := by
    rw [← List.eraseIdx_map, ← h.calls_nodup.erase_getElem i (by simpa using hi)]
    simp [hget]
  have hf : ∀ o, (Function.update s.flows flow none o).isSome ↔ o ≠ flow ∧ (s.flows o).isSome := by
    intro o
    rcases eq_or_ne o flow with rfl | hne
    · simp
    · simp [hne]
  refine ⟨EndedFlows.insert_capacity.trans h.capacity_eq, hs, h.held, fun held hin => ?_, fun o ho => ?_,
    ?_, fun o => ?_⟩
  · obtain ⟨hn, hen⟩ := h.unknown held hin
    -- A datagram of the flow was not held, since the flow was registered.
    have hne : held.flow ≠ flow := fun heq => by simp [← heq, hn] at hl
    exact ⟨(Function.update_of_ne hne _ _).trans hn, fun hin => (hmem _ hin).elim hne hen⟩
  · obtain ⟨hne, ho⟩ := (hf o).mp ho
    exact fun hin => (hmem o hin).elim hne (h.apart o ho)
  · exact her ▸ h.calls_nodup.erase flow
  · refine (hf o).trans ?_
    change _ ↔ o ∈ (s.calls.eraseIdx i).map Call.flow
    rw [her, h.calls_nodup.mem_erase_iff, h.live_iff]

theorem setEarly {i : Nat} {m : Bytes} {early : List Bytes}
    (hc : s.calls[i]? = some ⟨flow, m :: early⟩) :
    Inv capacity { s with calls := s.calls.set i ⟨flow, early⟩ } := by
  have hf : (s.calls.set i ⟨flow, early⟩).map Call.flow = s.calls.map Call.flow := by
    obtain ⟨hi, hget⟩ := List.getElem?_eq_some_iff.mp hc
    have hi' : i < (s.calls.map Call.flow).length := by simpa using hi
    have hfl : (s.calls.map Call.flow)[i] = flow := by simp [hget]
    rw [List.map_set, ← hfl, List.set_getElem_self]
  exact { h with calls_nodup := hf ▸ h.calls_nodup, live_iff := fun o => hf ▸ h.live_iff o }

theorem step {s' : State} {a : Action}
    (hs : step z ⟨.server, prefixBytes, maxFrameSize⟩ s a = some s') : Inv capacity s' := by
  cases a with
  | dispatch d now =>
    cases hs
    exact h.dispatch d now
  | openFlow flow streams accept now =>
    simp only [Demux.step] at hs
    split at hs
    · rename_i ho
      cases hs
      exact h.openServerFlow ho
    · cases hs
      exact h
  | pushEarly i =>
    simp only [Demux.step] at hs
    split at hs
    · rename_i hc
      cases hs
      exact (h.setEarly hc).push _ _
    · cases hs
  | dropGuard i =>
    simp only [Demux.step] at hs
    split at hs
    · rename_i hc
      cases hs
      exact h.unregister hc
    · cases hs
  | receive flow sink =>
    simp only [Demux.step] at hs
    split at hs
    · rename_i hsl
      cases hs
      exact h.setSlot (by simp [hsl]) _
    · cases hs

end Inv

structure Consistent (capacity : Nat) (s : State) : Prop where
  held_count : s.held.held.length ≤ 64
  held_bytes : s.held.bytes = (s.held.held.map fun held => held.messages.datagram.length).sum
  held_bytes_le : s.held.bytes ≤ 64 * 1024
  not_live_of_held : ∀ held ∈ s.held.held, s.flows held.flow = none
  not_ended_of_held : ∀ held ∈ s.held.held, s.ended.contains held.flow = false
  ended_iff : ∀ flow, s.ended.contains flow = true ↔ flow ∈ s.ended.order
  ended_nodup : s.ended.order.Nodup
  ended_length : s.ended.order.length ≤ capacity
  not_ended_of_live : ∀ flow, (s.flows flow).isSome → s.ended.contains flow = false

theorem demux_stays_consistent (z : Libzstd Enc Dec) (prefixBytes : Bytes) (maxFrameSize : Nat)
    (maxStreams : Option Nat) {actions : List Action} {s : State}
    (hrun : run (step z ⟨.server, prefixBytes, maxFrameSize⟩) (server maxStreams) actions = some s) :
    Consistent (server maxStreams).ended.capacity s := by
  have h : Inv (server maxStreams).ended.capacity s :=
    run_induction (P := fun _ => Inv (server maxStreams).ended.capacity) (.initial maxStreams)
      (fun _ _ _ _ h hs => h.step hs) hrun
  exact {
    held_count := h.held.length_le
    held_bytes := h.held.bytes_eq
    held_bytes_le := h.held.bytes_le
    not_live_of_held := fun held hin => (h.unknown held hin).1
    not_ended_of_held := fun held hin => decide_eq_false (h.unknown held hin).2
    ended_iff := fun flow => decide_eq_true_iff.trans (h.ended.mem_iff flow)
    ended_nodup := h.ended.nodup
    ended_length := h.capacity_eq ▸ h.ended.length_le
    not_ended_of_live := fun flow hlive => decide_eq_false (h.apart flow hlive) }

/-- A call claims the datagram before its REQUEST, and ends. Then only another flow's datagram is held. -/
theorem demux_stays_consistent_ended :
    let shared : Shared := ⟨.server, [], 16⟩
    let actions : List Action := [.dispatch [5, 0, 1, 7] 0, .openFlow 5 true .none 1, .openFlow 5 true .none 1,
      .pushEarly 0, .dispatch [5, 0, 1, 8] 2, .dropGuard 0, .dispatch [5, 0, 1, 9] 3, .dispatch [6, 0, 1, 9] 4]
    ∃ s ∈ run (step stored shared) (server (some 1)) actions,
      s.held.held.map Held.flow = [6] ∧ s.ended.order = [5] ∧ Consistent 16 s := by
  intro shared actions
  exact ⟨_, rfl, by decide, by decide, @demux_stays_consistent _ _ stored [] 16 (some 1) actions _ rfl⟩

end TrevRpc.Rust.Demux
