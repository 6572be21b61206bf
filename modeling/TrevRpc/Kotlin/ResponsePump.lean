import Mathlib.Algebra.BigOperators.Group.List.Basic
import TrevRpc.Lib.Run

/-!
# The response pump (`ResponsePump.kt`)

Only the pump adds to the counters and reads them, so it does both together with the queue; the caller takes from them
one by one, after it took the item.
-/

open TrevRpc.Run

namespace TrevRpc.Kotlin.ResponsePump

def pumpQueuedFrames : Nat := 2
def pumpFallbackMaxMessages : Nat := 4096
def pumpFallbackMaxBytes : Nat := 16 * 1024 * 1024

structure CallOptions where
  maxResponseBodySize : Nat := 4 * 1024 * 1024
  maxResponseMessages : Option Nat := none
  maxResponseStreamBodySize : Option Nat := none

namespace CallOptions

def maxMessages (options : CallOptions) : Nat := options.maxResponseMessages.getD pumpFallbackMaxMessages

def maxBytes (options : CallOptions) : Nat := options.maxResponseStreamBodySize.getD pumpFallbackMaxBytes

end CallOptions

/-! ## Limits -/

structure ResponseLimits where
  messages : Nat := 0
  bodySize : Nat := 0
  deriving DecidableEq

def ResponseLimits.admit (options : CallOptions) (size : Nat) (limits : ResponseLimits) :
    Except String ResponseLimits :=
  match options.maxResponseMessages.filter (· ≤ limits.messages) with
  | some maxMessages => .error ("response stream exceeded maximum of " ++ toString maxMessages ++ " messages")
  | none =>
    if options.maxResponseBodySize < size then
      .error ("response message is " ++ toString size ++ " bytes, maximum is " ++ toString options.maxResponseBodySize)
    else
      match options.maxResponseStreamBodySize.filter (· - limits.bodySize < size) with
      | some maxBody => .error ("response stream exceeded maximum body size of " ++ toString maxBody ++ " bytes")
      | none => .ok { messages := limits.messages + 1, bodySize := limits.bodySize + size }

/-! ## Receiving -/

inductive ResponseFrame
  | answer (streamCompression : Bool)
  | headers
  | message (size : Nat)
  | status (refusedStreamCompression : Bool)
  deriving DecidableEq

structure CallStream where
  replay : Bool := false
  awaitingFirstFrame : Bool := true
  answerAllowed : Bool := true
  deriving DecidableEq

inductive Received
  | again
  | returns (frame : Option ResponseFrame)
  | throws
  deriving DecidableEq

namespace CallStream

def refused : Option ResponseFrame → Bool
  | some (.status refusedStreamCompression) => refusedStreamCompression
  | _ => false

def accepted : Option ResponseFrame → Bool
  | none | some (.status _) => true
  | some (.answer streamCompression) => streamCompression
  | _ => false

def afterFirst (frame : Option ResponseFrame) (call : CallStream) : CallStream × Received :=
  match frame with
  | some (.answer _) =>
    if call.answerAllowed then ({ call with answerAllowed := false }, .again) else (call, .throws)
  | frame => ({ call with answerAllowed := false }, .returns frame)

def receive (frame : Option ResponseFrame) (call : CallStream) : CallStream × Received :=
  if call.replay && call.awaitingFirstFrame then
    let call := { call with awaitingFirstFrame := false }
    if refused frame then (call, .again) else if accepted frame then afterFirst frame call else (call, .throws)
  else afterFirst frame call

end CallStream

/-! ## The pump -/

inductive Item
  | frame (frame : ResponseFrame)
  | ended (error : Bool)
  deriving DecidableEq

inductive Pump
  | top
  | messages
  | waiting
  | reading
  | pushing (frame : ResponseFrame) (violation : Option String)
  | finished
  deriving DecidableEq

inductive Taker
  | idle
  | received (item : Item)
  | framed (item : Item)
  | counted (item : Item)
  deriving DecidableEq

structure State where
  queue : List Item := []
  wake : Bool := false
  queuedFrames : Nat := 0
  queuedMessages : Nat := 0
  queuedBytes : Nat := 0
  uploadOpen : Bool := true
  limits : ResponseLimits := {}
  call : CallStream := {}
  pump : Pump := .top
  taker : Taker := .idle
  headers : Nat := 0
  lastSize : Nat := 0
  deriving DecidableEq

inductive Action
  | looks
  | weighs
  | wakes
  | receives (frame : Option ResponseFrame)
  | fails
  | pushes
  | cancels
  | takes
  | loses
  | taken
  | uploadClosed
  deriving DecidableEq

namespace ResponseFrame

def isMessage : ResponseFrame → Bool
  | message _ => true
  | _ => false

def isHeaders : ResponseFrame → Bool
  | headers => true
  | _ => false

def isStatus : ResponseFrame → Bool
  | status _ => true
  | _ => false

def size : ResponseFrame → Nat
  | message size => size
  | _ => 0

end ResponseFrame

namespace State

/-- What the pump does with a frame. -/
def frame (options : CallOptions) (frame : ResponseFrame) (s : State) : State :=
  match frame with
  | .message size =>
    match s.limits.admit options size with
    | .ok limits => { s with limits := limits, lastSize := size, pump := .pushing frame none }
    | .error violation => { s with lastSize := size, pump := .pushing frame (some violation) }
  | .headers => { s with headers := s.headers + 1, pump := .pushing frame none }
  | frame => { s with pump := .pushing frame none }

def push (frame : ResponseFrame) (next : Pump) (s : State) : State :=
  { s with
    queuedFrames := s.queuedFrames + 1
    queuedMessages := s.queuedMessages + if frame.isMessage then 1 else 0
    queuedBytes := s.queuedBytes + frame.size
    queue := s.queue ++ [.frame frame]
    pump := next }

def finish (error : Bool) (s : State) : State := { s with queue := s.queue ++ [.ended error], pump := .finished }

end State

def step (options : CallOptions) (s : State) : Action → Option State
  | .looks =>
    if s.pump = .top then
      if s.uploadOpen then
        if s.queuedMessages ≤ options.maxMessages then some { s with pump := .messages }
        else some { s with pump := .waiting }
      else if s.queuedFrames < pumpQueuedFrames then some { s with pump := .reading }
      else some { s with pump := .waiting }
    else none
  | .weighs =>
    if s.pump = .messages then
      if s.queuedBytes ≤ options.maxBytes then some { s with pump := .reading } else some { s with pump := .waiting }
    else none
  | .wakes => if s.pump = .waiting ∧ s.wake = true then some { s with wake := false, pump := .top } else none
  | .receives frame =>
    if s.pump = .reading then
      match s.call.receive frame with
      | (call, .again) => some { s with call := call }
      | (call, .throws) => some (State.finish true { s with call := call })
      | (call, .returns none) => some (State.finish false { s with call := call })
      | (call, .returns (some frame)) => some (State.frame options frame { s with call := call })
    else none
  | .fails => if s.pump = .reading then some (s.finish true) else none
  | .pushes =>
    match s.pump with
    | .pushing frame violation =>
      if frame.isStatus = true ∨ violation ≠ none then some (s.push frame .finished) else some (s.push frame .top)
    | _ => none
  | .cancels => some { s with pump := .finished }
  | .takes =>
    match s.taker, s.queue with
    | .idle, item :: rest => some { s with queue := rest, taker := .received item }
    | _, _ => none
  | .loses =>
    match s.taker with
    | .received _ => some { s with taker := .idle }
    | _ => none
  | .taken =>
    match s.taker with
    | .received (.frame frame) => some { s with queuedFrames := s.queuedFrames - 1, taker := .framed (.frame frame) }
    | .framed (.frame frame) =>
      some { s with
        queuedMessages := s.queuedMessages - (if frame.isMessage then 1 else 0)
        taker := .counted (.frame frame) }
    | .counted (.frame frame) =>
      some { s with queuedBytes := s.queuedBytes - frame.size, wake := true, taker := .idle }
    | .received (.ended _) => some { s with wake := true, taker := .idle }
    | _ => none
  | .uploadClosed => some { s with uploadOpen := false }

def start (replay : Bool) : State := { call := { replay } }

/-! ## Bounds -/

namespace Item

def isMessage : Item → Bool
  | frame sent => sent.isMessage
  | ended _ => false

def isHeaders : Item → Bool
  | frame sent => sent.isHeaders
  | ended _ => false

/-- Nothing follows the item. -/
def isLast : Item → Bool
  | frame sent => sent.isStatus
  | ended _ => true

def size : Item → Nat
  | frame sent => sent.size
  | ended _ => 0

end Item

def Taker.messages : Taker → Nat
  | received item | framed item => if item.isMessage then 1 else 0
  | _ => 0

def Taker.bytes : Taker → Nat
  | received item | framed item | counted item => item.size
  | idle => 0

def bytes (queue : List Item) : Nat := (queue.map (·.size)).sum

/-- The frame that the pump queues next. -/
def Pump.pending : Pump → List Item
  | pushing frame _ => [.frame frame]
  | _ => []

/-- The pump has seen room for a message. -/
def Pump.mayCount : Pump → Bool
  | messages | reading | pushing _ _ => true
  | _ => false

def Pump.mayRead : Pump → Bool
  | reading | pushing _ _ => true
  | _ => false

def Pump.isFinished : Pump → Bool
  | finished => true
  | _ => false

structure Inv (options : CallOptions) (s : State) : Prop where
  messages : s.queue.countP (·.isMessage) + s.taker.messages ≤ s.queuedMessages
  bytes : bytes s.queue + s.taker.bytes ≤ s.queuedBytes
  maxMessages : s.uploadOpen = true → s.queuedMessages ≤ options.maxMessages + 1
  maxBytes : s.uploadOpen = true → s.queuedBytes ≤ options.maxBytes + s.lastSize
  mayCount : s.uploadOpen = true → s.pump.mayCount = true → s.queuedMessages ≤ options.maxMessages
  mayRead : s.uploadOpen = true → s.pump.mayRead = true → s.queuedBytes ≤ options.maxBytes
  pendingSize : ∀ item ∈ s.pump.pending, item.size ≤ s.lastSize
  headers : (s.queue ++ s.pump.pending).countP (·.isHeaders) ≤ s.headers
  last : s.pump.isFinished = false → s.queue.countP (·.isLast) = 0
  oneLast : s.queue.countP (·.isLast) ≤ 1
  kinds : ∀ item ∈ s.queue ++ s.pump.pending, item.isMessage = true ∨ item.isHeaders = true ∨ item.isLast = true

variable {options : CallOptions} {s s' : State}

theorem Inv.initial (r : Bool) : Inv options (start r) where
  messages := Nat.zero_le _
  bytes := Nat.zero_le _
  maxMessages _ := Nat.zero_le _
  maxBytes _ := Nat.zero_le _
  mayCount _ _ := Nat.zero_le _
  mayRead _ _ := Nat.zero_le _
  pendingSize := nofun
  headers := Nat.zero_le _
  last _ := rfl
  oneLast := Nat.zero_le _
  kinds := nofun

theorem CallStream.receive_returns {call call' : CallStream} {f : Option ResponseFrame} {r : ResponseFrame}
    (h : call.receive f = (call', .returns (some r))) :
    f = some r ∧ ∀ streamCompression, r ≠ .answer streamCompression := by
  have ha : ∀ {call : CallStream}, afterFirst f call = (call', .returns (some r)) →
      f = some r ∧ ∀ streamCompression, r ≠ .answer streamCompression := by
    intro call h
    unfold afterFirst at h
    split at h
    · split_ifs at h <;> simp at h
    · rename_i han
      obtain ⟨-, h⟩ := Prod.mk.inj h
      cases h
      exact ⟨rfl, fun streamCompression hf => han streamCompression (congrArg some hf)⟩
  unfold receive at h
  dsimp only at h
  split_ifs at h
  · simp at h
  · exact ha h
  · simp at h
  · exact ha h

theorem length_le_counts (q : List Item)
    (h : ∀ item ∈ q, item.isMessage = true ∨ item.isHeaders = true ∨ item.isLast = true) :
    q.length ≤ q.countP (·.isMessage) + q.countP (·.isHeaders) + q.countP (·.isLast) := by
  induction q with
  | nil => exact Nat.le_refl _
  | cons item rest ih =>
    have hrest := ih fun o ho => h o (List.mem_cons_of_mem _ ho)
    rw [List.length_cons, List.countP_cons, List.countP_cons, List.countP_cons]
    rcases h item List.mem_cons_self with hk | hk | hk <;> rw [if_pos hk] <;> omega

theorem bytes_append (xs ys : List Item) : bytes (xs ++ ys) = bytes xs + bytes ys := by
  simp only [bytes, List.map_append, List.sum_append]

theorem bytes_singleton (item : Item) : bytes [item] = item.size := by
  simp [bytes]

theorem Inv.finish {error : Bool} {call : CallStream} (h : Inv options s) (hp : s.pump = .reading) :
    Inv options (State.finish error { s with call := call }) := by
  have hl := h.last (by rw [hp]; rfl)
  have hh := h.headers
  have hk := h.kinds
  simp only [hp, Pump.pending, List.append_nil] at hh hk
  exact { h with
    messages := by
      have hm := h.messages
      change (s.queue ++ [Item.ended error]).countP _ + _ ≤ _
      rw [List.countP_append]
      exact hm
    bytes := by
      have hb := h.bytes
      change ResponsePump.bytes (s.queue ++ [Item.ended error]) + _ ≤ _
      rw [bytes_append]
      exact hb
    mayCount := nofun
    mayRead := nofun
    pendingSize := nofun
    headers := by
      change ((s.queue ++ [Item.ended error]) ++ []).countP _ ≤ _
      rw [List.append_nil, List.countP_append]
      exact hh
    last := nofun
    oneLast := by
      change (s.queue ++ [Item.ended error]).countP _ ≤ 1
      rw [List.countP_append, hl]
      exact Nat.le_refl _
    kinds := by
      change ∀ item ∈ (s.queue ++ [Item.ended error]) ++ [], _
      rw [List.append_nil, List.forall_mem_append]
      refine ⟨hk, ?_⟩
      simp [Item.isLast] }

attribute [local simp] Item.size Pump.pending ResponseFrame.size

variable (h : Inv options s)
include h

theorem Inv.frame {f : ResponseFrame} {call : CallStream} (hp : s.pump = .reading)
    (hanswer : ∀ sc, f ≠ .answer sc) :
    Inv options (State.frame options f { s with call := call }) := by
  have hl := h.last (by rw [hp]; rfl)
  have hh := h.headers
  have hk := h.kinds
  have hc := fun ho => h.mayCount ho (by rw [hp]; rfl)
  have hr := fun ho => h.mayRead ho (by rw [hp]; rfl)
  simp only [hp, Pump.pending, List.append_nil] at hh hk
  have hf : ∀ item ∈ s.queue ++ [.frame f],
      item.isMessage = true ∨ item.isHeaders = true ∨ item.isLast = true := by
    rw [List.forall_mem_append]
    refine ⟨hk, ?_⟩
    cases f with
    | answer sc => exact absurd rfl (hanswer sc)
    | _ => simp [Item.isMessage, Item.isHeaders, Item.isLast, ResponseFrame.isMessage, ResponseFrame.isHeaders,
        ResponseFrame.isStatus]
  cases f with
  | answer sc => exact absurd rfl (hanswer sc)
  | message size =>
    have hm : ∀ {limits v}, Inv options { s with
        call := call, limits := limits, lastSize := size, pump := .pushing (.message size) v } := by
      intro limits v
      exact { h with
        maxBytes := fun ho => Nat.le_add_right_of_le (hr ho)
        mayCount := fun ho _ => hc ho
        mayRead := fun ho _ => hr ho
        pendingSize := by simp
        headers := by
          change (s.queue ++ [Item.frame (.message size)]).countP _ ≤ _
          rw [List.countP_append]
          exact hh
        last := fun _ => hl
        kinds := hf }
    unfold State.frame
    dsimp only
    cases s.limits.admit options size with
    | ok limits => exact hm
    | error v => exact hm
  | headers =>
    exact { h with
      mayCount := fun ho _ => hc ho
      mayRead := fun ho _ => hr ho
      pendingSize := by simp [State.frame]
      headers := by
        change (s.queue ++ [Item.frame .headers]).countP _ ≤ s.headers + 1
        rw [List.countP_append]
        exact Nat.add_le_add_right hh 1
      last := fun _ => hl
      kinds := hf }
  | status rsc =>
    exact { h with
      mayCount := fun ho _ => hc ho
      mayRead := fun ho _ => hr ho
      pendingSize := by simp [State.frame]
      headers := by
        change (s.queue ++ [Item.frame (.status rsc)]).countP _ ≤ s.headers
        rw [List.countP_append]
        exact hh
      last := fun _ => hl
      kinds := hf }

theorem Inv.push {f : ResponseFrame} {v : Option String} {next : Pump}
    (hp : s.pump = .pushing f v)
    (hn : next = .finished ∨ next = .top ∧ f.isStatus = false) : Inv options (s.push f next) := by
  have hpe : next.pending = [] ∧ next.mayCount = false ∧ next.mayRead = false := by
    rcases hn with rfl | ⟨rfl, -⟩ <;> exact ⟨rfl, rfl, rfl⟩
  obtain ⟨hpe, hmayCount, hmayRead⟩ := hpe
  have hl := h.last (by rw [hp]; rfl)
  have hh := h.headers
  have hk := h.kinds
  have hsi := h.pendingSize
  have hc := fun ho => h.mayCount ho (by rw [hp]; rfl)
  have hr := fun ho => h.mayRead ho (by rw [hp]; rfl)
  simp only [hp, Pump.pending, List.mem_singleton, forall_eq] at hh hk hsi
  exact { h with
    messages := by
      have hm := h.messages
      change (s.queue ++ [Item.frame f]).countP _ + s.taker.messages ≤
        s.queuedMessages + if f.isMessage = true then 1 else 0
      rw [List.countP_append, List.countP_singleton]
      change _ + (if f.isMessage = true then 1 else 0) + _ ≤ _
      omega
    bytes := by
      have hbytes := h.bytes
      change ResponsePump.bytes (s.queue ++ [Item.frame f]) + s.taker.bytes ≤ s.queuedBytes + (Item.frame f).size
      rw [bytes_append, bytes_singleton]
      omega
    maxMessages := fun ho => by
      have hm := hc ho
      change s.queuedMessages + (if f.isMessage = true then 1 else 0) ≤ _
      split_ifs <;> omega
    maxBytes := fun ho => Nat.add_le_add (hr ho) hsi
    mayCount := fun _ hmay => absurd (hmayCount.symm.trans hmay) nofun
    mayRead := fun _ hmay => absurd (hmayRead.symm.trans hmay) nofun
    pendingSize := by
      change ∀ item ∈ next.pending, _
      rw [hpe]
      exact nofun
    headers := by
      change ((s.queue ++ [Item.frame f]) ++ next.pending).countP _ ≤ _
      rw [hpe, List.append_nil]
      exact hh
    last := fun hov => by
      change (s.queue ++ [Item.frame f]).countP _ = 0
      rcases hn with rfl | ⟨-, hs⟩
      · cases hov
      · rw [List.countP_append, hl, List.countP_singleton]
        change 0 + (if f.isStatus = true then 1 else 0) = 0
        rw [hs, if_neg Bool.false_ne_true]
    oneLast := by
      change (s.queue ++ [Item.frame f]).countP _ ≤ 1
      rw [List.countP_append, hl, List.countP_singleton]
      split_ifs <;> omega
    kinds := by
      change ∀ item ∈ (s.queue ++ [Item.frame f]) ++ next.pending, _
      rw [hpe, List.append_nil]
      exact hk }

theorem Inv.move {pump : Pump} (hb : s.pump.pending = []) (ha : pump.pending = [])
    (hover : s.pump.isFinished = true → pump.isFinished = true)
    (hc : s.uploadOpen = true → pump.mayCount = true → s.queuedMessages ≤ options.maxMessages)
    (hr : s.uploadOpen = true → pump.mayRead = true → s.queuedBytes ≤ options.maxBytes) :
    Inv options { s with pump := pump } where
  __ := h
  mayCount := hc
  mayRead := hr
  pendingSize := by
    change ∀ item ∈ pump.pending, _
    rw [ha]
    exact nofun
  headers := by
    change (s.queue ++ pump.pending).countP _ ≤ _
    rw [ha, ← hb]
    exact h.headers
  last ho := h.last (Bool.eq_false_iff.mpr fun hd => absurd ((hover hd).symm.trans ho) nofun)
  kinds := by
    change ∀ item ∈ s.queue ++ pump.pending, _
    rw [ha, ← hb]
    exact h.kinds

theorem Inv.take {item : Item} {rest : List Item} (hq : s.queue = item :: rest)
    (ht : s.taker = .idle) : Inv options { s with queue := rest, taker := .received item } := by
  obtain ⟨queue, wake, queuedFrames, queuedMessages, queuedBytes, uploadOpen, limits, call, pump, taker, headers,
    lastSize⟩ := s
  obtain rfl : queue = item :: rest := hq
  obtain rfl : taker = .idle := ht
  exact { h with
    messages := by
      have hm := h.messages
      change (item :: rest).countP _ + 0 ≤ queuedMessages at hm
      rw [List.countP_cons] at hm
      exact hm
    bytes := by
      have hb := h.bytes
      change ResponsePump.bytes ([item] ++ rest) + 0 ≤ queuedBytes at hb
      rw [bytes_append, bytes_singleton] at hb
      change ResponsePump.bytes rest + item.size ≤ queuedBytes
      omega
    headers := Nat.le_trans (List.Sublist.countP_le ((List.sublist_cons_self _ _).append (.refl _))) h.headers
    last := fun ho => Nat.eq_zero_of_le_zero
      (Nat.le_trans (List.Sublist.countP_le (List.sublist_cons_self _ _)) (Nat.le_of_eq (h.last ho)))
    oneLast := Nat.le_trans (List.Sublist.countP_le (List.sublist_cons_self _ _)) h.oneLast
    kinds := fun o hot => h.kinds o (List.mem_cons_of_mem _ hot) }

theorem Inv.step {a : Action} (hs : step options s a = some s') : Inv options s' := by
  cases a with
  | looks =>
    obtain ⟨hp, hs⟩ := Option.ite_none_right_eq_some.mp hs
    have hpe : s.pump.pending = [] := by rw [hp]; rfl
    have hov : s.pump.isFinished = true → False := by rw [hp]; exact nofun
    split_ifs at hs with ho hm hframes <;> cases hs <;>
      refine h.move hpe rfl (fun hd => (hov hd).elim) ?_ ?_
    · exact fun _ _ => hm
    · exact nofun
    · exact nofun
    · exact nofun
    · exact fun ho' => absurd ho' ho
    · exact fun ho' => absurd ho' ho
    · exact nofun
    · exact nofun
  | weighs =>
    obtain ⟨hp, hs⟩ := Option.ite_none_right_eq_some.mp hs
    have hpe : s.pump.pending = [] := by rw [hp]; rfl
    have hov : s.pump.isFinished = true → False := by rw [hp]; exact nofun
    split_ifs at hs with hb <;> cases hs <;>
      refine h.move hpe rfl (fun hd => (hov hd).elim) ?_ ?_
    · exact fun ho _ => h.mayCount ho (by rw [hp]; rfl)
    · exact fun _ _ => hb
    · exact nofun
    · exact nofun
  | wakes =>
    obtain ⟨⟨hp, -⟩, rfl⟩ := of_guard hs
    have hmo : Inv options { s with pump := .top } := by
      refine h.move (by rw [hp]; rfl) rfl ?_ nofun nofun
      rw [hp]
      exact nofun
    exact { hmo with }
  | receives f =>
    obtain ⟨hp, hs⟩ := Option.ite_none_right_eq_some.mp hs
    split at hs <;> cases hs
    · exact { h with }
    · exact h.finish hp
    · exact h.finish hp
    · rename_i hr
      exact h.frame hp (CallStream.receive_returns hr).2
  | fails =>
    obtain ⟨hp, rfl⟩ := of_guard hs
    exact h.finish hp
  | pushes =>
    dsimp only [ResponsePump.step] at hs
    split at hs
    case h_2 => cases hs
    case h_1 f violation hp =>
      split_ifs at hs with hov <;> cases hs
      · exact h.push hp (.inl rfl)
      · exact h.push hp (.inr ⟨rfl, Bool.eq_false_iff.mpr fun hst => hov (.inl hst)⟩)
  | cancels =>
    cases hs
    exact { h with
      mayCount := nofun
      mayRead := nofun
      pendingSize := nofun
      headers := by
        change (s.queue ++ []).countP _ ≤ _
        exact Nat.le_trans (List.Sublist.countP_le ((List.Sublist.refl _).append (List.nil_sublist _))) h.headers
      last := nofun
      kinds := fun item hi => h.kinds item (List.mem_append_left _ (List.append_nil s.queue ▸ hi)) }
  | takes =>
    dsimp only [ResponsePump.step] at hs
    split at hs
    case h_2 => cases hs
    case h_1 item rest ht hq =>
      cases hs
      exact h.take hq ht
  | loses =>
    dsimp only [ResponsePump.step] at hs
    split at hs
    case h_2 => cases hs
    case h_1 item ht =>
      cases hs
      exact { h with
        messages := Nat.le_trans (Nat.add_le_add_left (Nat.zero_le _) _) h.messages
        bytes := Nat.le_trans (Nat.add_le_add_left (Nat.zero_le _) _) h.bytes }
  | taken =>
    obtain ⟨queue, wake, queuedFrames, queuedMessages, queuedBytes, uploadOpen, limits, call, pump, taker, headers,
      lastSize⟩ := s
    dsimp only [ResponsePump.step] at hs
    split at hs
    case h_5 => cases hs
    case h_1 f =>
      cases hs
      exact { h with }
    case h_2 f =>
      cases hs
      exact { h with
        messages := Nat.le_sub_of_add_le h.messages
        maxMessages := fun ho => Nat.le_trans (Nat.sub_le _ _) (h.maxMessages ho)
        mayCount := fun ho hmay => Nat.le_trans (Nat.sub_le _ _) (h.mayCount ho hmay) }
    case h_3 f =>
      cases hs
      exact { h with
        bytes := Nat.le_sub_of_add_le h.bytes
        maxBytes := fun ho => Nat.le_trans (Nat.sub_le _ _) (h.maxBytes ho)
        mayRead := fun ho hmay => Nat.le_trans (Nat.sub_le _ _) (h.mayRead ho hmay) }
    case h_4 error =>
      cases hs
      exact { h with }
  | uploadClosed =>
    cases hs
    exact { h with maxMessages := nofun, maxBytes := nofun, mayCount := nofun, mayRead := nofun }

omit h

/-- Items beside the messages, and bytes of one message more than the bound. -/
structure Bounded (options : CallOptions) (others : Nat) (s : State) : Prop where
  items : s.queue.length ≤ options.maxMessages + others
  bytes : bytes s.queue ≤ options.maxBytes + s.lastSize

theorem Inv.bounded (h : Inv options s) (ho : s.uploadOpen = true) : Bounded options (2 + s.headers) s where
  items := by
    have hlength := length_le_counts s.queue fun item hi => h.kinds item (List.mem_append_left _ hi)
    have hm := h.messages
    have hmax := h.maxMessages ho
    have hh := h.headers
    have hlast := h.oneLast
    rw [List.countP_append] at hh
    omega
  bytes := Nat.le_trans (Nat.le_trans (Nat.le_add_right _ _) h.bytes) (h.maxBytes ho)

/-- The server sends HEADERS once at most. -/
def HeadersOnce (s : State) (a : Action) : Prop := a = .receives (some .headers) → s.headers = 0

instance (s : State) (a : Action) : Decidable (HeadersOnce s a) := inferInstanceAs (Decidable (_ → _))

theorem headers_frame (f : ResponseFrame) (s : State) :
    (s.frame options f).headers = s.headers + if f = .headers then 1 else 0 := by
  cases f with
  | message size =>
    unfold State.frame
    dsimp only
    cases s.limits.admit options size <;> rfl
  | _ => rfl

theorem headers_step {a : Action} (hs : step options s a = some s') (hok : HeadersOnce s a) (h : s.headers ≤ 1) :
    s'.headers ≤ 1 := by
  cases a with
  | receives frame =>
    obtain ⟨-, hs⟩ := Option.ite_none_right_eq_some.mp hs
    split at hs <;> cases hs
    · exact h
    · exact h
    · exact h
    · rename_i returned hr
      rw [headers_frame]
      split_ifs with hh
      · subst hh
        have hz := hok (congrArg _ (CallStream.receive_returns hr).1)
        exact Nat.add_le_of_le_sub (Nat.le_refl _) (Nat.le_of_eq hz)
      · exact h
  | pushes =>
    dsimp only [ResponsePump.step] at hs
    split at hs
    case h_2 => cases hs
    case h_1 => split_ifs at hs <;> cases hs <;> exact h
  | looks | weighs =>
    obtain ⟨-, hs⟩ := Option.ite_none_right_eq_some.mp hs
    split_ifs at hs <;> cases hs <;> exact h
  | wakes | fails =>
    obtain ⟨-, rfl⟩ := of_guard hs
    exact h
  | cancels | uploadClosed =>
    cases hs
    exact h
  | takes | loses | taken =>
    dsimp only [ResponsePump.step] at hs
    split at hs <;> cases hs <;> exact h

/-- While the request side is open and HEADERS come at most once, the queue is bounded. -/
theorem queue_is_bounded {replay : Bool} {actions : List Action}
    (honce : Along HeadersOnce (step options) (start replay) actions)
    (hrun : run (step options) (start replay) actions = some s) (hopen : s.uploadOpen = true) :
    Bounded options 3 s := by
  have hinv : Inv options s ∧ s.headers ≤ 1 := by
    refine run_induction_along (P := fun _ s => Inv options s ∧ s.headers ≤ 1) ?_ ?_ honce hrun
    · exact ⟨Inv.initial replay, Nat.zero_le _⟩
    · rintro _ t a t' ⟨h, hheaders⟩ hok hs
      exact ⟨h.step hs, headers_step hs hok hheaders⟩
  obtain ⟨hitems, hbytes⟩ := hinv.1.bounded hopen
  exact ⟨by omega, hbytes⟩

theorem queue_is_bounded_waiting :
    let options : CallOptions := { maxResponseStreamBodySize := some 4 }
    let read (frame : ResponseFrame) : List Action := [.looks, .weighs, .receives (some frame), .pushes]
    let actions := read .headers ++ read (.message 4) ++ read (.message 3)
    ∃ s ∈ run (step options) (start false) actions, s.queue.length = 3 ∧ bytes s.queue = 7 ∧ Bounded options 3 s := by
  intro options read actions
  exact ⟨_, rfl, rfl, rfl, @queue_is_bounded options _ false actions (by decide) rfl rfl⟩

/-! ## HEADERS are not counted -/

/-- What a round of the pump reads and queues. -/
def headersRound : List Action := [.looks, .weighs, .receives (some .headers), .pushes]

theorem headers_round (hp : s.pump = .top) (ho : s.uploadOpen = true) (hr : s.call.replay = false)
    (hm : s.queuedMessages = 0) (hb : s.queuedBytes = 0) :
    ∃ s', run (step options) s headersRound = some s' ∧ s'.pump = .top ∧ s'.uploadOpen = true ∧
      s'.call.replay = false ∧ s'.queuedMessages = 0 ∧ s'.queuedBytes = 0 ∧
      s'.queue.length = s.queue.length + 1 := by
  obtain ⟨queue, wake, queuedFrames, queuedMessages, queuedBytes, uploadOpen, limits, call, pump, taker, headers,
    lastSize⟩ := s
  obtain ⟨r, awaitingFirstFrame, answerAllowed⟩ := call
  obtain rfl : pump = .top := hp
  obtain rfl : uploadOpen = true := ho
  obtain rfl : r = false := hr
  obtain rfl : queuedMessages = 0 := hm
  obtain rfl : queuedBytes = 0 := hb
  exact ⟨_, rfl, rfl, rfl, rfl, rfl, rfl, List.length_append⟩

theorem headers_queue (options : CallOptions) (n : Nat) :
    ∃ a s, run (step options) (start false) a = some s ∧ s.pump = .top ∧ s.uploadOpen = true ∧
      s.call.replay = false ∧ s.queuedMessages = 0 ∧ s.queuedBytes = 0 ∧ s.queue.length = n := by
  induction n with
  | zero => exact ⟨[], start false, rfl, rfl, rfl, rfl, rfl, rfl, rfl⟩
  | succ n ih =>
    obtain ⟨a, s, hrun, hp, ho, hr, hm, hb, hl⟩ := ih
    obtain ⟨s', hro, hp', ho', hr', hm', hb', hl'⟩ :=
      headers_round hp ho hr hm hb
    refine ⟨a ++ headersRound, s', ?_, hp', ho', hr', hm', hb', by rw [hl', hl]⟩
    rw [run_append, hrun]
    exact hro

/-- Repeated HEADERS make the queue of a caller that takes nothing as long as the server likes. -/
theorem no_bound_on_headers :
    ¬ ∃ others, ∀ (options : CallOptions) (replay : Bool) (actions : List Action) (s : State),
      run (step options) (start replay) actions = some s → s.uploadOpen = true →
      s.queue.length ≤ options.maxMessages + others := by
  rintro ⟨others, h⟩
  obtain ⟨actions, s, hrun, -, hopen, -, -, -, hlength⟩ := headers_queue {} (pumpFallbackMaxMessages + others + 1)
  have hbound := h {} false actions s hrun hopen
  have hmax : ({} : CallOptions).maxMessages = pumpFallbackMaxMessages := rfl
  omega

end TrevRpc.Kotlin.ResponsePump
