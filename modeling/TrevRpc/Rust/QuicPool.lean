import Mathlib.Data.List.Perm.Basic
import Mathlib.Logic.Function.Basic
import TrevRpc.Lib.Run

/-!
# The connections of a channel (`client/pool.rs`)

Calls are counted under the lock of the list of added connections. A connection is dialed in a task and watched by
another. The connection 0 is the generation's own.
-/

open TrevRpc.Run

namespace TrevRpc.Rust.QuicPool

def busyCalls : Nat := 2

/-- `u64` arithmetic saturates. -/
def saturate (n : Nat) : Nat := min n (2 ^ 64 - 1)

def crowded (calls rttMicros callRate : Nat) : Bool :=
  busyCalls ≤ calls && saturate (callRate * max rttMicros 1) ≤ saturate (calls * 1000000)

structure Dialer where
  maxQuicConnections : Nat
  minQuicConnections : Nat
  quicCallRate : Nat
  quicByteRate : Nat

namespace Dialer

def max (d : Dialer) : Nat := Nat.max d.maxQuicConnections 1

/-- `clamp(1, max)`. -/
def min (d : Dialer) : Nat := Nat.min (Nat.max d.minQuicConnections 1) d.max

def callRate (d : Dialer) : Nat := Nat.max d.quicCallRate 1

def byteRate (d : Dialer) : Nat := Nat.max d.quicByteRate 1

end Dialer

structure Rates where
  calls : Nat
  bytes : Nat
  deriving DecidableEq

def Dialer.reaches (d : Dialer) (rates : Rates) (connections : Nat) : Bool :=
  saturate (d.callRate * connections) ≤ rates.calls || saturate (d.byteRate * connections) ≤ rates.bytes

/-- Where `watch_added` is. -/
inductive Watch
  | none
  | watching
  | retiring
  | retired
  | ending
  | draining
  | drained
  | closed
  | gone
  deriving DecidableEq

structure Member where
  calls : Nat := 0
  streams : Nat := 0
  used : Bool := false
  rttMicros : Nat := 0
  pinned : Bool := false
  /-- The connection was closed, but not by `watch_added`. -/
  lost : Bool := false
  watch : Watch := .none
  deriving DecidableEq

structure CallGuard where
  member : Nat
  streaming : Bool
  deriving DecidableEq

/-- Where the task that `grow` spawned is. -/
inductive Dial
  | dialing
  | ended (failed : Bool)
  /-- `dial_in_flight` is cleared, and after a failed dial the pause is on. -/
  | cleared
  deriving DecidableEq

structure State where
  member : Nat → Member := fun _ => {}
  created : Nat := 1
  added : List Nat := []
  dialing : Bool := false
  dialInFlight : Bool := false
  dials : List Dial := []
  guards : List CallGuard := []
  /-- The calls that are about to call `grow`, which they decided to under the lock. -/
  growers : Nat := 0
  alive : Bool := true

namespace State

/-- `open` in the code: the list and the generation's own. A connection off the list may still drain its calls. -/
def opened (s : State) : Nat := s.added.length + 1

/-- The dials whose connection is not there yet. -/
def dialed (s : State) : Nat := s.dials.count .dialing

def modify (id : Nat) (f : Member → Member) (s : State) : State :=
  { s with member := Function.update s.member id (f (s.member id)) }

@[simp] theorem modify_member_self (id : Nat) (f : Member → Member) (s : State) :
    (s.modify id f).member id = f (s.member id) :=
  Function.update_self ..

theorem modify_member_of_ne {id other : Nat} (h : other ≠ id) (f : Member → Member) (s : State) :
    (s.modify id f).member other = s.member other :=
  Function.update_of_ne h ..

def setWatch (id : Nat) (watch : Watch) (s : State) : State := s.modify id fun m => { m with watch }

/-- The locked part of `Pool::remove`. -/
def remove (id : Nat) (s : State) : State := { s with added := s.added.filter (· ≠ id) }

/-- `Pool::add`. A connection too many is closed at once. -/
def add (d : Dialer) (s : State) : State :=
  let id := s.created
  if d.max ≤ s.opened then { s with created := id + 1 }.setWatch id .closed
  else
    { s with created := id + 1, added := s.added ++ [id] }.modify id fun m =>
      { m with pinned := s.opened < d.min, watch := .watching }

@[simp] theorem add_dials (d : Dialer) (s : State) : (s.add d).dials = s.dials := by
  unfold add
  split_ifs <;> rfl

theorem add_opened_le (d : Dialer) (s : State) : (s.add d).opened ≤ s.opened + 1 := by
  unfold add
  split_ifs
  · exact Nat.le_succ _
  · simp [opened, modify]

theorem remove_opened_le (id : Nat) (s : State) : (s.remove id).opened ≤ s.opened :=
  Nat.succ_le_succ (List.length_filter_le _ s.added)

def grow (s : State) : State :=
  if s.dialing then s
  else { s with dialing := true, dialInFlight := true, dials := s.dials ++ [.dialing] }

@[simp] theorem grow_added (s : State) : s.grow.added = s.added := by
  unfold grow
  split_ifs <;> rfl

@[simp] theorem grow_alive (s : State) : s.grow.alive = s.alive := by
  unfold grow
  split_ifs <;> rfl

/-- The pool spreads its calls. -/
def spread (d : Dialer) (rates : Rates) (s : State) : Bool :=
  1 < d.min || d.reaches rates 1 || crowded (s.member 0).streams (s.member 0).rttMicros d.callRate

def fewest (s : State) : Nat :=
  s.added.foldl (fun best id => if (s.member id).calls < (s.member best).calls then id else best) 0

theorem fewest_mem (s : State) : s.fewest = 0 ∨ s.fewest ∈ s.added := by
  unfold fewest
  generalize s.added = ids
  generalize 0 = best
  induction ids generalizing best with
  | nil => exact .inl rfl
  | cons id rest ih =>
    rw [List.foldl_cons]
    rcases ih (if (s.member id).calls < (s.member best).calls then id else best) with heq | hmem
    · rw [heq]
      split_ifs
      · exact .inr List.mem_cons_self
      · exact .inl rfl
    · exact .inr (List.mem_cons_of_mem id hmem)

/-- Counts a call. -/
def count (id : Nat) (streaming : Bool) (s : State) : State :=
  let s := s.modify id fun m =>
    { m with calls := m.calls + 1, streams := m.streams + streaming.toNat, used := true }
  { s with guards := s.guards ++ [⟨id, streaming⟩] }

/-- `try_pick` up to the calls of `grow` that come after the lock. -/
def tryPick (d : Dialer) (rates : Rates) (streaming mayWait : Bool) (s : State) : State :=
  let spread := s.spread d rates
  let id := if spread then s.fewest else 0
  let crowded := streaming && spread && s.opened < d.max &&
    QuicPool.crowded (s.member id).streams (s.member id).rttMicros d.callRate
  let busy := busyCalls ≤ (s.member id).calls && s.opened < d.max && d.reaches rates s.opened
  let grows := s.opened < d.min || busy || crowded
  let s := if crowded && mayWait then s.grow else s
  -- A streaming call that may wait is not counted while a connection is dialed for it.
  if crowded && mayWait && s.dialInFlight then s
  else { s.count id streaming with growers := s.growers + grows.toNat }

end State

inductive Action
  | tryPick (rates : Rates) (streaming mayWait : Bool)
  | grow
  | dialEnds (i : Nat) (failed : Bool)
  | clearInFlight (i : Nat)
  | clearDialing (i : Nat)
  | dropStream (i : Nat)
  | dropCall (i : Nat)
  | measure (id rttMicros : Nat)
  | idleTick (id : Nat)
  | retireIfIdle (id : Nat)
  | endGeneration (id : Nat)
  | remove (id : Nat)
  | checkDrained (id : Nat)
  | close (id : Nat)
  | seeClosed (id : Nat)
  /-- The connection is closed by the peer, by the network or by `QuicPool::close`. -/
  | lose (id : Nat)
  | dropPool
  deriving DecidableEq

open State in
def step (d : Dialer) (s : State) : Action → Option State
  | .tryPick rates streaming mayWait => if s.alive then some (s.tryPick d rates streaming mayWait) else none
  | .grow => if 0 < s.growers then some { s with growers := s.growers - 1 }.grow else none
  | .dialEnds i failed =>
    match s.dials[i]? with
    | some .dialing =>
      -- Once the pool is gone, the task ends and a new connection is closed.
      let dials := if s.alive then s.dials.set i (.ended failed) else s.dials.eraseIdx i
      if failed then some { s with dials }
      else if s.alive then some (add d { s with dials })
      else some (setWatch s.created .closed { s with dials, created := s.created + 1 })
    | _ => none
  | .clearInFlight i =>
    match s.dials[i]? with
    | some (.ended _) =>
      if s.alive then some { s with dialInFlight := false, dials := s.dials.set i .cleared }
      else some { s with dials := s.dials.eraseIdx i }
    | _ => none
  | .clearDialing i =>
    match s.dials[i]? with
    | some .cleared => some { s with dialing := s.dialing && !s.alive, dials := s.dials.eraseIdx i }
    | _ => none
  | .dropStream i =>
    match s.guards[i]? with
    | some ⟨id, true⟩ =>
      some ({ s with guards := s.guards.set i ⟨id, false⟩ }.modify id fun m => { m with streams := m.streams - 1 })
    | _ => none
  | .dropCall i =>
    match s.guards[i]? with
    | some ⟨id, false⟩ =>
      some ({ s with guards := s.guards.eraseIdx i }.modify id fun m => { m with calls := m.calls - 1 })
    | _ => none
  | .measure id rttMicros => some (s.modify id fun m => { m with rttMicros })
  | .idleTick id =>
    if (s.member id).watch = .watching then
      if s.alive then
        some (s.modify id fun m =>
          { m with used := false, watch := if !m.pinned && !m.used then .retiring else .watching })
      else some (s.setWatch id .ending)
    else none
  | .retireIfIdle id =>
    if (s.member id).watch = .retiring then
      if (s.member id).calls ≠ 0 then some (s.setWatch id .watching) else some ((s.remove id).setWatch id .retired)
    else none
  | .endGeneration id =>
    if (s.member id).watch = .watching ∧ ((s.member 0).lost = true ∨ s.alive = false) then some (s.setWatch id .ending)
    else none
  | .remove id =>
    if (s.member id).watch = .ending then some ((s.remove id).setWatch id .draining) else none
  | .checkDrained id =>
    if (s.member id).watch = .draining ∧ (s.member id).calls = 0 then some (s.setWatch id .drained) else none
  | .close id =>
    if (s.member id).watch = .retired ∨ (s.member id).watch = .drained then some (s.setWatch id .closed) else none
  | .seeClosed id =>
    if ((s.member id).watch = .watching ∨ (s.member id).watch = .draining) ∧ (s.member id).lost = true then
      some ((s.remove id).setWatch id .gone)
    else none
  | .lose id => some (s.modify id fun m => { m with lost := true })
  | .dropPool => if s.alive = true ∧ s.growers = 0 then some { s with alive := false } else none

def start (d : Dialer) (others : Nat) : State := (State.add d)^[others] {}

/-! ## What is counted -/

/-- The watched connection is in the list. -/
def Watch.listed : Watch → Bool
  | .watching | .retiring | .ending => true
  | _ => false

/-- No call is on the connection. -/
def Watch.isIdle : Watch → Bool
  | .retired | .drained | .closed => true
  | _ => false

structure Sound (s : State) (id : Nat) (m : Member) : Prop where
  calls : m.calls = s.guards.countP (·.member = id)
  streams : m.streams = s.guards.countP fun g => g.member = id ∧ g.streaming = true
  idle : m.watch.isIdle = true → m.calls = 0
  listed : s.alive = true → id ∈ s.added → m.watch.listed = true
  own : id = 0 → m.watch = .none

structure Inv (d : Dialer) (s : State) : Prop where
  sound : ∀ id, Sound s id (s.member id)
  created : 0 < s.created
  guards : ∀ g ∈ s.guards, g.member < s.created
  added : ∀ id ∈ s.added, id < s.created
  bound : s.opened ≤ d.max
  dials : s.dials.length ≤ 1
  dialing : s.dials ≠ [] → s.dialing = true

variable {d : Dialer} {s s' : State} {id : Nat}

namespace Sound

theorem keeps {m m' : Member} (h : Sound s id m) (hc : m'.calls = m.calls)
    (hs : m'.streams = m.streams) (hi : m'.watch.isIdle = true → m.calls = 0)
    (hl : s.alive = true → id ∈ s.added → m'.watch.listed = true) (hown : id = 0 → m'.watch = .none) :
    Sound s id m' :=
  ⟨hc.trans h.calls, hs.trans h.streams, fun hnow => hc.trans (hi hnow), hl, hown⟩

theorem congr {m : Member} (h : Sound s id m) (hg : s'.guards = s.guards)
    (ha : s'.alive = true → s.alive = true) (hadded : id ∈ s'.added → id ∈ s.added) : Sound s' id m where
  __ := h
  calls := by rw [hg, h.calls]
  streams := by rw [hg, h.streams]
  listed hnow hmem := h.listed (ha hnow) (hadded hmem)

end Sound

namespace Inv

variable {f : Member → Member}

variable (h : Inv d s)
include h

theorem modify (hs : Sound s id (f (s.member id))) : Inv d (s.modify id f) := by
  refine { h with sound := fun o => ?_ }
  rcases eq_or_ne o id with rfl | hne
  · rw [State.modify_member_self]
    exact hs.congr rfl (fun ha => ha) (fun hmem => hmem)
  · rw [State.modify_member_of_ne hne]
    exact (h.sound o).congr rfl (fun ha => ha) (fun hmem => hmem)

theorem remove (id : Nat) : Inv d (s.remove id) where
  __ := h
  sound other := (h.sound other).congr rfl (fun ha => ha) List.mem_of_mem_filter
  added other ho := h.added other (List.mem_of_mem_filter ho)
  bound := (s.remove_opened_le id).trans h.bound

theorem dialed {dials : List Dial} {dialing dialInFlight : Bool} (hl : dials.length ≤ 1)
    (hd : dials ≠ [] → dialing = true) : Inv d { s with dials, dialing, dialInFlight } where
  __ := h
  sound id := (h.sound id).congr rfl (fun ha => ha) (fun hmem => hmem)
  dials := hl
  dialing := hd

theorem grow : Inv d s.grow := by
  unfold State.grow
  split_ifs with hd
  · exact h
  · have hn : s.dials = [] := by
      by_contra hs
      exact hd (h.dialing hs)
    exact h.dialed (by simp [hn]) (fun _ => rfl)

theorem growers (growers : Nat) : Inv d { s with growers } where
  __ := h
  sound id := (h.sound id).congr rfl (fun ha => ha) (fun hmem => hmem)

theorem calls_created : (s.member s.created).calls = 0 := by
  rw [(h.sound s.created).calls, List.countP_eq_zero]
  intro g hg
  have hlt := h.guards g hg
  simp only [decide_eq_true_eq]
  omega

theorem create {added : List Nat}
    (hc : (f (s.member s.created)).calls = (s.member s.created).calls)
    (hs : (f (s.member s.created)).streams = (s.member s.created).streams)
    (ha : ∀ id ∈ added, id ∈ s.added ∨ id = s.created ∧ (f (s.member s.created)).watch.listed = true)
    (hb : added.length + 1 ≤ d.max) :
    Inv d ({ s with created := s.created + 1, added }.modify s.created f) := by
  have hn : s.created ∉ s.added := fun hmem => Nat.lt_irrefl _ (h.added _ hmem)
  refine ⟨fun id => ?_, Nat.succ_pos _, ?_, ?_, hb, h.dials, h.dialing⟩
  · rcases eq_or_ne id s.created with rfl | hne
    · rw [State.modify_member_self]
      refine ⟨hc.trans (h.sound _).calls, hs.trans (h.sound _).streams, ?_, ?_, ?_⟩
      · exact fun _ => hc.trans h.calls_created
      · intro _ hmem
        rcases ha _ hmem with hold | ⟨-, hl⟩
        · exact absurd hold hn
        · exact hl
      · intro hz
        exact absurd hz (Nat.pos_iff_ne_zero.mp h.created)
    · rw [State.modify_member_of_ne hne]
      refine (h.sound id).congr rfl (fun hal => hal) fun hmem => ?_
      exact (ha id hmem).resolve_right fun hnew => hne hnew.1
  · intro g hg
    exact Nat.lt_succ_of_lt (h.guards g hg)
  · intro id hmem
    rcases ha id hmem with hold | ⟨rfl, -⟩
    · exact Nat.lt_succ_of_lt (h.added id hold)
    · exact Nat.lt_succ_self _

theorem add : Inv d (s.add d) := by
  unfold State.add
  split_ifs with hf
  · exact h.create rfl rfl (fun id hid => .inl hid) h.bound
  · refine h.create rfl rfl (fun id hid => ?_) ?_
    · rcases List.mem_append.mp hid with hold | hnew
      · exact .inl hold
      · exact .inr ⟨List.mem_singleton.mp hnew, rfl⟩
    · rw [State.opened] at hf
      rw [List.length_append, List.length_singleton]
      omega

theorem recount {guards : List CallGuard}
    (hm : ∀ g ∈ guards, g.member < s.created)
    (hc : ∀ o ≠ id, guards.countP (·.member = o) = s.guards.countP (·.member = o))
    (hs : ∀ o ≠ id, (guards.countP fun g => g.member = o ∧ g.streaming = true) =
      s.guards.countP fun g => g.member = o ∧ g.streaming = true)
    (hsound : Sound { s with guards } id (f (s.member id))) : Inv d ({ s with guards }.modify id f) := by
  refine { h with sound := fun o => ?_, guards := hm }
  rcases eq_or_ne o id with rfl | hne
  · rw [State.modify_member_self]
    exact hsound.congr rfl (fun ha => ha) (fun hmem => hmem)
  · rw [State.modify_member_of_ne hne]
    obtain ⟨hold, holds, hi, hl, hown⟩ := h.sound o
    exact ⟨hold.trans (hc o hne).symm, holds.trans (hs o hne).symm, hi, hl, hown⟩

theorem count (ha : s.alive = true) (hp : id = 0 ∨ id ∈ s.added) (st : Bool) : Inv d (s.count id st) := by
  have hb : (s.member id).watch.isIdle = false := by
    rcases hp with rfl | hmem
    · rw [(h.sound 0).own rfl]
      rfl
    · have hl := (h.sound id).listed ha hmem
      cases hw : (s.member id).watch <;> simp_all [Watch.listed, Watch.isIdle]
  have hlt : id < s.created := by
    rcases hp with rfl | hmem
    · exact h.created
    · exact h.added id hmem
  change Inv d (State.modify id
    (fun m => { m with calls := m.calls + 1, streams := m.streams + st.toNat, used := true })
    { s with guards := s.guards ++ [⟨id, st⟩] })
  apply h.recount
  · intro g hg
    rcases List.mem_append.mp hg with hold | hnew
    · exact h.guards g hold
    · rw [List.mem_singleton.mp hnew]
      exact hlt
  · intro o hne
    simp [List.countP_append, hne.symm]
  · intro o hne
    simp [List.countP_append, hne.symm]
  · obtain ⟨hc, hs, hidle, hl, hown⟩ := h.sound id
    refine ⟨?_, ?_, ?_, hl, hown⟩
    · simp [List.countP_append, hc]
    · cases st <;> simp [List.countP_append, hs]
    · intro hnow
      rw [hb] at hnow
      cases hnow

omit h

variable {i : Nat}

variable (h : Inv d s)
include h

theorem dropStream (hguard : s.guards[i]? = some ⟨id, true⟩) :
    Inv d ({ s with guards := s.guards.set i ⟨id, false⟩ }.modify id fun m => { m with streams := m.streams - 1 }) := by
  obtain ⟨hi, hget⟩ := List.getElem?_eq_some_iff.mp hguard
  have hlt : id < s.created := h.guards _ (List.mem_of_getElem? hguard)
  apply h.recount
  · intro g hg
    rcases List.mem_or_eq_of_mem_set hg with hold | rfl
    · exact h.guards g hold
    · exact hlt
  · intro o hne
    rw [List.countP_set hi, hget]
    simp [hne.symm]
  · intro o hne
    rw [List.countP_set hi, hget]
    simp [hne.symm]
  · obtain ⟨hc, hs, hid, hl, hown⟩ := h.sound id
    have hpos : 0 < s.guards.countP (·.member = id) := List.countP_pos_iff.mpr ⟨_, List.mem_of_getElem? hguard, by simp⟩
    refine ⟨?_, ?_, hid, hl, hown⟩
    · rw [List.countP_set hi, hget]
      simp only [decide_true, if_true]
      omega
    · rw [List.countP_set hi, hget]
      simp [hs]

theorem dropCall (hguard : s.guards[i]? = some ⟨id, false⟩) :
    Inv d ({ s with guards := s.guards.eraseIdx i }.modify id fun m => { m with calls := m.calls - 1 }) := by
  obtain ⟨hi, hget⟩ := List.getElem?_eq_some_iff.mp hguard
  have hp := List.getElem_cons_eraseIdx_perm hi
  rw [hget] at hp
  apply h.recount
  · intro g hg
    exact h.guards g (List.mem_of_mem_eraseIdx hg)
  · intro o hne
    rw [← hp.countP_eq, List.countP_cons]
    simp [hne.symm]
  · intro o hne
    rw [← hp.countP_eq, List.countP_cons]
    simp [hne.symm]
  · obtain ⟨hc, hs, hid, hl, hown⟩ := h.sound id
    rw [← hp.countP_eq, List.countP_cons] at hc hs
    refine ⟨?_, ?_, ?_, hl, hown⟩
    · simp [hc]
    · simp [hs]
    · intro hnow
      rw [hid hnow]

theorem tryPick (ha : s.alive = true) (rates : Rates) (st mayWait : Bool) : Inv d (s.tryPick d rates st mayWait) := by
  unfold State.tryPick
  extract_lets spread id crowded busy grows grown
  have hpicked : id = 0 ∨ id ∈ s.added := by
    unfold id
    split_ifs
    · exact s.fewest_mem
    · exact .inl rfl
  have hg : Inv d grown ∧ grown.alive = true ∧ grown.added = s.added := by
    unfold grown
    split_ifs
    · exact ⟨h.grow, by simp [ha], by simp⟩
    · exact ⟨h, ha, rfl⟩
  split_ifs
  · exact hg.1
  · exact (hg.1.count hg.2.1 (by rwa [hg.2.2]) st).growers _

theorem dialEnds {f : Bool} (hs : QuicPool.step d s (.dialEnds i f) = some s') : Inv d s' := by
  revert hs
  simp only [QuicPool.step]
  split
  · rename_i hd
    have hso : s.dials ≠ [] := List.ne_nil_of_mem (List.mem_of_getElem? hd)
    have hr : Inv d { s with dials := if s.alive then s.dials.set i (.ended f) else s.dials.eraseIdx i } := by
      apply h.dialed
      · split_ifs
        · rw [List.length_set]
          exact h.dials
        · exact (List.length_eraseIdx_le s.dials i).trans h.dials
      · exact fun _ => h.dialing hso
    generalize (if s.alive then s.dials.set i (.ended f) else s.dials.eraseIdx i) = dials at hr ⊢
    split_ifs
    · rintro ⟨rfl⟩
      exact hr
    · rintro ⟨rfl⟩
      exact hr.add
    · rintro ⟨rfl⟩
      exact hr.create rfl rfl (fun id hid => .inl hid) h.bound
  · nofun

theorem clears {a : Action} (ha : a = .clearInFlight i ∨ a = .clearDialing i)
    (hs : QuicPool.step d s a = some s') : Inv d s' := by
  have her : ∀ dial, s.dials[i]? = some dial → s.dials.eraseIdx i = [] := by
    intro dial hd
    obtain ⟨hi, -⟩ := List.getElem?_eq_some_iff.mp hd
    have hle := h.dials
    rw [← List.length_eq_zero_iff, List.length_eraseIdx_of_lt hi]
    omega
  revert hs
  rcases ha with rfl | rfl
  · simp only [QuicPool.step]
    split
    · rename_i hd
      split_ifs
      · rintro ⟨rfl⟩
        exact h.dialed (by simpa using h.dials) fun _ => h.dialing (List.ne_nil_of_mem (List.mem_of_getElem? hd))
      · rintro ⟨rfl⟩
        exact h.dialed (by simp [her _ hd]) fun hne => absurd (her _ hd) hne
    · nofun
  · simp only [QuicPool.step]
    split
    · rename_i hd
      rintro ⟨rfl⟩
      exact h.dialed (by simp [her _ hd]) fun hne => absurd (her _ hd) hne
    · nofun

theorem setWatch {w : Watch} (hw : (s.member id).watch ≠ .none)
    (hi : w.isIdle = true → (s.member id).calls = 0)
    (hl : s.alive = true → id ∈ s.added → w.listed = true) : Inv d (s.setWatch id w) :=
  h.modify ((h.sound id).keeps rfl rfl hi hl fun hz => absurd ((h.sound id).own hz) hw)

theorem leave {w : Watch} (hw : (s.member id).watch ≠ .none)
    (hi : w.isIdle = true → (s.member id).calls = 0) : Inv d ((s.remove id).setWatch id w) := by
  apply (h.remove id).setWatch hw hi
  intro _ hmem
  simp [State.remove] at hmem

theorem step {a : Action} (hst : QuicPool.step d s a = some s') : Inv d s' := by
  cases a with
  | tryPick rs st mw =>
    obtain ⟨ha, rfl⟩ := of_guard hst
    exact h.tryPick ha rs st mw
  | grow =>
    obtain ⟨-, rfl⟩ := of_guard hst
    exact (h.growers _).grow
  | dialEnds i failed => exact h.dialEnds hst
  | clearInFlight i => exact h.clears (.inl rfl) hst
  | clearDialing i => exact h.clears (.inr rfl) hst
  | dropStream i =>
    revert hst
    simp only [QuicPool.step]
    split
    · rename_i id hg
      rintro ⟨rfl⟩
      exact h.dropStream hg
    · nofun
  | dropCall i =>
    revert hst
    simp only [QuicPool.step]
    split
    · rename_i id hg
      rintro ⟨rfl⟩
      exact h.dropCall hg
    · nofun
  | measure id rttMicros | lose id =>
    cases hst
    exact h.modify ((h.sound id).keeps rfl rfl (h.sound id).idle (h.sound id).listed (h.sound id).own)
  | idleTick id =>
    obtain ⟨hw, hs⟩ := Option.ite_none_right_eq_some.mp hst
    split_ifs at hs
    · cases hs
      refine h.modify ((h.sound id).keeps rfl rfl ?_ ?_ ?_)
      · simp only
        split_ifs <;> nofun
      · simp only
        split_ifs <;> exact fun _ _ => rfl
      · intro hz
        exact absurd ((h.sound id).own hz) (by simp [hw])
    · cases hs
      exact h.setWatch (by simp [hw]) nofun fun _ _ => rfl
  | retireIfIdle id =>
    obtain ⟨hw, hs⟩ := Option.ite_none_right_eq_some.mp hst
    split_ifs at hs with hb
    · cases hs
      exact h.setWatch (by simp [hw]) nofun fun _ _ => rfl
    · cases hs
      exact h.leave (by simp [hw]) fun _ => not_not.mp hb
  | endGeneration id =>
    obtain ⟨⟨hw, -⟩, rfl⟩ := of_guard hst
    exact h.setWatch (by simp [hw]) nofun fun _ _ => rfl
  | remove id =>
    obtain ⟨hw, rfl⟩ := of_guard hst
    exact h.leave (by simp [hw]) nofun
  | checkDrained id =>
    obtain ⟨⟨hw, hc⟩, rfl⟩ := of_guard hst
    refine h.setWatch (by simp [hw]) (fun _ => hc) fun ha hmem => ?_
    simpa [hw, Watch.listed] using (h.sound id).listed ha hmem
  | close id =>
    obtain ⟨hw, rfl⟩ := of_guard hst
    refine h.setWatch ?_ (fun _ => (h.sound id).idle ?_) fun ha hmem => ?_
    · rcases hw with hw | hw <;> simp [hw]
    · rcases hw with hw | hw <;> simp [hw, Watch.isIdle]
    · have hl := (h.sound id).listed ha hmem
      rcases hw with hw | hw <;> simp [hw, Watch.listed] at hl
  | seeClosed id =>
    obtain ⟨⟨hw, -⟩, rfl⟩ := of_guard hst
    refine h.leave ?_ nofun
    rcases hw with hw | hw <;> simp [hw]
  | dropPool =>
    obtain ⟨-, rfl⟩ := of_guard hst
    exact { h with sound := fun id => (h.sound id).congr rfl nofun fun hmem => hmem }

omit h

theorem start (d : Dialer) (others : Nat) : Inv d (start d others) := by
  unfold QuicPool.start
  induction others with
  | zero =>
    refine ⟨fun id => ⟨rfl, rfl, nofun, nofun, fun _ => rfl⟩, Nat.one_pos, nofun, nofun, ?_, Nat.zero_le 1, ?_⟩
    · exact Nat.le_max_right d.maxQuicConnections 1
    · intro hn
      exact absurd rfl hn
  | succ n ih =>
    rw [Function.iterate_succ_apply']
    exact ih.add

theorem of_run {others : Nat} {a : List Action} (hrun : run (QuicPool.step d) (QuicPool.start d others) a = some s) :
    Inv d s :=
  run_induction (P := fun _ => Inv d) (Inv.start d others) (fun _ _ _ _ h hs => h.step hs) hrun

end Inv

/-! ## Connections that are being dialed

A call decides to dial under the lock, and dials after it. Another dial may have ended in between.
-/

def RoomToGrow (d : Dialer) (s : State) (a : Action) : Prop := a = .grow → s.dialing = true ∨ s.opened < d.max

instance (d : Dialer) (s : State) (a : Action) : Decidable (RoomToGrow d s a) := inferInstanceAs (Decidable (_ → _))

def Room (d : Dialer) (s : State) : Prop := s.opened + s.dialed ≤ d.max

namespace Inv

theorem dialed_le (h : Inv d s) : s.dialed ≤ 1 := List.count_le_length.trans h.dials

theorem dialed_eq_zero (h : Inv d s) (hd : s.dialing = false) : s.dialed = 0 := by
  have hn : s.dials = [] := by
    by_contra hs
    simp [h.dialing hs] at hd
  simp [State.dialed, hn]

theorem room_grow (h : Inv d s) (hr : Room d s) (hmax : s.dialing = true ∨ s.opened < d.max) : Room d s.grow := by
  unfold State.grow
  split_ifs with hd
  · exact hr
  · have hn := h.dialed_eq_zero (Bool.eq_false_iff.mpr hd)
    have hlt := hmax.resolve_left hd
    unfold Room
    simp only [State.opened, State.dialed, List.count_append, List.count_singleton_self] at hlt hn ⊢
    omega

theorem room_tryPick (h : Inv d s) (hr : Room d s) (rates : Rates) (st mayWait : Bool) :
    Room d (s.tryPick d rates st mayWait) := by
  unfold State.tryPick
  extract_lets spread id crowded busy grows grown
  have hg : Room d grown := by
    unfold grown
    split_ifs with hc
    · refine h.room_grow hr (.inr ?_)
      simp only [crowded, Bool.and_eq_true, decide_eq_true_eq] at hc
      exact hc.1.1.2
    · exact hr
  split_ifs
  · exact hg
  · exact hg

end Inv

theorem room_dialEnds (hr : Room d s) {i : Nat} {f : Bool} (hs : step d s (.dialEnds i f) = some s') : Room d s' := by
  revert hs
  simp only [step]
  split
  · rename_i hd
    obtain ⟨hi, hget⟩ := List.getElem?_eq_some_iff.mp hd
    have hl : (if s.alive then s.dials.set i (.ended f) else s.dials.eraseIdx i).count .dialing + 1 =
        s.dialed := by
      rw [State.dialed, ← (List.getElem_cons_eraseIdx_perm hi).count_eq, hget, List.count_cons_self]
      split_ifs
      · rw [(List.set_perm_cons_eraseIdx hi _).count_eq, List.count_cons_of_ne (by simp)]
      · rfl
    generalize (if s.alive then s.dials.set i (.ended f) else s.dials.eraseIdx i) = dials at hl ⊢
    unfold Room at hr ⊢
    split_ifs
    · rintro ⟨rfl⟩
      have ho : { s with dials }.opened = s.opened := rfl
      have hdi : { s with dials }.dialed = dials.count .dialing := rfl
      omega
    · rintro ⟨rfl⟩
      have ho : ({ s with dials }.add d).opened ≤ s.opened + 1 := State.add_opened_le d _
      have hdi : ({ s with dials }.add d).dialed = dials.count .dialing := by simp [State.dialed]
      omega
    · rintro ⟨rfl⟩
      have hdi : ({ s with dials, created := s.created + 1 }.setWatch s.created .closed).dialed =
        dials.count .dialing := rfl
      have ho : ({ s with dials, created := s.created + 1 }.setWatch s.created .closed).opened = s.opened := rfl
      omega
  · nofun

/-- No connection is opened or dialed. -/
def Shrinks (s s' : State) : Prop := s'.opened ≤ s.opened ∧ s'.dialed ≤ s.dialed

theorem Shrinks.room (h : Shrinks s s') (hr : Room d s) : Room d s' :=
  (Nat.add_le_add h.1 h.2).trans hr

theorem shrinks_remove (s : State) (id : Nat) : Shrinks s (s.remove id) := ⟨s.remove_opened_le id, Nat.le_refl _⟩

theorem step_shrinks {a : Action} (hst : step d s a = some s') :
    Shrinks s s' ∨ (∃ rs st mw, a = .tryPick rs st mw) ∨ a = .grow ∨
      ∃ i failed, a = .dialEnds i failed := by
  have hsa : Shrinks s s := ⟨Nat.le_refl _, Nat.le_refl _⟩
  cases a with
  | tryPick rs st mw => exact .inr (.inl ⟨rs, st, mw, rfl⟩)
  | grow => exact .inr (.inr (.inl rfl))
  | dialEnds i failed => exact .inr (.inr (.inr ⟨i, failed, rfl⟩))
  | clearInFlight i =>
    revert hst
    simp only [step]
    split
    · rename_i hd
      obtain ⟨hi, hget⟩ := List.getElem?_eq_some_iff.mp hd
      split_ifs
      · rintro ⟨rfl⟩
        refine .inl ⟨Nat.le_refl _, ?_⟩
        rw [State.dialed, (List.set_perm_cons_eraseIdx hi _).count_eq, List.count_cons_of_ne (by simp)]
        exact (List.eraseIdx_sublist s.dials i).count_le _
      · rintro ⟨rfl⟩
        exact .inl ⟨Nat.le_refl _, (List.eraseIdx_sublist s.dials i).count_le _⟩
    · nofun
  | clearDialing i =>
    revert hst
    simp only [step]
    split
    · rintro ⟨rfl⟩
      exact .inl ⟨Nat.le_refl _, (List.eraseIdx_sublist s.dials i).count_le _⟩
    · nofun
  | dropStream i | dropCall i =>
    revert hst
    simp only [step]
    split
    · rintro ⟨rfl⟩
      exact .inl hsa
    · nofun
  | measure id rttMicros =>
    cases hst
    exact .inl hsa
  | idleTick id =>
    obtain ⟨-, hs⟩ := Option.ite_none_right_eq_some.mp hst
    split_ifs at hs <;> exact .inl (Option.some.inj hs ▸ hsa)
  | retireIfIdle id =>
    obtain ⟨-, hs⟩ := Option.ite_none_right_eq_some.mp hst
    split_ifs at hs
    · exact .inl (Option.some.inj hs ▸ hsa)
    · exact .inl (Option.some.inj hs ▸ shrinks_remove s id)
  | endGeneration id | checkDrained id | close id | dropPool =>
    obtain ⟨-, hs⟩ := Option.ite_none_right_eq_some.mp hst
    exact .inl (Option.some.inj hs ▸ hsa)
  | remove id | seeClosed id =>
    obtain ⟨-, hs⟩ := Option.ite_none_right_eq_some.mp hst
    exact .inl (Option.some.inj hs ▸ shrinks_remove s id)
  | lose id =>
    cases hst
    exact .inl hsa

theorem room_step {a : Action} (h : Inv d s) (hr : Room d s) (hg : RoomToGrow d s a)
    (hs : step d s a = some s') : Room d s' := by
  rcases step_shrinks hs with hsh | ⟨rs, st, mw, rfl⟩ | rfl | ⟨i, failed, rfl⟩
  · exact hsh.room hr
  · obtain ⟨-, rfl⟩ := of_guard hs
    exact h.room_tryPick hr rs st mw
  · obtain ⟨-, rfl⟩ := of_guard hs
    exact (h.growers _).room_grow hr (hg rfl)
  · exact room_dialEnds hr hs

theorem start_dials (d : Dialer) (others : Nat) : (start d others).dials = [] := by
  unfold start
  induction others with
  | zero => rfl
  | succ n ih => rw [Function.iterate_succ_apply', State.add_dials, ih]

theorem room_run {others : Nat} {actions : List Action}
    (hg : Along (RoomToGrow d) (step d) (start d others) actions)
    (hrun : run (step d) (start d others) actions = some s) : Room d s := by
  have hst : Room d (start d others) := by
    unfold Room
    rw [State.dialed, start_dials]
    exact (Inv.start d others).bound
  refine (run_induction_along (P := fun _ s => Inv d s ∧ Room d s) ⟨Inv.start d others, hst⟩ ?_ hg hrun).2
  rintro - t a t' ⟨hinv, hr⟩ hok hs
  exact ⟨hinv.step hs, room_step hinv hr hok hs⟩

/-! ## The pool -/

structure Keeps (d : Dialer) (s : State) : Prop where
  opened : s.opened ≤ d.max
  dialed : s.dialed ≤ 1
  calls : ∀ id, (s.member id).calls = s.guards.countP (·.member = id)
  streams : ∀ id, (s.member id).streams = s.guards.countP fun g => g.member = id ∧ g.streaming = true
  closed : ∀ id, (s.member id).watch.isIdle = true → (s.member id).calls = 0

theorem pool_keeps_counts (d : Dialer) (others : Nat) (actions : List Action) {s : State}
    (hrun : run (step d) (start d others) actions = some s) :
    Keeps d s ∧ (Along (RoomToGrow d) (step d) (start d others) actions → s.opened + s.dialed ≤ d.max) := by
  have h := Inv.of_run hrun
  refine ⟨?_, fun hgrow => room_run hgrow hrun⟩
  exact ⟨h.bound, h.dialed_le, fun id => (h.sound id).calls, fun id => (h.sound id).streams,
    fun id => (h.sound id).idle⟩

theorem pool_keeps_counts_growing :
    let d : Dialer := ⟨2, 2, 1, 1⟩
    let actions := [.tryPick ⟨0, 0⟩ true false, .grow, .dialEnds 0 false, .clearInFlight 0, .clearDialing 0,
      .tryPick ⟨0, 0⟩ false false, .dropStream 0, .dropCall 0]
    ∃ s ∈ run (step d) (start d 0) actions,
      s.guards = [⟨1, false⟩] ∧ (s.member 1).calls = 1 ∧ s.opened + s.dialed = 2 ∧ s.opened + s.dialed ≤ d.max ∧
        Keeps d s := by
  intro d actions
  have hrun : ∃ s ∈ run (step d) (start d 0) actions,
      s.guards = [⟨1, false⟩] ∧ (s.member 1).calls = 1 ∧ s.opened + s.dialed = 2 := by decide
  obtain ⟨s, hs, hguards, hcalls, htotal⟩ := hrun
  obtain ⟨hkeeps, hroom⟩ := pool_keeps_counts d 0 actions hs
  exact ⟨s, hs, hguards, hcalls, htotal, hroom (by decide), hkeeps⟩

/-- Two calls find the pool too small, and the second dials after the first dial ended. -/
theorem dialed_beyond_max :
    let d : Dialer := ⟨2, 2, 1, 1⟩
    let actions := [.tryPick ⟨0, 0⟩ false false, .tryPick ⟨0, 0⟩ false false, .grow, .dialEnds 0 false,
      .clearInFlight 0, .clearDialing 0, .grow]
    ∃ s ∈ run (step d) (start d 0) actions, d.max < s.opened + s.dialed :=
  ⟨_, rfl, by decide⟩

end TrevRpc.Rust.QuicPool
