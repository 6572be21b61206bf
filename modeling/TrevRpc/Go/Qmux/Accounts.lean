import TrevRpc.Go.Qmux.Reach
import TrevRpc.Lib.Modify
import Mathlib.Algebra.BigOperators.Group.List.Basic

/-! # Flow control accounts -/

open TrevRpc.Run TrevRpc.Modify

namespace TrevRpc.Go.Qmux

def Stream.owed (st : Stream) : Nat := st.received - st.read

namespace Session

variable {calm : Bool} {s s' : Session} {id : StreamID} {st st' : Stream}

def total (s : Session) (w : Stream → Nat) : Nat :=
  ((s.streams .client).map w).sum + ((s.streams .server).map w).sum

theorem total_set (w : Stream → Nat) (st' : Stream) (hget : s.get id = some st) :
    (s.set id st').total w + w st = s.total w + w st' := by
  obtain ⟨o, num⟩ := id
  have hsum := sum_set w (b := st') hget
  cases o with
  | client =>
    simp only [total, set, Function.update_self, Function.update_of_ne (show Role.server ≠ Role.client by decide)]
    simp only at hsum
    omega
  | server =>
    simp only [total, set, Function.update_self, Function.update_of_ne (show Role.client ≠ Role.server by decide)]
    simp only at hsum
    omega

theorem total_set_same (w : Stream → Nat) (st' : Stream) (hget : s.get id = some st) (hw : w st' = w st) :
    (s.set id st').total w = s.total w := by
  have hset := total_set w st' hget
  omega

theorem total_append (w : Stream → Nat) (r : Role) (new : List Stream) (hnew : ∀ st ∈ new, w st = 0)
    (hs : s'.streams = Function.update s.streams r (s.streams r ++ new)) : s'.total w = s.total w := by
  have hz : (new.map w).sum = 0 := by
    refine List.sum_eq_zero fun n hn => ?_
    obtain ⟨st, hst, rfl⟩ := List.mem_map.mp hn
    exact hnew st hst
  unfold total
  rw [hs]
  cases r with
  | client | server =>
    rw [Function.update_self, Function.update_of_ne (by decide), List.map_append, List.sum_append, hz]
    rfl

structure Balanced (s : Session) : Prop where
  received : s.connConsumed + s.total Stream.owed = s.connReceived
  received_le : s.connReceived ≤ s.connRecvMax
  sent : s.connSent = s.total Stream.sent

theorem Balanced.set (h : s.Balanced) (hget : s.get id = some st) (hr : st'.receiving = st.receiving)
    (hs : st'.sent = st.sent) : (s.set id st').Balanced where
  received := by
    have hrec : st'.received = st.received := congrArg Stream.Receiving.received hr
    have hre : st'.read = st.read := congrArg Stream.Receiving.read hr
    rw [total_set_same Stream.owed st' hget (by rw [Stream.owed, Stream.owed, hrec, hre])]
    exact h.received
  received_le := h.received_le
  sent := by
    rw [total_set_same Stream.sent st' hget hs]
    exact h.sent

theorem Balanced.streamCompleted (h : s.Balanced) (id : StreamID) : (s.streamCompleted id).Balanced := by
  unfold Session.streamCompleted
  split_ifs
  · exact h
  · exact { h with }

theorem Balanced.markReady (h : s.Balanced) (id : StreamID) : (s.markReady id).Balanced := by
  unfold Session.markReady
  cases hget : s.get id with
  | none => exact h
  | some st =>
    simp only
    split_ifs
    · exact h
    · exact { h with }
    · have hset : Balanced (s.set id { st with inReady := true }) := h.set hget rfl rfl
      exact { hset with }

theorem consumedBy_spec (s : Session) (t : Option Nat) :
    (s.consumedBy t).connConsumed = s.connConsumed + t.getD 0 ∧
      s.connRecvMax ≤ (s.consumedBy t).connRecvMax ∧ (s.consumedBy t).streams = s.streams ∧
      (s.consumedBy t).connReceived = s.connReceived ∧ (s.consumedBy t).connSent = s.connSent := by
  cases t with
  | none => exact ⟨rfl, le_rfl, rfl, rfl, rfl⟩
  | some n =>
    unfold consumedBy consumed
    simp only
    split_ifs with hlow
    · refine ⟨rfl, ?_, rfl, rfl, rfl⟩
      change s.connRecvMax ≤ s.connConsumed + n + s.connRecvWindow
      omega
    · exact ⟨rfl, le_rfl, rfl, rfl, rfl⟩

theorem Balanced.receive {arrived : Nat} (t : Option Nat) (h : s.Balanced) (hs : s.Sane)
    (hget : s.get id = some st) (hr : st.Recv st' arrived (t.getD 0))
    (hc : arrived ≠ 0 → s.connReceived + arrived ≤ s.connRecvMax) :
    (({ s with connReceived := s.connReceived + arrived }.set id st').consumedBy t).Balanced := by
  obtain ⟨hcon, hmax, hst, hrec, hse⟩ :=
    consumedBy_spec ({ s with connReceived := s.connReceived + arrived }.set id st') t
  generalize ({ s with connReceived := s.connReceived + arrived }.set id st').consumedBy t = s' at *
  change s'.connConsumed = s.connConsumed + t.getD 0 at hcon
  change s.connRecvMax ≤ s'.connRecvMax at hmax
  change s'.streams = (s.set id st').streams at hst
  change s'.connReceived = s.connReceived + arrived at hrec
  change s'.connSent = s.connSent at hse
  have ht (w : Stream → Nat) : s'.total w = (s.set id st').total w := by rw [total, total, hst]
  have hold := h.received
  have hold_le := h.received_le
  have ho := total_set Stream.owed st' hget
  have hread := (hs.stream id st hget).read_le
  have hr' := hr.sane.read_le
  refine ⟨?_, ?_, ?_⟩
  · rw [ht, hcon, hrec]
    rw [Stream.owed, Stream.owed, hr.received, hr.read] at ho
    rw [hr.received, hr.read] at hr'
    omega
  · rw [hrec]
    by_cases hz : arrived = 0
    · omega
    · exact (hc hz).trans hmax
  · rw [hse, ht, total_set_same Stream.sent st' hget (congrArg Stream.Sending.sent hr.sending), h.sent]

theorem Balanced.opens (r : Role) (c sendMax window : Nat) (h : s.Balanced)
    (hs : s'.streams =
      Function.update s.streams r (s.streams r ++ List.replicate c (.new sendMax window)))
    (hconsumed : s'.connConsumed = s.connConsumed) (hrec : s'.connReceived = s.connReceived)
    (hmax : s'.connRecvMax = s.connRecvMax) (hsent : s'.connSent = s.connSent) : s'.Balanced := by
  have ht (w : Stream → Nat) (hw : w (.new sendMax window) = 0) : s'.total w = s.total w := by
    refine total_append w r _ (fun st hst => ?_) hs
    rw [(List.mem_replicate.mp hst).2, hw]
  refine ⟨?_, ?_, ?_⟩
  · rw [ht Stream.owed rfl, hconsumed, hrec, h.received]
  · rw [hrec, hmax]
    exact h.received_le
  · rw [hsent, ht Stream.sent rfl, h.sent]

theorem Change.balanced (h : Change calm s s') (hs : s.Sane) (hb : s.Balanced) : s'.Balanced := by
  cases h with
  | wake | queue | accept | maxData | maxStreams | parameters | ping | sendPing | close => exact { hb with }
  | receive t hget hr hc => exact hb.receive t hs hget hr hc
  | complete hget =>
    refine Balanced.streamCompleted ?_ _
    exact hb.set hget rfl rfl
  | send hget hse => exact (hb.set hget hse.receiving hse.sent).markReady _
  | raise hget =>
    refine Balanced.markReady ?_ _
    exact hb.set hget rfl rfl
  | reset code err hget =>
    have hset : Balanced (s.set _ (Stream.givenUp _ err)) := hb.set hget rfl rfl
    exact { hset with }
  | openLocal ho =>
    rw [openStreamSync, if_pos ho]
    exact hb.opens s.role 1 _ _ rfl rfl rfl rfl rfl
  | openRemote => exact hb.opens s.role.other _ _ _ rfl rfl rfl rfl rfl

theorem Emit.balanced {b b' : Building} (h : Emit b b') (hb : b.1.Balanced) : b'.1.Balanced := by
  cases h with
  | control | flow | schedule | closing => exact { hb with }
  | idle hget => exact hb.set hget rfl rfl
  | @frame s frames id st n fin buf head r hget =>
    have hs := total_set Stream.sent (st.framed n fin buf head r) hget
    have ho := total_set_same Stream.owed (st.framed n fin buf head r) hget rfl
    refine ⟨?_, hb.received_le, ?_⟩
    · change s.connConsumed + (s.set id _).total Stream.owed = s.connReceived
      rw [ho]
      exact hb.received
    · have hold := hb.sent
      change s.connSent + n = (s.set id (st.framed n fin buf head r)).total Stream.sent
      change (s.set id _).total Stream.sent + st.sent = s.total Stream.sent + (st.sent + n) at hs
      change s.connSent = s.total Stream.sent at hold
      omega
  | complete hget =>
    refine Balanced.streamCompleted ?_ _
    exact hb.set hget rfl rfl

/-! ## Runs -/

theorem Path.balanced (h : Path calm s s') (hs : s.Sane) (hb : s.Balanced) : s'.Balanced := by
  induction h with
  | refl => exact hb
  | tail hbe hl ih => exact hl.balanced (Path.sane hbe hs) ih

theorem Emits.balanced {b b' : Building} (h : Emits b b') (hb : b.1.Balanced) : b'.1.Balanced := by
  induction h with
  | refl => exact hb
  | tail _ hl ih => exact hl.balanced ih

/-- No subtraction of the code wraps. -/
structure NoWrap (s : Session) : Prop where
  -- `Read` returns the credit of `n` bytes to the stream and to the connection.
  read : ∀ id st n, s.get id = some st → st.readCancelled = false → st.resetReceived = none →
    n ≤ st.unread.length → st.read + n ≤ st.recvMax ∧ s.connConsumed + n ≤ s.connRecvMax
  cancelRead : ∀ id st, s.get id = some st →
    st.read ≤ st.received ∧ s.connConsumed + (st.received - st.read) ≤ s.connRecvMax
  -- A STREAM frame of `n` bytes that are discarded, and a reset, once the session has accepted them.
  discard : ∀ n, s.connReceived + n ≤ s.connRecvMax → s.connConsumed + n ≤ s.connRecvMax
  reset : ∀ id st finalSize, s.get id = some st → st.received ≤ finalSize →
    s.connReceived + (finalSize - st.received) ≤ s.connRecvMax →
    st.read ≤ finalSize ∧ s.connConsumed + (finalSize - st.read) ≤ s.connRecvMax
  -- The credit for the turn of a stream.
  send : ∀ id st, s.get id = some st → st.sent ≤ st.sendMax ∧ s.connSent ≤ s.connSendMax

structure Accounts (s : Session) : Prop where
  stream : ∀ id st, s.get id = some st → st.read ≤ st.received ∧ st.received ≤ st.recvMax ∧ st.sent ≤ st.sendMax
  owed : s.connReceived - s.connConsumed = s.total Stream.owed
  consumed_le : s.connConsumed ≤ s.connReceived
  received_le : s.connReceived ≤ s.connRecvMax
  sent : s.connSent = s.total Stream.sent
  sent_le : s.connSent ≤ s.connSendMax
  noWrap : s.NoWrap
  -- A stream that has completed has returned its credit.
  removed : ∀ id st, s.get id = some st → st.removed = true → st.read = st.received

theorem owed_le_total (hget : s.get id = some st) : st.owed ≤ s.total Stream.owed := by
  have hset := total_set Stream.owed (.new 0 0) hget
  have hzero : Stream.owed (.new 0 0) = 0 := rfl
  omega

theorem Balanced.noWrap (h : s.Balanced) (hs : s.Sane) : s.NoWrap := by
  have hrec := h.received
  have hmax := h.received_le
  have ho (id : StreamID) (st : Stream) (hget : s.get id = some st) :
      s.connConsumed + (st.received - st.read) ≤ s.connReceived := by
    have hle := owed_le_total hget
    rw [Stream.owed] at hle
    omega
  refine ⟨?_, ?_, ?_, ?_, fun id st hget => ⟨(hs.stream id st hget).sent_le, hs.credit⟩⟩
  · intro id st n hget hc hr hn
    have hbuffered := (hs.stream id st hget).buffered hc hr
    have hlimit := (hs.stream id st hget).received_le
    have hle := ho id st hget
    omega
  · intro id st hget
    exact ⟨(hs.stream id st hget).read_le, (ho id st hget).trans hmax⟩
  · intro n hn
    omega
  · intro id st finalSize hget hfinal hconn
    have hread := (hs.stream id st hget).read_le
    have hle := ho id st hget
    omega

theorem Balanced.accounts (h : s.Balanced) (hs : s.Sane) : s.Accounts := by
  have hrec := h.received
  refine ⟨?_, by omega, by omega, h.received_le, h.sent, hs.credit, h.noWrap hs, ?_⟩
  · intro id st hget
    have hst := hs.stream id st hget
    exact ⟨hst.read_le, hst.received_le, hst.sent_le⟩
  · intro id st hget
    exact (hs.stream id st hget).read_eq_of_removed

end Session

/-! ## Machine integers -/

/-- What a `uint64` keeps of a number. -/
def stored (n : Nat) : Nat := n % 2 ^ 64

def Stream.stored (st : Stream) : Stream :=
  { st with
    received := Qmux.stored st.received, read := Qmux.stored st.read, recvMax := Qmux.stored st.recvMax
    finalSize := Qmux.stored st.finalSize, sent := Qmux.stored st.sent, sendMax := Qmux.stored st.sendMax }

/-- No counter of the stream has wrapped. -/
def Stream.Fits (st : Stream) : Prop :=
  ∀ n ∈ [st.received, st.read, st.recvMax, st.finalSize, st.sent, st.sendMax], n < 2 ^ 64

instance : DecidablePred Stream.Fits := fun st =>
  inferInstanceAs (Decidable (∀ n ∈ [st.received, st.read, st.recvMax, st.finalSize, st.sent, st.sendMax], n < 2 ^ 64))

theorem stored_of_lt {n : Nat} (h : n < 2 ^ 64) : stored n = n := Nat.mod_eq_of_lt h

theorem Stream.Fits.stored_eq {st : Stream} (h : st.Fits) : st.stored = st := by
  simp only [Stream.Fits, List.forall_mem_cons] at h
  obtain ⟨h₁, h₂, h₃, h₄, h₅, h₆, -⟩ := h
  rw [Stream.stored, stored_of_lt h₁, stored_of_lt h₂, stored_of_lt h₃, stored_of_lt h₄, stored_of_lt h₅,
    stored_of_lt h₆]

namespace Session

variable {s s' : Session}

def stored (s : Session) : Session :=
  { s with
    streams := fun r => (s.streams r).map Stream.stored
    maxRemote := Qmux.stored s.maxRemote
    connSendMax := Qmux.stored s.connSendMax, connSent := Qmux.stored s.connSent
    connRecvMax := Qmux.stored s.connRecvMax, connReceived := Qmux.stored s.connReceived
    connConsumed := Qmux.stored s.connConsumed, pingSent := Qmux.stored s.pingSent }

/-- No counter has wrapped, now or before: counters never decrease. -/
structure Fits (s : Session) : Prop where
  stream : ∀ r, ∀ st ∈ s.streams r, st.Fits
  counter : ∀ n ∈ [s.maxRemote, s.connSendMax, s.connSent, s.connRecvMax, s.connReceived, s.connConsumed,
    s.pingSent], n < 2 ^ 64

instance : DecidablePred Fits := fun s =>
  decidable_of_iff ((∀ st ∈ s.streams .client, st.Fits) ∧ (∀ st ∈ s.streams .server, st.Fits) ∧
    ∀ n ∈ [s.maxRemote, s.connSendMax, s.connSent, s.connRecvMax, s.connReceived, s.connConsumed, s.pingSent],
      n < 2 ^ 64) (by
    constructor
    · rintro ⟨hclient, hserver, hcounter⟩
      exact ⟨fun r => by cases r <;> assumption, hcounter⟩
    · rintro ⟨hstream, hcounter⟩
      exact ⟨hstream .client, hstream .server, hcounter⟩)

theorem Fits.stored_eq (h : s.Fits) : s.stored = s := by
  have hs : (fun r => (s.streams r).map Stream.stored) = s.streams := by
    funext r
    rw [List.map_congr_left fun st hst => (h.stream r st hst).stored_eq, List.map_id']
  have hc := h.counter
  simp only [List.forall_mem_cons] at hc
  obtain ⟨h₁, h₂, h₃, h₄, h₅, h₆, h₇, -⟩ := hc
  rw [stored, hs, stored_of_lt h₁, stored_of_lt h₂, stored_of_lt h₃, stored_of_lt h₄, stored_of_lt h₅,
    stored_of_lt h₆, stored_of_lt h₇]

theorem balanced_start {role : Role} {v : Version} {params : Parameters} {n : Nat}
    (h : newSession role v params n = some s) : s.Balanced := by
  obtain ⟨body, -, rfl⟩ := newSession_eq_some h
  exact ⟨rfl, Nat.zero_le _, rfl⟩

/-- Until a frame is refused or a counter wraps, the accounts are right whatever the peer sends. -/
theorem accounts_always {role : Role} {v : Version} {params : Parameters} {streamSendBuffer : Nat}
    {events : List Event} (hstart : newSession role v params streamSendBuffer = some s)
    (hok : Along Accepts step s events) (hfits : Always (fun _ => Fits) step s events) :
    Always (fun _ s => s.stored.Accounts) step s events := by
  intro done t hdone ht
  rw [(hfits done t hdone ht).stored_eq]
  obtain ⟨rest, rfl⟩ := hdone
  have hkept : t.Good ∧ t.Balanced := by
    refine run_induction_along (P := fun _ s => s.Good ∧ s.Balanced) ⟨good_start hstart, balanced_start hstart⟩
      ?_ (along_of_append hok) ht
    rintro _ s e s' ⟨hs, hb⟩ haccepts hstep
    refine ⟨hs.step hstep, ?_⟩
    rcases path_step hs.sane not_calm haccepts hstep with hpath | ⟨-, rfl⟩
    · exact hpath.balanced hs.sane hb
    · exact Emits.balanced (buildRecord_spec hs.sane hs.readyOk).1 hb
  exact hkept.2.accounts hkept.1.sane

def narrow : Session := (newSession .server draft02 ⟨0, 9, 9, 9, 1, 0⟩ 0).get (by decide +kernel)

theorem narrow_eq : newSession .server draft02 ⟨0, 9, 9, 9, 1, 0⟩ 0 = some narrow := (Option.some_get _).symm

def firstRecord : List UInt8 :=
  (encodeRecord draft02 [.transportParameters [], appendStreamFrame 0 0 [104] false]).get (by decide +kernel)

def givesUp : List Event :=
  [.receive ((encodeRecord draft02 [.transportParameters [], appendStreamFrame 0 0 [104, 105] false]).get
      (by decide +kernel)),
    .call (.read ⟨.client, 0⟩ 1), .call (.write ⟨.client, 0⟩ [106] 0), .build,
    .receive ((encodeRecord draft02 [.resetStream 0 7 6]).get (by decide +kernel)),
    .call (.cancelWrite ⟨.client, 0⟩ 7), .build]

theorem accounts_always_givesUp :
    (run step narrow givesUp).isSome = true ∧ Always (fun _ s => s.stored.Accounts) step narrow givesUp :=
  ⟨by decide +kernel, accounts_always narrow_eq (by decide +kernel) (by decide +kernel)⟩

/-- A server with the widest windows. -/
def wide : Session :=
  (newSession .server draft02 ⟨0, Varint.maxValue, 0, Varint.maxValue, 8, 0⟩ 0).get (by decide +kernel)

def fourResets : List UInt8 :=
  (encodeRecord draft02 (.transportParameters [] ::
    [0, 4, 8, 12].map fun id => .resetStream id 0 Varint.maxValue)).get (by decide +kernel)

/-- The limit of the connection wraps, and what has arrived is far above it. -/
theorem accounts_wrap :
    Along Accepts step wide [.receive fourResets] ∧
      ¬ Always (fun _ s => s.stored.Accounts) step wide [.receive fourResets] := by
  refine ⟨by decide +kernel, fun h => ?_⟩
  have hle := (h [.receive fourResets] _ List.prefix_rfl rfl).received_le
  exact absurd hle (by decide +kernel)

end Session

end TrevRpc.Go.Qmux
