import TrevRpc.Go.Qmux.Accounts
import Mathlib.Data.List.Dedup

/-! # The streams that a peer makes a session hold -/

open TrevRpc.Run TrevRpc.Modify

namespace TrevRpc.Go.Qmux

namespace Session

variable {calm : Bool} {s s' : Session} {id : StreamID} {st st' : Stream} {params : Parameters}

def completedRemote (s : Session) : Nat := ((s.streams s.role.other).map fun st => st.removed.toNat).sum

/-- The streams of the peer in the map. -/
def liveRemote (s : Session) : List StreamID :=
  ((s.streams s.role.other).zipIdx.filter fun x => !x.1.removed).map fun x => ⟨s.role.other, x.2⟩

def held (s : Session) : List StreamID := (s.liveRemote ++ s.acceptQueue).dedup

structure Allows (params : Parameters) (s : Session) : Prop where
  localParams : s.localParams = params
  opened : s.openedRemote ≤ s.maxRemote
  limit : s.maxRemote = params.initialMaxStreamsBidi + s.completedRemote
  queued : ∀ id ∈ s.acceptQueue, id.opener = s.role.other

theorem Allows.congr (h : s.Allows params) (hp : s'.localParams = s.localParams) (hr : s'.role = s.role)
    (ho : s'.openedRemote = s.openedRemote) (hcompleted : s'.completedRemote = s.completedRemote)
    (hmax : s'.maxRemote = s.maxRemote) (hq : s'.acceptQueue ⊆ s.acceptQueue) : s'.Allows params where
  localParams := hp.trans h.localParams
  opened := by
    rw [ho, hmax]
    exact h.opened
  limit := by rw [hmax, hcompleted, h.limit]
  queued id hid := by
    rw [hr]
    exact h.queued id (hq hid)

theorem openedRemote_set (s : Session) (id : StreamID) (st : Stream) : (s.set id st).openedRemote = s.openedRemote :=
  length_set s.role.other

theorem completedRemote_set (st' : Stream) (hget : s.get id = some st) (hid : id.opener = s.role.other) :
    (s.set id st').completedRemote + st.removed.toNat = s.completedRemote + st'.removed.toNat := by
  have hsum := sum_set (fun st : Stream => st.removed.toNat) (b := st') hget
  unfold completedRemote set
  simp only [hid, Function.update_self] at hsum ⊢
  exact hsum

theorem completedRemote_set_local (st' : Stream) (hid : id.opener ≠ s.role.other) :
    (s.set id st').completedRemote = s.completedRemote := by
  unfold completedRemote set
  simp only [Function.update_of_ne hid.symm]

theorem completedRemote_set_same (hget : s.get id = some st) (hst : st'.removed = st.removed) :
    (s.set id st').completedRemote = s.completedRemote := by
  by_cases hid : id.opener = s.role.other
  · have hset := completedRemote_set st' hget hid
    rw [hst] at hset
    omega
  · exact completedRemote_set_local st' hid

variable (h : s.Allows params)
include h

theorem Allows.set (hget : s.get id = some st) (hst : st'.removed = st.removed) : (s.set id st').Allows params :=
  h.congr rfl rfl (openedRemote_set s id st') (completedRemote_set_same hget hst) rfl (List.Subset.refl _)

theorem Allows.consumedBy (n : Option Nat) : (s.consumedBy n).Allows params := by
  cases n with
  | none => exact h
  | some n =>
    unfold Session.consumedBy consumed
    simp only
    split_ifs <;> exact { h with }

theorem Allows.markReady (id : StreamID) : (s.markReady id).Allows params := by
  unfold Session.markReady
  cases hget : s.get id with
  | none => exact h
  | some st =>
    simp only
    split_ifs
    · exact h
    · exact { h with }
    · have hset : Allows params (s.set id { st with inReady := true }) := h.set hget rfl
      exact { hset with }

theorem Allows.complete (hget : s.get id = some st) (hlive : st.removed = false) :
    ((s.set id { st with removed := true }).streamCompleted id).Allows params := by
  unfold streamCompleted
  by_cases hl : id.opener = s.role
  · have hr : id.opener ≠ s.role.other := by
      rw [hl]
      exact (Role.other_ne s.role).symm
    rw [if_pos (show isLocal (s.set id _) id = true from decide_eq_true hl)]
    exact h.congr rfl rfl (openedRemote_set s id _) (completedRemote_set_local _ hr) rfl (List.Subset.refl _)
  · have hr : id.opener = s.role.other := (Role.eq_or_eq_other s.role id.opener).resolve_left hl
    rw [if_neg (show ¬ isLocal (s.set id _) id = true from fun ht => hl (of_decide_eq_true ht))]
    have hcom := completedRemote_set { st with removed := true } hget hr
    rw [hlive] at hcom
    have ho := openedRemote_set s id { st with removed := true }
    refine ⟨h.localParams, ?_, ?_, h.queued⟩
    · change (s.set id { st with removed := true }).openedRemote ≤ s.maxRemote + 1
      rw [ho]
      exact Nat.le_succ_of_le h.opened
    · change s.maxRemote + 1 = params.initialMaxStreamsBidi + (s.set id { st with removed := true }).completedRemote
      have hlimit := h.limit
      simp only [Bool.toNat_false, Bool.toNat_true] at hcom
      omega

theorem Allows.openLocal (ho : s.closeErr.isNone ∧ s.openedLocal < s.maxLocal) : s.openStreamSync.1.Allows params := by
  rw [openStreamSync, if_pos ho]
  refine h.congr rfl rfl ?_ ?_ rfl (List.Subset.refl _)
  · unfold openedRemote
    simp only [Function.update_of_ne (Role.other_ne s.role)]
  · unfold completedRemote
    simp only [Function.update_of_ne (Role.other_ne s.role)]

theorem Allows.openRemote {num : Nat} (hnum : s.openedRemote ≤ num)
    (hmax : num < s.maxRemote) : (s.openRemote num).Allows params := by
  have hs : (s.openRemote num).streams s.role.other = s.streams s.role.other ++
      List.replicate (num + 1 - s.openedRemote)
        (.new s.peer.initialMaxStreamDataBidiLocal s.localParams.initialMaxStreamDataBidiRemote) :=
    Function.update_self ..
  refine ⟨h.localParams, ?_, ?_, ?_⟩
  · change ((s.openRemote num).streams s.role.other).length ≤ s.maxRemote
    rw [hs, List.length_append, List.length_replicate]
    change s.openedRemote + _ ≤ _
    omega
  · change s.maxRemote = params.initialMaxStreamsBidi +
      (((s.openRemote num).streams s.role.other).map fun st => st.removed.toNat).sum
    rw [hs, List.map_append, List.sum_append, List.map_replicate]
    simpa [Stream.new, completedRemote] using h.limit
  · intro id hid
    rcases List.mem_append.mp hid with hid | hid
    · exact h.queued id hid
    · obtain ⟨i, -, rfl⟩ := List.mem_map.mp hid
      rfl

omit h

theorem Change.allows (h : Change calm s s') (ha : s.Allows params) : s'.Allows params := by
  cases h with
  | wake | queue | maxData | maxStreams | parameters | ping | sendPing | close => exact { ha with }
  | accept hq =>
    refine { ha with queued := fun id hid => ha.queued id ?_ }
    rw [hq]
    exact List.mem_cons_of_mem _ hid
  | receive t hget hr =>
    refine Allows.consumedBy ?_ t
    exact Allows.set { ha with } hget (congrArg Stream.Sending.removed hr.sending)
  | complete hget hl => exact ha.complete hget hl
  | send hget hs => exact (ha.set hget hs.removed).markReady _
  | raise hget =>
    refine Allows.markReady ?_ _
    exact ha.set hget rfl
  | reset code err hget =>
    have hset : Allows params (s.set _ (Stream.givenUp _ err)) := ha.set hget rfl
    exact { hset with }
  | openLocal ho => exact ha.openLocal ho
  | openRemote _ hnum hmax => exact ha.openRemote hnum hmax

theorem Emit.allows {b b' : Building} (h : Emit b b') (ha : b.1.Allows params) : b'.1.Allows params := by
  cases h with
  | control | flow | schedule | closing => exact { ha with }
  | idle hget => exact ha.set hget rfl
  | @frame s frames id st n fin buf head r hget =>
    have hset : Allows params (s.set id (st.framed n fin buf head r)) := ha.set hget rfl
    exact { hset with }
  | complete hget hl => exact ha.complete hget hl

/-! ## What is held -/

theorem length_liveRemote (s : Session) : s.liveRemote.length + s.completedRemote = s.openedRemote := by
  have hc (l : List Stream) : l.countP (!·.removed) + (l.map fun st => st.removed.toNat).sum = l.length := by
    induction l with
    | nil => rfl
    | cons st l ih =>
      rw [List.countP_cons, List.map_cons, List.sum_cons, List.length_cons]
      cases st.removed <;> simp <;> omega
  unfold liveRemote completedRemote openedRemote
  rw [List.length_map, ← List.countP_eq_length_filter, ← hc (s.streams s.role.other)]
  congr 1
  have hfst (l : List (Stream × Nat)) : l.countP (fun x => !x.1.removed) = (l.map Prod.fst).countP (!·.removed) := by
    rw [List.countP_map]
    rfl
  rw [hfst, List.zipIdx_map_fst]

theorem mem_liveRemote (hid : id.opener = s.role.other) (hl : (s.live id).isSome = true) : id ∈ s.liveRemote := by
  obtain ⟨o, num⟩ := id
  obtain rfl : o = s.role.other := hid
  obtain ⟨st, hst⟩ := Option.isSome_iff_exists.mp hl
  obtain ⟨hget, hr⟩ := Option.filter_eq_some_iff.mp hst
  refine List.mem_map.mpr ⟨(st, num), List.mem_filter.mpr ⟨?_, hr⟩, rfl⟩
  exact List.mem_zipIdx_iff_getElem?.mpr hget

/-- Unless a stream completes before it is accepted, no more streams are held than advertised. -/
theorem length_held_le {role : Role} {v : Version} {streamSendBuffer : Nat} {events : List Event}
    (hstart : newSession role v params streamSendBuffer = some s) (hrun : run step s events = some s')
    (hqueue : ∀ id ∈ s'.acceptQueue, (s'.live id).isSome = true) :
    s'.held.length ≤ params.initialMaxStreamsBidi := by
  have h0 : s.Allows params := by
    obtain ⟨body, -, rfl⟩ := newSession_eq_some hstart
    exact ⟨rfl, Nat.zero_le _, rfl, fun _ hid => absurd hid List.not_mem_nil⟩
  obtain ⟨-, hallows⟩ := invariant hstart h0 (fun _ _ h => { h with }) (fun _ _ _ h => h.allows)
    (fun _ _ _ h => h.allows) hrun
  have hsubset : s'.held ⊆ s'.liveRemote := by
    intro id hid
    rcases List.mem_append.mp (List.mem_dedup.mp hid) with hid | hid
    · exact hid
    · exact mem_liveRemote (hallows.queued id hid) (hqueue id hid)
  have hle : s'.held.length ≤ s'.liveRemote.length := (List.subperm_of_subset (List.nodup_dedup _) hsubset).length_le
  have hlive := s'.length_liveRemote
  have hopened := hallows.opened
  have hlimit := hallows.limit
  omega

def twoStreams : List Event :=
  [.receive ((encodeRecord draft02 [.transportParameters [], appendStreamFrame 0 0 [] true, .stopSending 0 0,
    appendStreamFrame 4 0 [] false]).get (by decide +kernel))]

theorem length_held_le_accepted :
    ∃ s', run step narrow (twoStreams ++ [.call .acceptStream]) = some s' ∧ s'.held = [⟨.client, 1⟩] ∧
      s'.held.length ≤ 1 := by
  have hrun : run step narrow (twoStreams ++ [.call .acceptStream]) = some _ := rfl
  exact ⟨_, hrun, by decide +kernel, length_held_le narrow_eq hrun (by decide +kernel)⟩

theorem held_two_of_one :
    ∃ s', run step narrow twoStreams = some s' ∧ narrow.localParams.initialMaxStreamsBidi = 1 ∧
      s'.held.length = 2 :=
  ⟨_, rfl, by decide +kernel, by decide +kernel⟩

end Session

end TrevRpc.Go.Qmux
