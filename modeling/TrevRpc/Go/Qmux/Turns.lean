import TrevRpc.Go.Qmux.Changes
import TrevRpc.Go.Qmux.Sending
import Mathlib.Data.List.Nodup

/-! # Building a record, whatever the peer has sent -/

open TrevRpc.Varint

namespace TrevRpc.Go.Qmux

/-- A frame that `appendFlowControl` writes. -/
def Frame.flowControl : Frame → Bool
  | .maxData _ | .maxStreamsBidi _ | .pingResponse _ | .ping _ => true
  | _ => false

namespace Stream

variable {st : Stream} {n : Nat} {fin : Bool} {buf : List UInt8} {head : Nat}

inductive Idle (st : Stream) : Prop
  | reset : st.resetSent = true → Idle st
  | nothing : st.unsent = [] → st.finRequested = false → Idle st
  | blocked : st.unsent ≠ [] → st.sent = st.sendMax → Idle st

theorem Sane.framed (h : st.Sane) (hr : st.resetSent = false) (hf : st.CanFrame n fin buf head)
    (hmax : st.sent + n ≤ st.sendMax) (r : Bool) : (st.framed n fin buf head r).Sane := by
  refine { h with sendHead := hf.head_le, sent_le := hmax, finSent := ?_, removed := ?_ }
  · intro hfin
    refine ⟨?_, hf.drop_eq.trans ?_, hr⟩
    all_goals
      simp only [Stream.framed, Bool.or_eq_true] at hfin ⊢
      rcases hfin with hfin | hfin
    · exact (hf.of_fin hfin).1
    · exact (h.finSent hfin).1
    · exact List.drop_eq_nil_of_le (hf.of_fin hfin).2.ge
    · rw [(h.finSent hfin).2.1, List.drop_nil]
  · intro hre
    obtain ⟨hs, hrc⟩ := h.removed hre
    refine ⟨?_, hrc⟩
    simp only [sendDone, Stream.framed, hr, Bool.or_false] at hs ⊢
    rw [hs, Bool.or_true]

end Stream

namespace Session

/-- One effect of building a record. -/
inductive Emit : Building → Building → Prop
  | control {s : Session} {b taken rest : List Frame} : s.control = taken ++ rest →
    Emit (s, b) ({ s with control := rest }, b ++ taken)
  | flow {s : Session} {b fs : List Frame} (sendMaxData sendMaxStreams sendPingReply sendPing : Bool)
    (pingSent : Nat) : (sendMaxData = true → s.sendMaxData = true) →
    (sendMaxStreams = true → s.sendMaxStreams = true) → (sendPingReply = true → s.sendPingReply = true) →
    (sendPing = true → s.sendPing = true) → (∀ f ∈ fs, f.flowControl = true) →
    Emit (s, b) ({ s with
      sendMaxData := sendMaxData, sendMaxStreams := sendMaxStreams, sendPingReply := sendPingReply
      sendPing := sendPing, pingSent := pingSent }, b ++ fs)
  | idle {s : Session} {b : List Frame} {id : StreamID} {st : Stream} : s.get id = some st → st.Idle →
    Emit (s, b) (s.set id { st with inReady := false }, b)
  -- A stream that stays ready has bytes left.
  | frame {s : Session} {b : List Frame} {id : StreamID} {st : Stream} {n : Nat} {fin : Bool} {buf : List UInt8}
    {head : Nat} {ready : Bool} : s.get id = some st → st.inReady = true → st.resetSent = false →
    st.CanFrame n fin buf head → st.sent + n ≤ st.sendMax → s.connSent + n ≤ s.connSendMax →
    (fin = true → ready = false) → (ready = false → fin = true ∨ buf.drop head = [] ∧ st.finRequested = false) →
    Emit (s, b) ({ s with connSent := s.connSent + n }.set id (st.framed n fin buf head ready),
      b ++ [appendStreamFrame id.toNat st.sent (st.unsent.take n) fin])
  | complete {s : Session} {b : List Frame} {id : StreamID} {st : Stream} : s.get id = some st →
    st.removed = false → st.sendDone = true → st.recvDone = true →
    Emit (s, b) ((s.set id { st with removed := true }).streamCompleted id, b)
  | schedule {s : Session} {b : List Frame} (ready : List StreamID) : Emit (s, b) ({ s with ready := ready }, b)
  | closing {s : Session} {b : List Frame} : Emit (s, b) (s, b ++ s.closeFrame.toList)

abbrev Emits : Building → Building → Prop := Relation.ReflTransGen Emit

variable {calm : Bool} {s s' : Session} {id id' : StreamID} {st st' : Stream} {b b' : Building} {limit : Nat}

theorem Emit.sane (h : Emit b b') (hs : b.1.Sane) : b'.1.Sane := by
  cases h with
  | control | flow | schedule | closing => exact hs.congr rfl rfl rfl rfl le_rfl
  | idle hget => exact hs.set hget ((hs.stream _ _ hget).inReady false)
  | @frame s b id st n fin buf head r hget _ hr hf hmax hc =>
    have hset := hs.set hget ((hs.stream _ _ hget).framed hr hf hmax r)
    have hpa := hs.paramsReceived hget
    exact ⟨hset.stream, hc, fun hp => absurd (hp.symm.trans hpa) Bool.false_ne_true⟩
  | complete hget _ hse hre =>
    refine Sane.streamCompleted ?_ _
    exact hs.set hget { hs.stream _ _ hget with removed := fun _ => ⟨hse, hre⟩ }

theorem Emits.sane (h : Emits b b') (hs : b.1.Sane) : b'.1.Sane := by
  induction h with
  | refl => exact hs
  | tail _ hem ih => exact hem.sane ih

structure Spends (s s' : Session) : Prop where
  connSent : s.connSent ≤ s'.connSent
  connSendMax : s'.connSendMax = s.connSendMax
  control : s'.control <:+ s.control
  closeErr : s'.closeErr = s.closeErr
  mode : s'.mode = s.mode
  closeFrame : s'.closeFrame = s.closeFrame

theorem Spends.refl (s : Session) : s.Spends s := ⟨le_rfl, rfl, List.suffix_rfl, rfl, rfl, rfl⟩

theorem Spends.trans {s'' : Session} (h : s.Spends s') (h' : s'.Spends s'') : s.Spends s'' where
  connSent := h.connSent.trans h'.connSent
  connSendMax := h'.connSendMax.trans h.connSendMax
  control := h'.control.trans h.control
  closeErr := h'.closeErr.trans h.closeErr
  mode := h'.mode.trans h.mode
  closeFrame := h'.closeFrame.trans h.closeFrame

theorem Emit.spends (h : Emit b b') : b.1.Spends b'.1 := by
  cases h with
  | flow | schedule | closing | idle => exact { Spends.refl _ with }
  | control heq => exact { Spends.refl _ with control := ⟨_, heq.symm⟩ }
  | frame => exact { Spends.refl _ with connSent := Nat.le_add_right .. }
  | complete =>
    unfold streamCompleted
    split_ifs <;> exact { Spends.refl _ with }

theorem Emits.spends (h : Emits b b') : b.1.Spends b'.1 := by
  induction h with
  | refl => exact .refl _
  | tail _ hem ih => exact ih.trans hem.spends

/-! ## The ready list -/

def isReady (s : Session) (id : StreamID) : Prop := ∃ st, s.get id = some st ∧ st.inReady = true

structure ReadyOk (s : Session) : Prop where
  nodup : s.ready.Nodup
  mem_iff : ∀ id, id ∈ s.ready ↔ s.isReady id

theorem isReady_congr (h : s'.get id = s.get id) : s'.isReady id ↔ s.isReady id := by
  unfold isReady
  rw [h]

theorem isReady_set (hget : s.get id = some st) (hst : st'.inReady = st.inReady) :
    (s.set id st').isReady id' ↔ s.isReady id' := by
  by_cases hid : id' = id
  · subst hid
    simp only [isReady, get_set_self hget, hget, Option.some.injEq, exists_eq_left', hst]
  · exact isReady_congr (get_set_ne hid)

variable (h : s.ReadyOk)
include h

theorem ReadyOk.congr (hr : s'.ready = s.ready) (hmem : ∀ id, s'.isReady id ↔ s.isReady id) : s'.ReadyOk where
  nodup := hr ▸ h.nodup
  mem_iff id := by rw [hr, h.mem_iff, hmem]

theorem ReadyOk.set (hget : s.get id = some st) (hst : st'.inReady = st.inReady) : (s.set id st').ReadyOk :=
  h.congr rfl fun _ => isReady_set hget hst

theorem ReadyOk.consumedBy (n : Option Nat) : (s.consumedBy n).ReadyOk := by
  cases n with
  | none => exact h
  | some n =>
    unfold Session.consumedBy consumed
    simp only
    split_ifs <;> exact { h with }

theorem ReadyOk.streamCompleted (id : StreamID) : (s.streamCompleted id).ReadyOk := by
  unfold Session.streamCompleted
  split_ifs
  · exact h
  · exact { h with }

theorem ReadyOk.markReady (id : StreamID) : (s.markReady id).ReadyOk := by
  unfold Session.markReady
  cases hget : s.get id with
  | none => exact h
  | some st =>
    simp only
    split_ifs with hreset hin
    · exact h
    · exact { h with }
    · -- The stream is not in the list yet.
      have hnot : id ∉ s.ready := by
        rw [h.mem_iff]
        rintro ⟨st₁, hget₁, hin₁⟩
        rw [hget] at hget₁
        exact hin (Option.some.inj hget₁ ▸ hin₁)
      refine ⟨?_, fun id' => ?_⟩
      · exact List.nodup_append.mpr ⟨h.nodup, List.pairwise_singleton .., by
          intro x hx y hy
          rw [List.mem_singleton.mp hy]
          exact fun hxy => hnot (hxy ▸ hx)⟩
      · change id' ∈ s.ready ++ [id] ↔ (s.set id { st with inReady := true }).isReady id'
        rw [List.mem_append, List.mem_singleton, h.mem_iff]
        by_cases hid : id' = id
        · subst hid
          simp only [or_true, true_iff]
          exact ⟨_, get_set_self hget, rfl⟩
        · rw [isReady_congr (get_set_ne hid)]
          simp only [hid, or_false]

theorem ReadyOk.extends {r : Role} {sendMax : Nat} (he : s.Extends s' r sendMax) (hr : s'.ready = s.ready) :
    s'.ReadyOk := by
  refine h.congr hr fun id => ?_
  rcases he.get id with hs | ⟨hn, -, hnew⟩
  · exact isReady_congr hs
  · -- A new stream is not ready.
    simp only [isReady, hn, hnew, Option.some.injEq, exists_eq_left', reduceCtorEq, false_and, exists_false,
      iff_false]
    exact Bool.false_ne_true

omit h

theorem Change.readyOk (h : Change calm s s') (hs : s.ReadyOk) : s'.ReadyOk := by
  cases h with
  | wake | queue | accept | maxData | maxStreams | parameters | ping | sendPing | close => exact { hs with }
  | receive t hget hr =>
    refine ReadyOk.consumedBy ?_ t
    exact ReadyOk.set { hs with } hget (congrArg Stream.Sending.inReady hr.sending)
  | complete hget =>
    refine ReadyOk.streamCompleted ?_ _
    exact hs.set hget rfl
  | send hget hse => exact (hs.set hget hse.inReady).markReady _
  | raise hget =>
    refine ReadyOk.markReady ?_ _
    exact hs.set hget rfl
  | reset code err hget =>
    have hset : ReadyOk (s.set _ (Stream.givenUp _ err)) := hs.set hget rfl
    exact { hset with }
  | openLocal ho =>
    refine hs.extends (extends_openStreamSync ho) ?_
    rw [openStreamSync, if_pos ho]
  | openRemote => exact hs.extends (extends_openRemote _) rfl

theorem Path.readyOk (h : Path calm s s') (hs : s.ReadyOk) : s'.ReadyOk := by
  induction h with
  | refl => exact hs
  | tail _ hc ih => exact hc.readyOk ih

/-! ## Turns -/

/-- What the turn of the stream `id` does. -/
structure Takes (b : Building) (id : StreamID) (r : Building × Turn) : Prop where
  emits : Emits b r.1
  others : ∀ id', id' ≠ id → r.1.1.get id' = b.1.get id'
  own : r.1.1.isReady id ↔ r.2 ≠ .dropped
  -- A stream keeps its place when the connection has no credit for its bytes.
  retained : r.2 = .retained → r.1 = b ∧ ∀ st, b.1.get id = some st →
    st.unsent ≠ [] ∧ b.1.connSent = b.1.connSendMax

theorem get_streamCompleted (s : Session) (id id' : StreamID) : (s.streamCompleted id).get id' = s.get id' := by
  unfold streamCompleted
  split_ifs <;> rfl

theorem get_maybeRemove_ne (hid : id' ≠ id) : (s.maybeRemove id).get id' = s.get id' := by
  unfold maybeRemove
  cases s.get id with
  | none => rfl
  | some st =>
    simp only
    split_ifs
    · rw [get_streamCompleted, get_set_ne hid]
    · rfl

theorem isReady_maybeRemove (s : Session) (id id' : StreamID) : (s.maybeRemove id).isReady id' ↔ s.isReady id' := by
  unfold maybeRemove
  cases hget : s.get id with
  | none => exact Iff.rfl
  | some st =>
    simp only
    split_ifs
    · rw [isReady_congr (get_streamCompleted _ id id')]
      exact isReady_set hget rfl
    · exact Iff.rfl

theorem emits_maybeRemove (s : Session) (fs : List Frame) (id : StreamID) : Emits (s, fs) (s.maybeRemove id, fs) := by
  unfold maybeRemove
  cases hget : s.get id with
  | none => exact .refl
  | some st =>
    simp only
    split_ifs with hd
    · simp only [Bool.and_eq_true, Bool.not_eq_true'] at hd
      exact .single (.complete hget hd.1.1 hd.1.2 hd.2)
    · exact .refl

theorem isReady_set_self (hget : s.get id = some st) : (s.set id st').isReady id ↔ st'.inReady = true := by
  simp only [isReady, get_set_self hget, Option.some.injEq, exists_eq_left']

theorem takes_sendFrame {n : Nat} {fin : Bool} (fs : List Frame) (hs : s.Sane) (hget : s.get id = some st)
    (hin : st.inReady = true) (hr : st.resetSent = false) (hn : n ≤ st.unsent.length)
    (hfin : fin = (st.finRequested && n == st.unsent.length)) (hmax : st.sent + n ≤ st.sendMax)
    (hc : s.connSent + n ≤ s.connSendMax) : Takes (s, fs) id (s.sendFrame fs id st n fin) := by
  have hst := hs.stream id st hget
  obtain ⟨buf, head, hh, hd, heq⟩ := st.advanceSend_eq hn hst.sendHead
  have hof : fin = true → st.finRequested = true ∧ n = st.unsent.length := by
    intro ht
    rw [ht] at hfin
    simpa using hfin.symm
  have hcan : st.CanFrame n fin buf head := by
    refine ⟨hn, hh, hd, hof, fun hf => ?_⟩
    -- After its FIN a stream has nothing left, so that it can only repeat it.
    refine eq_false_of_ne_true fun hse => ?_
    obtain ⟨hreq, hnil, -⟩ := hst.finSent hse
    rw [hnil, List.length_nil] at hn
    simp [hf, hreq, hnil, Nat.le_zero.mp hn] at hfin
  have hfr (r : Bool) (hend : fin = true → r = false)
      (hl : r = false → fin = true ∨ buf.drop head = [] ∧ st.finRequested = false) :=
    Emit.frame (b := fs) hget hin hr hcan hmax hc hend hl
  have hget₁ : Session.get { s with connSent := s.connSent + n } id = some st := hget
  have hown (r : Bool) :
      (Session.set { s with connSent := s.connSent + n } id (st.framed n fin buf head r)).isReady id ↔
        r = true := isReady_set_self hget₁
  unfold sendFrame
  rw [heq]
  cases fin with
  | true =>
    refine ⟨.trans (.single (hfr false (fun _ => rfl) fun _ => Or.inl rfl)) (emits_maybeRemove _ _ id), ?_, ?_, ?_⟩
    · intro id' hid
      exact (get_maybeRemove_ne hid).trans (get_set_ne hid)
    · refine (isReady_maybeRemove _ id id).trans ((hown false).trans ?_)
      exact iff_of_false Bool.false_ne_true (not_not.mpr rfl)
    · intro hf
      cases hf
  | false =>
    simp only [Bool.false_eq_true, if_false]
    split_ifs with hm
    · refine ⟨.single (hfr st.inReady (fun hf => by cases hf) fun hf => ?_), ?_, ?_, ?_⟩
      · exact nomatch hf.symm.trans hin
      · exact fun id' hid => get_set_ne hid
      · refine (hown st.inReady).trans (iff_of_true hin ?_)
        intro hf
        cases hf
      · intro hf
        cases hf
    · rw [not_or, Nat.not_lt, Nat.le_zero, List.length_eq_zero_iff, Bool.not_eq_true] at hm
      refine ⟨.single (hfr false (fun _ => rfl) fun _ => Or.inr ⟨hm.1, hm.2⟩), ?_, ?_, ?_⟩
      · exact fun id' hid => get_set_ne hid
      · exact (hown false).trans (iff_of_false Bool.false_ne_true (not_not.mpr rfl))
      · intro hf
        cases hf

theorem turnSize_eq_zero (s : Session) (id : StreamID) (st : Stream) {used : Nat} (hmin : minFrame ≤ limit - used)
    (hz : s.turnSize limit used id st = 0) :
    st.unsent.length = 0 ∨ st.sendMax - st.sent = 0 ∨ s.connSendMax - s.connSent = 0 := by
  unfold turnSize minFrame at *
  have hle := streamFrameOverhead_le id.toNat st.sent
    (min (min st.unsent.length (min (st.sendMax - st.sent) (s.connSendMax - s.connSent))) streamQuantum)
  unfold streamQuantum at *
  simp only at hz
  omega

theorem takes_idle (fs : List Frame) (hget : s.get id = some st) (hi : st.Idle) :
    Takes (s, fs) id ((s.set id { st with inReady := false }, fs), .dropped) where
  emits := .single (.idle hget hi)
  others id' hid := get_set_ne hid
  own := (isReady_set_self hget).trans (iff_of_false Bool.false_ne_true (not_not.mpr rfl))
  retained hf := by cases hf

theorem takes_sendTurn (hs : b.1.Sane) (hready : b.1.isReady id)
    (hmin : minFrame ≤ limit - recordLength b.1.version b.2) : Takes b id (sendTurn limit id b) := by
  obtain ⟨s, fs⟩ := b
  obtain ⟨st, hget, hin⟩ := hready
  have hst := hs.stream id st hget
  obtain ⟨hn, hmax, hco, -⟩ := turnSize_spec (X := s) limit (recordLength s.version fs) id st
    hst.sent_le hs.credit hmin
  have hsi := turnSize_eq_zero s id st hmin
  unfold sendTurn
  simp only [hget]
  generalize s.turnSize limit (recordLength s.version fs) id st = n at *
  by_cases hg : st.resetSent = true
  · rw [if_pos hg]
    exact takes_idle fs hget (.reset hg)
  rw [if_neg hg]
  have hr := Bool.eq_false_iff.mpr hg
  split_ifs with hz hp
  · obtain ⟨rfl, hfin⟩ := hz
    refine takes_idle fs hget ?_
    by_cases hnil : st.unsent = []
    · refine .nothing hnil ?_
      simpa [hnil] using hfin
    · exact .blocked hnil (hp.resolve_left (by simpa using hnil))
  · obtain ⟨rfl, hfin⟩ := hz
    rw [not_or, List.length_eq_zero_iff] at hp
    refine ⟨.refl, fun _ _ => rfl, iff_of_true ⟨st, hget, hin⟩ (by simp), fun _ => ⟨rfl, fun st₁ hget₁ => ?_⟩⟩
    obtain rfl := Option.some.inj (hget.symm.trans hget₁)
    refine ⟨hp.1, ?_⟩
    have hc := hs.credit
    have hsent := hst.sent_le
    have hlength := List.length_pos_iff.mpr hp.1
    have hne := hp.2
    have hcases := hsi rfl
    change s.connSent = s.connSendMax
    change s.connSent ≤ s.connSendMax at hc
    omega
  · exact takes_sendFrame fs hs hget hin hr hn rfl hmax hco

structure Sweeps (ready : List StreamID) (b : Building) (r : Building × List StreamID × List StreamID × Bool) :
    Prop where
  emits : Emits b r.1
  others : ∀ id, id ∉ ready → r.1.1.get id = b.1.get id
  nodup : (r.2.1 ++ r.2.2.1).Nodup
  mem_iff : ∀ id, id ∈ r.2.1 ++ r.2.2.1 ↔ id ∈ ready ∧ r.1.1.isReady id
  -- When the record had room for all, the streams that stay wait for credit of the connection.
  blocked : r.2.2.2 = false → r.2.2.1 = [] → ∀ id ∈ r.2.1, ∀ st, r.1.1.get id = some st →
    st.unsent ≠ [] ∧ r.1.1.connSent = r.1.1.connSendMax

theorem sweeps_sendReady {r : List StreamID} (hs : b.1.Sane) (hn : r.Nodup)
    (hready : ∀ id ∈ r, b.1.isReady id) : Sweeps r b (sendReady limit r b) := by
  induction r generalizing b with
  | nil =>
    exact ⟨.refl, fun _ _ => rfl, List.nodup_nil, by simp [sendReady], fun _ _ id hid => by cases hid⟩
  | cons id r ih =>
    obtain ⟨hnot, hn'⟩ := List.nodup_cons.mp hn
    unfold sendReady
    split_ifs with hfu
    · refine ⟨.refl, fun _ _ => rfl, by simpa using hn, fun id' => ?_, fun hf => by cases hf⟩
      simp only [List.append_nil]
      exact ⟨fun hmem => ⟨hmem, hready id' hmem⟩, And.left⟩
    have ht := takes_sendTurn hs (hready id List.mem_cons_self) (Nat.not_lt.mp hfu)
    have hr : Sweeps r (sendTurn limit id b).1 (sendReady limit r (sendTurn limit id b).1) := by
      refine ih (ht.emits.sane hs) hn' fun id' hmem => ?_
      have hne : id' ≠ id := fun heq => hnot (heq ▸ hmem)
      exact (isReady_congr (ht.others id' hne)).mpr (hready id' (List.mem_cons_of_mem id hmem))
    simp only
    generalize sendTurn limit id b = r₁ at ht hr ⊢
    obtain ⟨b₁, turn⟩ := r₁
    generalize sendReady limit r b₁ = r₂ at hr ⊢
    obtain ⟨b₂, retained, again, full⟩ := r₂
    have hem : Emits b b₂ := ht.emits.trans hr.emits
    have ho : ∀ id', id' ∉ id :: r → b₂.1.get id' = b.1.get id' := by
      intro id' hmem
      rw [List.mem_cons, not_or] at hmem
      exact (hr.others id' hmem.2).trans (ht.others id' hmem.1)
    have hsa : b₂.1.get id = b₁.1.get id := hr.others id hnot
    have hown : b₂.1.isReady id ↔ turn ≠ .dropped := (isReady_congr hsa).trans ht.own
    have hout : id ∉ retained ++ again := fun hmem => hnot ((hr.mem_iff id).mp hmem).1
    -- The streams that stay are those of the rest, and this one unless it was dropped.
    have hmem {kept : List StreamID}
        (hk : ∀ id', id' ∈ kept ↔ (id' = id ∧ turn ≠ .dropped) ∨ id' ∈ retained ++ again) (id' : StreamID) :
        id' ∈ kept ↔ id' ∈ id :: r ∧ b₂.1.isReady id' := by
      rw [hk, hr.mem_iff, List.mem_cons]
      by_cases hid : id' = id
      · subst hid
        simp only [hnot, hown, false_and, or_false, true_and]
      · simp only [hid, false_and, false_or]
    cases turn with
    | dropped =>
      refine ⟨hem, ho, hr.nodup, hmem fun id' => ?_, hr.blocked⟩
      simp
    | retained =>
      refine ⟨hem, ho, ?_, hmem fun id' => ?_, fun hf hnil id' hid' st hget => ?_⟩
      · exact List.nodup_cons.mpr ⟨hout, hr.nodup⟩
      · simp
      · rcases List.mem_cons.mp hid' with rfl | hid'
        · obtain ⟨hb, hbl⟩ := ht.retained rfl
          rw [hsa] at hget
          subst hb
          obtain ⟨hu, hc⟩ := hbl st hget
          have hsp : b₁.1.Spends b₂.1 := hr.emits.spends
          have hafter := hsp.connSent
          have hmax := hsp.connSendMax
          have hle : b₂.1.connSent ≤ b₂.1.connSendMax := (hr.emits.sane hs).credit
          change b₁.1.connSent = b₁.1.connSendMax at hc
          exact ⟨hu, show b₂.1.connSent = b₂.1.connSendMax by omega⟩
        · exact hr.blocked hf hnil id' hid' st hget
    | again =>
      refine ⟨hem, ho, ?_, hmem fun id' => ?_, fun _ hnil => by cases hnil⟩
      · exact List.nodup_middle.mpr (List.nodup_cons.mpr ⟨hout, hr.nodup⟩)
      · simp only [List.mem_append, List.mem_cons]
        tauto

/-! ## Records -/

def Flows (b b' : Building) : Prop :=
  ∃ sendMaxData sendMaxStreams sendPingReply sendPing pingSent fs, (sendMaxData = true → b.1.sendMaxData = true) ∧
    (sendMaxStreams = true → b.1.sendMaxStreams = true) ∧ (sendPingReply = true → b.1.sendPingReply = true) ∧
    (sendPing = true → b.1.sendPing = true) ∧ (∀ f ∈ fs, f.flowControl = true) ∧
    b' = ({ b.1 with
      sendMaxData := sendMaxData, sendMaxStreams := sendMaxStreams, sendPingReply := sendPingReply
      sendPing := sendPing, pingSent := pingSent }, b.2 ++ fs)

theorem Flows.refl (b : Building) : Flows b b :=
  ⟨_, _, _, _, _, [], id, id, id, id, fun _ hf => absurd hf List.not_mem_nil, by rw [List.append_nil]⟩

theorem Flows.trans {b'' : Building} (h : Flows b b') (h' : Flows b' b'') : Flows b b'' := by
  obtain ⟨_, _, _, _, _, fs, h₁, h₂, h₃, h₄, hfs, rfl⟩ := h
  obtain ⟨_, _, _, _, _, fs', h₁', h₂', h₃', h₄', hfs', rfl⟩ := h'
  refine ⟨_, _, _, _, _, fs ++ fs', h₁ ∘ h₁', h₂ ∘ h₂', h₃ ∘ h₃', h₄ ∘ h₄', fun f hf => ?_,
    by rw [← List.append_assoc]⟩
  exact (List.mem_append.mp hf).elim (hfs f) (hfs' f)

theorem flowControl_singleton {f : Frame} (hf : f.flowControl = true) : ∀ f' ∈ [f], f'.flowControl = true := by
  intro f' hf'
  rw [List.mem_singleton.mp hf']
  exact hf

theorem flows_appendMaxData (limit : Nat) (b : Building) : Flows b (appendMaxData limit b) := by
  obtain ⟨s, frames⟩ := b
  simp only [appendMaxData]
  split_ifs
  · exact ⟨false, _, _, _, _, _, nofun, id, id, id, flowControl_singleton rfl, rfl⟩
  · exact .refl _

theorem flows_appendMaxStreams (limit : Nat) (b : Building) : Flows b (appendMaxStreams limit b) := by
  obtain ⟨s, frames⟩ := b
  simp only [appendMaxStreams]
  split_ifs
  · exact ⟨_, false, _, _, _, _, id, nofun, id, id, flowControl_singleton rfl, rfl⟩
  · exact .refl _

theorem flows_appendPingReply (limit : Nat) (b : Building) : Flows b (appendPingReply limit b) := by
  obtain ⟨s, frames⟩ := b
  simp only [appendPingReply]
  split_ifs
  · exact ⟨_, _, false, _, _, _, id, id, nofun, id, flowControl_singleton rfl, rfl⟩
  · exact .refl _

theorem flows_appendPing (limit : Nat) (b : Building) : Flows b (appendPing limit b) := by
  obtain ⟨s, frames⟩ := b
  simp only [appendPing]
  split_ifs
  · exact ⟨_, _, _, false, _, _, id, id, id, nofun, flowControl_singleton rfl, rfl⟩
  · exact .refl _

theorem flows_appendFlowControl (limit : Nat) (b : Building) : Flows b (appendFlowControl limit b) :=
  (flows_appendMaxData limit b).trans
    ((flows_appendMaxStreams limit _).trans ((flows_appendPingReply limit _).trans (flows_appendPing limit _)))

theorem Flows.emits (h : Flows b b') : Emits b b' := by
  obtain ⟨_, _, _, _, _, fs, h₁, h₂, h₃, h₄, hfs, rfl⟩ := h
  exact .single (.flow _ _ _ _ _ h₁ h₂ h₃ h₄ hfs)

theorem Flows.flags (h : Flows b b') :
    (b'.1.sendMaxData = true → b.1.sendMaxData = true) ∧ (b'.1.sendMaxStreams = true → b.1.sendMaxStreams = true) ∧
      (b'.1.sendPingReply = true → b.1.sendPingReply = true) ∧ (b'.1.sendPing = true → b.1.sendPing = true) := by
  obtain ⟨_, _, _, _, _, fs, h₁, h₂, h₃, h₄, -, rfl⟩ := h
  exact ⟨h₁, h₂, h₃, h₄⟩

theorem Flows.readyOk (h : Flows b b') (hr : b.1.ReadyOk) : b'.1.ReadyOk := by
  obtain ⟨_, _, _, _, _, fs, -, -, -, -, -, rfl⟩ := h
  exact { hr with }

def Blocked (s : Session) : Prop :=
  ∀ id st, s.get id = some st → st.inReady = true → st.unsent ≠ [] ∧ s.connSent = s.connSendMax

theorem appendStreamData_spec (limit : Nat) (hs : b.1.Sane) (hr : b.1.ReadyOk) :
    Emits b (appendStreamData limit b).1 ∧ (appendStreamData limit b).1.1.ReadyOk ∧
      ((appendStreamData limit b).2 = false → (appendStreamData limit b).1.1.Blocked) := by
  have hsw : Sweeps b.1.ready b (sendReady limit b.1.ready b) :=
    sweeps_sendReady hs hr.nodup fun id hid => (hr.mem_iff id).mp hid
  unfold appendStreamData
  generalize sendReady limit b.1.ready b = r at hsw ⊢
  obtain ⟨⟨s', frames⟩, re, a, full⟩ := r
  have hmem (id : StreamID) : id ∈ re ++ a ↔ s'.isReady id := by
    refine (hsw.mem_iff id).trans ⟨And.right, fun hre => ⟨?_, hre⟩⟩
    by_contra hout
    exact hout ((hr.mem_iff id).mpr ((isReady_congr (hsw.others id hout)).mp hre))
  refine ⟨hsw.emits.tail (.schedule _), ⟨hsw.nodup, hmem⟩, ?_⟩
  intro hf id st hget hin
  simp only [Bool.or_eq_false_iff, Bool.not_eq_false', List.isEmpty_iff] at hf
  obtain ⟨hf, hnil⟩ := hf
  refine hsw.blocked hf hnil id ?_ st hget
  have hid := (hmem id).mpr ⟨st, hget, hin⟩
  rwa [hnil, List.append_nil] at hid

theorem buildRecord_spec (hs : s.Sane) (hr : s.ReadyOk) :
    Emits (s, []) (s.buildRecord.1, s.buildRecord.2.1) ∧ s.buildRecord.1.ReadyOk ∧
      (s.buildRecord.2.2 = (false, .modeOpen) → s.buildRecord.1.control = [] ∧ s.buildRecord.1.Blocked) := by
  obtain ⟨ht, -⟩ := takeControl_spec s.version s.recordLimit [] s.control (Nat.zero_le _)
  unfold buildRecord
  by_cases ha : s.mode = .modeAbort
  · simp only [if_pos ha]
    exact ⟨.refl, hr, fun hf => by cases hf⟩
  by_cases hq : s.mode = .modeQuiet
  · simp only [if_neg ha, if_pos hq]
    exact ⟨.refl, hr, fun hf => by cases hf⟩
  simp only [if_neg ha, if_neg hq]
  generalize takeControl s.version s.recordLimit [] s.control = taken at *
  obtain ⟨fs, control⟩ := taken
  rw [List.nil_append] at ht
  have hc : Emit (s, []) ({ s with control := control }, fs) := .control ht.symm
  have hr₁ : ReadyOk { s with control := control } := { hr with }
  by_cases hl : control = []
  · rw [if_neg (not_not.mpr hl)]
    have hfl := flows_appendFlowControl s.recordLimit ({ s with control := control }, fs)
    have hs₂ := hfl.emits.sane (hc.sane hs)
    obtain ⟨hemi, hr₃, hb⟩ := appendStreamData_spec s.recordLimit hs₂ (hfl.readyOk hr₁)
    have hall := hfl.emits.trans hemi
    generalize appendStreamData s.recordLimit
      (appendFlowControl s.recordLimit ({ s with control := control }, fs)) = r at *
    obtain ⟨⟨s', frames'⟩, full⟩ := r
    have hemp : s'.control = [] := List.suffix_nil.mp (hl ▸ (Emits.spends hall).control)
    have hem := hall.head hc
    simp only
    split_ifs with hopen hlong
    · refine ⟨hem, hr₃, fun hd => ⟨hemp, hb ?_⟩⟩
      exact congrArg Prod.fst hd
    · exact ⟨hem, hr₃, fun hf => by cases hf⟩
    · exact ⟨hem.tail .closing, hr₃, fun hf => by cases hf⟩
  · rw [if_pos hl]
    exact ⟨.single hc, hr₁, fun hf => by cases hf⟩

end Session

end TrevRpc.Go.Qmux
