import TrevRpc.Js.Qmux.Outbound

/-! # Send credit of a session -/

open TrevRpc.Run TrevRpc.Modify

namespace TrevRpc.Js.Qmux

def RespectsCredit (s : Session) : Prop :=
  s.connSent ≤ s.connSendMax ∧ ∀ st ∈ s.streams, st.sendOffset ≤ st.sendMax

/-! ## What matters of the state -/

structure Account where
  spent : Nat
  limit : Nat
  held : Nat

def Sending.account (st : Sending) : Account := ⟨st.sendOffset, st.sendMax, st.held⟩

namespace Outbound

def accounts (o : Outbound) : List Account := o.streams.map Sending.account

/-- The bytes that all streams hold. -/
def outstanding (o : Outbound) : Nat := (o.accounts.map Account.held).sum

def WithinStreams (o : Outbound) : Prop := ∀ c ∈ o.accounts, c.spent + c.held ≤ c.limit

structure WithinConnection (o : Outbound) : Prop where
  spent : o.connSent + o.outstanding ≤ o.connSendMax
  fresh : o.peer = none → o.accounts = [] ∧ o.connSent = 0

structure SameCredit (o o' : Outbound) : Prop where
  peer : o'.peer = o.peer
  connSent : o'.connSent = o.connSent
  connSendMax : o.connSendMax ≤ o'.connSendMax
  accounts : o'.accounts = o.accounts

variable {o o' o'' : Outbound}

theorem SameCredit.trans (h : SameCredit o o') (h' : SameCredit o' o'') : SameCredit o o'' :=
  ⟨h'.peer.trans h.peer, h'.connSent.trans h.connSent, h.connSendMax.trans h'.connSendMax,
    h'.accounts.trans h.accounts⟩

theorem sameCredit_append (o : Outbound) (fs : List Frame) : SameCredit o (o.append fs) :=
  ⟨rfl, rfl, le_rfl, rfl⟩

theorem sameCredit_flush (o : Outbound) (io : Bool) : SameCredit o (o.flush io) := by
  unfold flush
  split_ifs <;> exact ⟨rfl, rfl, le_rfl, rfl⟩

theorem sameCredit_modify (o : Outbound) (i : Nat) {f : Sending → Sending}
    (h : ∀ st, (f st).account = st.account) : SameCredit o (o.modify i f) :=
  ⟨rfl, rfl, le_rfl, map_modify_same Sending.account h o.streams i⟩

theorem account_wake (st : Sending) : st.wake.account = st.account := by
  rcases st.wake_cases with h | ⟨data, hw, h⟩
  · rw [h]
  · rw [h]
    simp [Sending.account, Sending.held, hw]

theorem sameCredit_wake (o : Outbound) : SameCredit o o.wake := by
  refine ⟨rfl, rfl, le_rfl, ?_⟩
  unfold accounts wake
  rw [List.map_map]
  exact List.map_congr_left fun st _ => account_wake st

theorem sameCredit_finish (o : Outbound) (error : WebTransportError) {live : List Bool}
    (hl : live.length = o.streams.length) : SameCredit o (o.finish error live) := by
  unfold finish
  split_ifs
  · exact ⟨rfl, rfl, le_rfl, rfl⟩
  · refine SameCredit.trans ?_ (sameCredit_wake _)
    refine ⟨rfl, rfl, le_rfl, ?_⟩
    refine map_zipWith_same Sending.account (fun alive st => ?_) hl
    split_ifs <;> rfl

theorem sameCredit_resetSend (o : Outbound) (i : Nat) (st : Sending) (code : Nat) :
    SameCredit o (o.resetSend i st code) := by
  have hmod := o.sameCredit_modify i (f := fun st => { st with sendDone := true }) fun _ => rfl
  unfold resetSend
  simp only
  split_ifs
  · exact hmod.trans (sameCredit_append _ _)
  · exact hmod

theorem WithinStreams.of_same (h : WithinStreams o) (hs : SameCredit o o') : WithinStreams o' := by
  unfold WithinStreams
  rw [hs.accounts]
  exact h

theorem WithinConnection.of_same (h : WithinConnection o) (hs : SameCredit o o') : WithinConnection o' := by
  have hmax := hs.connSendMax
  refine ⟨?_, ?_⟩
  · unfold outstanding
    rw [hs.connSent, hs.accounts]
    exact h.spent.trans hmax
  · rw [hs.peer, hs.accounts, hs.connSent]
    exact h.fresh

/-! ## Asking and sending -/

theorem accounts_of_asked {i : Nat} {rest : List UInt8} (h : Asked o i rest o') :
    ∃ n, o'.accounts = o.accounts.modify i (fun c => { c with held := n }) ∧
      o'.peer = o.peer ∧ o'.connSent = o.connSent ∧ o'.connSendMax = o.connSendMax ∧
      n ≤ rest.length ∧ n ≤ o.recordLimit - 32 ∧ n ≤ o.connSendMax - o.connSent ∧
      ∀ c, o.accounts[i]? = some c → n ≤ c.limit - c.spent := by
  cases h with
  | granted st al hst herror hs hco hr =>
    refine ⟨min al rest.length, ?_, rfl, rfl, rfl, min_le_right _ _, ?_, ?_, ?_⟩
    · exact map_modify Sending.account _ (fun _ => rfl) o.streams i
    · exact (min_le_left _ _).trans hr
    · exact (min_le_left _ _).trans hco
    · intro c hc
      simp only [accounts, List.getElem?_map, hst, Option.map_some, Option.some.injEq] at hc
      subst hc
      exact (min_le_left _ _).trans hs
  | parked w ended hw =>
    refine ⟨0, ?_, rfl, rfl, rfl, by omega, by omega, by omega, fun _ _ => by omega⟩
    refine map_modify Sending.account _ (fun st => ?_) o.streams i
    cases w with
    | granted data al => exact absurd rfl (hw data al)
    | _ => rfl

theorem accounts_sendStream (i : Nat) (st : Sending) (data : List UInt8) (fin io : Bool) :
    (o.sendStream i st data fin io).accounts =
      o.accounts.modify i fun c => { c with spent := c.spent + data.length } := by
  have hs : (o.sendStream i st data fin io).streams =
      o.streams.modify i fun st => { st with sendOffset := st.sendOffset + data.length } := by
    unfold sendStream flush
    simp only
    split_ifs <;> rfl
  unfold accounts
  rw [hs]
  exact map_modify Sending.account _ (fun _ => rfl) o.streams i

theorem sendStream_conn (i : Nat) (st : Sending) (data : List UInt8) (fin io : Bool) :
    (o.sendStream i st data fin io).connSent = o.connSent + data.length ∧
      (o.sendStream i st data fin io).connSendMax = o.connSendMax ∧
      (o.sendStream i st data fin io).peer = o.peer := by
  unfold sendStream flush
  simp only
  split_ifs <;> exact ⟨rfl, rfl, rfl⟩

end Outbound

/-! ## Steps -/

open Outbound

/-- What a step does to the credit. -/
inductive CreditStep (s : Session) (a : Action) (o : Outbound) : Prop
  | same (h : SameCredit s.out o)
  | handshake (peer : TransportParameters) (hnone : s.peer = none)
      (h : o = { s.out with peer := some peer, connSendMax := peer.initialMaxData })
  | raisedStream (i : Nat) (st : Sending) (maximum : Nat) (hst : s.out.streams[i]? = some st)
      (hmax : st.sendMax ≤ maximum)
      (h : SameCredit (s.out.modify i fun st => { st with sendMax := maximum }) o)
  | created (sendMax : Nat) (hpeer : s.peer.isSome)
      (h : o = { s.out with streams := s.out.streams ++ [{ sendMax }] })
  | asked (i : Nat) (st : Sending) (rest : List UInt8) (o1 : Outbound) (hasks : asks s a = some (i, rest))
      (hst : s.out.streams[i]? = some st)
      (haccounts : o1.accounts = s.out.accounts.modify i fun c => { c with spent := c.spent + st.held })
      (hconn : o1.connSent = s.connSent + st.held ∧ o1.connSendMax = s.connSendMax ∧ o1.peer = s.peer)
      (h : Asked o1 i rest o)

variable {s : Session} {a : Action} {o : Outbound}

theorem sameCredit_finSent (s : Session) (i : Nat) (st : Sending) :
    SameCredit s.out (((s.out.modify i fun st => { st with sendDone := true }).sendStream
      i st [] true s.isOpen).modify i fun st => { st with ended := true }) := by
  have hd := s.out.sameCredit_modify i (f := fun st => { st with sendDone := true }) fun _ => rfl
  refine (hd.trans ?_).trans (sameCredit_modify _ i fun _ => by rfl)
  obtain ⟨hs, hmax, hp⟩ := sendStream_conn
    (o := s.out.modify i fun st => { st with sendDone := true }) i st [] true s.isOpen
  refine ⟨hp, hs, hmax.ge, ?_⟩
  rw [accounts_sendStream]
  exact List.modify_id i _

theorem Transition.creditStep (h : Transition s a o) : CreditStep s a o := by
  cases h with
  | same => exact .same ⟨rfl, rfl, le_rfl, rfl⟩
  | controls _ frames hstarted hc hro => exact .same (sameCredit_append _ _)
  | opened protocol name f hp hc hlen =>
    exact .same ((sameCredit_append _ _).trans (sameCredit_flush _ _))
  | finished _ error live hl => exact .same (sameCredit_finish _ error hl)
  | lastFrame _ f io error live hc hro hl =>
    have hf := (sameCredit_append s.out [f]).trans (sameCredit_flush _ io)
    refine .same (hf.trans (sameCredit_finish _ error ?_))
    rw [hl]
    unfold flush
    split_ifs <;> rfl
  | handshake peer hn hsize => exact .handshake peer hn rfl
  | woken => exact .same (sameCredit_wake _)
  | raised m hmax =>
    refine .same (SameCredit.trans ?_ (sameCredit_wake _))
    exact ⟨rfl, rfl, hmax, rfl⟩
  | raisedStream i st m hst hmax => exact .raisedStream i st m hst hmax (sameCredit_wake _)
  | stopped i code st error hresets hst hd =>
    have her := s.out.sameCredit_modify i (f := fun st => { st with writeError := some error }) fun _ => rfl
    have hr := her.trans (sameCredit_resetSend _ i st code)
    exact .same (hr.trans (sameCredit_modify _ i fun _ => by rfl))
  | created sm hp => exact .created sm hp rfl
  | asked _ i st data _ ha hst hwr h =>
    have hh : st.held = 0 := by
      unfold Sending.held
      rcases hwr with ⟨hw, -⟩ | hw <;> rw [hw]
    refine .asked i st data s.out ha hst ?_ ?_ h
    · rw [hh]
      exact (List.modify_id i _).symm
    · rw [hh]
      exact ⟨rfl, rfl, rfl⟩
  | pieceSent i buffered st data al _ hst hwr h =>
    have hh : (data.take al).length = st.held := by
      unfold Sending.held
      rw [hwr, List.length_take]
    refine .asked i st _ _ ?_ hst ?_ ?_ h
    · simp only [asks, hst, Option.map_some, hwr]
    · rw [accounts_sendStream, hh]
    · rw [← hh]
      exact sendStream_conn i st _ false s.isOpen
  | finSent i st hst hwr hended hd => exact .same (sameCredit_finSent s i st)
  | ended i => exact .same (s.out.sameCredit_modify i fun _ => rfl)
  | aborted i r st hst hd => exact .same (s.out.sameCredit_modify i fun _ => rfl)
  | abortReset i r st error hst hd =>
    have her := s.out.sameCredit_modify i
      (f := fun st => { st with writeError := st.writeError.or error }) fun _ => rfl
    have hr := her.trans (sameCredit_resetSend _ i st cancelledCode)
    exact .same ((hr.trans (sameCredit_wake _)).trans (sameCredit_modify _ i fun _ => by rfl))
  | sinkReset i st hst haborted hd => exact .same (sameCredit_resetSend _ i st _)
  | flushed => exact .same (sameCredit_flush _ _)

theorem CreditStep.asked_accounts {i : Nat} {st : Sending} {rest : List UInt8} {o1 : Outbound}
    (hst : s.out.streams[i]? = some st)
    (haccounts : o1.accounts = s.out.accounts.modify i fun c => { c with spent := c.spent + st.held })
    (h : Asked o1 i rest o) :
    ∃ n, o.accounts = s.out.accounts.modify i (fun c => ⟨c.spent + st.held, c.limit, n⟩) ∧
      o.peer = o1.peer ∧ o.connSent = o1.connSent ∧ o.connSendMax = o1.connSendMax ∧
      n ≤ o1.connSendMax - o1.connSent ∧
      n ≤ min rest.length (min (st.sendMax - (st.sendOffset + st.held)) (o1.recordLimit - 32)) := by
  obtain ⟨n, hacc, hp, hse, hmax, hre, hr, hc, hs⟩ := accounts_of_asked h
  refine ⟨n, ?_, hp, hse, hmax, hc, ?_⟩
  · rw [hacc, haccounts, List.modify_modify_eq]
    rfl
  · have hn := hs ⟨st.sendOffset + st.held, st.sendMax, st.held⟩ (by
      rw [haccounts]
      simp [accounts, hst, Sending.account])
    exact le_min hre (le_min hn hr)

theorem withinStreams_step (h : WithinStreams s.out) (hstep : CreditStep s a o) : WithinStreams o := by
  cases hstep with
  | same hs => exact h.of_same hs
  | handshake peer hnone ho =>
    subst ho
    exact h
  | raisedStream i st m hst hmax hs =>
    refine WithinStreams.of_same ?_ hs
    unfold WithinStreams accounts Outbound.modify
    rw [map_modify Sending.account (fun c => { c with limit := m }) fun _ => rfl]
    refine forall_mem_modify h fun c hc => ?_
    have hle := h c (List.mem_of_getElem? hc)
    simp only [List.getElem?_map, hst, Option.map_some, Option.some.injEq] at hc
    subst hc
    exact hle.trans hmax
  | created sendMax hp ho =>
    subst ho
    intro c hc
    simp only [accounts, List.map_append, List.map_cons, List.map_nil, List.mem_append,
      List.mem_singleton] at hc
    rcases hc with hc | rfl
    · exact h c hc
    · simp [Sending.account, Sending.held]
  | asked i st rest o1 hasks hst hac hconn ha =>
    obtain ⟨n, hacc, -, -, -, -, hn⟩ := CreditStep.asked_accounts hst hac ha
    unfold WithinStreams
    rw [hacc]
    refine forall_mem_modify h fun c hc => ?_
    have hle := h c (List.mem_of_getElem? hc)
    simp only [accounts, List.getElem?_map, hst, Option.map_some, Option.some.injEq] at hc
    subst hc
    simp only [Sending.account] at hle ⊢
    omega

/-- The other streams hold nothing, or the credit covers what is held and what the stream could take. -/
def CreditLeft (s : Session) (a : Action) : Prop :=
  ∀ ask ∈ asks s a, ∀ st ∈ s.out.streams[ask.1]?,
    s.out.outstanding = st.held ∨
      s.connSent + s.out.outstanding + min ask.2.length (min (st.sendMax - (st.sendOffset + st.held))
        (s.recordLimit - 32)) ≤ s.connSendMax

instance (s : Session) (a : Action) : Decidable (CreditLeft s a) := by
  unfold CreditLeft
  infer_instance

theorem withinConnection_step (h : WithinConnection s.out) (hok : CreditLeft s a)
    (hstep : CreditStep s a o) : WithinConnection o := by
  cases hstep with
  | same hs => exact h.of_same hs
  | handshake peer hno ho =>
    subst ho
    obtain ⟨hac, hse⟩ := h.fresh hno
    refine ⟨?_, fun hp => by simp at hp⟩
    unfold outstanding
    show s.out.connSent + (s.out.accounts.map Account.held).sum ≤ peer.initialMaxData
    rw [hac, hse]
    simp
  | raisedStream i st m hst hmax hs =>
    refine WithinConnection.of_same ⟨?_, fun hp => ?_⟩ hs
    · have hh : (s.out.modify i fun st => { st with sendMax := m }).outstanding = s.out.outstanding := by
        unfold outstanding accounts
        rw [List.map_map, List.map_map]
        refine congrArg List.sum (map_modify_same (Account.held ∘ Sending.account) (fun _ => ?_) s.out.streams i)
        rfl
      rw [hh]
      exact h.spent
    · have := (h.fresh hp).1
      simp only [accounts, List.map_eq_nil_iff] at this
      simp [this] at hst
  | created sendMax hp ho =>
    subst ho
    refine ⟨?_, fun hno => ?_⟩
    · have hsp := h.spent
      simpa [outstanding, accounts, Sending.account, Sending.held] using hsp
    · rw [show s.peer = none from hno] at hp
      cases hp
  | asked i st rest o1 hask hst hac hc ha =>
    obtain ⟨n, hacc, hp, hse, hmax, hle, hn⟩ := CreditStep.asked_accounts hst hac ha
    obtain ⟨hsent1, hmax1, hpeer1⟩ := hc
    have hsum : o.outstanding + st.held = s.out.outstanding + n := by
      unfold outstanding
      rw [hacc]
      refine sum_modify Account.held (a := st.account) ?_
      simp [accounts, hst]
    have hl : o1.recordLimit = s.recordLimit := congrArg peerRecordLimit hpeer1
    have hsp := h.spent
    refine ⟨?_, fun hno => ?_⟩
    · rw [hse, hmax, hsent1, hmax1]
      rw [hsent1, hmax1] at hle
      have hout : s.out.connSent = s.connSent ∧ s.out.connSendMax = s.connSendMax := ⟨rfl, rfl⟩
      rcases hok (i, rest) hask st hst with hzero | hr
      · omega
      · rw [hl] at hn
        dsimp only at hr
        omega
    · rw [hp, hpeer1] at hno
      have := (h.fresh hno).1
      simp only [accounts, List.map_eq_nil_iff] at this
      simp [this] at hst

/-! ## Whole runs -/

theorem withinStreams_run (maxFrameSize : Nat) {actions : List Action}
    (hrun : run step (newSession maxFrameSize) actions = some s) : WithinStreams s.out := by
  refine run_induction (P := fun _ s => WithinStreams s.out) ?_ ?_ hrun
  · intro c hc
    simp [accounts, newSession, Session.out] at hc
  · intro _ t b t' h hs
    exact withinStreams_step h (step_cases hs).creditStep

theorem respectsCredit_of_within (hs : WithinStreams s.out) (hc : WithinConnection s.out) : RespectsCredit s := by
  refine ⟨(Nat.le_add_right ..).trans hc.spent, fun st hst => ?_⟩
  have hmem : st.toSending.account ∈ s.out.accounts :=
    List.mem_map_of_mem (List.mem_map_of_mem hst)
  exact (Nat.le_add_right ..).trans (hs _ hmem)

/-- Where a grant leaves room for what other streams hold, no more is sent than the peer allowed. -/
theorem session_respectsCredit (maxFrameSize : Nat) (actions : List Action)
    (hok : Along CreditLeft step (newSession maxFrameSize) actions) :
    Always (fun _ => RespectsCredit) step (newSession maxFrameSize) actions := by
  refine always_of_along (I := fun _ s => WithinStreams s.out ∧ WithinConnection s.out) ?_ ?_ ?_ hok
  · refine ⟨withinStreams_run maxFrameSize run_nil, ⟨?_, fun _ => ⟨rfl, rfl⟩⟩⟩
    simp [newSession, Session.out, outstanding, accounts]
  · intro _ t h
    exact respectsCredit_of_within h.1 h.2
  · intro _ t b t' h hleft hstep
    have hcredit := (step_cases hstep).creditStep
    exact ⟨withinStreams_step h.1 hcredit, withinConnection_step h.2 hleft hcredit⟩

def writesInTurn : List Action :=
  [.opened true "qmux-02.trevrpc-1", .message (some smallServer), .nextFrame, .create, .create,
    .write 0 [1, 2, 3, 4, 5, 6, 7] 0, .writePiece 0 0, .write 1 [1, 2, 3, 4, 5, 6, 7] 0, .writePiece 1 0]

theorem session_respectsCredit_in_turn :
    (∃ s, run step (newSession 1000) writesInTurn = some s ∧ s.connSent = 10) ∧
      Always (fun _ => RespectsCredit) step (newSession 1000) writesInTurn :=
  ⟨⟨_, rfl, rfl⟩, session_respectsCredit 1000 writesInTurn (by decide +kernel)⟩

/-- Two writers are granted the same 10 bytes of the connection, and the session sends 20. -/
theorem session_spends_credit_twice :
    ∃ s, run step (newSession 1000)
        [.opened true "qmux-02.trevrpc-1", .message (some smallServer), .nextFrame, .create, .create,
          .write 0 [0, 1, 2, 3, 4, 5, 6, 7, 8, 9] 0, .write 1 [0, 1, 2, 3, 4, 5, 6, 7, 8, 9] 0,
          .writePiece 0 0, .writePiece 1 0] = some s ∧
      s.connSendMax = 10 ∧ s.connSent = 20 ∧ ¬ RespectsCredit s := by
  refine ⟨_, rfl, rfl, rfl, fun h => ?_⟩
  exact absurd h.1 (by decide)

end TrevRpc.Js.Qmux
