import TrevRpc.Js.Qmux.Outbound

/-! # The frames of a stream's sending direction -/

open TrevRpc.Run TrevRpc.Modify

namespace TrevRpc.Js.Qmux

def Frame.sends (id : Nat) : Frame → Bool
  | .stream streamId .. => streamId = id
  | .resetStream streamId .. => streamId = id
  | _ => false

def emitted (id : Nat) (queued : List Frame) : List Frame := queued.filter (Frame.sends id)

def Orderly : Nat → List Frame → Prop
  | _, [] => True
  | n, .stream _ offset data fin :: rest =>
    offset = n ∧ if fin then rest = [] else Orderly (n + data.length) rest
  | n, .resetStream _ _ finalSize :: rest => finalSize = n ∧ rest = []
  | _, _ :: _ => False

/-! ## Frame by frame -/

def advance : Option (Nat × Bool) → Frame → Option (Nat × Bool)
  | some (n, false), .stream _ offset data fin =>
    if offset = n then some (n + data.length, fin) else none
  | some (n, false), .resetStream _ _ finalSize => if finalSize = n then some (n, true) else none
  | _, _ => none

def progress (frames : List Frame) : Option (Nat × Bool) := frames.foldl advance (some (0, false))

theorem foldl_advance_none (fs : List Frame) : fs.foldl advance none = none := by
  induction fs with
  | nil => rfl
  | cons f fs ih => exact ih

variable {fs : List Frame} {r : Nat × Bool}

theorem foldl_advance_ended {n : Nat} (h : fs.foldl advance (some (n, true)) = some r) : fs = [] := by
  cases fs with
  | nil => rfl
  | cons f fs =>
    simp only [List.foldl_cons, advance, foldl_advance_none] at h
    cases h

theorem orderly_of_foldl {frames : List Frame} {n : Nat}
    (h : frames.foldl advance (some (n, false)) = some r) : Orderly n frames := by
  induction frames generalizing n with
  | nil => trivial
  | cons f frames ih =>
    rw [List.foldl_cons] at h
    cases f with
    | stream id offset data fin =>
      simp only [advance] at h
      split_ifs at h with hoff
      · refine ⟨hoff, ?_⟩
        cases fin with
        | false => exact ih h
        | true => exact foldl_advance_ended h
      · rw [foldl_advance_none] at h
        cases h
    | resetStream id code finalSize =>
      simp only [advance] at h
      split_ifs at h with hs
      · exact ⟨hs, foldl_advance_ended h⟩
      · rw [foldl_advance_none] at h
        cases h
    | _ =>
      simp only [advance, foldl_advance_none] at h
      cases h

theorem orderly_of_progress {frames : List Frame} (h : progress frames = some r) :
    Orderly 0 frames := orderly_of_foldl h

theorem progress_append_singleton (fs : List Frame) (f : Frame) : progress (fs ++ [f]) = advance (progress fs) f := by
  simp [progress]

theorem emitted_append_of_control {id : Nat} {queued : List Frame}
    (h : ∀ f ∈ fs, f.IsControl) : emitted id (queued ++ fs) = emitted id queued := by
  have hn : fs.filter (Frame.sends id) = [] := by
    rw [List.filter_eq_nil_iff]
    intro f hf
    have hc := h f hf
    cases f <;> simp_all [Frame.sends, Frame.IsControl]
  rw [emitted, List.filter_append, hn, List.append_nil, emitted]

theorem emitted_append_stream (id j offset : Nat) (q : List Frame) (data : List UInt8) (fin : Bool) :
    emitted id (q ++ [.stream j offset data fin]) =
      emitted id q ++ if j = id then [.stream j offset data fin] else [] := by
  by_cases h : j = id <;> simp [emitted, List.filter_append, Frame.sends, h]

theorem emitted_append_reset (id j code fs : Nat) (q : List Frame) :
    emitted id (q ++ [.resetStream j code fs]) =
      emitted id q ++ if j = id then [.resetStream j code fs] else [] := by
  by_cases h : j = id <;> simp [emitted, List.filter_append, Frame.sends, h]

/-! ## The invariant -/

def Sending.isGranted (st : Sending) : Bool :=
  match st.writer with
  | .granted .. => true
  | _ => false

structure Sent (frames : List Frame) (st : Sending) (terminated : Bool) : Prop where
  progress : progress frames = some (st.sendOffset, terminated)
  done : terminated = true → st.sendDone = true
  notGranted : terminated = true → st.isGranted = false
  silent : terminated = true → st.writeError.isSome ∨ (st.writer = .idle ∧ st.ended = true)

def Sound (frames : List Frame) (st : Sending) : Prop :=
  (∃ terminated, Sent frames st terminated) ∧ (st.aborted = true → st.sendDone = true)

def Keeps (st st' : Sending) : Prop := ∀ frames, Sound frames st → Sound frames st'

theorem keeps_of (st st' : Sending) (ho : st'.sendOffset = st.sendOffset)
    (hdone : st.sendDone = true → st'.sendDone = true)
    (hg : st.isGranted = false → st'.isGranted = false)
    (hsilent : st.writeError.isSome ∨ (st.writer = .idle ∧ st.ended = true) →
      st'.writeError.isSome ∨ (st'.writer = .idle ∧ st'.ended = true))
    (habo : st'.aborted = true → st.aborted = true ∨ st'.sendDone = true) : Keeps st st' := by
  rintro frames ⟨⟨t, h⟩, ha⟩
  refine ⟨⟨t, ?_, fun ht => hdone (h.done ht), fun ht => hg (h.notGranted ht),
    fun ht => hsilent (h.silent ht)⟩, fun h' => ?_⟩
  · rw [ho]
    exact h.progress
  · rcases habo h' with hab | hd
    · exact hdone (ha hab)
    · exact hd

theorem keeps_wake (st : Sending) : Keeps st st.wake := by
  rcases st.wake_cases with h | ⟨data, hw, h⟩
  · rw [h]
    exact fun _ hs => hs
  · rw [h]
    refine keeps_of _ _ rfl id (fun _ => rfl) (fun hsil => ?_) .inl
    exact hsil.imp_right fun hi => by simp [hw] at hi

theorem keeps_onSessionClosed (st : Sending) (error : WebTransportError) : Keeps st (st.onSessionClosed error) := by
  refine keeps_of _ _ rfl (fun _ => rfl) id (fun _ => ?_) fun _ => .inr rfl
  exact .inl (by simp [Sending.onSessionClosed])

variable {st : Sending}

theorem Sent.not_terminated {t : Bool}
    (h : Sent fs st t) (ho : st.sendDone = false ∨ st.isGranted = true ∨
      (st.writeError = none ∧ ¬ (st.writer = .idle ∧ st.ended = true))) : t = false := by
  by_contra hte
  have ht : t = true := by simpa using hte
  rcases ho with hd | hg | ⟨her, hi⟩
  · simp [h.done ht] at hd
  · simp [h.notGranted ht] at hg
  · rcases h.silent ht with hs | hend
    · simp [her] at hs
    · exact hi hend

structure EmissionInv (o : Outbound) : Prop where
  streams : ∀ (i : Nat) st, o.streams[i]? = some st → Sound (emitted (4 * i) o.queued) st
  others : ∀ id, (∀ i < o.streams.length, id ≠ 4 * i) → emitted id o.queued = []

namespace EmissionInv

variable {o o' : Outbound}

theorem of_keeps (h : EmissionInv o) (hq : ∀ id, emitted id o'.queued = emitted id o.queued)
    (hlen : o'.streams.length = o.streams.length)
    (hs : ∀ (i : Nat) st', o'.streams[i]? = some st' → ∃ st, o.streams[i]? = some st ∧ Keeps st st') :
    EmissionInv o' := by
  refine ⟨fun i st' hst' => ?_, fun id hid => ?_⟩
  · obtain ⟨st, hst, hk⟩ := hs i st' hst'
    rw [hq]
    exact hk _ (h.streams i st hst)
  · rw [hq]
    exact h.others id (hlen ▸ hid)

variable {i : Nat} {st : Sending}

variable (h : EmissionInv o)
include h

theorem of_modify {g : Sending → Sending} (fs : List Frame)
    (hst : o.streams[i]? = some st)
    (hq : ∀ id, emitted id o'.queued = emitted id o.queued ++ if 4 * i = id then fs else [])
    (hs : o'.streams = o.streams.modify i g)
    (hnew : ∀ b, Sound b st → Sound (b ++ fs) (g st)) : EmissionInv o' := by
  refine ⟨fun j st' hst' => ?_, fun id hid => ?_⟩
  · rw [hs, List.getElem?_modify] at hst'
    rw [hq]
    by_cases hij : i = j
    · subst hij
      simp only [hst, if_true, Option.map_eq_map, Option.map_some, Option.some.injEq] at hst'
      subst hst'
      rw [if_pos rfl]
      exact hnew _ (h.streams i st hst)
    · simp only [hij, if_false, id_map'] at hst'
      rw [if_neg (by omega), List.append_nil]
      exact h.streams j st' hst'
  · rw [hs, List.length_modify] at hid
    have hi : i < o.streams.length := (List.getElem?_eq_some_iff.mp hst).1
    rw [hq, if_neg fun heq => hid i hi heq.symm, List.append_nil]
    exact h.others id hid

theorem modify (i : Nat) {f : Sending → Sending}
    (hf : ∀ st, o.streams[i]? = some st → Keeps st (f st)) : EmissionInv (o.modify i f) := by
  refine h.of_keeps (fun _ => rfl) (List.length_modify ..) fun j st' hst' => ?_
  rw [show (o.modify i f).streams = o.streams.modify i f from rfl, List.getElem?_modify] at hst'
  by_cases hij : i = j
  · subst hij
    cases hst : o.streams[i]? with
    | none => simp [hst] at hst'
    | some st =>
      simp only [hst, if_true, Option.map_eq_map, Option.map_some, Option.some.injEq] at hst'
      exact ⟨st, rfl, hst' ▸ hf st hst⟩
  · simp only [hij, if_false, id_map'] at hst'
    exact ⟨st', hst', fun _ hs => hs⟩

theorem append {fs : List Frame} (hc : ∀ f ∈ fs, f.IsControl) : EmissionInv (o.append fs) :=
  h.of_keeps (fun _ => emitted_append_of_control hc) rfl fun _ st' hst' => ⟨st', hst', fun _ hs => hs⟩

theorem flush (io : Bool) : EmissionInv (o.flush io) := by
  unfold Outbound.flush
  split_ifs
  · exact h
  all_goals exact ⟨h.streams, h.others⟩

theorem wake : EmissionInv o.wake := by
  refine h.of_keeps (fun _ => rfl) (List.length_map ..) fun i st' hst' => ?_
  rw [show o.wake.streams = o.streams.map Sending.wake from rfl, List.getElem?_map,
    Option.map_eq_some_iff] at hst'
  obtain ⟨st, hst, rfl⟩ := hst'
  exact ⟨st, hst, keeps_wake st⟩

theorem finish (error : WebTransportError) {live : List Bool}
    (hl : live.length = o.streams.length) : EmissionInv (o.finish error live) := by
  unfold Outbound.finish
  split_ifs
  · exact h
  · refine EmissionInv.wake (h.of_keeps (fun _ => rfl) ?_ fun i st' hst' => ?_)
    · rw [List.length_zipWith, hl, min_self]
    · rw [List.getElem?_zipWith_eq_some] at hst'
      obtain ⟨alive, st, -, hst, rfl⟩ := hst'
      refine ⟨st, hst, ?_⟩
      split_ifs
      · exact keeps_onSessionClosed st error
      · exact fun _ hs => hs

theorem resetSend (code : Nat) (hst : o.streams[i]? = some st)
    (hd : st.sendDone = false) (hg : st.isGranted = false) (herror : st.writeError.isSome)
    (st₀ : Sending) (ho : st₀.sendOffset = st.sendOffset) : EmissionInv (o.resetSend i st₀ code) := by
  unfold Outbound.resetSend
  simp only
  split_ifs
  · refine h.of_modify _ hst (fun id => emitted_append_reset id (4 * i) code _ o.queued) rfl ?_
    rintro before ⟨⟨terminated, hs⟩, -⟩
    have hop := hs.not_terminated (.inl hd)
    subst hop
    refine ⟨⟨true, ?_, fun _ => rfl, fun _ => hg, fun _ => .inl herror⟩, fun _ => rfl⟩
    rw [progress_append_singleton, hs.progress]
    simp [advance, ho]
  · refine h.modify i fun st' _ => keeps_of _ _ rfl (fun _ => rfl) id id fun _ => .inr rfl

omit h

theorem sendStream_queued (i : Nat) (st : Sending) (data : List UInt8) (fin io : Bool) :
    (o.sendStream i st data fin io).queued = o.queued ++ [.stream (4 * i) st.sendOffset data fin] ∧
      (o.sendStream i st data fin io).streams =
        o.streams.modify i fun st => { st with sendOffset := st.sendOffset + data.length } := by
  unfold Outbound.sendStream Outbound.flush
  simp only
  split_ifs <;> exact ⟨rfl, rfl⟩

theorem pieceSent (h : EmissionInv o) (data : List UInt8) (io : Bool)
    (hst : o.streams[i]? = some st) (hg : st.isGranted = true) :
    EmissionInv (o.sendStream i st data false io) := by
  obtain ⟨hq, hs⟩ := sendStream_queued (o := o) i st data false io
  refine h.of_modify [.stream (4 * i) st.sendOffset data false] hst (fun id => ?_) hs ?_
  · rw [hq]
    exact emitted_append_stream id (4 * i) _ o.queued data false
  · rintro before ⟨⟨terminated, hse⟩, ha⟩
    have ho := hse.not_terminated (.inr (.inl hg))
    subst ho
    refine ⟨⟨false, ?_, nofun, nofun, nofun⟩, ha⟩
    rw [progress_append_singleton, hse.progress]
    simp [advance]

theorem finSent (h : EmissionInv o) (io : Bool) (hst : o.streams[i]? = some st)
    (hw : st.writer = .idle) (hd : st.sendDone = false) :
    EmissionInv (((o.modify i fun st => { st with sendDone := true }).sendStream i st [] true
      io).modify i fun st => { st with ended := true }) := by
  obtain ⟨hq, hs⟩ := sendStream_queued
    (o := o.modify i fun st => { st with sendDone := true }) i st [] true io
  generalize Outbound.sendStream _ i st [] true io = sent at hq hs ⊢
  refine h.of_modify (g := fun st => { st with sendDone := true, ended := true })
    [.stream (4 * i) st.sendOffset [] true] hst (fun id => ?_) ?_ ?_
  · show emitted id sent.queued = _
    rw [hq]
    exact emitted_append_stream id (4 * i) _ o.queued [] true
  · show sent.streams.modify i _ = _
    rw [hs]
    show ((o.streams.modify i _).modify i _).modify i _ = _
    rw [List.modify_modify_eq, List.modify_modify_eq]
    rfl
  · rintro before ⟨⟨terminated, hse⟩, -⟩
    have ho := hse.not_terminated (.inl hd)
    subst ho
    refine ⟨⟨true, ?_, fun _ => rfl, fun _ => ?_, fun _ => .inr ⟨hw, rfl⟩⟩, fun _ => rfl⟩
    · rw [progress_append_singleton, hse.progress]
      simp [advance]
    · simp [Sending.isGranted, hw]

theorem asked (h : EmissionInv o) {rest : List UInt8} (hst : o.streams[i]? = some st)
    (hi : ¬ (st.writer = .idle ∧ st.ended = true)) (hask : Asked o i rest o') : EmissionInv o' := by
  cases hask with
  | granted st' al hst' her hstream hconn hrecord =>
    obtain rfl : st = st' := by
      rw [hst] at hst'
      exact Option.some.inj hst'
    refine h.of_modify [] hst (fun id => by simp [Outbound.modify]) rfl ?_
    rintro before ⟨⟨terminated, hs⟩, ha⟩
    have ho := hs.not_terminated (.inr (.inr ⟨her, hi⟩))
    subst ho
    refine ⟨⟨false, ?_, by simp, by simp, by simp⟩, ha⟩
    rw [List.append_nil]
    exact hs.progress
  | parked w ended hw =>
    refine h.modify i fun st' hst' => ?_
    obtain rfl : st = st' := by
      rw [hst] at hst'
      exact Option.some.inj hst'
    refine keeps_of _ _ rfl id (fun _ => ?_) (fun hsil => .inl ?_) .inl
    · cases w with
      | granted data al => exact absurd rfl (hw data al)
      | _ => rfl
    · rcases hsil with her | hend
      · exact her
      · exact absurd hend hi

end EmissionInv

/-! ## Steps -/

/-- No abort and no STOP_SENDING resets a stream while a write of it holds credit. -/
def NotOvertaken (s : Session) (a : Action) : Prop :=
  ∀ id ∈ resets s a, ∀ st ∈ s.out.streams[id / 4]?, st.sendDone = true ∨ st.isGranted = false

instance (s : Session) (a : Action) : Decidable (NotOvertaken s a) := by
  unfold NotOvertaken
  infer_instance

variable {s : Session} {a : Action} {o : Outbound} {i : Nat}

theorem NotOvertaken.isGranted (hok : NotOvertaken s a)
    (hres : resets s a = some (4 * i)) (hst : s.out.streams[i]? = some st) (hd : st.sendDone = false) :
    st.isGranted = false := by
  have hi : s.out.streams[4 * i / 4]? = some st := by rwa [Nat.mul_div_cancel_left i (by omega)]
  rcases hok (4 * i) hres st hi with h | h
  · simp [h] at hd
  · exact h

theorem keeps_ended (st : Sending) : Keeps st { st with ended := true } :=
  keeps_of _ _ rfl id id (fun h => h.imp_right fun hi => ⟨hi.1, rfl⟩) .inl

theorem EmissionInv.reset (h : EmissionInv s.out) (hok : NotOvertaken s a)
    (hres : resets s a = some (4 * i)) (hst : s.out.streams[i]? = some st) (hd : st.sendDone = false)
    (code : Nat) {f : Sending → Sending}
    (hf : ∀ st, ∃ error, f st = { st with writeError := some error }) :
    EmissionInv ((s.out.modify i f).resetSend i st code) := by
  have her : EmissionInv (s.out.modify i f) := by
    refine h.modify i fun st' _ => ?_
    obtain ⟨error, hfst⟩ := hf st'
    rw [hfst]
    exact keeps_of _ _ rfl id id (fun _ => .inl rfl) .inl
  have hg := hok.isGranted hres hst hd
  obtain ⟨error, hfst⟩ := hf st
  have hst' : (s.out.modify i f).streams[i]? = some (f st) := by
    simp [Outbound.modify, hst]
  rw [hfst] at hst'
  exact her.resetSend code hst' hd hg rfl st rfl

theorem sendDone_of_resetSend {st' : Sending} {code : Nat}
    (h : (o.resetSend i st code).wake.streams[i]? = some st') : st'.sendDone = true := by
  have hs : (o.resetSend i st code).streams = o.streams.modify i fun st => { st with sendDone := true } := by
    unfold Outbound.resetSend
    simp only
    split_ifs <;> rfl
  rw [show (o.resetSend i st code).wake.streams = _ from congrArg (List.map Sending.wake) hs] at h
  simp only [List.getElem?_map, List.getElem?_modify, if_true, Option.map_eq_map, Option.map_map,
    Option.map_eq_some_iff, Function.comp_apply] at h
  obtain ⟨st, -, rfl⟩ := h
  rcases Sending.wake_cases { st with sendDone := true } with heq | ⟨_, -, heq⟩ <;> rw [heq]

theorem emissionInv_step (h : EmissionInv s.out) (hok : NotOvertaken s a) (ht : Transition s a o) : EmissionInv o := by
  cases ht with
  | same => exact h
  | controls _ frames hstarted hcon hlen => exact h.append hcon
  | opened protocol name f hp hcon hlen => exact (h.append (by simpa using hcon)).flush true
  | finished _ error live hl => exact h.finish error hl
  | lastFrame _ f io error live hcon hlen hl =>
    refine ((h.append (by simpa using hcon)).flush io).finish error ?_
    rw [hl]
    unfold Outbound.flush
    split_ifs <;> rfl
  | handshake peer hnone hsize => exact ⟨h.streams, h.others⟩
  | woken => exact h.wake
  | raised m hmax => exact EmissionInv.wake ⟨h.streams, h.others⟩
  | raisedStream i st m hst hmax =>
    refine (h.modify i fun st' _ => ?_).wake
    exact keeps_of _ _ rfl id id id .inl
  | stopped i code st error hres hst hd =>
    have hr := h.reset hok hres hst hd code (f := fun st => { st with writeError := some error })
      fun _ => ⟨error, rfl⟩
    exact hr.modify i fun st' _ => keeps_ended st'
  | created sendMax hp =>
    refine ⟨fun i st hst => ?_, fun id hid => ?_⟩
    · rw [List.getElem?_append] at hst
      split_ifs at hst with hi
      · exact h.streams i st hst
      · -- The new stream, of which nothing was sent.
        obtain ⟨hlen, rfl⟩ : i = s.out.streams.length ∧ { sendMax } = st := by
          rw [List.getElem?_singleton] at hst
          split_ifs at hst with hzero
          exact ⟨by omega, Option.some.inj hst⟩
        rw [h.others (4 * i) fun j hj => by omega]
        exact ⟨⟨false, rfl, nofun, nofun, nofun⟩, nofun⟩
    · refine h.others id fun i hi => hid i ?_
      rw [List.length_append]
      omega
  | asked _ i st data _ hasks hst hw ha =>
    refine h.asked hst ?_ ha
    rintro ⟨hidl, hend⟩
    rcases hw with ⟨-, ho⟩ | hre
    · simp [hend] at ho
    · simp [hidl] at hre
  | pieceSent i buffered st data al _ hst hw ha =>
    have hse := h.pieceSent (data.take al) s.isOpen hst (by simp [Sending.isGranted, hw])
    obtain ⟨-, hstr⟩ := EmissionInv.sendStream_queued (o := s.out) i st (data.take al) false s.isOpen
    have hst' : (s.out.sendStream i st (data.take al) false s.isOpen).streams[i]? =
        some { st with sendOffset := st.sendOffset + (data.take al).length } := by
      rw [hstr]
      simp [hst]
    exact hse.asked hst' (by simp [hw]) ha
  | finSent i st hst hw hended hd => exact h.finSent s.isOpen hst hw hd
  | ended i => exact h.modify i fun st _ => keeps_ended st
  | aborted i r st hst hd =>
    refine h.modify i fun st' hst' => ?_
    obtain rfl : st = st' := by
      rw [hst] at hst'
      exact Option.some.inj hst'
    exact keeps_of _ _ rfl id id (fun hs => hs.imp_right fun hidl => ⟨hidl.1, rfl⟩) fun _ => .inr hd
  | abortReset i r st error hst hd =>
    have hr := h.reset hok (i := i) rfl hst hd cancelledCode
      (f := fun st => { st with writeError := st.writeError.or error }) fun st => ?_
    · refine hr.wake.modify i fun st' hst' => ?_
      have hd' := sendDone_of_resetSend hst'
      exact keeps_of _ _ rfl id id (fun hs => hs.imp_right fun hidl => ⟨hidl.1, rfl⟩) fun _ => .inr hd'
    · cases st.writeError with
      | none => exact ⟨error, rfl⟩
      | some e => exact ⟨e, rfl⟩
  | sinkReset i st hst hab hd =>
    have := (h.streams i st hst).2 hab
    simp [hd] at this
  | flushed => exact h.flush s.isOpen

/-! ## Whole runs -/

/-- What every stream has sent is in order. -/
def StreamsOrderly (s : Session) : Prop := ∀ id, Orderly 0 (emitted id s.queued)

theorem streamsOrderly_of_inv (h : EmissionInv s.out) : StreamsOrderly s := by
  intro id
  by_cases hid : ∃ i < s.out.streams.length, id = 4 * i
  · obtain ⟨i, hi, rfl⟩ := hid
    obtain ⟨⟨terminated, hs⟩, -⟩ := h.streams i _ (List.getElem?_eq_getElem hi)
    exact orderly_of_progress hs.progress
  · have hn := h.others id fun i hi heq => hid ⟨i, hi, heq⟩
    rw [show emitted id s.queued = [] from hn]
    trivial

/-- Where nothing resets a stream between a grant and its piece, what it sends is in order. -/
theorem session_streamsOrderly (maxFrameSize : Nat) (actions : List Action)
    (hok : Along NotOvertaken step (newSession maxFrameSize) actions) :
    Always (fun _ => StreamsOrderly) step (newSession maxFrameSize) actions := by
  refine always_of_along (I := fun _ s => EmissionInv s.out) ?_ ?_ ?_ hok
  · refine ⟨fun i st hst => ?_, fun _ _ => rfl⟩
    simp [newSession, Session.out] at hst
  · intro _ t h
    exact streamsOrderly_of_inv h
  · intro _ t b t' h hnot hstep
    exact emissionInv_step h hnot (step_cases hstep)

def closedAndAborted : List Action :=
  [.opened true "qmux-02.trevrpc-1", .message (some smallServer), .nextFrame, .create, .create,
    .write 0 [1, 2, 3, 4, 5, 6, 7] 0, .writePiece 0 0, .closeWriter 0, .write 1 [1, 2, 3, 4, 5, 6, 7] 0,
    .writePiece 1 0, .abortSignal 1 "gone", .resume 1 0, .abortSink 1]

theorem session_streamsOrderly_closed_and_aborted :
    (∃ s, run step (newSession 1000) closedAndAborted = some s ∧
      emitted 0 s.queued = [.stream 0 0 [1, 2, 3, 4, 5, 6, 7] false, .stream 0 7 [] true] ∧
      emitted 4 s.queued = [.stream 4 0 [1, 2, 3] false, .resetStream 4 1 3]) ∧
    Always (fun _ => StreamsOrderly) step (newSession 1000) closedAndAborted :=
  ⟨⟨_, rfl, rfl, rfl⟩, session_streamsOrderly 1000 closedAndAborted (by decide +kernel)⟩

/-- The writer is aborted after its write: RESET_STREAM has final size 0, and the granted piece follows. -/
theorem session_abort_before_data :
    ∃ s, run step (newSession 1000)
        [.opened true "qmux-02.trevrpc-1", .message (some smallServer), .nextFrame, .create,
          .write 0 [1, 2, 3] 0, .abortSignal 0 "gone", .writePiece 0 0] = some s ∧
      emitted 0 s.queued = [.resetStream 0 1 0, .stream 0 0 [1, 2, 3] false] ∧ ¬ StreamsOrderly s := by
  refine ⟨_, rfl, rfl, fun h => ?_⟩
  obtain ⟨-, hrest⟩ : 0 = 0 ∧ [Frame.stream 0 0 [1, 2, 3] false] = [] := h 0
  cases hrest

end TrevRpc.Js.Qmux
