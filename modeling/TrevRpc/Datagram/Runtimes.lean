import TrevRpc.Go.Datagram
import TrevRpc.Rust.Datagram.Demux

/-!
# Rust and Go deliver datagrams alike

Except those with a message that is too large, which Rust drops whole and Go only without that message.
-/

open TrevRpc.Frames TrevRpc.Rust
open TrevRpc.Rust.Datagram (isMessage dropsDatagram decode_eq_some toList_eq)
open TrevRpc.Go.Datagram (DatagramSink DatagramMux lookupOrNil parseDatagram walkDatagramFrames)

namespace TrevRpc.Datagram

variable {Enc Dec : Type}

/-! ## What a datagram carries -/

def isOversized (maxFrameSize : Nat) (frame : RawFrame) : Bool :=
  frame.1 = FrameType.message && maxFrameSize < frame.2.length

/-- A datagram of a flow, whose frames fill it and need no stream. -/
structure WellFormed (datagram : Bytes) (flow n : Nat) (frames : List RawFrame) : Prop where
  flow_eq : Varint.decode datagram = some (flow, n)
  flow_ne : flow ≠ 0
  framed : Framed (datagram.drop n) frames
  streamless : ∀ frame ∈ frames, frame.1 ≠ FrameType.zstdStreamMessage

variable {datagram : Bytes} {flow n maxFrameSize : Nat} {frames : List RawFrame}

namespace WellFormed

variable (h : WellFormed datagram flow n frames)
include h

theorem parse : parseDatagram datagram = some (flow, datagram.drop n) := by
  simp [parseDatagram, h.flow_eq, h.flow_ne]

theorem walk : walkDatagramFrames (datagram.drop n) = (frames.filter isMessage, true) :=
  Prod.ext (Go.Datagram.walkLoop_fst h.framed h.streamless le_rfl)
    ((Go.Datagram.walkLoop_spec le_rfl).mpr ⟨frames, h.framed, h.streamless⟩)

theorem dropsDatagram_eq {frame : RawFrame} (hmem : frame ∈ frames) :
    dropsDatagram maxFrameSize frame = isOversized maxFrameSize frame := by
  simp [dropsDatagram, isOversized, h.streamless frame hmem]

theorem decode (maxFrameSize : Nat) :
    Rust.Datagram.decode datagram maxFrameSize =
      if frames.any (isOversized maxFrameSize) then none else some (flow, ⟨datagram, n⟩) := by
  split_ifs with ho
  · obtain ⟨f, hmem, hl⟩ := List.any_eq_true.mp ho
    refine Option.eq_none_iff_forall_ne_some.mpr fun ⟨_, m⟩ hd => ?_
    obtain ⟨_, others, hn, -, hf, hg, -⟩ := decode_eq_some.mp hd
    obtain ⟨rfl, rfl⟩ := Prod.mk.inj (Option.some.inj (hn.symm.trans h.flow_eq))
    obtain rfl := hf.unique h.framed
    rw [← h.dropsDatagram_eq hmem, hg f hmem] at hl
    cases hl
  · refine decode_eq_some.mpr ⟨n, frames, h.flow_eq, h.flow_ne, h.framed, fun f hmem => ?_, rfl⟩
    rw [h.dropsDatagram_eq hmem]
    exact Bool.eq_false_iff.mpr fun ht => ho (List.any_eq_true.mpr ⟨f, hmem, ht⟩)

end WellFormed

theorem wellFormed_or (datagram : Bytes) :
    (∃ flow n frames, WellFormed datagram flow n frames) ∨
      (∀ maxFrameSize, Rust.Datagram.decode datagram maxFrameSize = none) ∧
        ∀ flow frames, parseDatagram datagram = some (flow, frames) → (walkDatagramFrames frames).2 = false := by
  refine or_iff_not_imp_left.mpr fun hno => ⟨fun maxFrameSize => ?_, fun flow rest hp => ?_⟩
  · refine Option.eq_none_iff_forall_ne_some.mpr fun ⟨flow, m⟩ hd => hno ?_
    obtain ⟨n, frames, hf, hz, hfr, hg, -⟩ := decode_eq_some.mp hd
    refine ⟨flow, n, frames, hf, hz, hfr, fun f hmem hs => ?_⟩
    simpa [dropsDatagram, hs] using hg f hmem
  · rw [← Bool.not_eq_true]
    intro ht
    obtain ⟨frames, hfr, hg⟩ := (Go.Datagram.walkLoop_spec le_rfl).mp ht
    unfold parseDatagram at hp
    split at hp
    · cases hp
    · next n hf =>
      obtain ⟨hz, hp⟩ := Option.ite_none_left_eq_some.mp hp
      obtain ⟨rfl, rfl⟩ := Prod.mk.inj (Option.some.inj hp)
      exact hno ⟨_, n, frames, hf, hz, hfr, hg⟩

/-! ## The messages -/

/-- What a frame that carries a message carries; `none` if it is rejected. -/
def contents (z : Libzstd Enc Dec) (accept : Accept) (maxFrameSize : Nat) (frame : RawFrame) : Option Bytes :=
  if frame.1 = FrameType.zstdMessage then Go.Datagram.inflated z accept frame.2 maxFrameSize else some frame.2

/-- The messages of a datagram for a flow. One that is rejected drops the others. -/
def carried (z : Libzstd Enc Dec) (accept : Accept) (maxFrameSize flow : Nat) (datagram : Bytes) : List Bytes :=
  match parseDatagram datagram with
  | none => []
  | some (id, frames) =>
    if id = flow ∧ (walkDatagramFrames frames).2 then
      ((walkDatagramFrames frames).1.mapM (contents z accept maxFrameSize)).getD []
    else []

def hasOversized (maxFrameSize : Nat) (datagram : Bytes) : Bool :=
  match parseDatagram datagram with
  | none => false
  | some (_, frames) => (walkDatagramFrames frames).1.any (isOversized maxFrameSize)

variable {z : Libzstd Enc Dec} {accept : Accept}

theorem payload_eq {sink : DatagramSink} (hi : sink.inflate = lookupOrNil accept) :
    sink.payload z = contents z accept sink.maxMessage := by
  funext frame
  unfold DatagramSink.payload contents
  rw [hi, Go.Datagram.inflateMessage_eq]

theorem inflate_eq (hf : Framed (datagram.drop n) frames) :
    (⟨datagram, n⟩ : Rust.Datagram.Messages).inflate z accept maxFrameSize =
      (frames.filter isMessage).mapM (contents z accept maxFrameSize) := by
  unfold Rust.Datagram.Messages.inflate
  rw [toList_eq hf]
  refine congrArg (List.mapM · _) (funext fun frame => ?_)
  unfold contents
  rw [← Go.Datagram.rust_inflate_eq]

theorem length_inflated_le {p m : Bytes}
    (h : Go.Datagram.inflated z accept p maxFrameSize = some m) : m.length ≤ maxFrameSize := by
  obtain ⟨header, -, h⟩ := Option.bind_eq_some_iff.mp h
  obtain ⟨hsize, h⟩ := Option.ite_none_left_eq_some.mp h
  obtain ⟨dict, -, h⟩ := Option.bind_eq_some_iff.mp h
  unfold Dict.decompress at h
  split at h
  · split_ifs at h with hlen
    · cases h
      omega
    · cases h
  · cases h

theorem length_mapM_contents_le {ms : List Bytes}
    (h : frames.mapM (contents z accept maxFrameSize) = some ms)
    (hmessages : ∀ f ∈ frames, isMessage f = true)
    (hs : ∀ f ∈ frames, isOversized maxFrameSize f = false) :
    ∀ m ∈ ms, m.length ≤ maxFrameSize := by
  induction frames generalizing ms with
  | nil =>
    cases h
    simp
  | cons f rest ih =>
    rw [List.mapM_cons] at h
    obtain ⟨first, hf, h⟩ := Option.bind_eq_some_iff.mp h
    obtain ⟨others, ho, h⟩ := Option.bind_eq_some_iff.mp h
    cases h
    have hr := ih ho (fun o hmem => hmessages o (List.mem_cons_of_mem f hmem))
      fun o hmem => hs o (List.mem_cons_of_mem f hmem)
    refine List.forall_mem_cons.mpr ⟨?_, hr⟩
    unfold contents at hf
    split_ifs at hf with hz
    · exact length_inflated_le hf
    · obtain rfl := Option.some.inj hf
      have hm := hmessages f List.mem_cons_self
      have hs := hs f List.mem_cons_self
      simp only [isMessage, hz, decide_false, Bool.or_false, decide_eq_true_eq] at hm
      simpa [isOversized, hm] using hs

/-! ## The queues -/

def rustQueued (flow : Nat) (s : Demux.State) : List Bytes :=
  match s.flows flow with
  | some { sink := some sink, .. } => sink.queue.map Prod.fst
  | _ => []

def goQueued (flow : Nat) (m : DatagramMux) : List Bytes :=
  match m.flows flow with
  | some (some sink) => sink.queue
  | _ => []

structure Room (rust : Queue.State Bytes Unit) (go : DatagramSink) (messages : List Bytes) : Prop where
  rust_open : rust.receiverOpen = true
  rust_count : rust.queue.length + messages.length ≤ Demux.queueLimits.values
  rust_bytes : rust.queuedBytes + (messages.map List.length).sum < Demux.queueLimits.bytes
  go_open : go.closed = false
  go_count : go.queue.length + messages.length ≤ Go.Datagram.datagramSinkMessages
  go_bytes : go.bytes + (messages.map List.length).sum ≤ Go.Datagram.datagramSinkBytes

theorem trySend_eq {sink : Queue.State Bytes Unit} (m : Bytes) (ho : sink.receiverOpen = true)
    (hcount : sink.queue.length < Demux.queueLimits.values)
    (hbytes : sink.queuedBytes + m.length < Demux.queueLimits.bytes) :
    let sent := (sink.trySend Demux.queueLimits m m.length).state
    sent.receiverOpen = true ∧ sent.queue = sink.queue ++ [(m, m.length)] ∧
      sent.queuedBytes = sink.queuedBytes + m.length := by
  have hr : sink.hasRoom Demux.queueLimits = true := by
    simp only [Queue.State.hasRoom, Bool.and_eq_true, decide_eq_true_eq]
    omega
  have hmax : Demux.queueLimits.bytes ≤ 2 ^ 64 - 1 := by decide
  simp only [Queue.State.trySend, ho, hr, Bool.not_true, Bool.false_eq_true, if_false, Queue.State.push]
  exact ⟨trivial, trivial, by omega⟩

theorem foldl_trySend {sink : Queue.State Bytes Unit} {messages : List Bytes} (ho : sink.receiverOpen = true)
    (hc : sink.queue.length + messages.length ≤ Demux.queueLimits.values)
    (hb : sink.queuedBytes + (messages.map List.length).sum < Demux.queueLimits.bytes) :
    (messages.foldl (fun sink m => (sink.trySend Demux.queueLimits m m.length).state)
      sink).queue.map Prod.fst = sink.queue.map Prod.fst ++ messages := by
  induction messages generalizing sink with
  | nil => simp
  | cons m rest ih =>
    simp only [List.length_cons, List.map_cons, List.sum_cons] at hc hb
    obtain ⟨ho, hq, hsize⟩ := trySend_eq m ho (by omega) (by omega)
    rw [List.foldl_cons, ih ho, hq]
    · simp
    · rw [hq, List.length_append, List.length_singleton]
      omega
    · omega

/-! ## Delivery -/

section Delivery

variable {role : Demux.Role} {now : Nat} {rust : Demux.State} {source : Queue.State Bytes Unit} {go : DatagramMux}
  {sink : DatagramSink} {id : Nat}

variable (h : WellFormed datagram id n frames)
include h

theorem WellFormed.carried_eq (z : Libzstd Enc Dec) (accept : Accept)
    (maxFrameSize flow : Nat) :
    carried z accept maxFrameSize flow datagram =
      if id = flow then ((frames.filter isMessage).mapM (contents z accept maxFrameSize)).getD [] else [] := by
  simp [carried, h.parse, h.walk]

theorem WellFormed.hasOversized_eq (maxFrameSize : Nat) :
    hasOversized maxFrameSize datagram = frames.any (isOversized maxFrameSize) := by
  simp only [hasOversized, h.parse, h.walk, List.any_filter]
  congr 1
  funext f
  by_cases hm : f.1 = FrameType.message <;> simp [isMessage, isOversized, hm]

theorem WellFormed.filter_carried
    (hs : hasOversized maxFrameSize datagram = false) :
    (carried z accept maxFrameSize flow datagram).filter (fun m => m.length ≤ maxFrameSize) =
      carried z accept maxFrameSize flow datagram := by
  rw [h.hasOversized_eq] at hs
  rw [h.carried_eq, List.filter_eq_self]
  split_ifs
  · cases hmapM : (frames.filter isMessage).mapM (contents z accept maxFrameSize) with
    | none => simp
    | some messages =>
      have hlen := length_mapM_contents_le hmapM (fun f hmem => (List.mem_filter.mp hmem).2)
        fun f hmem => by simpa using List.any_eq_false.mp hs f (List.mem_filter.mp hmem).1
      simpa using hlen
  · simp

omit h

theorem carried_eq_nil
    (h : ∀ flow frames, parseDatagram datagram = some (flow, frames) → (walkDatagramFrames frames).2 = false) :
    carried z accept maxFrameSize flow datagram = [] := by
  unfold carried
  split
  · rfl
  · rename_i id frames hp
    simp [h id frames hp]

theorem rust_dispatch_other (h : ∀ ms, Rust.Datagram.decode datagram maxFrameSize ≠ some (flow, ms)) :
    (rust.dispatch z ⟨role, [], maxFrameSize⟩ datagram now).flows flow = rust.flows flow := by
  have hown : Rust.Datagram.ownDatagram [] datagram = some datagram := rfl
  unfold Demux.State.dispatch
  simp only [hown, Option.bind_some]
  split
  · rfl
  · rename_i id ms hdec
    have hne : flow ≠ id := by
      rintro rfl
      exact h ms hdec
    split
    · split
      · unfold Demux.State.push
        split
        · exact Function.update_of_ne hne _ _
        · rfl
      · rfl
    · split_ifs <;> rfl

theorem rust_delivers_own (h : WellFormed datagram flow n frames)
    (hdec : Rust.Datagram.decode datagram maxFrameSize = some (flow, ⟨datagram, n⟩))
    (hl : rust.flows flow = some ⟨some source, accept⟩) (ho : source.receiverOpen = true)
    (hc : source.queue.length + (carried z accept maxFrameSize flow datagram).length ≤ Demux.queueLimits.values)
    (hb : source.queuedBytes + ((carried z accept maxFrameSize flow datagram).map List.length).sum <
      Demux.queueLimits.bytes) :
    rustQueued flow (rust.dispatch z ⟨role, [], maxFrameSize⟩ datagram now) =
      source.queue.map Prod.fst ++ carried z accept maxFrameSize flow datagram := by
  have hown : Rust.Datagram.ownDatagram [] datagram = some datagram := rfl
  have hcar := h.carried_eq z accept maxFrameSize flow
  rw [if_pos rfl] at hcar
  rw [hcar] at hc hb ⊢
  unfold Demux.State.dispatch
  simp only [hown, Option.bind_some, hdec, hl, inflate_eq h.framed]
  cases hmes : (frames.filter isMessage).mapM (contents z accept maxFrameSize) with
  | none => simp [rustQueued, hl]
  | some messages =>
    rw [hmes, Option.getD_some] at hc hb
    simp only [Demux.State.push, hl, rustQueued, Demux.State.setFlow, Function.update_self, Option.getD_some]
    exact foldl_trySend ho hc hb

theorem rust_delivers (hl : rust.flows flow = some ⟨some source, accept⟩) (hop : source.receiverOpen = true)
    (hc : source.queue.length + (carried z accept maxFrameSize flow datagram).length ≤ Demux.queueLimits.values)
    (hb : source.queuedBytes + ((carried z accept maxFrameSize flow datagram).map List.length).sum <
      Demux.queueLimits.bytes) :
    rustQueued flow (rust.dispatch z ⟨role, [], maxFrameSize⟩ datagram now) =
      source.queue.map Prod.fst ++
        if hasOversized maxFrameSize datagram then [] else carried z accept maxFrameSize flow datagram := by
  have ho (h : ∀ ms, Rust.Datagram.decode datagram maxFrameSize ≠ some (flow, ms)) :
      rustQueued flow (rust.dispatch z ⟨role, [], maxFrameSize⟩ datagram now) = source.queue.map Prod.fst := by
    unfold rustQueued
    rw [rust_dispatch_other h, hl]
  rcases wellFormed_or datagram with ⟨id, n, frames, h⟩ | ⟨hdec, hw⟩
  · rcases eq_or_ne id flow with rfl | hne
    · cases hov : hasOversized maxFrameSize datagram with
      | true =>
        rw [ho fun ms => by simp [h.decode, ← h.hasOversized_eq, hov], if_pos rfl, List.append_nil]
      | false =>
        have hdec := h.decode maxFrameSize
        rw [← h.hasOversized_eq, hov, if_neg Bool.false_ne_true] at hdec
        rw [if_neg Bool.false_ne_true]
        exact rust_delivers_own h hdec hl hop hc hb
    · rw [ho fun ms => by simp [h.decode, hne], h.carried_eq, if_neg hne, ite_self, List.append_nil]
  · rw [ho fun ms => by simp [hdec], carried_eq_nil hw, ite_self, List.append_nil]

theorem go_dispatch_other
    (h : ∀ frames, parseDatagram datagram = some (flow, frames) → (walkDatagramFrames frames).2 = false) :
    (go.dispatch z datagram now).flows flow = go.flows flow := by
  unfold DatagramMux.dispatch
  split
  · rfl
  · rename_i id frames hp
    split
    · rfl
    · rename_i hw
      have hne : flow ≠ id := by
        rintro rfl
        simp [h frames hp] at hw
      split
      · rfl
      · exact Function.update_of_ne hne _ _
      · split_ifs <;> rfl

theorem go_delivers (hl : go.flows flow = some (some sink)) (hi : sink.inflate = lookupOrNil accept)
    (hop : sink.closed = false)
    (hc : sink.queue.length + (carried z accept sink.maxMessage flow datagram).length ≤
      Go.Datagram.datagramSinkMessages)
    (hb : sink.bytes + ((carried z accept sink.maxMessage flow datagram).map List.length).sum ≤
      Go.Datagram.datagramSinkBytes) :
    goQueued flow (go.dispatch z datagram now) =
      sink.queue ++ (carried z accept sink.maxMessage flow datagram).filter fun m =>
        m.length ≤ sink.maxMessage := by
  have ho (h : ∀ frames, parseDatagram datagram = some (flow, frames) → (walkDatagramFrames frames).2 = false) :
      goQueued flow (go.dispatch z datagram now) = sink.queue := by
    unfold goQueued
    rw [go_dispatch_other h, hl]
  rcases wellFormed_or datagram with ⟨id, n, frames, h⟩ | ⟨-, hw⟩
  · rcases eq_or_ne id flow with rfl | hne
    · have hcar := h.carried_eq z accept sink.maxMessage id
      rw [if_pos rfl] at hcar
      rw [hcar] at hc hb ⊢
      simp only [DatagramMux.dispatch, h.parse, h.walk, hl, goQueued, Function.update_self, Bool.not_true,
        Bool.false_eq_true, if_false]
      rw [DatagramSink.pushFrames_eq, h.walk, payload_eq hi, DatagramSink.foldl_pushLocked _ hop hc hb]
    · rw [ho fun _ => by simp [h.parse, hne], h.carried_eq, if_neg hne, List.filter_nil, List.append_nil]
  · rw [ho fun _ => hw flow _, carried_eq_nil hw, List.filter_nil, List.append_nil]

/-- With the flow at both and room in the queues, both queue the messages of every datagram without a large one. -/
theorem receivers_deliver_same (z : Libzstd Enc Dec) (datagram : Bytes) (role : Demux.Role) (now now' : Nat)
    (hrust : rust.flows flow = some ⟨some source, accept⟩) (hgo : go.flows flow = some (some sink))
    (hinflate : sink.inflate = lookupOrNil accept)
    (hroom : Room source sink (carried z accept sink.maxMessage flow datagram)) :
    let delivered := (carried z accept sink.maxMessage flow datagram).filter fun message =>
      message.length ≤ sink.maxMessage
    goQueued flow (go.dispatch z datagram now') = sink.queue ++ delivered ∧
      rustQueued flow (rust.dispatch z ⟨role, [], sink.maxMessage⟩ datagram now) =
        source.queue.map Prod.fst ++ if hasOversized sink.maxMessage datagram then [] else delivered := by
  intro delivered
  refine ⟨go_delivers hgo hinflate hroom.go_open hroom.go_count hroom.go_bytes, ?_⟩
  rw [rust_delivers hrust hroom.rust_open hroom.rust_count hroom.rust_bytes]
  cases hover : hasOversized sink.maxMessage datagram with
  | true => rfl
  | false =>
    unfold delivered
    rcases wellFormed_or datagram with ⟨id, n, frames, h⟩ | ⟨-, hwalk⟩
    · rw [h.filter_carried hover]
    · rw [carried_eq_nil hwalk, List.filter_nil]

theorem receivers_deliver_same_batch :
    let rust : Demux.State := (Demux.server none).setFlow 1 (some ⟨some {}, .none⟩)
    let go : DatagramMux := ⟨true, fun flow => if flow = 1 then some (some ⟨2, none, [], 0, false⟩) else none, ∅, [], 0,
      64, 65536, 500⟩
    let datagram : Bytes := [1, 0, 1, 9, 33, 1, 255, 0, 2, 7, 8]
    goQueued 1 (go.dispatch stored datagram 0) = [[9], [7, 8]] ∧
      rustQueued 1 (rust.dispatch stored ⟨.server, [], 2⟩ datagram 0) = [[9], [7, 8]] := by
  intro rust go datagram
  exact @receivers_deliver_same _ _ 1 .none rust {} go ⟨2, none, [], 0, false⟩ stored datagram .server 0 0 rfl rfl rfl
    ⟨rfl, by decide, by decide, rfl, by decide, by decide⟩

theorem oversized_message_divides :
    let rust : Demux.State := (Demux.server none).setFlow 1 (some ⟨some {}, .none⟩)
    let go : DatagramMux := ⟨true, fun flow => if flow = 1 then some (some ⟨2, none, [], 0, false⟩) else none, ∅, [], 0,
      64, 65536, 500⟩
    let datagram : Bytes := [1, 0, 1, 9, 0, 3, 1, 2, 3]
    goQueued 1 (go.dispatch stored datagram 0) = [[9]] ∧
      rustQueued 1 (rust.dispatch stored ⟨.server, [], 2⟩ datagram 0) = [] := by
  decide

end Delivery

end TrevRpc.Datagram
