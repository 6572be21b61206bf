import TrevRpc.Datagram.Runtimes
import TrevRpc.Rust.Datagram.Sending

/-! # What a Rust sender puts into datagrams, a Go receiver queues -/

open TrevRpc.Rust TrevRpc.Rust.Datagram
open TrevRpc.Go.Datagram (DatagramSink DatagramMux lookupOrNil)

namespace TrevRpc.Datagram

variable {Enc Dec : Type} {z : Libzstd Enc Dec} {accept : Accept} {maxFrameSize flow : Nat} {datagram : Bytes}
  {messages : List Bytes}

theorem carried_of_received (h : received z [] accept maxFrameSize datagram = some (flow, messages)) :
    carried z accept maxFrameSize flow datagram = messages ∧
      ∀ message ∈ messages, message.length ≤ maxFrameSize := by
  have hown : ownDatagram [] datagram = some datagram := rfl
  simp only [received, hown, Option.bind_eq_bind, Option.bind_some] at h
  obtain ⟨⟨id, ms⟩, hdec, h⟩ := Option.bind_eq_some_iff.mp h
  obtain ⟨inflated, hinf, h⟩ := Option.bind_eq_some_iff.mp h
  cases h
  obtain ⟨n, frames, hflow, hne, hframed, hkeep, rfl⟩ := decode_eq_some.mp hdec
  have hw : WellFormed datagram id n frames :=
    ⟨hflow, hne, hframed, fun frame hmem hs => by simpa [dropsDatagram, hs] using hkeep frame hmem⟩
  rw [inflate_eq hframed] at hinf
  refine ⟨by simp [hw.carried_eq, hinf], length_mapM_contents_le hinf (fun f hmem => (List.mem_filter.mp hmem).2) ?_⟩
  intro f hmem
  have hf := (List.mem_filter.mp hmem).1
  rw [← hw.dropsDatagram_eq hf]
  exact hkeep f hf

variable {inSync : Option Dict → Enc → Option Dec → Bool → Prop} {sender : FlowSender} {go : DatagramMux}
    {sink : DatagramSink}

/-- Every datagram of a batch that reaches a Go receiver of the flow, while it has room, is queued whole. -/
theorem rust_batch_reaches_go (hz : z.Lossless inSync) (h : Understands sender accept sink.maxMessage)
    (hnative : sender.prefixBytes = []) (link : Link) (outside : Surroundings) (batch before : List Bytes)
    (hlen : ∀ message ∈ batch, message.length ≤ Varint.maxValue) (hgo : go.flows sender.flow = some (some sink))
    (hinflate : sink.inflate = lookupOrNil accept) (hopen : sink.closed = false) (now : Nat) :
    ∀ offer ∈ (sender.sendBatch z link outside batch before).offered,
      sink.queue.length + offer.packed.length ≤ Go.Datagram.datagramSinkMessages →
      sink.bytes + (offer.packed.map List.length).sum ≤ Go.Datagram.datagramSinkBytes →
      goQueued sender.flow (go.dispatch z offer.datagram now) = sink.queue ++ offer.packed := by
  intro offer hoffer hcount hbytes
  obtain ⟨hinv, -⟩ := Inv.sendBatch z sender link outside batch before
  have hmem : ∀ message ∈ offer.packed, message ∈ batch := fun message hm =>
    hinv.order.subset (List.mem_append_left _ (List.mem_flatMap.mpr ⟨offer, hoffer, hm⟩))
  have hread := (hinv.offered offer hoffer).received hz h fun message hm => hlen message (hmem message hm)
  rw [hnative] at hread
  obtain ⟨hcarried, hsize⟩ := carried_of_received hread
  rw [go_delivers hgo hinflate hopen (hcarried.symm ▸ hcount) (hcarried.symm ▸ hbytes), hcarried,
    List.filter_eq_self.mpr (by simpa using hsize)]

theorem rust_batch_reaches_go_refused :
    let sender : FlowSender := ⟨[], 1, [1], 16, .none, by decide, rfl⟩
    let outside : Surroundings := ⟨0, some 8, fun _ => false, fun n => .now (n ≠ 0)⟩
    let go : DatagramMux := ⟨true, fun flow => if flow = 1 then some (some ⟨16, none, [], 0, false⟩) else none, ∅,
      [], 0,
      64, 65536, 500⟩
    ∀ offer ∈ (sender.sendBatch stored {} outside [[1, 2], [3], [9]] []).offered,
      goQueued 1 (go.dispatch stored offer.datagram 0) = offer.packed := by
  intro sender outside go offer hoffer
  have h : Understands sender .none 16 := ⟨by rintro _ ⟨⟩, by decide⟩
  refine @rust_batch_reaches_go _ _ stored .none _ sender go ⟨16, none, [], 0, false⟩ stored_lossless h rfl {} outside
    [[1, 2], [3], [9]] [] (by decide) rfl rfl rfl 0 offer hoffer ?_ ?_ <;> revert offer <;> decide

end TrevRpc.Datagram
