import Mathlib.Data.List.Forall2
import TrevRpc.Rust.Datagram.Codec
import TrevRpc.Rust.Delivery

/-! # The messages of a batch (`FlowSender::send_batch`) -/

open TrevRpc.Frames

namespace TrevRpc.Rust.Datagram

variable {Enc Dec : Type}

/-! ## The link -/

/-- How long a size is used, in milliseconds. -/
def maxSizeReuse : Nat := 100

structure Link where
  maxSize : Nat := 0
  readAt : Option Nat := none

namespace Link

def fresh (now : Nat) (transportMax : Option Nat) : Option Nat × Link :=
  (transportMax, { maxSize := transportMax.elim 0 (· + 1), readAt := some now })

/-- `Link::max_size`. -/
def readMaxSize (link : Link) (now : Nat) (transportMax : Option Nat) : Option Nat × Link :=
  match link.readAt with
  | some readAt =>
    if now - readAt < maxSizeReuse then (if link.maxSize = 0 then none else some (link.maxSize - 1), link)
    else fresh now transportMax
  | none => fresh now transportMax

def rereadMaxSize (link : Link) : Link := { link with readAt := none }

end Link

/-! ## The loop -/

/-- The dictionary of a direction, which may be pending until the server's answer confirms it. -/
inductive CallDict
  | none
  | known (dict : Dict)
  | pending (dict : Dict)

def CallDict.get : CallDict → Bool → Option Dict
  | .none, _ => Option.none
  | .known dict, _ => some dict
  | .pending dict, shared => if shared then some dict else Option.none

structure FlowSender where
  prefixBytes : Bytes
  flow : Nat
  header : Bytes
  maxFrameSize : Nat
  compress : CallDict
  flow_pos : 0 < flow
  header_eq : flowHeader prefixBytes flow = some header

/-- What happens to a datagram that is sent. -/
inductive Answer
  | now (ok : Bool)
  | cancelled
  | waited (ok : Bool)
  deriving DecidableEq

/-- The time and limit at the start, whether the answer is there at each message, and each datagram's fate. -/
structure Surroundings where
  now : Nat
  transportMax : Option Nat
  shared : Nat → Bool
  answer : Nat → Answer

structure Offer where
  datagram : Bytes
  packed : List Bytes
  accepted : Bool
  deriving DecidableEq

structure Packing where
  link : Link
  drained : Nat := 0
  datagram : Bytes := []
  packed : List Bytes := []
  onStream : List Bytes
  fired : Bool := false
  offered : List Offer := []

namespace Packing

def flush (outside : Surroundings) (p : Packing) : Packing :=
  let answer := outside.answer p.offered.length
  let sent := match answer with
    | .now ok => some ok
    | .cancelled => none
    -- Once the call is cancelled, nothing waits.
    | .waited ok => if p.fired then none else some ok
  { p with
    link := if sent = some false then p.link.rereadMaxSize else p.link
    datagram := []
    packed := []
    onStream := if sent = some true then p.onStream else p.onStream ++ p.packed
    fired := p.fired || answer = .cancelled
    offered := p.offered ++ [⟨p.datagram, p.packed, sent = some true⟩] }

def delivered (p : Packing) : List Bytes := (p.offered.filter (·.accepted)).flatMap (·.packed)

structure Flushed (p p' : Packing) (accepted : Bool) : Prop where
  datagram : p'.datagram = []
  packed : p'.packed = []
  offered : p'.offered = p.offered ++ [⟨p.datagram, p.packed, accepted⟩]
  onStream : p'.onStream = if accepted then p.onStream else p.onStream ++ p.packed

theorem flush_flushed (outside : Surroundings) (p : Packing) : ∃ accepted, p.Flushed (p.flush outside) accepted := by
  refine ⟨_, rfl, rfl, rfl, ?_⟩
  simp [flush]

theorem Flushed.delivered {p p' : Packing} {a : Bool} (h : p.Flushed p' a) :
    p'.delivered = p.delivered ++ if a then p.packed else [] := by
  cases a <;> simp [Packing.delivered, h.offered]

end Packing

namespace FlowSender

/-- The frame of a message in a datagram. -/
def encode (z : Libzstd Enc Dec) (sender : FlowSender) (shared : Bool) (message : Bytes) : RawFrame :=
  match (sender.compress.get shared).bind fun dict => dict.compress z message with
  | some compressed => (FrameType.zstdMessage, compressed)
  | none => (FrameType.message, message)

def append (sender : FlowSender) (frame : RawFrame) (message : Bytes) (p : Packing) : Packing :=
  let datagram := if p.packed.isEmpty then p.datagram ++ sender.header else p.datagram
  { p with datagram := putMessageFrame datagram frame.1 frame.2, packed := p.packed ++ [message] }

theorem append_datagram (sender : FlowSender) (frame : RawFrame) (m : Bytes) (p : Packing) :
    (sender.append frame m p).datagram =
      (if p.packed.isEmpty then p.datagram ++ sender.header else p.datagram) ++ frameBytes frame :=
  putMessageFrame_eq ..

def isFull (p : Packing) (max frame : Nat) : Bool := !p.packed.isEmpty && max < p.datagram.length + frame

def pack (z : Libzstd Enc Dec) (sender : FlowSender) (outside : Surroundings) (max : Option Nat) (p : Packing)
    (message : Bytes) : Packing :=
  let frame := sender.encode z (outside.shared p.drained) message
  let p := { p with drained := p.drained + 1 }
  let max := max.filter fun max =>
    message.length ≤ sender.maxFrameSize && sender.header.length + messageFrameLen frame.2.length ≤ max
  match max with
  | none => { p with onStream := p.onStream ++ [message] }
  | some max =>
    let p := if isFull p max (messageFrameLen frame.2.length) then p.flush outside else p
    sender.append frame message p

def sendBatch (z : Libzstd Enc Dec) (sender : FlowSender) (link : Link) (outside : Surroundings)
    (batch onStream : List Bytes) : Packing :=
  let (max, link) := link.readMaxSize outside.now outside.transportMax
  let p := batch.foldl (sender.pack z outside max) { link, onStream }
  if p.packed.isEmpty then p else p.flush outside

end FlowSender

/-- The flow and the messages of a datagram, as a receiver that accepts `accept` reads them. -/
def received (z : Libzstd Enc Dec) (prefixBytes : Bytes) (accept : Accept) (maxFrameSize : Nat) (datagram : Bytes) :
    Option (Nat × List Bytes) := do
  let datagram ← ownDatagram prefixBytes datagram
  let (flow, messages) ← decode datagram maxFrameSize
  let messages ← messages.inflate z accept maxFrameSize
  return (flow, messages)

/-! ## Where the messages go -/

/-- The dictionary that a direction may use. -/
def CallDict.dict : CallDict → Option Dict
  | .none => Option.none
  | .known dict | .pending dict => some dict

variable {z : Libzstd Enc Dec} {sender : FlowSender} {outside : Surroundings} {max : Option Nat} {p : Packing}

def Carries (z : Libzstd Enc Dec) (sender : FlowSender) (frame : RawFrame) (message : Bytes) : Prop :=
  message.length ≤ sender.maxFrameSize ∧ ∃ shared, sender.encode z shared message = frame

structure Holds (z : Libzstd Enc Dec) (sender : FlowSender) (max : Option Nat) (datagram : Bytes)
    (packed : List Bytes) : Prop where
  within : ∃ limit, max = some limit ∧ datagram.length ≤ limit
  frames : ∃ frames, datagram = sender.header ++ frames.flatMap frameBytes ∧
    List.Forall₂ (Carries z sender) frames packed

theorem length_varintBytes_le (value : Nat) : (varintBytes value).length ≤ Varint.encodedLen value := by
  unfold varintBytes
  cases h : Varint.encode value with
  | none => exact Nat.zero_le _
  | some bytes => exact (Varint.length_of_encode h).le

variable {f : RawFrame}

theorem length_frameBytes_le (ht : f.1 < 2 ^ 6) : (frameBytes f).length ≤ messageFrameLen f.2.length := by
  have htypeLen := length_varintBytes_le f.1
  have hlen := length_varintBytes_le f.2.length
  have hone : Varint.encodedLen f.1 = 1 := if_pos ht
  unfold frameBytes messageFrameLen
  rw [List.length_append, List.length_append]
  omega

theorem encode_type (z : Libzstd Enc Dec) (sender : FlowSender) (shared : Bool) (m : Bytes) :
    (sender.encode z shared m).1 = FrameType.message ∨
      (sender.encode z shared m).1 = FrameType.zstdMessage := by
  unfold FlowSender.encode
  split
  · exact .inr rfl
  · exact .inl rfl

structure Inv (z : Libzstd Enc Dec) (sender : FlowSender) (max : Option Nat) (before taken : List Bytes)
    (p : Packing) : Prop where
  empty : p.packed = [] → p.datagram = []
  packing : p.packed ≠ [] → Holds z sender max p.datagram p.packed
  offered : ∀ offer ∈ p.offered, Holds z sender max offer.datagram offer.packed
  order : (p.offered.flatMap (·.packed) ++ p.packed).Sublist taken
  conserved : ∃ returned, p.onStream = before ++ returned ∧ taken.Perm (p.delivered ++ returned ++ p.packed)

namespace Inv

variable {before taken : List Bytes}

variable (h : Inv z sender max before taken p)
include h

theorem flush (hpacked : p.packed ≠ []) : Inv z sender max before taken (p.flush outside) := by
  obtain ⟨a, hf⟩ := p.flush_flushed outside
  refine ⟨fun _ => hf.datagram, fun hne => absurd hf.packed hne, ?_, ?_, ?_⟩
  · intro o ho
    rw [hf.offered] at ho
    rcases List.mem_append.mp ho with hold | hnew
    · exact h.offered o hold
    · rw [List.mem_singleton.mp hnew]
      exact h.packing hpacked
  · rw [hf.offered, hf.packed]
    simpa using h.order
  · obtain ⟨r, honStream, hp⟩ := h.conserved
    rw [hf.onStream, hf.delivered, hf.packed, honStream]
    cases a with
    | true =>
      refine ⟨r, rfl, hp.trans ?_⟩
      simp only [if_true, List.append_nil, List.append_assoc]
      exact List.perm_append_comm.append_left _
    | false =>
      refine ⟨r ++ p.packed, by simp, hp.trans (.of_eq (by simp))⟩

theorem goesOnStream (m : Bytes) : Inv z sender max before (taken ++ [m]) { p with onStream := p.onStream ++ [m] } := by
  refine ⟨h.empty, h.packing, h.offered, h.order.trans (List.sublist_append_left ..), ?_⟩
  obtain ⟨r, honStream, hp⟩ := h.conserved
  refine ⟨r ++ [m], by simp [honStream], (hp.append_right [m]).trans ?_⟩
  simp only [List.append_assoc]
  exact (List.perm_append_comm.append_left r).append_left _

theorem append {m : Bytes} {f : RawFrame} {limit : Nat}
    (hmax : max = some limit) (hc : Carries z sender f m)
    (hroom : (if p.packed.isEmpty then sender.header.length else p.datagram.length) + messageFrameLen f.2.length ≤
      limit) :
    Inv z sender max before (taken ++ [m]) (sender.append f m p) := by
  have hb : ∃ fs, (if p.packed.isEmpty then p.datagram ++ sender.header else p.datagram) =
        sender.header ++ fs.flatMap frameBytes ∧ List.Forall₂ (Carries z sender) fs p.packed := by
    split_ifs with hem
    · rw [List.isEmpty_iff] at hem
      exact ⟨[], by simp [h.empty hem], by simp [hem]⟩
    · exact (h.packing (by simpa using hem)).frames
  have hl : (if p.packed.isEmpty then p.datagram ++ sender.header else p.datagram).length =
      if p.packed.isEmpty then sender.header.length else p.datagram.length := by
    split_ifs with hem
    · rw [h.empty (List.isEmpty_iff.mp hem), List.nil_append]
    · rfl
  obtain ⟨fs, hd, hf⟩ := hb
  refine ⟨by simp [FlowSender.append], fun _ => ⟨⟨limit, hmax, ?_⟩, fs ++ [f], ?_, ?_⟩, h.offered, ?_, ?_⟩
  · have ht : f.1 < 2 ^ 6 := by
      obtain ⟨-, sh, rfl⟩ := hc
      rcases encode_type z sender sh m with ht | ht <;> rw [ht] <;> decide
    have hframe := length_frameBytes_le ht
    rw [FlowSender.append_datagram, List.length_append, hl]
    omega
  · rw [FlowSender.append_datagram, hd, List.flatMap_append, List.append_assoc]
    simp
  · exact List.rel_append hf (.cons hc .nil)
  · simpa [FlowSender.append] using h.order.append_right [m]
  · obtain ⟨r, honStream, hp⟩ := h.conserved
    exact ⟨r, honStream, by simpa [FlowSender.append, Packing.delivered] using hp.append_right [m]⟩

theorem flushFull {f : Nat} {limit : Nat}
    (hfits : sender.header.length + f ≤ limit) :
    let q := if FlowSender.isFull p limit f then p.flush outside else p
    Inv z sender max before taken q ∧
      (if q.packed.isEmpty then sender.header.length else q.datagram.length) + f ≤ limit := by
  intro q
  unfold q
  split_ifs with hfu hem hem
  · simp only [FlowSender.isFull, Bool.and_eq_true, Bool.not_eq_true', List.isEmpty_eq_false_iff] at hfu
    exact ⟨h.flush hfu.1, hfits⟩
  · obtain ⟨accepted, hf⟩ := p.flush_flushed outside
    simp [hf.packed] at hem
  · exact ⟨h, hfits⟩
  · exact ⟨h, by simpa [FlowSender.isFull, hem] using hfu⟩

theorem pack (m : Bytes) : Inv z sender max before (taken ++ [m]) (sender.pack z outside max p m) := by
  have hd : Inv z sender max before taken { p with drained := p.drained + 1 } :=
    ⟨h.empty, h.packing, h.offered, h.order, h.conserved⟩
  unfold FlowSender.pack
  extract_lets frame _ fitting
  cases hfi : fitting with
  | none => exact hd.goesOnStream m
  | some limit =>
    obtain ⟨hmax, hft⟩ := Option.filter_eq_some_iff.mp hfi
    simp only [Bool.and_eq_true, decide_eq_true_eq] at hft
    obtain ⟨hf, hr⟩ := hd.flushFull hft.2
    exact hf.append hmax ⟨hft.1, _, rfl⟩ hr

theorem foldl_pack (b : List Bytes) : Inv z sender max before (taken ++ b) (b.foldl (sender.pack z outside max) p) := by
  induction b generalizing taken p with
  | nil => simpa using h
  | cons m rest ih =>
    rw [List.foldl_cons, List.append_cons]
    exact ih (h.pack m)

omit h

theorem start (z : Libzstd Enc Dec) (sender : FlowSender) (max : Option Nat) (link : Link) (before : List Bytes) :
    Inv z sender max before [] { link, onStream := before } :=
  ⟨fun _ => rfl, fun hne => absurd rfl hne, by simp, by simp, [], by simp, by simp [Packing.delivered]⟩

theorem sendBatch (z : Libzstd Enc Dec) (sender : FlowSender) (link : Link) (outside : Surroundings)
    (b before : List Bytes) :
    Inv z sender (link.readMaxSize outside.now outside.transportMax).1 before b
        (sender.sendBatch z link outside b before) ∧
      (sender.sendBatch z link outside b before).packed = [] := by
  have hall : Inv z sender _ before b (b.foldl (sender.pack z outside _) _) :=
    (start z sender (link.readMaxSize outside.now outside.transportMax).1
      (link.readMaxSize outside.now outside.transportMax).2 before).foldl_pack b
  unfold FlowSender.sendBatch
  simp only
  split_ifs with hem
  · exact ⟨hall, List.isEmpty_iff.mp hem⟩
  · obtain ⟨accepted, hf⟩ := Packing.flush_flushed outside (b.foldl _ _)
    exact ⟨hall.flush (by simpa using hem), hf.packed⟩

end Inv

/-! ## What a receiver gets -/

structure Understands (sender : FlowSender) (accept : Accept) (maxFrameSize : Nat) : Prop where
  dict : ∀ dict, sender.compress.dict = some dict → accept.lookup dict.id = some dict
  size : sender.maxFrameSize ≤ maxFrameSize

variable {inSync : Option Dict → Enc → Option Dec → Bool → Prop} {accept : Accept} {maxFrameSize : Nat}

theorem CallDict.get_eq_some {call : CallDict} {shared : Bool} {dict : Dict} (h : call.get shared = some dict) :
    call.dict = some dict := by
  cases call with
  | none => cases h
  | known known => exact h
  | pending known => exact (Option.ite_none_right_eq_some.mp h).2

theorem inflate_encode (hz : z.Lossless inSync) (h : Understands sender accept maxFrameSize) {message : Bytes}
    (hmessage : message.length ≤ sender.maxFrameSize) (shared : Bool) :
    (if (sender.encode z shared message).1 = FrameType.zstdMessage then
      (inflate z accept (sender.encode z shared message).2 maxFrameSize).toOption
    else some (sender.encode z shared message).2) = some message := by
  unfold FlowSender.encode
  split
  · next compressed hc =>
    obtain ⟨dict, hd, hcom⟩ := Option.bind_eq_some_iff.mp hc
    have ha := h.dict dict (CallDict.get_eq_some hd)
    rw [if_pos rfl, hz.inflate_compress ha hcom (hmessage.trans h.size)]
    rfl
  · exact if_neg (show FrameType.message ≠ FrameType.zstdMessage by decide)

theorem length_encode_le (z : Libzstd Enc Dec) (sender : FlowSender) (shared : Bool) (m : Bytes) :
    (sender.encode z shared m).2.length ≤ m.length := by
  unfold FlowSender.encode
  split
  · next compressed hc =>
    obtain ⟨dict, -, hcom⟩ := Option.bind_eq_some_iff.mp hc
    unfold Dict.compress at hcom
    obtain ⟨-, hcom⟩ := Option.ite_none_left_eq_some.mp hcom
    obtain ⟨-, hs⟩ := Option.filter_eq_some_iff.mp hcom
    exact (of_decide_eq_true hs).le
  · exact Nat.le_refl _

variable {m : Bytes}

theorem Carries.kept (h : Understands sender accept maxFrameSize)
    (hc : Carries z sender f m) :
    isMessage f = true ∧ dropsDatagram maxFrameSize f = false := by
  obtain ⟨hmes, sh, rfl⟩ := hc
  have hlen := (length_encode_le z sender sh m).trans (hmes.trans h.size)
  unfold isMessage dropsDatagram
  rcases encode_type z sender sh m with ht | ht
  · simp [ht, hlen, FrameType.message, FrameType.zstdStreamMessage]
  · simp [ht, FrameType.zstdMessage, FrameType.message, FrameType.zstdStreamMessage]

theorem Carries.encodable (hc : Carries z sender f m)
    (hmessage : m.length ≤ Varint.maxValue) : f.1 ≤ Varint.maxValue ∧ f.2.length ≤ Varint.maxValue := by
  obtain ⟨-, sh, rfl⟩ := hc
  refine ⟨?_, (length_encode_le z sender sh m).trans hmessage⟩
  rcases encode_type z sender sh m with ht | ht <;> rw [ht] <;> decide

theorem mapM_inflate (hz : z.Lossless inSync) (h : Understands sender accept maxFrameSize) {fs : List RawFrame}
    {packed : List Bytes} (hf : List.Forall₂ (Carries z sender) fs packed) :
    fs.mapM (fun (frameType, payload) =>
      if frameType = FrameType.zstdMessage then (inflate z accept payload maxFrameSize).toOption else some payload) =
      some packed := by
  induction hf with
  | nil => rfl
  | cons hc _ ih =>
    obtain ⟨hmes, sh, rfl⟩ := hc
    rw [List.mapM_cons]
    simp [inflate_encode hz h hmes sh, ih]

theorem exists_carried {fs : List RawFrame} {packed : List Bytes}
    (hframes : List.Forall₂ (Carries z sender) fs packed) (hf : f ∈ fs) :
    ∃ message ∈ packed, Carries z sender f message := by
  induction hframes with
  | nil => cases hf
  | cons hc _ ih =>
    rcases List.mem_cons.mp hf with rfl | hr
    · exact ⟨_, List.mem_cons_self, hc⟩
    · obtain ⟨message, hmem, hmes⟩ := ih hr
      exact ⟨message, List.mem_cons_of_mem _ hmem, hmes⟩

theorem Holds.received (hz : z.Lossless inSync) (h : Understands sender accept maxFrameSize) {d : Bytes}
    {packed : List Bytes} (hholds : Holds z sender max d packed)
    (hlen : ∀ m ∈ packed, m.length ≤ Varint.maxValue) :
    received z sender.prefixBytes accept maxFrameSize d = some (sender.flow, packed) := by
  obtain ⟨frames, rfl, hfra⟩ := hholds.frames
  have hw (f : RawFrame) (hf : f ∈ frames) : f.1 ≤ Varint.maxValue ∧ f.2.length ≤ Varint.maxValue := by
    obtain ⟨m, hmem, hc⟩ := exists_carried hfra hf
    exact hc.encodable (hlen m hmem)
  have hk (f : RawFrame) (hf : f ∈ frames) : isMessage f = true ∧ dropsDatagram maxFrameSize f = false := by
    obtain ⟨m, -, hc⟩ := exists_carried hfra hf
    exact hc.kept h
  obtain ⟨d, m, hown, hd, hm⟩ := decode_packed sender.header_eq sender.flow_pos.ne' hw hk
  simp only [Datagram.received, hown, Option.bind_eq_bind, Option.bind_some, hd, Messages.inflate, hm,
    mapM_inflate hz h hfra]
  rfl

/-- A message goes once, in a datagram that is taken or on the stream. A datagram is within the limit, and readable. -/
theorem sendBatch_conserves (hz : z.Lossless inSync) (h : Understands sender accept maxFrameSize) (link : Link)
    (outside : Surroundings) (batch before : List Bytes)
    (hlen : ∀ message ∈ batch, message.length ≤ Varint.maxValue) :
    let p := sender.sendBatch z link outside batch before
    (∃ returned, p.onStream = before ++ returned ∧ batch.Perm (p.delivered ++ returned)) ∧
      (p.offered.flatMap (·.packed)).Sublist batch ∧
      ∀ offer ∈ p.offered,
        (∃ max, (link.readMaxSize outside.now outside.transportMax).1 = some max ∧ offer.datagram.length ≤ max) ∧
          received z sender.prefixBytes accept maxFrameSize offer.datagram = some (sender.flow, offer.packed) := by
  intro p
  obtain ⟨hinv, hpacked⟩ := Inv.sendBatch z sender link outside batch before
  obtain ⟨returned, honStream, hperm⟩ := hinv.conserved
  have horder := hinv.order
  simp only [hpacked, List.append_nil] at hperm horder
  refine ⟨⟨returned, honStream, hperm⟩, horder, fun offer hoffer => ?_⟩
  have hholds := hinv.offered offer hoffer
  refine ⟨hholds.within, hholds.received hz h fun message hmem => hlen message ?_⟩
  exact horder.subset (List.mem_flatMap.mpr ⟨offer, hoffer, hmem⟩)

theorem sendBatch_conserves_refused :
    let sender : FlowSender := ⟨[], 1, [1], 16, .none, by decide, rfl⟩
    let outside : Surroundings := ⟨0, some 8, fun _ => false, fun n => .now (n ≠ 0)⟩
    let p := sender.sendBatch stored {} outside [[1, 2], [3], [4, 5, 6, 7, 8, 9, 10], [9]] []
    p.delivered = [[9]] ∧ p.onStream = [[4, 5, 6, 7, 8, 9, 10], [1, 2], [3]] ∧
      ∀ offer ∈ p.offered, received stored [] .none 16 offer.datagram = some (1, offer.packed) := by
  intro sender outside p
  have h : Understands sender .none 16 := ⟨nofun, by decide⟩
  obtain ⟨-, -, hoffered⟩ := sendBatch_conserves stored_lossless h {} outside
    [[1, 2], [3], [4, 5, 6, 7, 8, 9, 10], [9]] [] (by decide)
  exact ⟨by decide, by decide, fun offer hoffer => (hoffered offer hoffer).2⟩

/-! ## The order on the stream -/

/-- The call is cancelled before the datagram that is numbered `n`. -/
def Surroundings.fires (outside : Surroundings) (n : Nat) : Bool :=
  (List.range n).any fun earlier => outside.answer earlier = .cancelled

/-- The transport takes the datagram that is numbered `n`. -/
def Surroundings.takes (outside : Surroundings) (n : Nat) : Bool :=
  match outside.answer n with
  | .now ok => ok
  | .cancelled => false
  | .waited ok => ok && !outside.fires n

namespace Packing

def Timed (outside : Surroundings) (p : Packing) : Prop := p.fired = outside.fires p.offered.length

theorem Timed.flush (h : p.Timed outside) : (p.flush outside).Timed outside := by
  unfold Timed at h ⊢
  rw [show (p.flush outside).offered.length = p.offered.length + 1 by simp [Packing.flush], Surroundings.fires,
    List.range_succ, List.any_append]
  change (p.fired || decide (outside.answer p.offered.length = .cancelled)) = _
  rw [h, Surroundings.fires]
  simp

theorem Timed.flushed (h : p.Timed outside) :
    p.Flushed (p.flush outside) (outside.takes p.offered.length) := by
  obtain ⟨accepted, hf⟩ := p.flush_flushed outside
  have ho : accepted = outside.takes p.offered.length := by
    have hlast := congrArg List.getLast? hf.offered
    simp only [Packing.flush, List.getLast?_concat, Option.some.injEq, Offer.mk.injEq, true_and] at hlast
    rw [← hlast, Surroundings.takes]
    cases outside.answer p.offered.length with
    | now ok => simp
    | cancelled => simp
    | waited ok => simp [h.symm, and_comm]
  exact ho ▸ hf

end Packing

namespace FlowSender

def setsAside (z : Libzstd Enc Dec) (sender : FlowSender) (outside : Surroundings) (max : Option Nat) (p : Packing)
    (message : Bytes) : Bool :=
  (max.filter fun max => message.length ≤ sender.maxFrameSize && sender.header.length +
    messageFrameLen (sender.encode z (outside.shared p.drained) message).2.length ≤ max).isNone

end FlowSender

/-- No message is set aside while a datagram is being packed that the transport refuses. -/
def KeepsOrder (z : Libzstd Enc Dec) (sender : FlowSender) (outside : Surroundings) (max : Option Nat) :
    Packing → List Bytes → Prop
  | _, [] => True
  | p, message :: rest =>
    (sender.setsAside z outside max p message = true → p.packed ≠ [] → outside.takes p.offered.length = true) ∧
      KeepsOrder z sender outside max (sender.pack z outside max p message) rest

def Packing.last (outside : Surroundings) (p : Packing) : Packing := if p.packed.isEmpty then p else p.flush outside

/-- What `pack` does with a message. -/
inductive Packs (z : Libzstd Enc Dec) (sender : FlowSender) (outside : Surroundings) (max : Option Nat) (p : Packing)
    (message : Bytes) (p' : Packing) : Prop
  | aside (h : sender.setsAside z outside max p message = true) (ho : p'.onStream = p.onStream ++ [message])
      (hp : p'.packed = p.packed) (hf : p'.offered = p.offered)
  | packed (h : sender.setsAside z outside max p message = false) (ho : p'.onStream = p.onStream)
      (hp : p'.packed = p.packed ++ [message]) (hf : p'.offered = p.offered)
  | flushed (h : sender.setsAside z outside max p message = false) (hne : p.packed ≠ [])
      (ho : p'.onStream = if outside.takes p.offered.length then p.onStream else p.onStream ++ p.packed)
      (hp : p'.packed = [message])

theorem packs (ht : p.Timed outside) (z : Libzstd Enc Dec) (sender : FlowSender) (max : Option Nat) (m : Bytes) :
    Packs z sender outside max p m (sender.pack z outside max p m) ∧ (sender.pack z outside max p m).Timed outside := by
  unfold FlowSender.pack
  extract_lets frame _ fitting
  cases hfit : fitting with
  | none => exact ⟨.aside (Option.isNone_iff_eq_none.mpr hfit) rfl rfl rfl, ht⟩
  | some limit =>
    have hnot : sender.setsAside z outside max p m = false := congrArg Option.isNone hfit
    dsimp only
    split_ifs with hfull
    · have ht' : Packing.Timed outside { p with drained := p.drained + 1 } := ht
      have hf := ht'.flushed
      simp only [FlowSender.isFull, Bool.and_eq_true, Bool.not_eq_true', List.isEmpty_eq_false_iff] at hfull
      refine ⟨.flushed hnot hfull.1 hf.onStream ?_, ht'.flush⟩
      change (Packing.flush outside _).packed ++ [m] = [m]
      rw [hf.packed, List.nil_append]
    · exact ⟨.packed hnot rfl rfl rfl, ht⟩

theorem rest_onStream (ht : p.Timed outside) (rest : List Bytes) :
    ∃ more, ((rest.foldl (sender.pack z outside max) p).last outside).onStream = p.onStream ++ more ∧
      (KeepsOrder z sender outside max p rest →
        more.Sublist ((if outside.takes p.offered.length then [] else p.packed) ++ rest)) ∧
      (p.packed ≠ [] → outside.takes p.offered.length = false → p.packed.Sublist more) := by
  induction rest generalizing p with
  | nil =>
    rw [List.foldl_nil, Packing.last]
    by_cases hem : p.packed = []
    · exact ⟨[], by simp [hem], by simp, fun hne => absurd hem hne⟩
    · rw [if_neg (by simpa using hem), ht.flushed.onStream]
      refine ⟨if outside.takes p.offered.length then [] else p.packed, ?_, ?_, ?_⟩
      · cases outside.takes p.offered.length <;> simp
      · simp
      · rintro - hrefused
        simp [hrefused]
  | cons m rest ih =>
    obtain ⟨hpacks, ht'⟩ := packs ht z sender max m
    obtain ⟨more, hmore, hin, hout⟩ := ih ht'
    rw [List.foldl_cons]
    cases hpacks with
    | aside h ho hp hf =>
      rw [hp, hf] at hin hout
      rw [ho, List.append_assoc] at hmore
      refine ⟨m :: more, hmore, fun hk => ?_, fun hne hacc => (hout hne hacc).cons m⟩
      have hmore := hin hk.2
      by_cases hacc : outside.takes p.offered.length = true
      · rw [if_pos hacc] at hmore ⊢
        exact hmore.cons_cons m
      · have hnil : p.packed = [] := by
          by_contra hne
          exact hacc (hk.1 h hne)
        rw [if_neg hacc, hnil] at hmore ⊢
        exact hmore.cons_cons m
    | packed h ho hp hf =>
      rw [hp, hf] at hin hout
      rw [ho] at hmore
      refine ⟨more, hmore, fun hk => ?_, fun hne hacc => (List.sublist_append_left ..).trans (hout (by simp) hacc)⟩
      have hmore := hin hk.2
      by_cases hacc : outside.takes p.offered.length = true
      · rw [if_pos hacc] at hmore ⊢
        exact hmore.cons m
      · rw [if_neg hacc] at hmore ⊢
        simpa using hmore
    | flushed h hne ho hp =>
      rw [hp] at hin
      refine ⟨(if outside.takes p.offered.length then [] else p.packed) ++ more, ?_, fun hk => ?_, ?_⟩
      · rw [hmore, ho]
        cases outside.takes p.offered.length <;> simp
      · refine List.Sublist.append (.refl _) ((hin hk.2).trans ?_)
        split_ifs
        · exact List.sublist_cons_self m rest
        · exact .refl _
      · rintro - hrefused
        simp [hrefused]

theorem not_mem_of_pair {before a : List Bytes} {o : Bytes}
    (hnd : (before ++ m :: a).Nodup) (h : [m, o].Sublist (before ++ m :: a)) :
    o ∉ before := by
  intro hother
  obtain ⟨-, hafter, hdisjoint⟩ := List.nodup_append.mp hnd
  obtain ⟨first, second, heq, hfirst, hsecond⟩ := List.sublist_append_iff.mp h
  rcases first with _ | ⟨_, first⟩
  · obtain rfl : [m, o] = second := heq
    rcases List.cons_sublist_cons'.mp hsecond with hlater | ⟨-, hlater⟩
    · exact (List.nodup_cons.mp hafter).1 (hlater.subset List.mem_cons_self)
    · exact hdisjoint o hother o (List.mem_cons_of_mem m (hlater.subset List.mem_cons_self)) rfl
  · obtain ⟨rfl, -⟩ := List.cons.inj heq
    exact hdisjoint m (hfirst.subset List.mem_cons_self) m List.mem_cons_self rfl

theorem keepsOrder_of_sublist {before taken : List Bytes} (hinv : Inv z sender max before taken p)
    (ht : p.Timed outside) (rest : List Bytes) (hnd : (taken ++ rest).Nodup)
    (h : ((rest.foldl (sender.pack z outside max) p).last outside).onStream.Sublist (taken ++ rest)) :
    KeepsOrder z sender outside max p rest := by
  induction rest generalizing p taken with
  | nil => trivial
  | cons m rest ih =>
    obtain ⟨hpacks, ht'⟩ := packs ht z sender max m
    refine ⟨fun haside hne => ?_, ih (hinv.pack m) ht' (by simpa using hnd) (by simpa using h)⟩
    by_contra hacc
    -- The packed messages come before this one in the batch, and after it on the stream.
    obtain ⟨more, hmore, -, hout⟩ := rest_onStream ht' rest
    cases hpacks with
    | packed hfits | flushed hfits => simp [haside] at hfits
    | aside _ ho hp hf =>
      rw [hp, hf] at hout
      obtain ⟨o, packed, hpacked⟩ := List.exists_cons_of_ne_nil hne
      have hlater := hout hne (Bool.eq_false_iff.mpr hacc)
      rw [hpacked] at hlater
      have hpair : [m, o].Sublist (taken ++ m :: rest) := by
        rw [List.foldl_cons, hmore, ho, List.append_assoc] at h
        refine List.Sublist.trans ?_ ((List.sublist_append_right ..).trans h)
        exact ((List.singleton_sublist.mpr (hlater.subset List.mem_cons_self)).cons_cons m)
      refine not_mem_of_pair hnd hpair (hinv.order.subset ?_)
      simp [hpacked]

/-- In order if no message was set aside while a refused datagram was packed, and if they differ only then. -/
theorem onStream_in_order_iff (z : Libzstd Enc Dec) (sender : FlowSender) (link : Link) (outside : Surroundings)
    (batch : List Bytes) :
    let read := link.readMaxSize outside.now outside.transportMax
    let final := sender.sendBatch z link outside batch []
    let keepsOrder := KeepsOrder z sender outside read.1 { link := read.2, onStream := [] } batch
    (keepsOrder → final.onStream.Sublist batch) ∧ (batch.Nodup → (final.onStream.Sublist batch ↔ keepsOrder)) := by
  intro read final keepsOrder
  have ht : Packing.Timed outside { link := read.2, onStream := [] } := rfl
  have hsound (hk : keepsOrder) : final.onStream.Sublist batch := by
    obtain ⟨more, hmore, hin, -⟩ := @rest_onStream _ _ z sender _ read.1 _ ht batch
    have hfinal : final.onStream = more := hmore
    rw [hfinal]
    simpa using hin hk
  refine ⟨hsound, fun hnd => ⟨fun h => ?_, hsound⟩⟩
  exact keepsOrder_of_sublist (Inv.start z sender read.1 read.2 []) ht batch hnd h

theorem onStream_out_of_order :
    let sender : FlowSender := ⟨[], 1, [1], 16, .none, by decide, rfl⟩
    let outside : Surroundings := ⟨0, some 8, fun _ => false, fun _ => .now false⟩
    let batch : List Bytes := [[1, 2], [4, 5, 6, 7, 8, 9, 10]]
    (sender.sendBatch stored {} outside batch []).onStream = [[4, 5, 6, 7, 8, 9, 10], [1, 2]] ∧
      ¬ (sender.sendBatch stored {} outside batch []).onStream.Sublist batch := by
  decide

end TrevRpc.Rust.Datagram
