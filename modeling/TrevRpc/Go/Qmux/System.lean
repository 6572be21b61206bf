import TrevRpc.Go.Qmux.Handling
import TrevRpc.Lib.Run
import Mathlib.Data.List.Forall2

/-!
# A QMux client and a QMux server

A channel of records in each direction loses and reorders nothing. An action is one step that a side takes under its
lock.
-/

open TrevRpc.Varint TrevRpc.Pipe TrevRpc.Run

namespace TrevRpc.Go.Qmux

/-! ## The system -/

inductive Call
  | openStreamSync
  | acceptStream
  | read (id : StreamID) (size : Nat)
  | write (id : StreamID) (p : List UInt8) (grown : Nat)
  | close (id : StreamID)
  | cancelWrite (id : StreamID) (code : Nat)
  | cancelRead (id : StreamID) (code : Nat)
  | sendPing
  deriving DecidableEq

namespace Session

/-- A frame is encoded when it is queued, and `quicvarint.Append` panics if it cannot be. -/
def encoded (s : Session) : Option Session :=
  if s.control.all fun f => (f.encode s.version).isSome then some s else none

def call (s : Session) : Call → Option Session
  | .openStreamSync => some s.openStreamSync.1
  | .acceptStream => some s.acceptStream.1
  | .read id size => (s.get id).map fun st => (s.read id st size).1
  | .write id p grown => (s.get id).map fun st => (s.write id st p grown).1
  | .close id => (s.get id).map (s.close id)
  | .cancelWrite id code => (s.get id).map fun st => s.cancelWrite id st code
  | .cancelRead id code => (s.get id).map fun st => s.cancelRead id st code
  | .sendPing => some { s with sendPing := true }.wakeWriter

/-- What `readLoop` does with a record. -/
def receive (s : Session) (record : List UInt8) : Session :=
  match s.handleRecord record with
  | (s, none) => s
  | (s, some err) => s.fail err

end Session

/-- The sessions, and the records of each that the other has not received, oldest first. -/
structure System where
  session : Role → Session
  inFlight : Role → List (List UInt8)

inductive Action
  | call (r : Role) (c : Call)
  -- `r` builds a record and sends it.
  | build (r : Role)
  -- The oldest record that `r` sent arrives.
  | deliver (r : Role)
  deriving DecidableEq

namespace System

def start (version : Version) (params : Role → Parameters) (streamSendBuffer : Role → Nat) : Option System := do
  let client ← newSession .client version (params .client) (streamSendBuffer .client)
  let server ← newSession .server version (params .server) (streamSendBuffer .server)
  return { session := fun | .client => client | .server => server, inFlight := fun _ => [] }

def set (sys : System) (r : Role) (s : Session) : System :=
  { sys with session := Function.update sys.session r s }

/-- `none` is an action that is not possible, or that makes the side panic. -/
def step (sys : System) : Action → Option System
  | .call r c => do
    let s ← (sys.session r).call c
    return sys.set r (← s.encoded)
  | .build r =>
    let (s, frames, _) := (sys.session r).buildRecord
    if frames = [] then some (sys.set r s)
    else do
      let record ← encodeRecord s.version frames
      return { sys.set r s with inFlight := Function.update sys.inFlight r (sys.inFlight r ++ [record]) }
  | .deliver r =>
    match sys.inFlight r with
    | [] => none
    | record :: rest => do
      let s ← ((sys.session r.other).receive record).encoded
      return { sys.set r.other s with inFlight := Function.update sys.inFlight r rest }

def InRange (sys : System) : Prop := (sys.session .client).InRange ∧ (sys.session .server).InRange

instance : DecidablePred InRange := fun _ => inferInstanceAs (Decidable (_ ∧ _))

theorem InRange.session {sys : System} (h : sys.InRange) (r : Role) : (sys.session r).InRange := by
  cases r with
  | client => exact h.1
  | server => exact h.2

end System

/-! ## The start -/

variable {X X' Y : Session} {P Q : List Frame}

section Start

variable {r : Role} {v : Version} {p q : Parameters} {m n : Nat}

theorem newSession_eq_some (h : newSession r v p n = some X) :
    ∃ body, appendTransportParameters v p = some (.transportParameters body) ∧
      X = {
        role := r, version := v, localParams := p
        sendBuffer := if n = 0 then defaultStreamSendBuffer else n
        maxRemote := p.initialMaxStreamsBidi, connRecvMax := p.initialMaxData
        connRecvWindow := p.initialMaxData, control := [.transportParameters body], wake := true } := by
  unfold newSession at h
  obtain ⟨frame, hf, hX⟩ := Option.bind_eq_some_iff.mp h
  obtain ⟨body, -, rfl⟩ := Option.map_eq_some_iff.mp hf
  exact ⟨body, hf, (Option.some.inj hX).symm⟩

theorem Session.ok_start (h : newSession r v p n = some X) (hs : p.RecordSizeOk) : X.Ok := by
  obtain ⟨body, -, rfl⟩ := newSession_eq_some h
  refine ⟨⟨rfl, rfl⟩, ?_, le_rfl, le_rfl, fun _ => le_rfl, hs⟩
  intro id st hget
  cases hget

theorem Link.start (hX : newSession r v p m = some X) (hY : newSession r.other v q n = some Y) :
    Link X Y X.control := by
  obtain ⟨body, hb, rfl⟩ := newSession_eq_some hX
  obtain ⟨body', -, rfl⟩ := newSession_eq_some hY
  refine ⟨rfl, rfl, le_rfl, ?_, fun _ => rfl, rfl, ?_, ?_, ?_⟩
  · rintro f hf
    rw [List.mem_singleton.mp hf]
    exact hb
  · refine ⟨Nat.zero_le _, Nat.zero_le _, Nat.zero_le _, Nat.zero_le _, ?_⟩
    intro id st hget
    cases hget
  · refine ⟨List.Pairwise.nil, ?_, Nat.zero_le _⟩
    intro hr
    cases hr
  · refine ⟨?_, fun _ => ⟨rfl, rfl, rfl, body, [], rfl, fun f hf => absurd hf List.not_mem_nil⟩⟩
    intro hd
    cases hd

theorem Joined.start (hX : newSession r v p m = some X) (hY : newSession r.other v q n = some Y)
    (hp : p.RecordSizeOk) (hq : q.RecordSizeOk) : Joined X Y X.control Y.control := by
  have hX' : newSession r.other.other v p m = some X := by rw [Role.other_other, hX]
  exact ⟨.start hX hY, .start hY hX', Session.ok_start hX hp, Session.ok_start hY hq⟩

end Start

/-! ## Steps -/

theorem Session.control_openStreamSync (s : Session) : s.openStreamSync.1.control = s.control := by
  unfold openStreamSync
  split_ifs <;> rfl

theorem Joined.call {F : List Frame} {c : Call} (h : Joined X Y (F ++ X.control) Q) (hc : X.call c = some X') :
    Joined X' Y (F ++ X'.control) Q := by
  have hqu {fs : List Frame} (hq : X.Queues X' fs) : Joined X' Y (F ++ X'.control) Q := by
    rw [hq.control, ← List.append_assoc]
    exact h.queues hq
  cases c with
  | openStreamSync =>
    obtain rfl := Option.some.inj hc
    rw [Session.control_openStreamSync]
    exact h.openStreamSync
  | acceptStream =>
    obtain rfl := Option.some.inj hc
    exact hqu (Session.queues_acceptStream h.sender)
  | read id size =>
    obtain ⟨st, hget, rfl⟩ := Option.map_eq_some_iff.mp hc
    obtain ⟨fs, hq⟩ := Session.queues_read h.sender hget size
    exact hqu hq
  | write id p g =>
    obtain ⟨st, hget, rfl⟩ := Option.map_eq_some_iff.mp hc
    exact hqu (Session.queues_write h.sender hget p g)
  | close id =>
    obtain ⟨st, hget, rfl⟩ := Option.map_eq_some_iff.mp hc
    exact hqu (Session.queues_close h.sender hget)
  | cancelWrite id code =>
    obtain ⟨st, hget, rfl⟩ := Option.map_eq_some_iff.mp hc
    obtain ⟨fs, hcon, hj⟩ := h.cancelWrite hget code
    rw [hcon, ← List.append_assoc]
    exact hj
  | cancelRead id code =>
    obtain ⟨st, hget, rfl⟩ := Option.map_eq_some_iff.mp hc
    obtain ⟨fs, hq⟩ := Session.queues_cancelRead h.sender hget code
    exact hqu hq
  | sendPing =>
    obtain rfl := Option.some.inj hc
    exact hqu (Session.queues_of_streams h.sender rfl rfl le_rfl le_rfl rfl)

theorem Joined.peer_le (h : Joined X Y P Q) : X.peer.effectiveMaxRecordSize ≤ Y.localParams.effectiveMaxRecordSize := by
  cases hpar : X.paramsReceived with
  | true =>
    rw [(h.back.handshake.done hpar).1]
    exact Y.localParams.effectiveMaxRecordSize_advertised.le
  | false =>
    rw [(h.back.handshake.pending hpar).1]
    exact h.receiver.recordSize.default_le

theorem Joined.peer_mono {gone P' : List Frame} (h : Joined X Y P (gone ++ Q)) (h' : Joined X' Y P' Q) :
    X.peer.effectiveMaxRecordSize ≤ X'.peer.effectiveMaxRecordSize := by
  cases hp' : X'.paramsReceived with
  | true =>
    rw [(h'.back.handshake.done hp').1, Y.localParams.effectiveMaxRecordSize_advertised]
    exact h.peer_le
  | false =>
    obtain ⟨hpe', -, -, body, rest, rfl, -⟩ := h'.back.handshake.pending hp'
    -- The parameters are still on their way, so that they have not arrived before.
    cases hpar : X.paramsReceived with
    | true =>
      cases (h.back.handshake.done hpar).2 _ (List.mem_append_right _ List.mem_cons_self)
    | false => rw [(h.back.handshake.pending hpar).1, hpe']

/-! ## The invariant -/

namespace System

variable {sys sys' : System} {records records' : Role → List (List Frame)}

/-- The records in flight encode `records`, which with the control queues join the sessions. -/
structure Flows (sys : System) (records : Role → List (List Frame)) : Prop where
  wire : ∀ r, List.Forall₂ (fun record wire => encodeRecord (sys.session r).version record = some wire)
    (records r) (sys.inFlight r)
  joined : ∀ r, Joined (sys.session r) (sys.session r.other) ((records r).flatten ++ (sys.session r).control)
    ((records r.other).flatten ++ (sys.session r.other).control)
  fits : ∀ r, ∀ wire ∈ sys.inFlight r, wire.length ≤ (sys.session r).peer.effectiveMaxRecordSize

theorem Flows.step (r : Role) (gone : List (List Frame)) (h : sys.Flows records)
    (hsession : sys'.session r.other = sys.session r.other)
    (hg : records r.other = gone ++ records' r.other)
    (hj : Joined (sys'.session r) (sys.session r.other)
      ((records' r).flatten ++ (sys'.session r).control)
      ((records' r.other).flatten ++ (sys.session r.other).control))
    (hw : ∀ r', List.Forall₂ (fun re wire => encodeRecord (sys.session r').version re = some wire)
      (records' r') (sys'.inFlight r'))
    (hf : ∀ wire ∈ sys'.inFlight r, wire ∈ sys.inFlight r ∨
      wire.length ≤ (sys.session r).peer.effectiveMaxRecordSize)
    (hf' : ∀ wire ∈ sys'.inFlight r.other, wire ∈ sys.inFlight r.other) : sys'.Flows records' := by
  have hv : (sys'.session r).version = (sys.session r).version :=
    hj.forth.version.symm.trans (h.joined r).forth.version
  have hp : (sys.session r).peer.effectiveMaxRecordSize ≤ (sys'.session r).peer.effectiveMaxRecordSize := by
    have hb := h.joined r
    rw [hg, List.flatten_append, List.append_assoc] at hb
    exact hb.peer_mono hj
  refine ⟨?_, ?_, ?_⟩
  · intro r'
    rcases Role.eq_or_eq_other r r' with rfl | rfl
    · rw [hv]
      exact hw r'
    · rw [hsession]
      exact hw r.other
  · intro r'
    rcases Role.eq_or_eq_other r r' with rfl | rfl
    · rw [hsession]
      exact hj
    · rw [Role.other_other, hsession]
      exact hj.symm
  · intro r'
    rcases Role.eq_or_eq_other r r' with rfl | rfl
    · intro wire hmem
      rcases hf wire hmem with hold | hnew
      · exact (h.fits r' wire hold).trans hp
      · exact hnew.trans hp
    · intro wire hmem
      rw [hsession]
      exact h.fits r.other wire (hf' wire hmem)

theorem flows_start {v : Version} {params : Role → Parameters} {bs : Role → Nat}
    (h : start v params bs = some sys) (hsize : ∀ r, (params r).RecordSizeOk) :
    sys.Flows fun _ => [] := by
  unfold start at h
  obtain ⟨c, hc, h⟩ := Option.bind_eq_some_iff.mp h
  obtain ⟨se, hs, h⟩ := Option.bind_eq_some_iff.mp h
  cases h
  have hj : Joined c se c.control se.control :=
    .start hc hs (hsize .client) (hsize .server)
  refine ⟨fun _ => .nil, ?_, fun _ _ hmem => absurd hmem List.not_mem_nil⟩
  rintro (_ | _)
  · exact hj
  · exact hj.symm

theorem encoded_eq_some {s s' : Session} (h : s.encoded = some s') : s' = s := by
  unfold Session.encoded at h
  split_ifs at h
  exact (Option.some.inj h).symm

variable (h : sys.Flows records)
include h

theorem Flows.call {r : Role} {c : Call} (hs : sys.step (.call r c) = some sys') : sys'.Flows records := by
  obtain ⟨s, hc, hs⟩ := Option.bind_eq_some_iff.mp hs
  obtain ⟨s', hen, hs⟩ := Option.bind_eq_some_iff.mp hs
  cases hs
  obtain rfl := encoded_eq_some hen
  have hr : (sys.set r s').session r = s' := Function.update_self ..
  refine h.step r [] (Function.update_of_ne r.other_ne ..) rfl ?_ h.wire (fun _ => .inl) fun _ => id
  rw [hr]
  exact (h.joined r).call hc

theorem Flows.build {r : Role} (hs : sys.step (.build r) = some sys') : ∃ records', sys'.Flows records' := by
  obtain ⟨hj, hl⟩ := (h.joined r).buildRecord
  simp only [System.step] at hs
  generalize (sys.session r).buildRecord = built at *
  obtain ⟨s, fs, more, mode⟩ := built
  simp only at hs hj hl
  have hr : (sys.set r s).session r = s := Function.update_self ..
  by_cases hem : fs = []
  · rw [if_pos hem] at hs
    cases hs
    refine ⟨records, h.step r [] (Function.update_of_ne r.other_ne ..) rfl ?_ h.wire (fun _ => .inl)
      fun _ => id⟩
    rw [hem, List.append_nil] at hj
    rw [hr]
    exact hj
  · rw [if_neg hem] at hs
    obtain ⟨record, hre, hs⟩ := Option.bind_eq_some_iff.mp hs
    cases hs
    have hv : s.version = (sys.session r).version :=
      hj.forth.version.symm.trans (h.joined r).forth.version
    rw [hv] at hre
    have ho : Function.update records r (records r ++ [fs]) r.other = records r.other :=
      Function.update_of_ne r.other_ne ..
    refine ⟨Function.update records r (records r ++ [fs]),
      h.step r [] (Function.update_of_ne r.other_ne ..) ho.symm ?_ ?_ ?_ ?_⟩
    · rw [hr, ho, Function.update_self, List.flatten_append, List.flatten_singleton]
      exact hj
    · intro r'
      by_cases hr' : r' = r
      · subst hr'
        simp only [Function.update_self]
        exact List.rel_append (h.wire r') (.cons hre .nil)
      · simp only [Function.update_of_ne hr']
        exact h.wire r'
    · intro wire hmem
      simp only [Function.update_self, List.mem_append, List.mem_singleton] at hmem
      refine hmem.imp_right ?_
      rintro rfl
      rw [length_of_encodeRecord hre]
      exact hl.trans (Nat.min_le_left _ _)
    · intro wire hmem
      simp only [Function.update_of_ne r.other_ne] at hmem
      exact hmem

theorem Flows.handles {r : Role} {record : List UInt8} {rest : List (List UInt8)}
    (hrange : sys.InRange) (hf : sys.inFlight r = record :: rest) :
    ∃ f left s fs, records r = f :: left ∧
      (sys.session r.other).handleRecord record = (s, none) ∧
      s.control = (sys.session r.other).control ++ fs ∧
      List.Forall₂ (fun record wire => encodeRecord (sys.session r).version record = some wire) left rest ∧
      Joined (sys.session r) s (left.flatten ++ (sys.session r).control)
        ((records r.other).flatten ++ (sys.session r.other).control ++ fs) := by
  have hw := h.wire r
  rw [hf] at hw
  obtain ⟨f, left, hr, hl, hrec⟩ := List.forall₂_cons_right_iff.mp hw
  have hj := h.joined r
  rw [hrec, List.flatten_cons, List.append_assoc] at hj
  obtain ⟨s, fs, hh, hcon, ha⟩ := hj.handleRecord (hrange.session r) hr
  exact ⟨f, left, s, fs, hrec, hh, hcon, hl, ha⟩

theorem Flows.deliver {r : Role} (hrange : sys.InRange)
    (hst : sys.step (.deliver r) = some sys') : ∃ records', sys'.Flows records' := by
  simp only [System.step] at hst
  cases hf : sys.inFlight r with
  | nil =>
    rw [hf] at hst
    cases hst
  | cons record rest =>
    rw [hf] at hst
    obtain ⟨s', hen, hst⟩ := Option.bind_eq_some_iff.mp hst
    cases hst
    obtain ⟨f, left, s, fs, hrec, hh, hcon, hl, hj⟩ := h.handles hrange hf
    have hs : s' = s := by
      rw [encoded_eq_some hen, Session.receive, hh]
    subst hs
    have hr : (sys.set r.other s').session r.other = s' := Function.update_self ..
    have hr' : (sys.set r.other s').session r = sys.session r := Function.update_of_ne r.other_ne.symm ..
    refine ⟨Function.update records r left, h.step r.other [f] ?_ ?_ ?_ ?_ ?_ ?_⟩
    · rw [Role.other_other]
      exact hr'
    · rw [Role.other_other, Function.update_self]
      exact hrec
    · rw [Role.other_other, Function.update_self, Function.update_of_ne r.other_ne, hr, hcon,
        ← List.append_assoc]
      exact hj.symm
    · intro r₁
      by_cases hr₁ : r₁ = r
      · subst hr₁
        simp only [Function.update_self]
        exact hl
      · simp only [Function.update_of_ne hr₁]
        exact h.wire r₁
    · intro wire hmem
      simp only [Function.update_of_ne r.other_ne] at hmem
      exact .inl hmem
    · intro wire hmem
      simp only [Role.other_other, Function.update_self] at hmem ⊢
      rw [hf]
      exact List.mem_cons_of_mem _ hmem

theorem Flows.action {a : Action} (hr : sys.InRange)
    (hs : sys.step a = some sys') : ∃ records', sys'.Flows records' := by
  cases a with
  | call r c => exact ⟨records, h.call hs⟩
  | build r => exact h.build hs
  | deliver r => exact h.deliver hr hs

omit h

theorem always_flows {v : Version} {params : Role → Parameters} {bs : Role → Nat} {actions : List Action}
    (hs : start v params bs = some sys) (hsize : ∀ r, (params r).RecordSizeOk)
    (hr : Always (fun _ => InRange) step sys actions) :
    Always (fun _ sys => (∃ records, sys.Flows records) ∧ sys.InRange) step sys actions := by
  refine always_of_always (I := fun _ sys => ∃ records, sys.Flows records) ⟨_, flows_start hs hsize⟩
    (fun _ _ h hQ => ⟨h, hQ⟩) ?_ hr
  rintro done t a t' ⟨records, h⟩ hQ hst
  exact h.action hQ hst

/-- No side refuses a record of the other, and none is longer than its receiver takes. -/
theorem handleRecord_never_fails {v : Version} {params : Role → Parameters} {buffers : Role → Nat}
    {actions : List Action} (hstart : start v params buffers = some sys)
    (hsize : ∀ r, (params r).RecordSizeOk) (hrange : Always (fun _ => InRange) step sys actions) :
    Always (fun _ sys => ∀ r,
      (∀ record ∈ (sys.inFlight r).head?, ((sys.session r.other).handleRecord record).2 = none) ∧
        ∀ record ∈ sys.inFlight r,
          record.length ≤ (sys.session r.other).localParams.effectiveMaxRecordSize) step sys actions := by
  intro done t hdone ht r
  obtain ⟨⟨records, h⟩, hQ⟩ := always_flows hstart hsize hrange done t hdone ht
  constructor
  · intro record hhead
    obtain ⟨rest, hflight⟩ := List.head?_eq_some_iff.mp hhead
    obtain ⟨frames, left, s, fs, -, hhandle, -⟩ := h.handles hQ hflight
    rw [hhandle]
  · intro record hmem
    exact (h.fits r record hmem).trans (h.joined r).peer_le

/-- Two sides with small windows. -/
def smallStart : Option System := start draft02 (fun _ => ⟨0, 9, 9, 9, 1, 0⟩) fun _ => 0

def small : System := smallStart.get (by decide +kernel)

theorem smallStart_eq : smallStart = some small := (Option.some_get _).symm

def hello : List Action :=
  [.build .client, .deliver .client, .build .server, .deliver .server, .call .client .openStreamSync,
    .call .client (.write ⟨.client, 0⟩ [104, 105] 0), .call .client (.close ⟨.client, 0⟩), .build .client,
    .deliver .client, .call .server (.read ⟨.client, 0⟩ 16)]

theorem handleRecord_never_fails_hello :
    (run step small hello).isSome = true ∧ Always (fun _ sys => ∀ r,
      (∀ record ∈ (sys.inFlight r).head?, ((sys.session r.other).handleRecord record).2 = none) ∧
        ∀ record ∈ sys.inFlight r,
          record.length ≤ (sys.session r.other).localParams.effectiveMaxRecordSize) step small hello :=
  ⟨by decide +kernel,
    handleRecord_never_fails smallStart_eq (fun _ => .inl rfl) (by decide +kernel)⟩

end System

end TrevRpc.Go.Qmux
