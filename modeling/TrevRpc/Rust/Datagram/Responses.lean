import TrevRpc.Lib.Effect
import TrevRpc.Rust.ResponseState

/-!
# Merged responses (`MergedResponses` of `datagram.rs`)

Datagram messages come after HEADERS and ahead of STATUS. What the two sources have ready at a poll is the choice of the
run.
-/

open TrevRpc.Run

namespace TrevRpc.Rust.Responses

inductive Source
  | stream
  | datagram
  deriving DecidableEq

inductive Item
  | frame (frame : ResponseFrame)
  | error (error : Error)
  deriving DecidableEq

inductive ResponsePhase
  | opened
  | draining (terminal : Option ResponseFrame)
  | ended
  deriving DecidableEq

structure Merged where
  items : List Item
  queue : List Bytes := []
  sending : Bool := true
  datagrams : Bool
  headersRead : Bool := false
  phase : ResponsePhase := .opened
  datagramsFirst : Bool := false
  output : List (Source × Item) := []
  ended : Bool := false
  arrived : List Bytes := []
  deriving DecidableEq

namespace Merged

/-- Datagram messages are queued. A queue that is dropped or has no sender takes none. -/
def arrive (messages : List Bytes) (s : Merged) : Merged :=
  if s.datagrams && s.sending then { s with queue := s.queue ++ messages, arrived := s.arrived ++ messages } else s

@[simp] theorem arrive_items (ms : List Bytes) (s : Merged) : (s.arrive ms).items = s.items := by
  unfold arrive
  split_ifs <;> rfl

@[simp] theorem arrive_phase (ms : List Bytes) (s : Merged) : (s.arrive ms).phase = s.phase := by
  unfold arrive
  split_ifs <;> rfl

def pollDatagrams (s : Merged) : Poll (Option (Source × Item)) × Merged :=
  if !s.headersRead || !s.datagrams then (.pending, s)
  else
    match s.queue with
    | message :: rest => (.ready (some (.datagram, .frame (.message message))), { s with queue := rest })
    | [] => (.pending, if s.sending then s else { s with datagrams := false })

/-- The next frame, if ready. At the end, `guard.drain` dispatches what has arrived. -/
def pollFrames (ready : Bool) (drained : List Bytes) (s : Merged) : Poll (Option (Source × Item)) × Merged :=
  if !ready then (.pending, s)
  else
    match s.items with
    | .frame (.status status) :: rest =>
      (.pending, { s.arrive drained with items := rest, phase := .draining (some (.status status)) })
    | .frame (.headers metadata) :: rest =>
      (.ready (some (.stream, .frame (.headers metadata))), { s with items := rest, headersRead := true })
    | .frame (.message body) :: rest => (.ready (some (.stream, .frame (.message body))), { s with items := rest })
    | .error error :: rest => (.ready (some (.stream, .error error)), { s with items := rest })
    | [] => (.pending, { s.arrive drained with phase := .draining none })

def drain (terminal : Option ResponseFrame) (s : Merged) : Poll (Option (Source × Item)) × Merged :=
  if s.headersRead && s.datagrams && !s.queue.isEmpty then
    (.ready (s.queue.head?.map fun message => (.datagram, .frame (.message message))), { s with queue := s.queue.tail })
  else
    (.ready (terminal.map fun frame => (.stream, .frame frame)), { s with datagrams := false, phase := .ended })

def pollBoth (ready : Bool) (drained : List Bytes) (s : Merged) : Poll (Option (Source × Item)) × Merged :=
  if s.datagramsFirst then
    match s.pollDatagrams with
    | (.pending, s) => s.pollFrames ready drained
    | result => result
  else
    match s.pollFrames ready drained with
    | (.pending, s) => s.pollDatagrams
    | result => result

def pollNext (ready : Bool) (drained : List Bytes) (s : Merged) : Poll (Option (Source × Item)) × Merged :=
  let s := { s with datagramsFirst := !s.datagramsFirst }
  match s.phase with
  | .ended =>
    if !ready then (.pending, s)
    else (.ready (s.items.head?.map fun item => (.stream, item)), { s with items := s.items.tail })
  | .draining terminal => s.drain terminal
  | .opened =>
    match s.pollBoth ready drained with
    | (.pending, s) =>
      match s.phase with
      | .draining terminal => s.drain terminal
      | _ => (.pending, s)
    | result => result

theorem pollDatagrams_output (s : Merged) : s.pollDatagrams.2.output = s.output := by
  unfold pollDatagrams
  split
  · rfl
  · split
    · rfl
    · split_ifs <;> rfl

theorem arrive_output (ms : List Bytes) (s : Merged) : (s.arrive ms).output = s.output := by
  unfold arrive
  split_ifs <;> rfl

theorem pollFrames_output (r : Bool) (d : List Bytes) (s : Merged) : (s.pollFrames r d).2.output = s.output := by
  unfold pollFrames
  split
  · rfl
  · split <;> simp [arrive_output]

theorem drain_output (t : Option ResponseFrame) (s : Merged) : (s.drain t).2.output = s.output := by
  unfold drain
  split_ifs <;> rfl

theorem pollBoth_output (r : Bool) (d : List Bytes) (s : Merged) : (s.pollBoth r d).2.output = s.output := by
  unfold pollBoth
  split
  · have hf := s.pollDatagrams_output
    generalize s.pollDatagrams = first at hf
    rcases first with ⟨_ | _, t⟩
    · exact hf
    · exact (t.pollFrames_output r d).trans hf
  · have hf := s.pollFrames_output r d
    generalize s.pollFrames r d = first at hf
    rcases first with ⟨_ | _, t⟩
    · exact hf
    · exact t.pollDatagrams_output.trans hf

theorem pollNext_output (r : Bool) (d : List Bytes) (s : Merged) : (s.pollNext r d).2.output = s.output := by
  unfold pollNext
  simp only
  split
  · split_ifs <;> rfl
  · exact drain_output ..
  · have hb := pollBoth_output r d { s with datagramsFirst := !s.datagramsFirst }
    generalize pollBoth r d { s with datagramsFirst := !s.datagramsFirst } = both at hb
    rcases both with ⟨_ | _, t⟩
    · exact hb
    · simp only
      split
      · exact (drain_output ..).trans hb
      · exact hb

/-- What a poll gives is handed out. -/
def hand (result : Poll (Option (Source × Item))) (s : Merged) : Merged :=
  match result with
  | .pending => s
  | .ready none => { s with ended := true }
  | .ready (some out) => { s with output := s.output ++ [out] }

end Merged

inductive Action
  | arrive (message : Bytes)
  | dropSenders
  | poll (ready : Bool) (drained : List Bytes)
  deriving DecidableEq

/-- A stream is not polled after its end. -/
def step (s : Merged) : Action → Option Merged
  | .arrive message => some (s.arrive [message])
  | .dropSenders => some { s with sending := false }
  | .poll ready drained =>
    if s.ended then none
    else
      let (result, s) := s.pollNext ready drained
      some (s.hand result)

def start (items : List Item) (datagrams : Bool) : Merged := { items, datagrams }

/-! ## What is merged -/

namespace Item

def frame? : Item → Option ResponseFrame
  | .frame f => some f
  | .error _ => none

def isStatus : Item → Bool
  | .frame f => f.isStatus
  | .error _ => false

def isError : Item → Bool
  | .frame _ => false
  | .error _ => true

def message? : Item → Option Bytes
  | .frame (.message body) => some body
  | _ => none

end Item

def frames (items : List Item) : List ResponseFrame := items.filterMap Item.frame?

/-- A stream whose frames obey the response grammar. A STATUS or an error is its last item. -/
structure Obeys (items : List Item) : Prop where
  accepted : (({} : ResponseState).acceptAll (frames items)).isSome
  last : ∀ item ∈ items.dropLast, item.isStatus = false ∧ item.isError = false

theorem Obeys.eq_nil {b rest : List Item} {item : Item} (h : Obeys (b ++ item :: rest))
    (hs : item.isStatus = true) : rest = [] := by
  by_contra hne
  have hmem : item ∈ (b ++ item :: rest).dropLast := by
    rw [List.dropLast_append_of_ne_nil (List.cons_ne_nil item rest), List.dropLast_cons_of_ne_nil hne]
    exact List.mem_append_right _ List.mem_cons_self
  simp [(h.last item hmem).1] at hs

def ofStream (output : List (Source × Item)) : List Item := (output.filter (·.1 = .stream)).map (·.2)

def ofDatagrams (output : List (Source × Item)) : List Bytes :=
  (output.filter (·.1 = .datagram)).filterMap (·.2.message?)

@[simp] theorem ofStream_snoc_stream (o : List (Source × Item)) (item : Item) :
    ofStream (o ++ [(.stream, item)]) = ofStream o ++ [item] := by
  simp [ofStream]

@[simp] theorem ofStream_snoc_datagram (output : List (Source × Item)) (item : Item) :
    ofStream (output ++ [(.datagram, item)]) = ofStream output := by
  simp [ofStream]

@[simp] theorem ofDatagrams_snoc_stream (output : List (Source × Item)) (item : Item) :
    ofDatagrams (output ++ [(.stream, item)]) = ofDatagrams output := by
  simp [ofDatagrams]

@[simp] theorem ofDatagrams_snoc_datagram (o : List (Source × Item)) (m : Bytes) :
    ofDatagrams (o ++ [(.datagram, .frame (.message m))]) = ofDatagrams o ++ [m] := by
  simp [ofDatagrams, Item.message?]

/-- No STATUS comes before `out`, and HEADERS do if it is a datagram message. -/
structure Allowed (before : List (Source × Item)) (out : Source × Item) : Prop where
  noStatus : ∀ other ∈ before, other.2.isStatus = false
  headers : out.1 = .datagram → ∃ metadata, (.stream, .frame (.headers metadata)) ∈ before

def WellPlaced (output : List (Source × Item)) : Prop :=
  ∀ before out rest, output = before ++ out :: rest → Allowed before out

variable {o : List (Source × Item)}

theorem WellPlaced.snoc {out : Source × Item} (h : WellPlaced o) (hout : Allowed o out) : WellPlaced (o ++ [out]) := by
  intro b ot rest heq
  rcases List.eq_nil_or_concat' rest with rfl | ⟨rest, last, rfl⟩
  · obtain ⟨rfl, hl⟩ := List.append_inj' heq rfl
    obtain rfl := List.singleton_inj.mp hl
    exact hout
  · have hi : o ++ [out] = (b ++ ot :: rest) ++ [last] := by simpa using heq
    obtain ⟨rfl, -⟩ := List.append_inj' hi rfl
    exact h b ot rest rfl

def Merged.held (s : Merged) : List Item :=
  match s.phase with
  | .draining (some frame) => [.frame frame]
  | _ => []

structure Inv (items : List Item) (s : Merged) : Prop where
  stream : ofStream s.output ++ s.held ++ s.items = items
  queued : s.datagrams = true → s.arrived = ofDatagrams s.output ++ s.queue
  delivered : ofDatagrams s.output <+: s.arrived
  headers : s.headersRead = true → ∃ metadata, (.stream, .frame (.headers metadata)) ∈ s.output
  placed : WellPlaced s.output
  noStatus : s.phase ≠ .ended → ∀ out ∈ s.output, out.2.isStatus = false
  accepted : (({} : ResponseState).acceptAll (frames (s.output.map (·.2) ++ s.held ++ s.items))).isSome
  drained : s.phase ≠ .opened → s.items = []
  ended : s.ended = true → s.phase = .ended

namespace Inv

variable {items : List Item} {s s' : Merged}

theorem start (ho : Obeys items) (ds : Bool) : Inv items (start items ds) where
  stream := rfl
  queued _ := rfl
  delivered := List.prefix_rfl
  headers := nofun
  placed := by
    intro before out rest heq
    simp [Responses.start] at heq
  noStatus _ := by simp [Responses.start]
  accepted := ho.accepted
  drained hp := absurd rfl hp
  ended := nofun

theorem arrive (h : Inv items s) (ms : List Bytes) : Inv items (s.arrive ms) := by
  unfold Merged.arrive
  split_ifs with hq
  · simp only [Bool.and_eq_true] at hq
    refine { h with queued := fun _ => ?_, delivered := h.delivered.trans (List.prefix_append ..) }
    rw [← List.append_assoc, ← h.queued hq.1]
  · exact h

attribute [local simp] Merged.hand Merged.held

theorem held_eq_nil (hp : s.phase = .opened) : s.held = [] := by
  simp [hp]

theorem handStream (h : Inv items s) (hp : s.phase = .opened) {item : Item} {rest : List Item}
    (hi : s.items = item :: rest) (hst : item.isStatus = false) {headersRead : Bool}
    (hheaders : headersRead = true → s.headersRead = true ∨ ∃ m, item = .frame (.headers m)) :
    Inv items { s with items := rest, headersRead, output := s.output ++ [(.stream, item)] } := by
  have hh := held_eq_nil hp
  have hs := h.stream
  have hac := h.accepted
  have ho := h.noStatus (by simp [hp])
  rw [hh, hi] at hs hac
  refine ⟨?_, ?_, ?_, ?_, h.placed.snoc ⟨ho, nofun⟩, ?_, ?_, ?_, h.ended⟩
  · change ofStream (s.output ++ [(.stream, item)]) ++ s.held ++ rest = items
    rw [ofStream_snoc_stream, hh, ← hs]
    simp
  · simpa using h.queued
  · simpa using h.delivered
  · intro hr
    rcases hheaders hr with hr | ⟨m, rfl⟩
    · obtain ⟨m, hmem⟩ := h.headers hr
      exact ⟨m, List.mem_append_left _ hmem⟩
    · exact ⟨m, List.mem_append_right _ List.mem_cons_self⟩
  · intro _ out hout
    rcases List.mem_append.mp hout with hold | hnew
    · exact ho out hold
    · rw [List.mem_singleton.mp hnew]
      exact hst
  · change (({} : ResponseState).acceptAll
      (frames ((s.output ++ [(Source.stream, item)]).map (·.2) ++ s.held ++ rest))).isSome
    rw [hh]
    simpa using hac
  · intro hne
    exact absurd hp hne

theorem handDatagram (h : Inv items s) (hp : s.phase ≠ .ended) (hh : s.headersRead = true)
    (hd : s.datagrams = true) {m : Bytes} {rest : List Bytes} (hq : s.queue = m :: rest) :
    Inv items { s with queue := rest, output := s.output ++ [(.datagram, .frame (.message m))] } := by
  have ho := h.noStatus hp
  have ha := h.queued hd
  obtain ⟨me, hmem⟩ := h.headers hh
  rw [hq] at ha
  refine ⟨?_, ?_, ?_, ?_, h.placed.snoc ⟨ho, fun _ => ⟨me, hmem⟩⟩, ?_, ?_, h.drained, h.ended⟩
  · change ofStream (s.output ++ [(.datagram, .frame (.message m))]) ++ s.held ++ s.items = items
    rw [ofStream_snoc_datagram]
    exact h.stream
  · simp [ha]
  · simp [ha]
  · exact fun _ => ⟨me, List.mem_append_left _ hmem⟩
  · intro _ out hout
    rcases List.mem_append.mp hout with hold | hnew
    · exact ho out hold
    · rw [List.mem_singleton.mp hnew]
      rfl
  · have hac := h.accepted
    change (({} : ResponseState).acceptAll
      (frames ((s.output ++ [(Source.datagram, Item.frame (.message m))]).map (·.2) ++ s.held ++ s.items))).isSome
    simp only [frames, List.filterMap_append, List.map_append, List.append_assoc] at hac ⊢
    refine ResponseState.acceptAll_insert m ?_ ?_ hac
    · refine List.ne_nil_of_mem (a := .headers me) ?_
      exact List.mem_filterMap.mpr ⟨_, List.mem_map.mpr ⟨_, hmem, rfl⟩, rfl⟩
    · intro frame hf
      obtain ⟨item, hi, hs⟩ := List.mem_filterMap.mp hf
      obtain ⟨out, hout, rfl⟩ := List.mem_map.mp hi
      have hst := ho out hout
      cases hout2 : out.2 with
      | frame f =>
        rw [hout2] at hst hs
        obtain rfl := Option.some.inj hs
        exact hst
      | error error =>
        rw [hout2] at hs
        cases hs

variable {r : Poll (Option (Source × Item))}

theorem pollDatagrams (h : Inv items s) (hp : s.phase ≠ .ended)
    (hpoll : s.pollDatagrams = (r, s')) : Inv items (s'.hand r) ∧ s'.phase = s.phase := by
  revert hpoll
  unfold Merged.pollDatagrams
  split
  · rintro ⟨⟩
    exact ⟨h, rfl⟩
  · rename_i hw
    simp only [Bool.or_eq_true, Bool.not_eq_true', not_or, Bool.not_eq_false] at hw
    split
    · rename_i message rest hq
      rintro ⟨⟩
      exact ⟨h.handDatagram hp hw.1 hw.2 hq, rfl⟩
    · rintro ⟨⟩
      split_ifs
      · exact ⟨h, rfl⟩
      · exact ⟨{ h with queued := nofun }, rfl⟩

variable {t : Option ResponseFrame}

theorem held_draining (hp : s.phase = .draining t) : s.held = t.toList.map .frame := by
  cases t <;> simp [hp]

theorem startDraining (h : Inv items s) (hp : s.phase = .opened) {terminal : Option ResponseFrame}
    (hi : s.items = terminal.toList.map .frame) :
    Inv items { s with items := [], phase := .draining terminal } := by
  have hh : Merged.held { s with items := [], phase := .draining terminal } = terminal.toList.map .frame :=
    held_draining rfl
  have hs := h.stream
  have hac := h.accepted
  rw [held_eq_nil hp, hi, List.append_nil] at hs hac
  refine { h with
    stream := ?_
    noStatus := fun _ => h.noStatus (by simp [hp])
    accepted := ?_
    drained := fun _ => rfl
    ended := fun hen => ?_ }
  · rw [hh, List.append_nil]
    exact hs
  · rw [hh, List.append_nil]
    exact hac
  · simp [h.ended hen] at hp

variable {d : List Bytes}

theorem pollFrames (ho : Obeys items) (h : Inv items s) (hp : s.phase = .opened) {ready : Bool}
    (hpoll : s.pollFrames ready d = (r, s')) : Inv items (s'.hand r) ∧ s'.phase ≠ .ended := by
  revert hpoll
  unfold Merged.pollFrames
  split
  · rintro ⟨⟩
    exact ⟨h, by simp [hp]⟩
  · split
    · rename_i status rest hi
      rintro ⟨⟩
      have hs := h.stream
      rw [held_eq_nil hp, hi, List.append_nil] at hs
      rw [← hs] at ho
      obtain rfl := ho.eq_nil rfl
      refine ⟨(h.arrive d).startDraining (by simp [hp]) ?_, nofun⟩
      simp [hi]
    · rename_i metadata rest hi
      rintro ⟨⟩
      exact ⟨h.handStream hp hi rfl fun _ => .inr ⟨metadata, rfl⟩, by simp [hp]⟩
    · rename_i body rest hi
      rintro ⟨⟩
      exact ⟨h.handStream hp hi rfl .inl, by simp [hp]⟩
    · rename_i error rest hi
      rintro ⟨⟩
      exact ⟨h.handStream hp hi rfl .inl, by simp [hp]⟩
    · rename_i hi
      rintro ⟨⟩
      have hd : Inv items { s.arrive d with items := [], phase := .draining none } :=
        (h.arrive d).startDraining (by simp [hp]) (by simp [hi])
      rw [← hi, ← s.arrive_items d] at hd
      exact ⟨hd, nofun⟩

theorem finish (h : Inv items s) (hp : s.phase = .draining t) :
    Inv items (Merged.hand (.ready (t.map fun f => (.stream, .frame f)))
      { s with datagrams := false, phase := .ended }) := by
  have hi := h.drained (by simp [hp])
  have ho := h.noStatus (by simp [hp])
  have hs := h.stream
  have hac := h.accepted
  rw [held_draining hp, hi, List.append_nil] at hs hac
  cases t with
  | none =>
    refine { h with
      stream := ?_
      queued := nofun
      noStatus := ?_
      accepted := ?_
      drained := fun _ => hi
      ended := fun _ => rfl }
    · simpa [hi] using hs
    · intro hne
      exact absurd rfl hne
    · simpa [hi] using hac
  | some f =>
    refine ⟨?_, nofun, ?_, ?_, h.placed.snoc ⟨ho, nofun⟩, ?_, ?_, fun _ => hi, fun _ => rfl⟩
    · simpa [hi] using hs
    · simpa using h.delivered
    · intro hr
      obtain ⟨m, hmem⟩ := h.headers hr
      exact ⟨m, List.mem_append_left _ hmem⟩
    · intro hne
      exact absurd rfl hne
    · simpa [hi] using hac

theorem drain (h : Inv items s) (hp : s.phase = .draining t) (hpoll : s.drain t = (r, s')) : Inv items (s'.hand r) := by
  revert hpoll
  unfold Merged.drain
  split
  · rename_i hq
    simp only [Bool.and_eq_true, Bool.not_eq_true', List.isEmpty_eq_false_iff] at hq
    obtain ⟨message, rest, hc⟩ := List.exists_cons_of_ne_nil hq.2
    rintro ⟨⟩
    simpa [hc] using h.handDatagram (by simp [hp]) hq.1.1 hq.1.2 hc
  · rintro ⟨⟩
    exact h.finish hp

variable (ho : Obeys items)
include ho

theorem pollBoth (h : Inv items s) (hp : s.phase = .opened) {ready : Bool}
    (hpoll : s.pollBoth ready d = (r, s')) : Inv items (s'.hand r) := by
  revert hpoll
  unfold Merged.pollBoth
  split
  · rcases hf : s.pollDatagrams with ⟨first, t⟩
    obtain ⟨hf, hp'⟩ := h.pollDatagrams (by simp [hp]) hf
    cases first with
    | pending => exact fun hpoll => (hf.pollFrames ho (hp'.trans hp) hpoll).1
    | ready v =>
      rintro ⟨⟩
      exact hf
  · rcases hf : s.pollFrames ready d with ⟨first, t⟩
    obtain ⟨hf, hp'⟩ := h.pollFrames ho hp hf
    cases first with
    | pending => exact fun hpoll => (hf.pollDatagrams hp' hpoll).1
    | ready v =>
      rintro ⟨⟩
      exact hf

theorem pollNext (h : Inv items s) {ready : Bool} (hpoll : s.pollNext ready d = (r, s')) : Inv items (s'.hand r) := by
  have ht : Inv items { s with datagramsFirst := !s.datagramsFirst } := { h with }
  revert hpoll
  unfold Merged.pollNext
  generalize { s with datagramsFirst := !s.datagramsFirst } = s at ht
  simp only
  split
  · rename_i hp
    have hi := ht.drained (by simp [hp])
    split
    · rintro ⟨⟩
      exact ht
    · rintro ⟨⟩
      have hend : Inv items { s with ended := true } := { ht with ended := fun _ => hp }
      simpa [hi] using hend
  · rename_i terminal hp
    exact fun hpoll => ht.drain hp hpoll
  · rename_i hp
    rcases hb : s.pollBoth ready d with ⟨both, t⟩
    have hb := ht.pollBoth ho hp hb
    cases both with
    | pending =>
      simp only
      split
      · rename_i terminal hd
        exact fun hpoll => hb.drain hd hpoll
      · rintro ⟨⟩
        exact hb
    | ready value =>
      rintro ⟨⟩
      exact hb

theorem step (h : Inv items s) {a : Action} (hs : Responses.step s a = some s') : Inv items s' := by
  cases a with
  | arrive m =>
    cases hs
    exact h.arrive [m]
  | dropSenders =>
    cases hs
    exact { h with }
  | poll ready drained =>
    obtain ⟨-, rfl⟩ := of_guard_not hs
    exact h.pollNext ho rfl

theorem of_run {ds : Bool} {a : List Action}
    (hrun : run Responses.step (Responses.start items ds) a = some s) : Inv items s :=
  run_induction (P := fun _ => Inv items) (Inv.start ho ds) (fun _ _ _ _ h hs => h.step ho hs) hrun

end Inv

/-! ## The merged response -/

/-- The merged stream is not polled again after an error. -/
def StopsAtError (s : Merged) : Action → Prop
  | .poll .. => ∀ out ∈ s.output, out.2.isError = false
  | _ => True

instance (s : Merged) : (a : Action) → Decidable (StopsAtError s a)
  | .arrive _ => isTrue trivial
  | .dropSenders => isTrue trivial
  | .poll .. => inferInstanceAs (Decidable (∀ out ∈ s.output, out.2.isError = false))

/-- Nothing follows an error. -/
def ErrorLast (output : List (Source × Item)) : Prop :=
  ∀ before out rest, output = before ++ out :: rest → out.2.isError = true → rest = []

theorem errorLast_snoc (h : ∀ out ∈ o, out.2.isError = false) (out : Source × Item) : ErrorLast (o ++ [out]) := by
  intro b ot rest heq her
  rcases List.eq_nil_or_concat' rest with rfl | ⟨rest, last, rfl⟩
  · rfl
  · have hi : o ++ [out] = (b ++ ot :: rest) ++ [last] := by simpa using heq
    obtain ⟨rfl, -⟩ := List.append_inj' hi rfl
    simp [h ot (List.mem_append_right _ List.mem_cons_self)] at her

theorem errorLast_step {s s' : Merged} {a : Action} (h : ErrorLast s.output) (hstops : StopsAtError s a)
    (hst : step s a = some s') : ErrorLast s'.output := by
  cases a with
  | arrive message =>
    cases hst
    rw [Merged.arrive_output]
    exact h
  | dropSenders =>
    cases hst
    exact h
  | poll r d =>
    obtain ⟨-, hs⟩ := Option.ite_none_left_eq_some.mp hst
    have hs' : (s.pollNext r d).2.hand (s.pollNext r d).1 = s' := Option.some.inj hs
    have ho := s.pollNext_output r d
    generalize s.pollNext r d = polled at ho hs'
    rcases polled with ⟨(_ | out) | _, t⟩
    · rw [← hs']
      exact ho ▸ h
    · rw [← hs', Merged.hand, ho]
      exact errorLast_snoc hstops out
    · rw [← hs']
      exact ho ▸ h

structure Merges (items : List Item) (s : Merged) : Prop where
  stream : ofStream s.output <+: items
  all : s.ended = true → ofStream s.output = items
  datagrams : ofDatagrams s.output <+: s.arrived
  taken : s.datagrams = true → s.arrived = ofDatagrams s.output ++ s.queue
  placed : WellPlaced s.output
  grammar : (({} : ResponseState).acceptAll (frames (s.output.map (·.2)))).isSome

end TrevRpc.Rust.Responses
