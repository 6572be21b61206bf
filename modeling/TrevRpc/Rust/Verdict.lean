import TrevRpc.Rust.Replay
import TrevRpc.Rust.Responses

/-! # The verdict on an optimistic call (`framed.rs` and `client/replay.rs`) -/

open TrevRpc.Effect TrevRpc.Run

namespace TrevRpc.Rust

variable {Enc Dec : Type}

/-! ## Frames and what becomes of them -/

section Known

variable {ρ : Type} [FrameRead ρ]

def knownFrames (maxFrameSize : Nat) (r : ρ) : List RawFrame × Except Error Unit :=
  match h : nextKnownHeader maxFrameSize (fun _ _ => .ok ()) () r with
  | (.error error, _) => ([], .error error)
  | (.ok (none, _), _) => ([], .ok ())
  | (.ok (some header, _), r₁) =>
    match hp : responsePayload header r₁ with
    | (.error error, _) => ([], .error error)
    | (.ok payload, r₂) =>
      have := (within_responsePayload header _ _ _ hp).trans_lt (nextKnownHeader_left h)
      let rest := knownFrames maxFrameSize r₂
      ((header.frameType, payload) :: rest.1, rest.2)
termination_by left r

end Known

abbrev Decoded (Dec : Type) : Type := Except Error (Option ResponseFrame) × ResponseReading Dec

/-- A failure ends the call. -/
def decodeFrames (payloads : Payloads) (z : Libzstd Enc Dec) (maxFrameSize : Nat) :
    ResponseReading Dec → List RawFrame → List (Decoded Dec)
  | _, [] => []
  | reading, raw :: rest =>
    match decodeResponseFrame payloads z raw.1 raw.2 maxFrameSize reading with
    | (.error error, after) => [(.error error, after)]
    | (.ok frame, after) => (.ok frame, after) :: decodeFrames payloads z maxFrameSize after rest

def outcome (reading : ResponseReading Dec) (ending : Except Error Unit) :
    List (Decoded Dec) → (List ResponseFrame × Except Error Unit) × ResponseReading Dec
  | [] => (([], ending), reading)
  | (.error error, after) :: _ => (([], .error error), after)
  | (.ok none, after) :: rest => outcome after ending rest
  | (.ok (some frame), after) :: rest =>
    let rest := outcome after ending rest
    ((frame :: rest.1.1, rest.1.2), rest.2)

section Reading

variable {ρ : Type} [FrameRead ρ] {payloads : Payloads} {z : Libzstd Enc Dec} {maxFrameSize : Nat} {r r₁ : ρ}

theorem knownFrames_failed {error : Error}
    (h : nextKnownHeader maxFrameSize (fun _ _ => .ok ()) () r = (.error error, r₁)) :
    knownFrames maxFrameSize r = ([], .error error) := by
  rw [knownFrames]
  split <;> simp_all

theorem knownFrames_ended (h : nextKnownHeader maxFrameSize (fun _ _ => .ok ()) () r = (.ok (none, ()), r₁)) :
    knownFrames maxFrameSize r = ([], .ok ()) := by
  rw [knownFrames]
  split <;> simp_all

theorem knownFrames_header {header : FrameHeader}
    (h : nextKnownHeader maxFrameSize (fun _ _ => .ok ()) () r = (.ok (some header, ()), r₁)) :
    knownFrames maxFrameSize r =
      match responsePayload header r₁ with
      | (.error error, _) => ([], .error error)
      | (.ok payload, r₂) =>
        ((header.frameType, payload) :: (knownFrames maxFrameSize r₂).1, (knownFrames maxFrameSize r₂).2) := by
  rw [knownFrames]
  split
  · simp_all
  · simp_all
  · next heq =>
    cases h.symm.trans heq
    split
    · next hp => simp only [hp]
    · next hp => simp only [hp]

def watched (payloads : Payloads) (z : Libzstd Enc Dec) (maxFrameSize : Nat) (reading : ResponseReading Dec) (r : ρ) :
    (List ResponseFrame × Except Error Unit) × ResponseReading Dec :=
  outcome reading (knownFrames maxFrameSize r).2
    (decodeFrames payloads z maxFrameSize reading (knownFrames maxFrameSize r).1)

theorem watched_eq (reading : ResponseReading Dec) (r : ρ) :
    watched payloads z maxFrameSize reading r =
      match readResponseFrame payloads z maxFrameSize reading r with
      | (.error error, after, _) => (([], .error error), after)
      | (.ok none, after, _) => (([], .ok ()), after)
      | (.ok (some f), after, r₁) =>
        let rest := watched payloads z maxFrameSize after r₁
        ((f :: rest.1.1, rest.1.2), rest.2) := by
  fun_induction readResponseFrame payloads z maxFrameSize reading r with
  | case1 reading r error r₁ hh => rw [watched, knownFrames_failed hh]; rfl
  | case2 reading r _ r₁ hh => rw [watched, knownFrames_ended hh]; rfl
  | case3 reading r header _ r₁ hh error r₂ hpay =>
    rw [watched, knownFrames_header hh, hpay]
    rfl
  | case4 reading r header _ r₁ hh p r₂ hpay error after hd =>
    rw [watched, knownFrames_header hh, hpay]
    simp only [decodeFrames, hd, outcome]
  | case5 reading r header _ r₁ hh p r₂ hpay f after hd =>
    rw [watched, knownFrames_header hh, hpay]
    simp only [decodeFrames, hd, outcome, watched]
  | case6 reading r header _ r₁ hh p r₂ hpay after hd hlt ih =>
    rw [← ih, watched, knownFrames_header hh, hpay]
    simp only [decodeFrames, hd, outcome, watched]

theorem readResponses_eq_watched (reading : ResponseReading Dec) (r : ρ) :
    ((readResponses payloads z maxFrameSize reading r).1, (readResponses payloads z maxFrameSize reading r).2.1) =
      watched payloads z maxFrameSize reading r := by
  fun_induction readResponses payloads z maxFrameSize reading r with
  | case1 reading r error after r₁ hr => rw [watched_eq, hr]
  | case2 reading r after r₁ hr => rw [watched_eq, hr]
  | case3 reading r frame after r₁ hr hlt rest ih =>
    rw [watched_eq, hr]
    simp only [← ih]
    rfl

end Reading

/-! ## The first frame and the later ones -/

def refuses (payloads : Payloads) (raw : RawFrame) : Bool :=
  raw.1 == FrameType.status &&
    match payloads.status raw.2 with
    | .ok status => status.refusedStreamCompression
    | .error _ => false

namespace ResponseReading

/-- Nothing was read yet. -/
structure New (reading : ResponseReading Dec) : Prop where
  settled : reading.settled = false
  refused : reading.refused = false
  answerClosed : reading.answerClosed = false

structure Closed (reading : ResponseReading Dec) : Prop where
  replay : reading.replay = false
  answerClosed : reading.answerClosed = true

/-- `after` has the verdict of `reading`. -/
structure Kept (reading after : ResponseReading Dec) : Prop where
  settled : after.settled = reading.settled
  refused : after.refused = reading.refused
  closed : after.Closed

variable {reading after : ResponseReading Dec}

theorem start_closed (h : reading.Closed) (i : Bool) : reading.start i = (.ok (), reading) :=
  if_pos h.answerClosed

theorem status_closed (h : reading.Closed) (refuses : Bool) : reading.status refuses = (.ok (), reading) := by
  unfold status
  rw [h.replay]
  rfl

theorem Closed.kept (h : reading.Closed) (stream : Option (Inflater Dec)) :
    reading.Kept { reading with stream := stream } := ⟨rfl, rfl, h.replay, h.answerClosed⟩

end ResponseReading

section Frames

variable {payloads : Payloads} {z : Libzstd Enc Dec} {maxFrameSize : Nat} {reading : ResponseReading Dec}

theorem decodeResponseFrame_answer_eq (p : Bytes) :
    decodeResponseFrame payloads z FrameType.answer p maxFrameSize reading =
      match payloads.answer p with
      | .error error => (.error error, reading)
      | .ok a => ((reading.answer a).1.map fun _ => none, (reading.answer a).2) := by
  rw [decodeResponseFrame, if_pos rfl]
  cases payloads.answer p with
  | error error => exact bind_error rfl
  | ok a =>
    refine (bind_ok rfl).trans ?_
    dsimp only
    rcases hl : reading.answer a with ⟨error | _, after⟩
    · exact bind_error hl
    · exact bind_ok hl

def decodeStarted (payloads : Payloads) (z : Libzstd Enc Dec) (frameType : Nat) (payload : Bytes) (maxFrameSize : Nat) :
    Effect Error (ResponseReading Dec) (Option ResponseFrame) :=
  if FrameType.IsMessage frameType then do
    let body ← ResponseReading.message z frameType payload maxFrameSize
    return some (.message body)
  else if frameType = FrameType.headers then do
    let metadata ← lift (payloads.headers payload)
    return some (.headers metadata)
  else if frameType = FrameType.status then do
    let status ← lift (payloads.status payload)
    ResponseReading.status status.refusedStreamCompression
    return some (.status (.ofRpcStatus status))
  else fail (.status (.internal "response stream contained a REQUEST frame"))

variable {frameType : Nat}

theorem decodeResponseFrame_eq (ha : frameType ≠ FrameType.answer) (p : Bytes) :
    decodeResponseFrame payloads z frameType p maxFrameSize =
      (ResponseReading.start (frameType = FrameType.status) >>= fun _ =>
        decodeStarted payloads z frameType p maxFrameSize) := by
  rw [decodeResponseFrame, if_neg ha]
  rfl

theorem decodeStarted_other (hstat : frameType ≠ FrameType.status) (p : Bytes) :
    ∃ stream, (decodeStarted payloads z frameType p maxFrameSize reading).2 = { reading with stream := stream } := by
  unfold decodeStarted
  split_ifs with hmessage hheaders
  · rcases hb : ResponseReading.message z frameType p maxFrameSize reading with ⟨error | body, after⟩
    · rw [bind_error hb]
      exact ⟨_, congrArg Prod.snd hb.symm⟩
    · rw [bind_ok hb]
      exact ⟨_, congrArg Prod.snd hb.symm⟩
  · cases payloads.headers p <;> exact ⟨reading.stream, rfl⟩
  · exact ⟨reading.stream, rfl⟩

theorem decodeStarted_status (p : Bytes) :
    decodeStarted payloads z FrameType.status p maxFrameSize reading =
      match payloads.status p with
      | .error error => (.error error, reading)
      | .ok ss =>
        (.ok (some (.status (.ofRpcStatus ss))), (reading.status ss.refusedStreamCompression).2) := by
  rw [decodeStarted, if_neg (by decide), if_neg (by decide), if_pos rfl]
  cases payloads.status p with
  | error error => rfl
  | ok ss =>
    refine (bind_ok rfl).trans ?_
    have hok : ∃ after, reading.status ss.refusedStreamCompression = (.ok (), after) := by
      unfold ResponseReading.status
      split_ifs <;> exact ⟨_, rfl⟩
    obtain ⟨after, hok⟩ := hok
    dsimp only
    rw [hok, bind_ok hok]
    rfl

theorem decodeResponseFrame_closed (h : reading.Closed) (raw : RawFrame) :
    reading.Kept (decodeResponseFrame payloads z raw.1 raw.2 maxFrameSize reading).2 ∧
    (raw.1 = FrameType.answer → (decodeResponseFrame payloads z raw.1 raw.2 maxFrameSize reading).1.isOk = false) := by
  obtain ⟨frameType, p⟩ := raw
  have hk : reading.Kept reading := h.kept reading.stream
  dsimp only
  by_cases ha : frameType = FrameType.answer
  · subst ha
    rw [decodeResponseFrame_answer_eq]
    cases payloads.answer p with
    | error error => exact ⟨hk, fun _ => rfl⟩
    | ok a =>
      have hl : reading.answer a = (.error (.status (.internal _)), reading) := if_pos h.answerClosed
      dsimp only
      rw [hl]
      exact ⟨hk, fun _ => rfl⟩
  · refine ⟨?_, fun heq => absurd heq ha⟩
    rw [decodeResponseFrame_eq ha, bind_ok (ResponseReading.start_closed h _)]
    by_cases hs : frameType = FrameType.status
    · subst hs
      rw [decodeStarted_status]
      cases payloads.status p with
      | error error => exact hk
      | ok status =>
        dsimp only
        rw [ResponseReading.status_closed h]
        exact hk
    · obtain ⟨st, haf⟩ := @decodeStarted_other _ _ payloads z maxFrameSize reading _ hs p
      rw [haf]
      exact h.kept st

structure Decides (payloads : Payloads) (reading : ResponseReading Dec) (raw : RawFrame) (decoded : Decoded Dec) :
    Prop where
  refused : decoded.2.refused = (reading.replay && refuses payloads raw)
  settled : decoded.1.isOk = true → decoded.2.settled = (reading.replay && !refuses payloads raw)
  exclusive : (decoded.2.settled && decoded.2.refused) = false
  closed : decoded.1.isOk = true → decoded.2.Closed

variable {raw : RawFrame}

theorem refuses_other (h : raw.1 ≠ FrameType.status) : refuses payloads raw = false := by
  rw [refuses, beq_false_of_ne h, Bool.false_and]

theorem Decides.failed {error : Error} {after : ResponseReading Dec}
    (hrefuses : (reading.replay && refuses payloads raw) = false) (hr : after.refused = false) :
    Decides payloads reading raw (.error error, after) where
  refused := hr.trans hrefuses.symm
  settled := nofun
  exclusive := by rw [hr, Bool.and_false]
  closed := nofun

theorem Decides.answer (accept : Accept) (stream : Option (Inflater Dec)) (replay : Bool) (learned : Option RpcAnswer)
    (p : Bytes) :
    Decides payloads { accept, stream, replay, learned } (FrameType.answer, p)
      (decodeResponseFrame payloads z FrameType.answer p maxFrameSize { accept, stream, replay, learned }) := by
  rw [decodeResponseFrame_answer_eq]
  cases payloads.answer p with
  | error error => exact .failed (Bool.and_false _) rfl
  | ok an =>
    obtain ⟨dictionaries, a, metadata⟩ := an
    cases replay with
    | false => exact ⟨rfl, fun _ => rfl, rfl, fun _ => ⟨rfl, rfl⟩⟩
    | true =>
      cases a with
      | true => exact ⟨rfl, fun _ => rfl, rfl, fun _ => ⟨rfl, rfl⟩⟩
      | false => exact .failed rfl rfl

theorem Decides.status (accept : Accept) (stream : Option (Inflater Dec)) (replay : Bool) (learned : Option RpcAnswer)
    (p : Bytes) :
    Decides payloads { accept, stream, replay, learned } (FrameType.status, p)
      (decodeResponseFrame payloads z FrameType.status p maxFrameSize { accept, stream, replay, learned }) := by
  have hs : ResponseReading.start (FrameType.status = FrameType.status)
      { accept, stream, replay, learned } = (.ok (), { accept, stream, replay, learned, answerClosed := true }) :=
    ResponseReading.start_eq (.inr (.inr rfl))
  rw [decodeResponseFrame_eq (by decide), bind_ok hs, decodeStarted_status]
  cases hd : payloads.status p with
  | error error =>
    refine .failed ?_ rfl
    rw [refuses, hd, Bool.and_false, Bool.and_false]
  | ok ss =>
    obtain ⟨code, message, metadata, verdict⟩ := ss
    have href : refuses payloads (FrameType.status, p) = verdict := by
      rw [refuses, hd, beq_self_eq_true, Bool.true_and]
    cases replay with
    | false => exact ⟨rfl, fun _ => rfl, rfl, fun _ => ⟨rfl, rfl⟩⟩
    | true =>
      cases verdict with
      | true | false => exact ⟨href.symm, fun _ => (congrArg not href).symm, rfl, fun _ => ⟨rfl, rfl⟩⟩

theorem Decides.other (accept : Accept) (stream : Option (Inflater Dec)) (replay : Bool) (learned : Option RpcAnswer)
    (ha : frameType ≠ FrameType.answer) (hs : frameType ≠ FrameType.status) (p : Bytes) :
    Decides payloads { accept, stream, replay, learned } (frameType, p)
      (decodeResponseFrame payloads z frameType p maxFrameSize { accept, stream, replay, learned }) := by
  have href : refuses payloads (frameType, p) = false := refuses_other hs
  rw [decodeResponseFrame_eq ha, decide_eq_false hs]
  cases replay with
  | true => exact .failed (by rw [href, Bool.and_false]) rfl
  | false =>
    have hst : ResponseReading.start false ({ accept, stream, learned } : ResponseReading Dec) =
        (.ok (), { accept, stream, learned, answerClosed := true }) := ResponseReading.start_eq (.inr (.inl rfl))
    obtain ⟨stream', haf⟩ := @decodeStarted_other _ _ payloads z maxFrameSize
      { accept, stream, learned, answerClosed := true } _ hs p
    rw [bind_ok hst]
    exact ⟨by rw [haf]; rfl, fun _ => by rw [haf]; rfl, by rw [haf]; rfl, fun _ => by rw [haf]; exact ⟨rfl, rfl⟩⟩

theorem decodeResponseFrame_first (h : reading.New) (raw : RawFrame) :
    Decides payloads reading raw (decodeResponseFrame payloads z raw.1 raw.2 maxFrameSize reading) := by
  obtain ⟨frameType, p⟩ := raw
  obtain ⟨a, st, r, se, re, l, ac⟩ := reading
  obtain ⟨rfl, rfl, rfl⟩ : se = false ∧ re = false ∧ ac = false :=
    ⟨h.settled, h.refused, h.answerClosed⟩
  by_cases ha : frameType = FrameType.answer
  · subst ha
    exact .answer a st r l p
  by_cases hs : frameType = FrameType.status
  · subst hs
    exact .status a st r l p
  · exact .other a st r l ha hs p

/-! ## Whole responses -/

theorem decodeFrames_closed (h : reading.Closed) (raws : List RawFrame) :
    ∀ d ∈ decodeFrames payloads z maxFrameSize reading raws, reading.Kept d.2 := by
  induction raws generalizing reading with
  | nil => simp [decodeFrames]
  | cons raw raws ih =>
    have hk := (@decodeResponseFrame_closed _ _ payloads z maxFrameSize reading h raw).1
    rw [decodeFrames]
    rcases hd : decodeResponseFrame payloads z raw.1 raw.2 maxFrameSize reading with ⟨error | frame, after⟩
    · rw [hd] at hk
      simpa using hk
    · rw [hd] at hk
      rw [List.forall_mem_cons]
      refine ⟨hk, fun d hmem => ?_⟩
      have hl := ih hk.closed d hmem
      exact ⟨hl.settled.trans hk.settled, hl.refused.trans hk.refused, hl.closed⟩

theorem decodeFrames_answer (h : reading.Closed) (raws : List RawFrame) (i : Nat) {d : Decoded Dec}
    (hraw : raws[i]? = some raw) (hdec : (decodeFrames payloads z maxFrameSize reading raws)[i]? = some d)
    (ha : raw.1 = FrameType.answer) : d.1.isOk = false := by
  induction raws generalizing reading i with
  | nil => simp at hraw
  | cons first raws ih =>
    have hf := @decodeResponseFrame_closed _ _ payloads z maxFrameSize reading h first
    rw [decodeFrames] at hdec
    rcases hd : decodeResponseFrame payloads z first.1 first.2 maxFrameSize reading with ⟨error | frame, after⟩
    · rw [hd] at hdec
      cases i with
      | zero =>
        cases hdec
        rfl
      | succ i => simp at hdec
    · rw [hd] at hdec hf
      cases i with
      | zero =>
        cases hraw
        exact absurd (hf.2 ha) nofun
      | succ i => exact ih hf.1.closed i hraw hdec

def firstRefuses (payloads : Payloads) : List RawFrame → Bool
  | [] => false
  | raw :: _ => refuses payloads raw

structure Decoded.OneVerdict (refuses : Bool) (decoded : Decoded Dec) : Prop where
  refused : decoded.2.refused = refuses
  settled : decoded.1.isOk = true → decoded.2.settled = !refuses
  exclusive : (decoded.2.settled && decoded.2.refused) = false

theorem decodeFrames_verdict (h : reading.New) (hrep : reading.replay = true) (raws : List RawFrame) :
    ∀ d ∈ decodeFrames payloads z maxFrameSize reading raws, d.OneVerdict (firstRefuses payloads raws) := by
  cases raws with
  | nil => simp [decodeFrames]
  | cons raw raws =>
    have hf := @decodeResponseFrame_first _ _ payloads z maxFrameSize reading h raw
    rw [decodeFrames, firstRefuses]
    rcases hd : decodeResponseFrame payloads z raw.1 raw.2 maxFrameSize reading with ⟨error | frame, after⟩
    · rw [hd] at hf
      simp only [List.mem_singleton, forall_eq]
      exact ⟨by simpa [hrep] using hf.refused, nofun, hf.exclusive⟩
    · rw [hd] at hf
      have hr : after.refused = refuses payloads raw := by simpa [hrep] using hf.refused
      have hs : after.settled = !refuses payloads raw := by simpa [hrep] using hf.settled rfl
      have hc : after.Closed := hf.closed rfl
      rw [List.forall_mem_cons]
      refine ⟨⟨hr, fun _ => hs, hf.exclusive⟩, fun d hmem => ?_⟩
      have hl := decodeFrames_closed hc raws d hmem
      refine ⟨hl.refused.trans hr, fun _ => hl.settled.trans hs, ?_⟩
      rw [hl.refused, hl.settled]
      exact hf.exclusive

theorem decodeFrames_answer_first (h : reading.New) (raws : List RawFrame) (i : Nat)
    {d : Decoded Dec} (hraw : raws[i]? = some raw)
    (hdec : (decodeFrames payloads z maxFrameSize reading raws)[i]? = some d)
    (ha : raw.1 = FrameType.answer) (hok : d.1.isOk = true) : i = 0 := by
  cases raws with
  | nil => simp at hraw
  | cons first raws =>
    cases i with
    | zero => rfl
    | succ i =>
      have hf := @decodeResponseFrame_first _ _ payloads z maxFrameSize reading h first
      rw [decodeFrames] at hdec
      split at hdec
      · simp at hdec
      · next hd =>
        rw [hd] at hf
        have hr := decodeFrames_answer (hf.closed rfl) raws i hraw hdec ha
        rw [hr] at hok
        cases hok

theorem outcome_mem (e : Except Error Unit) {t : List (Decoded Dec)} (h : t ≠ []) :
    ∃ d ∈ t, (outcome reading e t).2 = d.2 := by
  induction t generalizing reading with
  | nil => exact absurd rfl h
  | cons d t ih =>
    obtain ⟨r, after⟩ := d
    cases t with
    | nil => rcases r with _ | _ | _ <;> exact ⟨_, List.mem_cons_self, rfl⟩
    | cons second t =>
      obtain ⟨last, hmem, hl⟩ := @ih after (by simp)
      rcases r with _ | _ | _
      · exact ⟨_, List.mem_cons_self, rfl⟩
      · exact ⟨last, List.mem_cons_of_mem _ hmem, hl⟩
      · exact ⟨last, List.mem_cons_of_mem _ hmem, hl⟩

theorem outcome_refused (h : reading.New) (hrep : reading.replay = true) (e : Except Error Unit)
    (raws : List RawFrame) :
    (outcome reading e (decodeFrames payloads z maxFrameSize reading raws)).2.refused =
      firstRefuses payloads raws := by
  have hd := @decodeFrames_verdict _ _ payloads z maxFrameSize reading h hrep raws
  cases raws with
  | nil => exact h.refused
  | cons raw raws =>
    have hne : decodeFrames payloads z maxFrameSize reading (raw :: raws) ≠ [] := by
      rw [decodeFrames]
      split <;> exact List.cons_ne_nil _ _
    obtain ⟨d, hmem, hl⟩ := @outcome_mem _ reading e _ hne
    rw [hl]
    exact (hd d hmem).refused

end Frames

/-! ## One verdict -/

/-- `settle` of the reading, and `refuse` once it takes what that refused. -/
def ResponseReading.asks {W : Type} (reading : ResponseReading Dec) : List (Replay.Action W) :=
  (if reading.settled then [.settle] else []) ++ if reading.refused then [.refuse] else []

theorem asks_decide {W : Type} {reading : ResponseReading Dec} (h : (reading.settled && reading.refused) = false)
    (s : Replay.System W) (hs : s.state.decision = .pending) :
    Along (fun s a => a.Once s) Replay.step s reading.asks ∧
      ∃ s' ∈ run Replay.step s reading.asks, s'.state.decision =
        if reading.refused then .refused else if reading.settled then .settled else .pending := by
  obtain ⟨accept, stream, replay, se, r, learned, answerClosed⟩ := reading
  cases se <;> cases r
  · exact ⟨trivial, s, rfl, hs⟩
  · exact ⟨⟨hs, fun _ _ => trivial⟩, _, rfl, rfl⟩
  · refine ⟨⟨trivial, fun _ _ => trivial⟩, _, rfl, ?_⟩
    obtain ⟨⟨source, kept, keptBytes, reservation, held, d, waker⟩, budget⟩ := s
    obtain rfl : d = .pending := hs
    rfl
  · cases h

section Verdict

variable {ρ : Type} [FrameRead ρ]

/-- The frames of a stream, decoded. -/
def decodedFrames (payloads : Payloads) (z : Libzstd Enc Dec) (maxFrameSize : Nat) (reading : ResponseReading Dec)
    (r : ρ) :
    List (Decoded Dec) :=
  decodeFrames payloads z maxFrameSize reading (knownFrames maxFrameSize r).1

/-- An optimistic call is refused by its first frame, or settled before it returns any. -/
structure OneVerdict (payloads : Payloads) (z : Libzstd Enc Dec) (maxFrameSize : Nat) (reading : ResponseReading Dec)
    (r : ρ) : Prop where
  read : ((readResponses payloads z maxFrameSize reading r).1, (readResponses payloads z maxFrameSize reading r).2.1) =
    outcome reading (knownFrames maxFrameSize r).2 (decodedFrames payloads z maxFrameSize reading r)
  refused : (readResponses payloads z maxFrameSize reading r).2.1.refused =
    firstRefuses payloads (knownFrames maxFrameSize r).1
  decided : ∀ decoded ∈ decodedFrames payloads z maxFrameSize reading r,
    decoded.OneVerdict (firstRefuses payloads (knownFrames maxFrameSize r).1)
  replay : ∀ decoded ∈ decodedFrames payloads z maxFrameSize reading r, ∀ s : Replay.System Unit,
    s.state.decision = .pending → Along (fun s a => a.Once s) Replay.step s decoded.2.asks ∧
      ∃ s' ∈ run Replay.step s decoded.2.asks, s'.state.decision =
        if decoded.2.refused then .refused else if decoded.2.settled then .settled else .pending

/-- An ANSWER is accepted as the first frame only. -/
def AnswerFirst (payloads : Payloads) (z : Libzstd Enc Dec) (maxFrameSize : Nat) (reading : ResponseReading Dec)
    (r : ρ) :
    Prop :=
  ∀ i raw decoded, (knownFrames maxFrameSize r).1[i]? = some raw →
    (decodedFrames payloads z maxFrameSize reading r)[i]? = some decoded →
    raw.1 = FrameType.answer → decoded.1.isOk = true → i = 0

theorem optimistic_call_has_one_verdict (payloads : Payloads) (z : Libzstd Enc Dec) (maxFrameSize : Nat)
    {reading : ResponseReading Dec} (hnew : reading.New) (r : ρ) :
    (reading.replay = true → OneVerdict payloads z maxFrameSize reading r) ∧
      AnswerFirst payloads z maxFrameSize reading r := by
  refine ⟨fun hreplay => ?_, fun i raw decoded => decodeFrames_answer_first hnew _ i⟩
  have hdecided := @decodeFrames_verdict _ _ payloads z maxFrameSize reading hnew hreplay (knownFrames maxFrameSize r).1
  have hread := @readResponses_eq_watched _ _ _ _ payloads z maxFrameSize reading r
  refine ⟨hread, ?_, hdecided, fun decoded hmem s hs => asks_decide (hdecided decoded hmem).exclusive s hs⟩
  exact (congrArg (fun x => x.2.refused) hread).trans (outcome_refused hnew hreplay _ _)

end Verdict

theorem optimistic_call_has_one_verdict_refused :
    OneVerdict samplePayloads stored 64 { accept := .none, replay := true }
      ({ source := ⟨[[3, 1, 1]], none⟩ } : Chunked) ∧
      AnswerFirst samplePayloads stored 64 { accept := .none, replay := true }
        ({ source := ⟨[[3, 1, 1]], none⟩ } : Chunked) := by
  have h := optimistic_call_has_one_verdict samplePayloads stored 64
    (⟨rfl, rfl, rfl⟩ : ResponseReading.New { accept := .none, replay := true })
    ({ source := ⟨[[3, 1, 1]], none⟩ } : Chunked)
  exact ⟨h.1 rfl, h.2⟩

end TrevRpc.Rust
