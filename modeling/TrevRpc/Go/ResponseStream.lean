import Mathlib.Data.Nat.Find
import TrevRpc.Go.ReadAhead.Model
import TrevRpc.Go.WireRoundTrip

/-!
# The response writer of a streaming call (`server.go`)

A call without a datagram flow. When a message of the handler is there is up to the environment. An idle timeout ends
the stream like an error of the handler.
-/

open TrevRpc.Rust (Bytes)

namespace TrevRpc.Go.ResponseStream

open ReadAhead (Message handlerReadAheadMessages)

/-- `math.MaxInt`. -/
def maxInt : Nat := 2 ^ 63 - 1

def saturatingAdd (left right : Nat) : Nat := min (left + right) maxInt

/-! ## Limits -/

/-- A negative limit is none. -/
structure StreamLimits where
  maxMessages : Int
  maxBodySize : Int
  deriving DecidableEq

def resourceExhausted (message : String) : WireStatus := { code := 8, message := message.toUTF8.data.toList }

def checkStreamLimits (direction : String) (limits : StreamLimits) (messages bodySize itemLen : Nat) :
    Option WireStatus × Nat × Nat :=
  let maxMessages := limits.maxMessages
  let maxBodySize := limits.maxBodySize
  if 0 ≤ maxMessages ∧ maxMessages ≤ messages then
    (some (resourceExhausted s!"{direction} stream exceeded maximum of {maxMessages} messages"), messages, bodySize)
  else
    let messages := messages + 1
    let bodySize := saturatingAdd bodySize itemLen
    if 0 ≤ maxBodySize ∧ maxBodySize < bodySize then
      (some (resourceExhausted s!"{direction} stream exceeded maximum body size of {maxBodySize} bytes"),
        messages, bodySize)
    else (none, messages, bodySize)

/-! ## The status of an error -/

/-- An error as `errors.AsType` finds it: with a panic or a `Status` in its chain, or neither. -/
inductive Error
  | panic
  | status (status : WireStatus)
  | other

def maxMetadataEntries : Nat := 64
def maxMetadataKeyLen : Nat := 128
def maxMetadataValueLen : Nat := 8 * 1024
def maxMetadataTotalSize : Nat := 64 * 1024

def reservedMetadataPrefix : Bytes := "trevrpc-".toUTF8.data.toList

def isMetadataKeyByte (value : UInt8) : Bool :=
  (97 ≤ value && value ≤ 122) || (48 ≤ value && value ≤ 57) || value = 46 || value = 95 || value = 45

/-- Whether `validateMetadataKey` finds no error. -/
def validateMetadataKey (key : Bytes) : Bool :=
  key ≠ [] && key.length ≤ maxMetadataKeyLen && !reservedMetadataPrefix.isPrefixOf key && key.all isMetadataKeyByte

/-- Whether `validateMetadata` finds no error, for which the order of its loop does not matter. -/
def validateMetadata (metadata : Metadata) : Bool :=
  metadata.entries.card ≤ maxMetadataEntries &&
    decide (∀ entry ∈ metadata.entries, validateMetadataKey entry.1 ∧ entry.2.length ≤ maxMetadataValueLen) &&
    (metadata.entries.map fun entry => entry.1.length + entry.2.length).sum ≤ maxMetadataTotalSize

def internalServerStatus : WireStatus := { code := 13, message := "internal server error".toUTF8.data.toList }

/-- What the client is told of an error, without the diagnostics. -/
def wireStatus : Error → WireStatus
  | .panic | .other => internalServerStatus
  | .status status =>
    if status.code ≠ 13 ∧ validateMetadata status.metadata = true then
      { code := status.code, message := status.message, metadata := status.metadata }
    else internalServerStatus

/-! ## The call -/

/-- What the protobuf runtime and the loops over maps do, where frames are appended. -/
structure Encoder where
  headersFrame : WireHeaders → Nat → Except AppendError Bytes
  statusFrame : WireStatus → Nat → Except AppendError Bytes
  sizeRange : Nat → Loop
  range : Nat → Loop

structure Call where
  encoder : Encoder
  answer : Option WireAnswer := none
  answerDispatched : Bool := false
  headers : Metadata := ∅
  metadata : Metadata := ∅
  limits : StreamLimits := ⟨-1, -1⟩
  maxFrameSize : Nat
  readAhead : Bool
  /-- The error that the stream ends with, or `none` for `io.EOF`. -/
  ending : Option Error := none

inductive Event
  | write (bytes : Bytes)
  | beforeStatus
  deriving DecidableEq

structure State where
  source : List Message
  pending : Option Message := none
  messages : Nat := 0
  responseBodyLen : Nat := 0
  headersSent : Bool := false
  done : Bool := false
  log : List Event := []
  deriving DecidableEq

/-- What one call of `writeNext` meets, by the numbers of the batch's messages. -/
structure Env where
  ctxErr : Option Error := none
  cancelled : Nat → Bool := fun _ => false
  ready : Nat → Bool
  headersErr : Option Error := none
  writeErr : Option Error := none

inductive Failure
  | context (err : Error)
  | write (err : Error)
  | append (err : AppendError)
  | frameTooLarge (len max : Nat)

namespace Call

def appendHeaders (call : Call) (dst : Bytes) : Except AppendError Bytes :=
  appendHeadersFrame (fun dst _ headers maxFrameSize => (call.encoder.headersFrame headers maxFrameSize).map (dst ++ ·))
    call.encoder.sizeRange call.encoder.range dst call.headers call.maxFrameSize

def appendStatus (call : Call) (dst : Bytes) (status : WireStatus) : Except AppendError Bytes :=
  appendStatusFrame (fun dst _ status maxFrameSize => (call.encoder.statusFrame status maxFrameSize).map (dst ++ ·))
    call.encoder.sizeRange call.encoder.range dst status call.maxFrameSize

def headersFrames (call : Call) : Except AppendError Bytes := do
  let frames ←
    if call.answerDispatched then .ok []
    else
      match call.answer with
      | none => .ok []
      | some answer => appendAnswerFrame [] answer call.maxFrameSize
  if call.headers = ∅ then .ok frames else call.appendHeaders frames

def terminalResponseStatus (call : Call) : WireStatus := { metadata := call.metadata }

end Call

inductive ResponseStreamItem
  | message (message : Message)
  | status (status : WireStatus)

/-- The next item, or `none` where nothing is ready and it is not waited for. -/
def readNextResponseItem (call : Call) (wait ready : Bool) (s : State) : Option ResponseStreamItem × State :=
  match s.pending with
  | some message => (some (.message message), { s with pending := none })
  | none =>
    if call.readAhead && !wait && !ready then (none, s)
    else
      match s.source, call.ending with
      | message :: source, _ => (some (.message message), { s with source })
      | [], none => (some (.status call.terminalResponseStatus), s)
      | [], some err => (some (.status (wireStatus err)), s)

def acceptResponseMessage (call : Call) (message : Message) (s : State) : Option WireStatus × State :=
  let (status, messages, responseBodyLen) :=
    checkStreamLimits "response" call.limits s.messages s.responseBodyLen message.size
  (status, { s with messages, responseBodyLen })

def fillBatch (call : Call) (env : Env) : Nat → List Message → Nat → State →
    Except (Failure × State) (List Message × Option WireStatus × State)
  | 0, batch, _, s => .ok (batch, none, s)
  | rounds + 1, batch, size, s =>
    if 0 < batch.length ∧ call.readAhead = false ∧ env.cancelled batch.length = true then .ok (batch, none, s)
    else
      match readNextResponseItem call (batch.length = 0) (env.ready batch.length) s with
      | (none, s) => .ok (batch, none, s)
      | (some (.status status), s) => .ok (batch, some status, s)
      | (some (.message message), s) =>
        -- A limit of 0 is none.
        if 0 < batch.length ∧ 0 < call.maxFrameSize ∧ call.maxFrameSize < saturatingAdd size message.frame.length then
          .ok (batch, none, { s with pending := some message })
        else
          match acceptResponseMessage call message s with
          | (some status, s) => .ok (batch, some status, s)
          | (none, s) =>
            if call.maxFrameSize < message.size then .error (.frameTooLarge message.size call.maxFrameSize, s)
            else fillBatch call env rounds (batch ++ [message]) (saturatingAdd size message.frame.length) s

def write (err : Option Error) (bytes : Bytes) (s : State) : Option Failure × State :=
  match err with
  | some err => (some (.write err), s)
  | none => (none, { s with log := s.log ++ [.write bytes] })

def writeJoined (call : Call) (env : Env) (headers : Bytes) (messages : List Message)
    (status : Option WireStatus) (s : State) : Option Failure × State :=
  let frames := headers ++ messages.flatMap Message.frame
  match status with
  | none => write env.writeErr frames s
  | some status =>
    match call.appendStatus frames status with
    | .error err => (some (.append err), s)
    | .ok frames => write env.writeErr frames { s with log := s.log ++ [.beforeStatus] }

def writeFinalFrames (call : Call) (env : Env) (headers : Bytes) (messages : List Message)
    (status : WireStatus) (s : State) : (Bool × Option Failure) × State :=
  let (err, s) := writeJoined call env headers messages (some status) { s with done := true }
  ((true, err), s)

/-- `writeNext` from its batch on, with the headers that join it. -/
def writeBatch (call : Call) (env : Env) (headers : Bytes) (s : State) : (Bool × Option Failure) × State :=
  match fillBatch call env handlerReadAheadMessages [] headers.length s with
  | .error (err, s) => ((true, some err), s)
  | .ok (batch, some final, s) => writeFinalFrames call env headers batch final s
  | .ok (batch, none, s) =>
    match batch, headers with
    | [], [] => ((false, none), s)
    -- A lone message is the write.
    | [message], [] =>
      let (err, s) := write env.writeErr message.frame s
      ((false, err), s)
    | _, _ =>
      let (err, s) := writeJoined call env headers batch none s
      ((false, err), s)

def writeNext (call : Call) (env : Env) (s : State) : (Bool × Option Failure) × State :=
  match env.ctxErr with
  | some err => ((true, some (.context err)), s)
  | none =>
    if s.done then ((true, none), s)
    else if s.headersSent then writeBatch call env [] s
    else
      let s := { s with headersSent := true }
      match call.headersFrames with
      | .error .panicked => ((true, some (.append .panicked)), s)
      | .error _ => writeFinalFrames call env [] [] (wireStatus .other) s
      | .ok headers =>
        if headers ≠ [] ∧ call.readAhead = true then
          match write env.headersErr headers s with
          | (some err, s) => ((true, some err), s)
          | (none, s) => writeBatch call env [] s
        else writeBatch call env headers s

/-- The loop of `handleRPCStream`, until it is done or fails. -/
def writeAll (call : Call) : List Env → State → Option ((Bool × Option Failure) × State)
  | [], _ => none
  | env :: envs, s =>
    match writeNext call env s with
    | ((done, some err), s) => some ((done, some err), s)
    | ((true, none), s) => some ((true, none), s)
    | ((false, none), s) => writeAll call envs s

/-! ## What the limits let through -/

def bodyTotal (messages : List Message) : Nat := min (messages.map Message.size).sum maxInt

structure Within (limits : StreamLimits) (messages : List Message) : Prop where
  count : 0 ≤ limits.maxMessages → (messages.length : Int) ≤ limits.maxMessages
  body : 0 ≤ limits.maxBodySize → (bodyTotal messages : Int) ≤ limits.maxBodySize

instance (limits : StreamLimits) (messages : List Message) : Decidable (Within limits messages) :=
  decidable_of_iff (_ ∧ _) ⟨fun h => ⟨h.1, h.2⟩, fun h => ⟨h.count, h.body⟩⟩

def longest (limits : StreamLimits) (all : List Message) : Nat :=
  Nat.findGreatest (fun k => Within limits (all.take k)) all.length

theorem bodyTotal_concat (ms : List Message) (message : Message) :
    bodyTotal (ms ++ [message]) = saturatingAdd (bodyTotal ms) message.size := by
  simp only [bodyTotal, saturatingAdd, List.map_append, List.map_singleton, List.sum_append, List.sum_singleton]
  omega

variable {ms : List Message}

theorem bodyTotal_mono {more : List Message} (h : ms <+: more) : bodyTotal ms ≤ bodyTotal more := by
  obtain ⟨rest, rfl⟩ := h
  simp only [bodyTotal, List.map_append, List.sum_append]
  omega

variable {ls : StreamLimits}

theorem Within.of_prefix {more : List Message} (h : Within ls more) (hle : ms <+: more) : Within ls ms where
  count hl := (Int.ofNat_le.mpr hle.length_le).trans (h.count hl)
  body hl := (Int.ofNat_le.mpr (bodyTotal_mono hle)).trans (h.body hl)

theorem within_nil (ls : StreamLimits) : Within ls [] where
  count hl := hl
  body hl := hl

theorem within_longest (ls : StreamLimits) (all : List Message) : Within ls (all.take (longest ls all)) :=
  Nat.findGreatest_spec (P := fun k => Within ls (all.take k)) (Nat.zero_le _) (within_nil ls)

theorem longest_eq_length {all : List Message} (h : Within ls all) : longest ls all = all.length := by
  refine Nat.findGreatest_eq_iff.mpr ⟨le_rfl, fun _ => ?_, fun k hlt hle => by omega⟩
  rwa [List.take_length]

theorem longest_eq {taken rest : List Message} {message : Message} (h : Within ls taken)
    (hnot : ¬ Within ls (taken ++ [message])) : longest ls (taken ++ message :: rest) = taken.length := by
  refine Nat.findGreatest_eq_iff.mpr ⟨by simp, fun _ => ?_, fun n hlt _ hwit => hnot (hwit.of_prefix ?_)⟩
  · rwa [List.take_left]
  · -- One message more than was taken is too much.
    obtain ⟨k, rfl⟩ : ∃ k, n = taken.length + (k + 1) := ⟨n - taken.length - 1, by omega⟩
    rw [List.take_length_add_append, List.take_succ_cons]
    exact List.prefix_append_right_inj _ |>.mpr ⟨_, rfl⟩

theorem not_within_succ {all : List Message} (h : longest ls all < all.length) :
    ¬ Within ls (all.take (longest ls all + 1)) :=
  Nat.findGreatest_is_greatest (Nat.lt_succ_self _) h

def limitStatus (limits : StreamLimits) (count : Nat) : WireStatus :=
  let maxMessages := limits.maxMessages
  let maxBodySize := limits.maxBodySize
  if 0 ≤ maxMessages ∧ maxMessages ≤ count then
    resourceExhausted s!"response stream exceeded maximum of {maxMessages} messages"
  else resourceExhausted s!"response stream exceeded maximum body size of {maxBodySize} bytes"

theorem checkStreamLimits_within {message : Message}
    (h : Within ls (ms ++ [message])) :
    checkStreamLimits "response" ls ms.length (bodyTotal ms) message.size =
      (none, ms.length + 1, bodyTotal (ms ++ [message])) := by
  have hc := h.count
  have hbody := h.body
  rw [List.length_append, List.length_singleton] at hc
  unfold checkStreamLimits
  dsimp only
  rw [if_neg (by omega), ← bodyTotal_concat, if_neg (by omega)]

theorem checkStreamLimits_exceeded {message : Message}
    (h : ¬ Within ls (ms ++ [message])) :
    (checkStreamLimits "response" ls ms.length (bodyTotal ms) message.size).1 =
      some (limitStatus ls ms.length) := by
  unfold checkStreamLimits limitStatus
  dsimp only
  split_ifs with hcount hb
  · rfl
  · rfl
  · rw [← bodyTotal_concat] at hb
    refine absurd ⟨fun hl => ?_, fun hl => by omega⟩ h
    rw [List.length_append, List.length_singleton]
    omega

/-! ## One batch -/

structure Env.Quiet (env : Env) : Prop where
  ctxErr : env.ctxErr = none
  cancelled : ∀ n, env.cancelled n = false
  headersErr : env.headersErr = none
  writeErr : env.writeErr = none

def Call.endStatus (call : Call) : WireStatus :=
  match call.ending with
  | none => call.terminalResponseStatus
  | some err => wireStatus err

def Call.finalStatus (call : Call) (all : List Message) : WireStatus :=
  if longest call.limits all = all.length then call.endStatus else limitStatus call.limits (longest call.limits all)

structure At (call : Call) (all taken : List Message) (s : State) : Prop where
  rest : taken ++ (s.pending.toList ++ s.source) = all
  messages : s.messages = taken.length
  responseBodyLen : s.responseBodyLen = bodyTotal taken
  within : Within call.limits taken

structure Same (s s' : State) : Prop where
  headersSent : s'.headersSent = s.headersSent
  done : s'.done = s.done
  log : s'.log = s.log

theorem Same.refl (s : State) : Same s s := ⟨rfl, rfl, rfl⟩

theorem Same.trans {s s' s'' : State} (h : Same s s') (h' : Same s' s'') : Same s s'' :=
  ⟨h'.headersSent.trans h.headersSent, h'.done.trans h.done, h'.log.trans h.log⟩

/-- A message is in hand. -/
structure Read (s : State) (s' : State) : Prop where
  pending : s'.pending = none
  messages : s'.messages = s.messages
  responseBodyLen : s'.responseBodyLen = s.responseBodyLen
  same : Same s s'

variable {call : Call} {env : Env} {all taken : List Message} {s s' : State} {message : Message}

variable (h : At call all taken s)
include h

theorem readNextResponseItem_cases (wait r : Bool) :
    (wait = false ∧ readNextResponseItem call wait r s = (none, s)) ∨
    (taken = all ∧ readNextResponseItem call wait r s = (some (.status call.endStatus), s)) ∨
    ∃ message s', readNextResponseItem call wait r s = (some (.message message), s') ∧
      taken ++ message :: s'.source = all ∧ Read s s' := by
  obtain ⟨source, p, messages, responseBodyLen, headersSent, done, log⟩ := s
  have hr : taken ++ (p.toList ++ source) = all := h.rest
  cases p with
  | some message => exact .inr (.inr ⟨message, _, rfl, hr, rfl, rfl, rfl, rfl, rfl, rfl⟩)
  | none =>
    by_cases hw : (call.readAhead && !wait && !r) = true
    · left
      rw [Bool.and_eq_true, Bool.and_eq_true, Bool.not_eq_true'] at hw
      exact ⟨hw.1.2, by simp [readNextResponseItem, hw]⟩
    · right
      cases source with
      | nil =>
        refine .inl ⟨by simpa using hr, ?_⟩
        simp only [readNextResponseItem, if_neg hw, Call.endStatus]
        cases call.ending <;> rfl
      | cons message source =>
        refine .inr ⟨message, { source, messages, responseBodyLen, headersSent, done, log }, ?_, hr, rfl, rfl, rfl,
          rfl, rfl, rfl⟩
        simp only [readNextResponseItem, if_neg hw]

theorem At.accept (hr : Read s s') (hrest : taken ++ message :: s'.source = all)
    (hwithin : Within call.limits (taken ++ [message])) :
    ∃ s'', acceptResponseMessage call message s' = (none, s'') ∧ At call all (taken ++ [message]) s'' ∧
      Same s' s'' := by
  have hc := checkStreamLimits_within hwithin
  refine ⟨{ s' with messages := taken.length + 1, responseBodyLen := bodyTotal (taken ++ [message]) }, ?_,
    ⟨?_, by simp, rfl, hwithin⟩, rfl, rfl, rfl⟩
  · unfold acceptResponseMessage
    rw [hr.messages, hr.responseBodyLen, h.messages, h.responseBodyLen, hc]
  · rw [hr.pending, ← hrest, List.append_assoc]
    rfl

theorem At.refuse (hrest : Read s s')
    (hnot : ¬ Within call.limits (taken ++ [message])) :
    ∃ s'', acceptResponseMessage call message s' = (some (limitStatus call.limits taken.length), s'') ∧
      Same s' s'' := by
  have hc := checkStreamLimits_exceeded hnot
  rcases hr : checkStreamLimits "response" call.limits taken.length (bodyTotal taken) message.size
    with ⟨status, messages, responseBodyLen⟩
  rw [hr] at hc
  obtain rfl : status = _ := hc
  refine ⟨{ s' with messages, responseBodyLen }, ?_, rfl, rfl, rfl⟩
  unfold acceptResponseMessage
  rw [hrest.messages, hrest.responseBodyLen, h.messages, h.responseBodyLen, hr]

omit h

/-- What a batch takes after `taken`. -/
structure Filled (call : Call) (all taken more : List Message) (final : Option WireStatus) (s s' : State) : Prop where
  same : Same s s'
  goesOn : final = none → At call all (taken ++ more) s'
  ends : ∀ status, final = some status →
    taken ++ more = all.take (longest call.limits all) ∧ status = call.finalStatus all

theorem fillBatch_filled (hq : env.Quiet) (hf : ∀ message ∈ all, message.size ≤ call.maxFrameSize)
    (rounds : Nat) (b : List Message) (size : Nat) (h : At call all taken s) :
    ∃ more f s', fillBatch call env rounds b size s = .ok (b ++ more, f, s') ∧
      Filled call all taken more f s s' ∧ (0 < rounds → b = [] → f = none → more ≠ []) := by
  induction rounds generalizing b size taken s with
  | zero =>
    refine ⟨[], none, s, ?_, ⟨.refl s, fun _ => ?_, nofun⟩, by omega⟩
    · rw [List.append_nil]
      rfl
    · rwa [List.append_nil]
  | succ rounds ih =>
    rw [fillBatch, if_neg (by rw [hq.cancelled]; simp)]
    rcases readNextResponseItem_cases h (b.length = 0) (env.ready b.length) with
      ⟨hw, hre⟩ | ⟨hend, hre⟩ | ⟨message, s₁, hre, hr, hgot⟩
    · -- Nothing is ready.
      refine ⟨[], none, s, by rw [hre, List.append_nil], ⟨.refl s, fun _ => by rwa [List.append_nil], nofun⟩, ?_⟩
      rintro - rfl
      cases hw
    · -- The end of the stream.
      have hlon := longest_eq_length (hend ▸ h.within)
      refine ⟨[], some call.endStatus, s, by rw [hre, List.append_nil], ⟨.refl s, nofun, ?_⟩, nofun⟩
      rintro status ⟨⟩
      refine ⟨?_, (if_pos hlon).symm⟩
      rw [List.append_nil, hlon, List.take_length, hend]
    · rw [hre]
      dsimp only
      by_cases hb : 0 < b.length ∧ 0 < call.maxFrameSize ∧
          call.maxFrameSize < saturatingAdd size message.frame.length
      · -- The message waits for the next batch, and is counted there.
        rw [if_pos hb]
        refine ⟨[], none, { s₁ with pending := some message }, by rw [List.append_nil],
          ⟨{ hgot.same with }, fun _ => ?_, nofun⟩, ?_⟩
        · rw [List.append_nil]
          exact ⟨hr, hgot.messages.trans h.messages, hgot.responseBodyLen.trans h.responseBodyLen, h.within⟩
        · rintro - rfl
          exact absurd hb.1 (lt_irrefl 0)
      · rw [if_neg hb]
        by_cases hwit : Within call.limits (taken ++ [message])
        · obtain ⟨s₂, hac, hat, hs⟩ := h.accept hgot hr hwit
          obtain ⟨more, f, s', hfi, hfil, -⟩ :=
            ih (b ++ [message]) (saturatingAdd size message.frame.length) hat
          have ha (xs : List Message) : xs ++ [message] ++ more = xs ++ message :: more := by simp
          have hsi : message.size ≤ call.maxFrameSize := hf message (hr ▸ by simp)
          rw [hac]
          refine ⟨message :: more, f, s', ?_, ⟨(hgot.same.trans hs).trans hfil.same, ?_, ?_⟩, nofun⟩
          · dsimp only
            rw [if_neg (Nat.not_lt.mpr hsi), hfi, ha]
          · exact ha taken ▸ hfil.goesOn
          · exact ha taken ▸ hfil.ends
        · obtain ⟨s₂, hrf, hs⟩ := h.refuse hgot hwit
          have hlon : longest call.limits all = taken.length := hr ▸ longest_eq h.within hwit
          rw [hrf]
          refine ⟨[], some (limitStatus call.limits taken.length), s₂, by rw [List.append_nil],
            ⟨hgot.same.trans hs, nofun, ?_⟩, nofun⟩
          rintro status ⟨⟩
          rw [Call.finalStatus, hlon, ← hr, List.append_nil, List.take_left, if_neg (by simp)]
          exact ⟨rfl, rfl⟩

/-! ## Frames that are appended -/

theorem appendFrameHeader_eq (dst : Bytes) (typ l : Nat) :
    appendFrameHeader dst typ l = (appendFrameHeader [] typ l).map (dst ++ ·) := by
  unfold appendFrameHeader
  split <;> simp [Except.map]

theorem appendDirectFrameHeader_eq (dst : Bytes) (typ size maxFrameSize : Nat) :
    appendDirectFrameHeader dst typ size maxFrameSize =
      (appendDirectFrameHeader [] typ size maxFrameSize).map (dst ++ ·) := by
  unfold appendDirectFrameHeader
  rw [appendFrameHeader_eq dst]
  split_ifs <;> rfl

theorem map_append_eq (dst : Bytes) (f : Except AppendError Bytes) :
    f.map (dst ++ ·) = (f.map ([] ++ ·)).map (dst ++ ·) := by
  cases f <;> rfl

theorem bind_append_eq {dst : Bytes} {typ size maxFrameSize : Nat} {a : Bytes → Bytes}
    (ha : ∀ b, a b = b ++ a []) :
    (appendDirectFrameHeader dst typ size maxFrameSize >>= fun dst => .ok (a dst)) =
      (appendDirectFrameHeader [] typ size maxFrameSize >>= fun dst => .ok (a dst)).map (dst ++ ·) := by
  rw [appendDirectFrameHeader_eq]
  cases appendDirectFrameHeader [] typ size maxFrameSize with
  | error err => rfl
  | ok header =>
    simp only [Except.map, bind, Except.bind]
    rw [ha (dst ++ header), ha header, List.append_assoc]

theorem WireStatus.appendPayload_eq (status : WireStatus) (r : Nat → Loop) (b : Bytes) :
    status.appendPayload r b = b ++ status.appendPayload r [] := by
  simp only [WireStatus.appendPayload, appendMetadataField_eq, append_varintField, append_bytesField, List.append_assoc,
    List.nil_append]

theorem WireHeaders.appendPayload_eq (headers : WireHeaders) (r : Nat → Loop) (b : Bytes) :
    headers.appendPayload r b = b ++ headers.appendPayload r [] := by
  simp only [WireHeaders.appendPayload, appendMetadataField_eq, List.nil_append]

theorem Call.appendStatus_eq (call : Call) (dst : Bytes) (status : WireStatus) :
    call.appendStatus dst status = (call.appendStatus [] status).map (dst ++ ·) := by
  unfold Call.appendStatus appendStatusFrame
  split_ifs
  · exact appendFrameHeader_eq _ _ _
  · cases status.payloadSize call.encoder.sizeRange with
    | none => exact map_append_eq dst _
    | some size => exact bind_append_eq (WireStatus.appendPayload_eq status call.encoder.range)

theorem Call.appendHeaders_eq (call : Call) (dst : Bytes) :
    call.appendHeaders dst = (call.appendHeaders []).map (dst ++ ·) := by
  unfold Call.appendHeaders appendHeadersFrame
  dsimp only
  cases ({ metadata := call.headers } : WireHeaders).payloadSize call.encoder.sizeRange with
  | none => exact map_append_eq dst _
  | some size => exact bind_append_eq (WireHeaders.appendPayload_eq { metadata := call.headers } call.encoder.range)

def Call.answerFrame (call : Call) : Except AppendError Bytes :=
  if call.answerDispatched then .ok []
  else
    match call.answer with
    | none => .ok []
    | some answer => appendAnswerFrame [] answer call.maxFrameSize

/-- The HEADERS of a call that has headers. -/
def Call.headersFrame (call : Call) : Except AppendError Bytes :=
  if call.headers = ∅ then .ok [] else call.appendHeaders []

theorem Call.headersFrames_eq (call : Call) :
    call.headersFrames = call.answerFrame.bind fun a => call.headersFrame.map (a ++ ·) := by
  have hh (fs : Bytes) :
      (if call.headers = ∅ then .ok fs else call.appendHeaders fs) = call.headersFrame.map (fs ++ ·) := by
    unfold Call.headersFrame
    split_ifs
    · rw [Except.map, List.append_nil]
    · exact call.appendHeaders_eq fs
  unfold Call.headersFrames Call.answerFrame
  simp only [hh]
  split_ifs
  · rfl
  · cases call.answer <;> rfl

/-! ## The response -/

def Wrote (body status : Bytes) (log log' : List Event) : Prop :=
  ∃ (writes : List Bytes) (last : Bytes), writes.flatten ++ last = body ∧
    log' = log ++ (writes.map Event.write ++ [.beforeStatus, .write (last ++ status)])

theorem Wrote.last (body status : Bytes) (log : List Event) :
    Wrote body status log (log ++ [.beforeStatus, .write (body ++ status)]) :=
  ⟨[], body, rfl, rfl⟩

variable {status : Bytes}

theorem Wrote.cons {bs body : Bytes} {log log' : List Event}
    (h : Wrote body status (log ++ [.write bs]) log') : Wrote (bs ++ body) status log log' := by
  obtain ⟨ws, last, hb, hlog⟩ := h
  refine ⟨bs :: ws, last, ?_, ?_⟩
  · rw [List.flatten_cons, List.append_assoc, hb]
  · rw [hlog, List.append_assoc]
    rfl

theorem writeFinalFrames_eq {f : WireStatus} (hq : env.Quiet)
    (hs : call.appendStatus [] f = .ok status) (headers : Bytes) (b : List Message) (s : State) :
    writeFinalFrames call env headers b f s = ((true, none), { s with
      done := true, log := s.log ++ [.beforeStatus, .write (headers ++ b.flatMap Message.frame ++ status)] }) := by
  unfold writeFinalFrames writeJoined
  dsimp only
  rw [call.appendStatus_eq, hs, hq.writeErr]
  simp only [Except.map, write, List.append_assoc, List.singleton_append]

variable {headers : Bytes}

theorem writeBatch_none {b : List Message} (hq : env.Quiet) (hb : b ≠ [])
    (hf : fillBatch call env handlerReadAheadMessages [] headers.length s = .ok (b, none, s')) :
    writeBatch call env headers s =
      ((false, none), { s' with log := s'.log ++ [.write (headers ++ b.flatMap Message.frame)] }) := by
  unfold writeBatch
  rw [hf]
  cases b with
  | nil => exact absurd rfl hb
  | cons message b =>
    cases headers with
    | cons byte headers => simp only [writeJoined, write, hq.writeErr]
    | nil =>
      cases b with
      | cons => simp only [writeJoined, write, hq.writeErr]
      | nil => simp only [write, hq.writeErr, List.flatMap_singleton, List.nil_append]

theorem writeBatch_cases (hq : env.Quiet)
    (hft : ∀ message ∈ all, message.size ≤ call.maxFrameSize)
    (hs : call.appendStatus [] (call.finalStatus all) = .ok status) (headers : Bytes) (h : At call all taken s) :
    ∃ more s',
      writeBatch call env headers s = ((true, none), s') ∧ taken ++ more = all.take (longest call.limits all) ∧
        Wrote (headers ++ more.flatMap Message.frame) status s.log s'.log ∨
      writeBatch call env headers s = ((false, none), s') ∧ more ≠ [] ∧ At call all (taken ++ more) s' ∧
        s'.headersSent = s.headersSent ∧ s'.done = s.done ∧
        s'.log = s.log ++ [.write (headers ++ more.flatMap Message.frame)] := by
  obtain ⟨more, f, s', hf, hfil, hm⟩ :=
    fillBatch_filled hq hft handlerReadAheadMessages [] headers.length h
  rw [List.nil_append] at hf
  cases f with
  | some f =>
    obtain ⟨hall, rfl⟩ := hfil.ends f rfl
    have hfi := writeFinalFrames_eq hq hs headers more s'
    refine ⟨more, _, .inl ⟨by unfold writeBatch; rw [hf]; exact hfi, hall, ?_⟩⟩
    dsimp only
    rw [hfil.same.log]
    exact .last _ _ _
  | none =>
    have hb : more ≠ [] := hm (by decide) rfl rfl
    refine ⟨more, _, .inr ⟨writeBatch_none hq hb hf, hb, { hfil.goesOn rfl with },
      hfil.same.headersSent, hfil.same.done, ?_⟩⟩
    dsimp only
    rw [hfil.same.log]

theorem writeNext_sent (hq : env.Quiet) (hd : s.done = false) (hs : s.headersSent = true) :
    writeNext call env s = writeBatch call env [] s := by
  simp only [writeNext, hq.ctxErr, hd, hs, Bool.false_eq_true, if_false, if_true]

def Finishes (call : Call) (envs : List Env) (all taken : List Message) (status : Bytes) : Prop :=
  ∀ s, At call all taken s → s.done = false → s.headersSent = true →
    ∃ more s', taken ++ more = all.take (longest call.limits all) ∧ writeAll call envs s = some ((true, none), s') ∧
      Wrote (more.flatMap Message.frame) status s.log s'.log

theorem Finishes.cons {envs : List Env} {st : State} (hq : env.Quiet)
    (hf : ∀ message ∈ all, message.size ≤ call.maxFrameSize)
    (hs : call.appendStatus [] (call.finalStatus all) = .ok status) (h : At call all taken s)
    (hd : s.done = false) (hsent : s.headersSent = true)
    (hn : writeNext call env st = writeBatch call env headers s)
    (hm : ∀ more, more ≠ [] → Finishes call envs all (taken ++ more) status) :
    ∃ more s', taken ++ more = all.take (longest call.limits all) ∧
      writeAll call (env :: envs) st = some ((true, none), s') ∧
      Wrote (headers ++ more.flatMap Message.frame) status s.log s'.log := by
  rw [writeAll, hn]
  obtain ⟨more, s', ⟨hb, hall, hw⟩ | ⟨hb, hne, hat, hs', hd', hlog⟩⟩ :=
    writeBatch_cases hq hf hs headers h
  · rw [hb]
    exact ⟨more, s', hall, rfl, hw⟩
  · obtain ⟨rest, s'', hall, hwr, hw⟩ := hm more hne s' hat (hd'.trans hd) (hs'.trans hsent)
    rw [hlog] at hw
    rw [hb]
    refine ⟨more ++ rest, s'', by rw [← hall, List.append_assoc], hwr, ?_⟩
    rw [List.flatMap_append, ← List.append_assoc]
    exact hw.cons

theorem finishes {status : Bytes} (hf : ∀ message ∈ all, message.size ≤ call.maxFrameSize)
    (hst : call.appendStatus [] (call.finalStatus all) = .ok status) (envs : List Env)
    (hq : ∀ env ∈ envs, env.Quiet) (taken : List Message) (hlen : all.length < taken.length + envs.length) :
    Finishes call envs all taken status := by
  induction envs generalizing taken with
  | nil =>
    intro s h
    have hle := congrArg List.length h.rest
    rw [List.length_append] at hle
    exact absurd hlen (by simp; omega)
  | cons env envs ih =>
    obtain ⟨hq, hqu⟩ := List.forall_mem_cons.mp hq
    rw [List.length_cons] at hlen
    intro s h hd hs
    refine Finishes.cons hq hf hst h hd hs (writeNext_sent hq hd hs) fun more hne => ?_
    have hpos := List.length_pos_iff.mpr hne
    exact ih hqu _ (by rw [List.length_append]; omega)

theorem at_start (call : Call) (all : List Message) (log : List Event) :
    At call all [] { source := all, headersSent := true, log } :=
  ⟨rfl, rfl, rfl, within_nil _⟩

theorem writeNext_start (hq : env.Quiet) (hh : call.headersFrames = .ok headers) :
    writeNext call env { source := all } =
        writeBatch call env [] { source := all, headersSent := true, log := [.write headers] } ∨
      writeNext call env { source := all } = writeBatch call env headers { source := all, headersSent := true } := by
  by_cases hj : headers ≠ [] ∧ call.readAhead = true
  · left
    simp only [writeNext, hq.ctxErr, hh, Bool.false_eq_true, if_false, if_pos hj, write, hq.headersErr,
      List.nil_append]
  · right
    simp only [writeNext, hq.ctxErr, hh, Bool.false_eq_true, if_false, if_neg hj]

theorem writeAll_start {status : Bytes} (hf : ∀ message ∈ all, message.size ≤ call.maxFrameSize)
    (hh : call.headersFrames = .ok headers)
    (hs : call.appendStatus [] (call.finalStatus all) = .ok status) (envs : List Env)
    (hq : ∀ env ∈ envs, env.Quiet) (hlen : all.length < envs.length) :
    ∃ s, writeAll call envs { source := all } = some ((true, none), s) ∧
      Wrote (headers ++ (all.take (longest call.limits all)).flatMap Message.frame) status [] s.log := by
  cases envs with
  | nil => exact absurd hlen (Nat.not_lt_zero _)
  | cons env envs =>
    obtain ⟨hq, hqu⟩ := List.forall_mem_cons.mp hq
    rw [List.length_cons] at hlen
    have hm (more : List Message) (hne : more ≠ []) : Finishes call envs all ([] ++ more) status := by
      have hpos := List.length_pos_iff.mpr hne
      exact finishes hf hs envs hqu _ (by rw [List.nil_append]; omega)
    rcases writeNext_start hq hh with hn | hn
    · obtain ⟨more, s, rfl, hwr, hw⟩ :=
        Finishes.cons hq hf hs (at_start call all [.write headers]) rfl rfl hn hm
      exact ⟨s, hwr, hw.cons⟩
    · obtain ⟨more, s, rfl, hwr, hw⟩ :=
        Finishes.cons hq hf hs (at_start call all []) rfl rfl hn hm
      exact ⟨s, hwr, hw⟩

theorem writeAll_headersError {err : AppendError} (hh : call.headersFrames = .error err) (hp : err ≠ .panicked)
    (hs : call.appendStatus [] internalServerStatus = .ok status) (envs : List Env)
    (hq : ∀ env ∈ envs, env.Quiet) (hlen : 0 < envs.length) :
    ∃ s, writeAll call envs { source := all } = some ((true, none), s) ∧ s.log = [.beforeStatus, .write status] := by
  cases envs with
  | nil => exact absurd hlen (Nat.not_lt_zero _)
  | cons env envs =>
    obtain ⟨hq, -⟩ := List.forall_mem_cons.mp hq
    have hf := writeFinalFrames_eq hq hs [] [] { source := all, headersSent := true }
    have hn : writeNext call env { source := all } =
        writeFinalFrames call env [] [] internalServerStatus { source := all, headersSent := true } := by
      cases err with
      | panicked => exact absurd rfl hp
      | frameTooLarge | marshal => simp only [writeNext, hq.ctxErr, hh, Bool.false_eq_true, if_false, wireStatus]
    rw [writeAll, hn, hf]
    exact ⟨_, rfl, rfl⟩

structure WritesResponse (call : Call) (all : List Message) (s : State) (answer headers status : Bytes) : Prop where
  written : Wrote (answer ++ headers ++ (all.take (longest call.limits all)).flatMap Message.frame) status [] s.log
  within : Within call.limits (all.take (longest call.limits all))
  longest : longest call.limits all < all.length → ¬ Within call.limits (all.take (longest call.limits all + 1))

theorem response_is_written (call : Call) (all : List Message)
    (hfits : ∀ message ∈ all, message.size ≤ call.maxFrameSize) (envs : List Env) (hquiet : ∀ env ∈ envs, env.Quiet)
    (hlength : all.length < envs.length) :
    (∀ answer headers status, call.answerFrame = .ok answer → call.headersFrame = .ok headers →
      call.appendStatus [] (call.finalStatus all) = .ok status →
      ∃ s, writeAll call envs { source := all } = some ((true, none), s) ∧
        WritesResponse call all s answer headers status) ∧
    ∀ err status, call.answerFrame = .error err ∨
        (∃ answer, call.answerFrame = .ok answer ∧ call.headersFrame = .error err) → err ≠ .panicked →
      call.appendStatus [] internalServerStatus = .ok status →
      ∃ s, writeAll call envs { source := all } = some ((true, none), s) ∧ s.log = [.beforeStatus, .write status] := by
  refine ⟨fun answer headers status hanswer hheaders hstatus => ?_, fun err status herr hpanic hstatus => ?_⟩
  · have hframes : call.headersFrames = .ok (answer ++ headers) := by
      rw [call.headersFrames_eq, hanswer, Except.bind, hheaders, Except.map]
    obtain ⟨s, hall, hwrote⟩ := writeAll_start hfits hframes hstatus envs hquiet hlength
    exact ⟨s, hall, hwrote, within_longest _ _, not_within_succ⟩
  · have hframes : call.headersFrames = .error err := by
      rw [call.headersFrames_eq]
      rcases herr with herr | ⟨answer, hanswer, herr⟩
      · rw [herr, Except.bind]
      · rw [hanswer, Except.bind, herr, Except.map]
    exact writeAll_headersError hframes hpanic hstatus envs hquiet (by omega)

def answered (range : Loop) (maxFrameSize : Nat) (dictionaries : List DictionaryInfo) : Call where
  encoder := { headersFrame := fun _ _ => .error .panicked, statusFrame := fun _ _ => .error .panicked,
               sizeRange := fun _ => range, range := fun _ => range }
  answer := some { dictionaries, streamCompression := true }
  maxFrameSize
  readAhead := true

theorem response_is_written_two_batches :
    ∃ (range : Loop) (s : State),
      writeAll (answered range 5 []) [{ ready := fun _ => false }, { ready := fun _ => true },
        { ready := fun _ => true }]
        { source := [⟨[4, 1, 3], 1⟩, ⟨[4, 0], 0⟩] } = some ((true, none), s) ∧
      WritesResponse (answered range 5 []) [⟨[4, 1, 3], 1⟩, ⟨[4, 0], 0⟩] s [6, 2, 16, 1] [] [3, 0] := by
  obtain ⟨range⟩ : Nonempty Loop := ⟨fun metadata => Classical.choice (nonempty_range metadata)⟩
  have hquiet (ready : Nat → Bool) : ({ ready } : Env).Quiet := ⟨rfl, fun _ => rfl, rfl, rfl⟩
  refine ⟨range, (response_is_written (answered range 5 []) _ ?_ _ ?_ (by decide)).1 _ _ _ rfl rfl rfl⟩
  · simp [answered]
  · simp [hquiet]

theorem range_empty (range : Loop) : (range ∅).1 = [] := by
  refine List.eq_nil_iff_forall_not_mem.mpr fun entry hentry => ?_
  have hlookup := ((range ∅).2.2 entry.1 entry.2).mp hentry
  rw [Finmap.lookup_empty] at hlookup
  cases hlookup

theorem appendStatus_internal (range : Loop) (dictionaries : List DictionaryInfo) :
    (answered range 30 dictionaries).appendStatus [] internalServerStatus =
      .ok ([3, 25, 8, 13, 18, 21] ++ internalServerStatus.message) := by
  have hsize : internalServerStatus.payloadSize (fun _ => range) = some 25 := by
    simp only [WireStatus.payloadSize, metadataValid, metadataFieldSize, internalServerStatus, range_empty]
    decide +kernel
  have happend (b : Bytes) : internalServerStatus.appendPayload (fun _ => range) b =
      b ++ ([8, 13, 18, 21] ++ internalServerStatus.message) := by
    rw [WireStatus.appendPayload_eq]
    simp only [WireStatus.appendPayload, appendMetadataField, internalServerStatus, range_empty]
    congr 1
  rw [Call.appendStatus, appendStatusFrame, if_neg (fun h => absurd h.1 (by decide))]
  simp only [answered, hsize, happend]
  rfl

/-- A fingerprint of 32 bytes does not fit where the STATUS does. -/
theorem answer_too_large :
    ∃ range : Loop, ∃ s : State,
      writeAll (answered range 30 [⟨1, List.replicate 32 7⟩]) [{ ready := fun _ => true }] { source := [⟨[4, 0], 0⟩] } =
        some ((true, none), s) ∧
      s.log = [.beforeStatus, .write ([3, 25, 8, 13, 18, 21] ++ internalServerStatus.message)] := by
  obtain ⟨range⟩ : Nonempty Loop := ⟨fun metadata => Classical.choice (nonempty_range metadata)⟩
  have hheaders : (answered range 30 [⟨1, List.replicate 32 7⟩]).headersFrames = .error (.frameTooLarge 40 30) := by
    rw [Call.headersFrames_eq]
    rfl
  have hquiet : ({ ready := fun _ => true } : Env).Quiet := ⟨rfl, fun _ => rfl, rfl, rfl⟩
  exact ⟨range, writeAll_headersError hheaders nofun (appendStatus_internal range _) _ (by simpa using hquiet)
    (by decide)⟩

end TrevRpc.Go.ResponseStream
