import TrevRpc.Go.ReadAhead.Model

/-! # The handshakes of the read-ahead -/

open TrevRpc.Run

namespace TrevRpc.Go.ReadAhead

/-! ## What is where -/

/-- The item that the goroutine holds. -/
def Reader.held : Reader → List Item
  | received item | park item | push item => [item]
  | _ => []

/-- The item that the writer holds. -/
def Writer.inHand : Writer → List Item
  | taking item _ | stored item _ | waking item _ | taken item _ => [item]
  | _ => []

def Writer.uncounted : Writer → List Item
  | taking item _ => [item]
  | _ => []

def bytes (items : List Item) : Nat := (items.map (·.message.size)).sum

def lastBytes (items : List Item) : Nat := (items.getLast?.map (·.message.size)).getD 0

/-- What is read ahead. -/
def State.readAhead (s : State) : List Item := s.items ++ s.reader.held

/-- The goroutine has room, as far as it knows. -/
def Reader.roomy : Reader → Bool
  | top | demand | claim | receiving | received _ | park _ | push _ | relent => true
  | _ => false

def Reader.pushed : Reader → Bool
  | measure | load | announce | recheck | relent | space | resume | top | demand => true
  | _ => false

def Reader.parked : Reader → Bool
  | push _ => true
  | reader => reader.pushed

def Reader.announced : Reader → Bool
  | recheck | relent | space | resume => true
  | _ => false

def Reader.inRecv : Reader → Bool
  | receiving | received _ => true
  | _ => false

def Reader.left : Reader → Bool
  | returned => true
  | _ => false

def Reader.atEnd : Reader → Bool
  | ended => true
  | _ => false

def Reader.atDemand : Reader → Bool
  | demand => true
  | _ => false

def Reader.atSpace : Reader → Bool
  | space => true
  | _ => false

def Writer.asking : Writer → Bool
  | notifying => true
  | _ => false

def Writer.waits : Writer → Bool
  | awaiting => true
  | _ => false

def Writer.counted : Writer → Bool
  | stored _ _ | waking _ _ => true
  | _ => false

/-- The writer closes `done` next. -/
def Writer.closesDone : Writer → Bool
  | swapped => true
  | _ => false

def Writer.shuts : Writer → Bool
  | swapped | draining => true
  | _ => false

def Writer.inNext : Writer → Bool
  | polling _ | await | notifying | awaiting | taking _ _ | stored _ _ | waking _ _ | taken _ _ => true
  | _ => false

structure Inv (s : State) : Prop where
  sublist : (s.delivered ++ s.writer.inHand ++ s.items ++ s.reader.held).Sublist s.read
  upTo : s.closed = false → s.abandoned = false →
    s.delivered ++ s.writer.inHand ++ s.items ++ s.reader.held <+: s.read
  all : s.closed = false → s.abandoned = false → s.reader.left = false →
    s.delivered ++ s.writer.inHand ++ s.items ++ s.reader.held = s.read
  held : s.reader.held <:+ s.read
  count : s.items.length ≤ handlerReadAheadMessages - 1
  queued : s.takenBytes + bytes s.writer.uncounted + bytes s.items ≤ s.pushedBytes
  queuedAll : s.closed = false → s.takenBytes + bytes s.writer.uncounted + bytes s.items = s.pushedBytes
  known : s.knownBytes ≤ s.takenBytes
  roomy : s.reader.roomy = true → s.pushedBytes < s.knownBytes + handlerReadAheadBytes
  last : s.pushedBytes + bytes s.reader.held < s.knownBytes + handlerReadAheadBytes + lastBytes s.read
  asked : s.ahead = false → s.reader.parked = true → s.parked = true ∨ s.demand = true ∨ s.writer.asking = true
  token : s.writer.waits = true → s.items = [] → s.ahead = false → s.reader.pushed = true → s.demand = true
  onRequest : s.reader.atDemand = true → s.ahead = false
  announced : s.reader.announced = true → s.producerWaiting = true
  full : s.reader.atSpace = true → s.knownBytes + handlerReadAheadBytes ≤ s.pushedBytes
  woken : s.reader.atSpace = true → s.space = true ∨ s.writer.counted = true ∨ s.takenBytes = s.knownBytes
  left : s.reader.left = true → s.ctxEnded = true ∨ s.closed = true
  closedState : s.state = .closed → s.closed = true
  claimed : s.state = .receiving → s.reader.inRecv = true
  claims : s.reader.inRecv = true → s.state = .receiving ∨ s.closed = true
  active : s.writer.inNext = true → s.abandoned = false
  shuts : s.writer.shuts = true → s.closed = true
  isClosed : s.done = true → s.closed = true
  closing : s.closed = true → s.done = true ∨ s.writer.closesDone = true
  ended : s.reader.atEnd = true → ∃ item, s.read.getLast? = some item ∧ item.err ≠ none

theorem Inv.initial : Inv {} where
  sublist := .refl _
  upTo _ _ := List.prefix_refl _
  all _ _ _ := rfl
  held := List.suffix_refl _
  count := by decide
  queued := by decide
  queuedAll _ := rfl
  known := by decide
  roomy _ := by decide
  last := by decide
  asked := nofun
  token := nofun
  onRequest := nofun
  announced := nofun
  full := nofun
  woken := nofun
  left := nofun
  closedState := nofun
  claimed := nofun
  claims := nofun
  active := nofun
  shuts := nofun
  isClosed := nofun
  closing := nofun
  ended := nofun

variable {s s' : State} {r : Reader}

theorem Reader.parked_of_pushed (h : r.pushed = true) : r.parked = true := by
  cases r <;> first | exact h | rfl

theorem Reader.announced_of_atSpace (h : r.atSpace = true) : r.announced = true := by
  cases r <;> first | exact h | rfl

theorem bytes_append (xs ys : List Item) : bytes (xs ++ ys) = bytes xs + bytes ys := by
  simp only [bytes, List.map_append, List.sum_append]

theorem lastBytes_append (xs : List Item) (item : Item) : lastBytes (xs ++ [item]) = item.message.size := by
  simp only [lastBytes, List.getLast?_concat, Option.map_some, Option.getD_some]

theorem hasRoom_iff : s.hasRoom = true ↔ s.pushedBytes < s.knownBytes + handlerReadAheadBytes := by
  have hpos : 0 < handlerReadAheadBytes := by decide
  unfold State.hasRoom
  rw [decide_eq_true_iff]
  omega

variable (h : Inv s)
include h

theorem Inv.leave (hl : s.ctxEnded = true ∨ s.closed = true) (hs : s.state ≠ .receiving) :
    Inv { s with reader := .returned } where
  __ := h
  sublist := by
    have hd : (s.delivered ++ s.writer.inHand ++ s.items ++ []).Sublist
        (s.delivered ++ s.writer.inHand ++ s.items ++ s.reader.held) :=
      (List.Sublist.refl _).append (List.nil_sublist _)
    exact hd.trans h.sublist
  upTo hc ha := by
    change s.delivered ++ s.writer.inHand ++ s.items ++ [] <+: s.read
    rw [List.append_nil]
    exact (List.prefix_append _ _).trans (h.upTo hc ha)
  all := nofun
  held := List.nil_suffix
  roomy := nofun
  last := Nat.lt_of_le_of_lt (Nat.add_le_add_left (Nat.zero_le _) _) h.last
  asked := nofun
  token := nofun
  onRequest := nofun
  announced := nofun
  full := nofun
  woken := nofun
  left _ := hl
  claimed hrec := absurd hrec hs
  claims := nofun
  ended := nofun

theorem Inv.knows (hs : s.reader.atSpace = false) : Inv { s with knownBytes := s.takenBytes } where
  __ := h
  known := Nat.le_refl _
  roomy hr := Nat.lt_of_lt_of_le (h.roomy hr) (Nat.add_le_add_right h.known _)
  last := Nat.lt_of_lt_of_le h.last (Nat.add_le_add_right (Nat.add_le_add_right h.known _) _)
  full hat := absurd (hs.symm.trans hat) nofun
  woken _ := .inr (.inr rfl)

theorem Inv.push {item : Item} (hr : s.reader = .push item)
    (hcount : s.items.length < handlerReadAheadMessages - 1)
    (hafter : r = .measure ∨ r = .ended ∧ item.err ≠ none) : Inv (s.push item r) := by
  have hh : r.held = [] ∧ r.roomy = false ∧ r.inRecv = false ∧ r.left = false ∧
      r.atSpace = false ∧ r.announced = false ∧ r.atDemand = false := by
    rcases hafter with rfl | ⟨rfl, -⟩ <;> exact ⟨rfl, rfl, rfl, rfl, rfl, rfl, rfl⟩
  obtain ⟨hh, hro, hinRecv, hl, hsp, han, hdem⟩ := hh
  have hsa : s.delivered ++ s.writer.inHand ++ (s.items ++ [item]) ++ r.held =
      s.delivered ++ s.writer.inHand ++ s.items ++ s.reader.held := by
    rw [hh, hr, List.append_nil, List.append_assoc _ s.items]
    rfl
  have hbytes : bytes (s.items ++ [item]) = bytes s.items + item.message.size := by
    simp [bytes]
  have hla : s.read.getLast? = some item := by
    have hs := h.held
    rw [hr] at hs
    obtain ⟨before, hb⟩ := hs
    rw [← hb]
    exact List.getLast?_concat
  exact { h with
    sublist := hsa ▸ h.sublist
    upTo := fun hc ha => hsa ▸ h.upTo hc ha
    all := fun hc ha _ => hsa ▸ h.all hc ha (by rw [hr]; rfl)
    held := by
      change r.held <:+ s.read
      rw [hh]
      exact List.nil_suffix
    count := by
      change (s.items ++ [item]).length ≤ _
      rw [List.length_append, List.length_singleton]
      omega
    queued := by
      have hq := h.queued
      change s.takenBytes + bytes s.writer.uncounted + bytes (s.items ++ [item]) ≤ s.pushedBytes + item.message.size
      omega
    queuedAll := fun hc => by
      have hq := h.queuedAll hc
      change s.takenBytes + bytes s.writer.uncounted + bytes (s.items ++ [item]) = s.pushedBytes + item.message.size
      omega
    roomy := fun hr' => absurd (hro.symm.trans hr') nofun
    last := by
      have hla := h.last
      rw [hr] at hla
      change s.pushedBytes + item.message.size + bytes r.held < _
      rw [hh]
      exact hla
    asked := fun hah hpar => h.asked hah (by rw [hr]; rfl)
    token := fun _ hem => absurd hem (List.append_ne_nil_of_right_ne_nil _ (List.cons_ne_nil _ _))
    onRequest := fun hd' => absurd (hdem.symm.trans hd') nofun
    announced := fun ha' => absurd (han.symm.trans ha') nofun
    full := fun hs' => absurd (hsp.symm.trans hs') nofun
    woken := fun hs' => absurd (hsp.symm.trans hs') nofun
    left := fun hl' => absurd (hl.symm.trans hl') nofun
    claimed := fun hst => by
      have hcl := h.claimed hst
      rw [hr] at hcl
      cases hcl
    claims := fun hinRecv' => absurd (hinRecv.symm.trans hinRecv') nofun
    ended := fun hen => by
      rcases hafter with rfl | ⟨-, herr⟩
      · cases hen
      · exact ⟨item, hla, herr⟩ }

theorem Inv.take {item : Item} {rest : List Item} {p blocked : Bool} (hi : s.items = item :: rest)
    (hh : s.writer.inHand = []) (hw : s.writer.uncounted = []) (hasking : s.writer.asking = false)
    (hcounted : s.writer.counted = false) (hshuts : s.writer.closesDone = false) (hn : s.writer.inNext = true) :
    Inv { s with items := rest, blocked := blocked, writer := .taking item p } := by
  have hs : s.delivered ++ [item] ++ rest ++ s.reader.held =
      s.delivered ++ s.writer.inHand ++ s.items ++ s.reader.held := by
    rw [hh, hi, List.append_nil, List.append_assoc s.delivered]
    rfl
  have hbytes : bytes [item] + bytes rest = bytes s.writer.uncounted + bytes s.items := by
    rw [hw, hi, ← List.singleton_append, bytes_append]
    exact (Nat.zero_add _).symm
  exact { h with
    sublist := hs ▸ h.sublist
    upTo := fun hc ha => hs ▸ h.upTo hc ha
    all := fun hc ha hl => hs ▸ h.all hc ha hl
    count := by
      have hco := h.count
      rw [hi, List.length_cons] at hco
      exact Nat.le_of_succ_le hco
    queued := by
      have hq := h.queued
      change s.takenBytes + bytes [item] + bytes rest ≤ s.pushedBytes
      omega
    queuedAll := fun hc => by
      have hq := h.queuedAll hc
      change s.takenBytes + bytes [item] + bytes rest = s.pushedBytes
      omega
    asked := fun hah hpar => by
      have hask := h.asked hah hpar
      rw [hasking] at hask
      exact hask.imp_right (.imp_right nofun)
    token := nofun
    woken := fun hsp => by
      have hwo := h.woken hsp
      rw [hcounted] at hwo
      exact hwo.imp_right (.imp_left nofun)
    active := fun _ => h.active hn
    shuts := nofun
    closing := fun hc => by
      have hcl := h.closing hc
      rw [hshuts] at hcl
      exact hcl.imp_right nofun }

theorem Inv.step {a : Action} (hs : step s a = some s') : Inv s' := by
  obtain ⟨items, space, demand, done, state, producerWaiting, parked, takenBytes, blocked, abandoned, closed, ctxEnded,
    reader, ahead, pushedBytes, knownBytes, writer, read, delivered⟩ := s
  cases a with
  | readerTop =>
    obtain ⟨rfl, hs⟩ := Option.ite_none_right_eq_some.mp hs
    split_ifs at hs with hah hctx <;> cases hs
    · exact { h with onRequest := fun _ => hah }
    · exact h.leave (.inl hctx) fun hst => nomatch h.claimed hst
    · exact { h with asked := nofun, token := nofun }
  | readerAsked =>
    obtain ⟨⟨rfl, hdem⟩, rfl⟩ := of_guard hs
    exact { h with asked := nofun, token := nofun, onRequest := nofun }
  | readerClaims =>
    obtain ⟨rfl, hs⟩ := Option.ite_none_right_eq_some.mp hs
    split_ifs at hs with hst <;> cases hs
    · exact { h with closedState := nofun, claimed := fun _ => rfl, claims := fun _ => .inl rfl }
    · have hrec : state ≠ .receiving := fun hst => nomatch h.claimed hst
      have hc : closed = true := by
        cases state with
        | idle => exact absurd rfl hst
        | receiving => exact absurd rfl hrec
        | closed => exact h.closedState rfl
      exact h.leave (.inr hc) hrec
  | recvReturns item =>
    obtain ⟨rfl, rfl⟩ := of_guard hs
    have hro := h.roomy rfl
    have hsu := h.sublist
    have hall := h.all
    simp only [Reader.held, List.append_nil] at hsu hall
    exact { h with
      sublist := hsu.append (.refl _)
      upTo := fun hc ha => (congrArg (· ++ [item]) (hall hc ha rfl)) ▸ List.prefix_refl _
      all := fun hc ha _ => congrArg (· ++ [item]) (hall hc ha rfl)
      held := List.suffix_append _ _
      last := by
        change pushedBytes + bytes [item] < knownBytes + handlerReadAheadBytes + lastBytes (read ++ [item])
        rw [lastBytes_append]
        exact Nat.add_lt_add_right hro _
      ended := nofun }
  | readerReleases ahead' =>
    dsimp only [ReadAhead.step] at hs
    split at hs
    case h_2 => cases hs
    case h_1 item =>
      by_cases hst : state = .receiving
      · rw [if_pos hst] at hs
        split_ifs at hs <;> cases hs
        all_goals exact { h with
          asked := nofun
          token := nofun
          onRequest := nofun
          closedState := nofun
          claimed := nofun
          claims := nofun }
      · rw [if_neg hst] at hs
        cases hs
        exact h.leave (.inr ((h.claims rfl).resolve_left hst)) hst
  | readerParks =>
    dsimp only [ReadAhead.step] at hs
    split at hs
    case h_2 => cases hs
    case h_1 item =>
      cases hs
      exact { h with asked := fun _ _ => .inl rfl }
  | readerPushes =>
    dsimp only [ReadAhead.step] at hs
    split at hs
    case h_2 => cases hs
    case h_1 item =>
      split_ifs at hs with hco herr <;> cases hs
      · exact h.push rfl hco (.inl rfl)
      · exact h.push rfl hco (.inr ⟨rfl, herr⟩)
  | readerMeasures =>
    obtain ⟨rfl, hs⟩ := Option.ite_none_right_eq_some.mp hs
    split_ifs at hs with hr <;> cases hs
    · exact { h with roomy := fun _ => hasRoom_iff.mp hr }
    · exact { h with }
  | readerLoads =>
    obtain ⟨rfl, hs⟩ := Option.ite_none_right_eq_some.mp hs
    have h := h.knows rfl
    split_ifs at hs with hr <;> cases hs
    · exact { h with roomy := fun _ => hasRoom_iff.mp hr }
    · exact { h with }
  | readerAnnounces =>
    obtain ⟨rfl, rfl⟩ := of_guard hs
    exact { h with announced := fun _ => rfl }
  | readerRechecks =>
    obtain ⟨rfl, hs⟩ := Option.ite_none_right_eq_some.mp hs
    have h := h.knows rfl
    dsimp only at hs
    split_ifs at hs with hr <;> cases hs
    · exact { h with roomy := fun _ => hasRoom_iff.mp hr }
    · exact { h with full := fun _ => Nat.le_of_not_lt (mt hasRoom_iff.mpr hr), woken := fun _ => .inr (.inr rfl) }
  | readerRelents | readerResumes =>
    obtain ⟨rfl, rfl⟩ := of_guard hs
    exact { h with announced := nofun }
  | readerWoken =>
    obtain ⟨⟨rfl, hsp⟩, rfl⟩ := of_guard hs
    exact { h with full := nofun, woken := nofun }
  | readerQuits =>
    dsimp only [ReadAhead.step] at hs
    split at hs
    case h_4 => cases hs
    all_goals
      obtain ⟨hq, rfl⟩ := of_guard hs
      exact h.leave (hq.symm.imp_right h.isClosed) fun hst => nomatch h.claimed hst
  | next wait =>
    obtain ⟨⟨rfl, ha⟩, hs⟩ := Option.ite_none_right_eq_some.mp hs
    split_ifs at hs <;> cases hs <;> exact { h with active := fun _ => ha }
  | polls =>
    dsimp only [ReadAhead.step] at hs
    split at hs
    case h_2 => cases hs
    case h_1 wait =>
      split at hs
      case h_1 item rest =>
        cases hs
        exact h.take rfl rfl rfl rfl rfl rfl rfl
      case h_2 =>
        split_ifs at hs <;> cases hs
        · exact { h with }
        · exact { h with active := nofun }
  | asks =>
    obtain ⟨rfl, hs⟩ := Option.ite_none_right_eq_some.mp hs
    split_ifs at hs with hpar <;> cases hs
    · exact { h with asked := fun _ _ => .inr (.inr rfl) }
    · refine { h with token := fun _ _ hah hp => ?_ }
      have hask := h.asked hah (Reader.parked_of_pushed hp)
      exact (hask.resolve_left hpar).resolve_right nofun
  | notifies =>
    obtain ⟨rfl, rfl⟩ := of_guard hs
    exact { h with asked := fun _ _ => .inr (.inl rfl), token := fun _ _ _ _ => rfl }
  | receives =>
    obtain ⟨rfl, hs⟩ := Option.ite_none_right_eq_some.mp hs
    dsimp only at hs
    split at hs
    case h_1 item rest =>
      cases hs
      exact h.take rfl rfl rfl rfl rfl rfl rfl
    case h_2 => cases hs
  | givesUp =>
    obtain ⟨⟨rfl, -⟩, rfl⟩ := of_guard hs
    exact { h with upTo := nofun, all := nofun, token := nofun, active := nofun }
  | timesOut =>
    obtain ⟨rfl, rfl⟩ := of_guard hs
    exact { h with upTo := nofun, all := nofun, token := nofun, active := nofun }
  | stores =>
    dsimp only [ReadAhead.step] at hs
    split at hs
    case h_2 => cases hs
    case h_1 item p =>
      cases hs
      exact { h with
        queued := h.queued
        queuedAll := h.queuedAll
        known := Nat.le_add_right_of_le h.known
        woken := fun _ => .inr (.inl rfl) }
  | checks =>
    dsimp only [ReadAhead.step] at hs
    split at hs
    case h_2 => cases hs
    case h_1 item p =>
      split_ifs at hs with hw <;> cases hs
      · exact { h with }
      · refine { h with woken := fun hsp => ?_ }
        exact absurd (h.announced (Reader.announced_of_atSpace hsp)) hw
  | wakes =>
    dsimp only [ReadAhead.step] at hs
    split at hs
    case h_2 => cases hs
    case h_1 item p =>
      cases hs
      exact { h with woken := fun _ => .inl rfl }
  | returns =>
    dsimp only [ReadAhead.step] at hs
    split at hs
    case h_2 => cases hs
    case h_1 item p =>
      split_ifs at hs with hctx <;> cases hs
      · have hd : (delivered ++ [] ++ items ++ reader.held).Sublist (delivered ++ [item] ++ items ++ reader.held) := by
          refine List.Sublist.append_right (List.Sublist.append_right ?_ _) _
          exact (List.Sublist.refl _).append (List.nil_sublist _)
        exact { h with sublist := hd.trans h.sublist, upTo := nofun, all := nofun, active := nofun }
      · have hsa : delivered ++ [item] ++ [] ++ items ++ reader.held = delivered ++ [item] ++ items ++ reader.held := by
          rw [List.append_nil]
        exact { h with
          sublist := hsa ▸ h.sublist
          upTo := fun hc ha => hsa ▸ h.upTo hc ha
          all := fun hc ha hl => hsa ▸ h.all hc ha hl
          active := nofun }
  | close =>
    obtain ⟨rfl, rfl⟩ := of_guard hs
    exact { h with }
  | swaps =>
    obtain ⟨rfl, hs⟩ := Option.ite_none_right_eq_some.mp hs
    split_ifs at hs with hc <;> cases hs
    · exact { h with }
    · exact { h with
        upTo := nofun
        all := nofun
        queuedAll := nofun
        left := fun _ => .inr rfl
        closedState := fun _ => rfl
        claimed := nofun
        claims := fun _ => .inr rfl
        shuts := fun _ => rfl
        isClosed := fun _ => rfl
        closing := fun _ => .inr rfl }
  | closesDone =>
    obtain ⟨rfl, rfl⟩ := of_guard hs
    exact { h with isClosed := fun _ => h.shuts rfl, closing := fun _ => .inl rfl }
  | drains =>
    obtain ⟨rfl, hs⟩ := Option.ite_none_right_eq_some.mp hs
    have hc := h.shuts rfl
    dsimp only at hs
    split at hs
    case h_1 rest hdrain =>
      rename_i item
      cases hs
      have hd : (delivered ++ [] ++ rest ++ reader.held).Sublist
          (delivered ++ [] ++ (item :: rest) ++ reader.held) := by
        refine List.Sublist.append_right ?_ _
        exact (List.Sublist.refl _).append (List.sublist_cons_self _ _)
      have hb : bytes rest ≤ bytes (item :: rest) := by
        exact Nat.le_add_left _ _
      exact { h with
        sublist := hd.trans h.sublist
        upTo := fun ho => absurd (hc.symm.trans ho) nofun
        all := fun ho => absurd (hc.symm.trans ho) nofun
        count := Nat.le_of_succ_le h.count
        queued := Nat.le_trans (Nat.add_le_add_left hb _) h.queued
        queuedAll := fun ho => absurd (hc.symm.trans ho) nofun
        token := nofun }
    case h_2 =>
      cases hs
      exact { h with shuts := nofun }
  | ctxEnds =>
    cases hs
    exact { h with left := fun _ => .inl rfl }

omit h

/-! ## Waits -/

def State.takeSteps (s : State) : Option (List Action) :=
  match s.writer, s.items with
  | .polling _, _ :: _ => some [.polls, .stores, .checks, .wakes]
  | .awaiting, _ :: _ => some [.receives, .stores, .checks, .wakes]
  | .taking _ _, _ => some [.stores, .checks, .wakes]
  | .stored _ _, _ => some [.checks, .wakes]
  | .waking _ _, _ => some [.wakes]
  | _, _ => none

theorem take_wakes {steps : List Action} (hw : s.producerWaiting = true) (hs : s.takeSteps = some steps) :
    ∃ s', run ReadAhead.step s steps = some s' ∧ s'.space = true := by
  obtain ⟨items, space, demand, done, state, producerWaiting, parked, takenBytes, blocked, abandoned, closed, ctxEnded,
    reader, ahead, pushedBytes, knownBytes, writer, read, delivered⟩ := s
  obtain rfl : producerWaiting = true := hw
  unfold State.takeSteps at hs
  dsimp only at hs
  split at hs <;> cases hs <;> exact ⟨_, rfl, rfl⟩

theorem Inv.space (h : Inv s) (hr : s.reader = .space) (hs : s.space = false) (hc : s.closed = false) :
    s.items ≠ [] ∨ s.takeSteps ≠ none := by
  have hat : s.reader.atSpace = true := by rw [hr]; rfl
  have hfull := h.full hat
  have hq := h.queuedAll hc
  rcases h.woken hat with hs' | hco | htaken
  · rw [hs] at hs'
    cases hs'
  · right
    unfold State.takeSteps
    cases hw : s.writer <;> rw [hw] at hco <;> first | (simp; done) | cases hco
  · have hpos : 0 < handlerReadAheadBytes := by decide
    cases hw : s.writer with
    | taking item polled =>
      right
      simp [State.takeSteps, hw]
    | _ =>
      left
      intro hem
      rw [hw, hem] at hq
      change s.takenBytes = s.pushedBytes at hq
      omega

/-- What the goroutine does next, unless it is inside the stream's `Recv` or over. -/
def Reader.next : Reader → Option Action
  | top => some .readerTop
  | demand => some .readerAsked
  | claim => some .readerClaims
  | received _ => some (.readerReleases true)
  | park _ => some .readerParks
  | push _ => some .readerPushes
  | measure => some .readerMeasures
  | load => some .readerLoads
  | announce => some .readerAnnounces
  | recheck => some .readerRechecks
  | relent => some .readerRelents
  | space => some .readerWoken
  | resume => some .readerResumes
  | receiving | ended | returned => none

theorem Inv.progress (h : Inv s) (hw : s.writer = .awaiting) (hi : s.items = []) (hd : s.done = false)
    (hctx : s.ctxEnded = false) :
    s.reader = .receiving ∨ (∃ item ∈ s.delivered, item.err ≠ none) ∨
      ∃ a, s.reader.next = some a ∧ (ReadAhead.step s a).isSome = true := by
  have hc : s.closed = false := by
    refine Bool.eq_false_iff.mpr fun hc => ?_
    rcases h.closing hc with hd' | hcl
    · rw [hd] at hd'
      cases hd'
    · rw [hw] at hcl
      cases hcl
  have ha : s.abandoned = false := h.active (by rw [hw]; rfl)
  cases hr : s.reader with
  | receiving => exact .inl rfl
  | ended =>
    obtain ⟨item, hla, herr⟩ := h.ended (by rw [hr]; rfl)
    have hall := h.all hc ha (by rw [hr]; rfl)
    rw [hw, hi, hr] at hall
    simp only [Writer.inHand, Reader.held, List.append_nil] at hall
    rw [hall]
    exact .inr (.inl ⟨item, List.mem_of_getLast? hla, herr⟩)
  | returned =>
    rcases h.left (by rw [hr]; rfl) with hl | hl
    · rw [hctx] at hl
      cases hl
    · rw [hc] at hl
      cases hl
  | demand =>
    have hah := h.onRequest (by rw [hr]; rfl)
    have hdem := h.token (by rw [hw]; rfl) hi hah (by rw [hr]; rfl)
    exact .inr (.inr ⟨_, rfl, by simp [ReadAhead.step, hr, hdem]⟩)
  | space =>
    have hs : s.space = true := by
      refine (Bool.not_eq_false _).mp fun hs => ?_
      rcases h.space hr hs hc with hne | hne
      · exact hne hi
      · simp [State.takeSteps, hw, hi] at hne
    exact .inr (.inr ⟨_, rfl, by simp [ReadAhead.step, hr, hs]⟩)
  | push item =>
    have hro : s.items.length < handlerReadAheadMessages - 1 := by rw [hi]; decide
    refine .inr (.inr ⟨_, rfl, ?_⟩)
    simp only [ReadAhead.step, hr, hro, if_true]
    split_ifs <;> rfl
  | _ =>
    refine .inr (.inr ⟨_, rfl, ?_⟩)
    simp only [ReadAhead.step, hr, if_true]
    first | rfl | (split_ifs <;> rfl)

/-! ## The read-ahead -/

structure Sound (s : State) : Prop where
  ordered : s.delivered.Sublist s.read
  upTo : s.closed = false → s.abandoned = false → s.delivered <+: s.read
  onTheWay : s.closed = false → s.abandoned = false → s.reader ≠ .returned →
    s.delivered ++ s.writer.inHand ++ s.readAhead = s.read
  /-- While the writer awaits an item the goroutine needs no request, or has it. -/
  asked : s.writer = .awaiting → s.items = [] → s.reader = .demand → s.demand = true
  /-- While the goroutine waits for space, taking an item wakes it. -/
  woken : s.reader = .space → s.space = false → s.closed = false →
    (s.items ≠ [] ∨ s.takeSteps ≠ none) ∧
      ∀ steps, s.takeSteps = some steps → ∃ s', run step s steps = some s' ∧ s'.space = true
  progress : s.writer = .awaiting → s.items = [] → s.done = false → s.ctxEnded = false →
    s.reader = .receiving ∨ (∃ item ∈ s.delivered, item.err ≠ none) ∨
      ∃ a, s.reader.next = some a ∧ (step s a).isSome = true
  messages : s.readAhead.length ≤ handlerReadAheadMessages
  size : bytes s.readAhead < handlerReadAheadBytes + lastBytes s.read

theorem Inv.sound (h : Inv s) : Sound s where
  ordered := by
    refine List.Sublist.trans ?_ h.sublist
    rw [List.append_assoc, List.append_assoc]
    exact List.sublist_append_left _ _
  upTo hc ha := by
    refine List.IsPrefix.trans ?_ (h.upTo hc ha)
    rw [List.append_assoc, List.append_assoc]
    exact List.prefix_append _ _
  onTheWay hc ha hr := by
    have hl : s.reader.left = false := by
      cases hp : s.reader <;> first | rfl | exact absurd hp hr
    rw [State.readAhead, ← List.append_assoc]
    exact h.all hc ha hl
  asked hw hi hr :=
    h.token (by rw [hw]; rfl) hi (h.onRequest (by rw [hr]; rfl)) (by rw [hr]; rfl)
  woken hr hsp hc :=
    ⟨h.space hr hsp hc, fun _ hs => take_wakes (h.announced (by rw [hr]; rfl)) hs⟩
  progress := h.progress
  messages := by
    have hcount := h.count
    have hheld : s.reader.held.length ≤ 1 := by cases s.reader <;> simp [Reader.held]
    have hlimit : handlerReadAheadMessages = 32 := rfl
    rw [State.readAhead, List.length_append]
    omega
  size := by
    have hqueued := h.queued
    have hknown := h.known
    have hlast := h.last
    rw [State.readAhead, bytes_append]
    omega

/-- For every interleaving of the goroutine and the writer. -/
theorem read_ahead_is_sound {actions : List Action} (hrun : run step {} actions = some s) : Sound s :=
  (run_induction (P := fun _ => Inv) Inv.initial (fun _ _ _ _ h hs => h.step hs) hrun).sound

theorem read_ahead_is_sound_woken :
    let read : List Action := [.readerTop, .readerClaims, .recvReturns { message := { size := 70000 } },
      .readerReleases false, .readerParks, .readerPushes]
    let wait : List Action := [.readerMeasures, .readerLoads, .readerAnnounces, .readerRechecks]
    let take : List Action := [.next true, .polls, .stores, .checks, .wakes, .returns]
    let ask : List Action := [.next true, .polls, .asks, .notifies]
    let wake : List Action := [.readerWoken, .readerResumes, .readerMeasures, .readerLoads, .readerTop]
    let actions := read ++ wait ++ take ++ ask ++ wake
    ∃ s ∈ run step {} actions, s.delivered.length = 1 ∧ s.writer = .awaiting ∧ s.reader = .demand ∧
      s.demand = true ∧ Sound s := by
  intro read wait take ask wake actions
  have hrun : (run step {} actions).isSome = true := by decide +kernel
  obtain ⟨s, hs⟩ := Option.isSome_iff_exists.mp hrun
  have hends : ∀ s ∈ run step {} actions, s.delivered.length = 1 ∧ s.writer = .awaiting ∧ s.reader = .demand ∧
      s.demand = true := by decide +kernel
  obtain ⟨hdelivered, hwriter, hreader, hdemand⟩ := hends s hs
  exact ⟨s, hs, hdelivered, hwriter, hreader, hdemand, read_ahead_is_sound hs⟩

end TrevRpc.Go.ReadAhead
