import Mathlib.Data.List.Perm.Basic
import TrevRpc.Lib.Run

/-!
# Sending a batch as datagrams (`sendBatch` in `datagram.go`)

The limit is read in every round of the loop: a send error teaches one, it expires, and other calls share it.
-/

namespace TrevRpc.Go.DatagramBatch

abbrev Bytes := List UInt8

inductive Answer
  | accepted
  | tooLarge
  | failed
  | ended
  deriving DecidableEq

/-- The answers of `datagramLimit` and of the send in a round. -/
structure Outside where
  limit : Nat
  known : Bool
  answer : Answer

structure Offer where
  payload : Bytes
  packed : List Bytes
  outside : Outside

structure Sending where
  rest : List Bytes
  kept : List Bytes := []
  retried : Bool := false
  offered : List Offer := []

def fitting (limit : Nat) : Nat → List Bytes → List Bytes
  | _, [] => []
  | size, frame :: rest =>
    if size + frame.length ≤ limit then frame :: fitting limit (size + frame.length) rest else []

def Sending.offer (s : Sending) (flow : Bytes) (packed : List Bytes) (outside : Outside) : Sending :=
  { s with offered := s.offered ++ [⟨flow ++ packed.flatten, packed, outside⟩] }

def round (flow : Bytes) (outside : Outside) (s : Sending) (frame : Bytes) : Option Sending :=
  let fits := fitting outside.limit flow.length s.rest
  if fits = [] ∧ outside.known = true then some { s with rest := s.rest.drop 1, kept := s.kept ++ [frame] }
  else
    -- A limit that is a guess is tried.
    let packed := if fits = [] then [frame] else fits
    let t := s.offer flow packed outside
    let keep := { t with rest := s.rest.drop packed.length, kept := s.kept ++ packed, retried := false }
    match outside.answer with
    | .accepted => some { t with rest := s.rest.drop packed.length, retried := false }
    | .ended => none
    | .tooLarge => some (if s.retried then keep else { t with retried := true })
    | .failed => some keep

inductive Outcome
  | sent (s : Sending)
  | ended
  | running

def loop (flow : Bytes) (outside : Nat → Outside) : Nat → Nat → Sending → Outcome
  | 0, _, s => if s.rest = [] then .sent s else .running
  | rounds + 1, n, s =>
    match s.rest with
    | [] => .sent s
    | frame :: _ =>
      match round flow (outside n) s frame with
      | none => .ended
      | some s => loop flow outside rounds (n + 1) s

def sendBatch (flow : Bytes) (outside : Nat → Outside) (ended : Bool) (batch : List Bytes) : Outcome :=
  if ended then .ended else loop flow outside (2 * batch.length) 0 { rest := batch }

def Sending.delivered (s : Sending) : List Bytes :=
  (s.offered.filter (·.outside.answer = .accepted)).flatMap (·.packed)

variable {flow : Bytes} {outside : Nat → Outside} {out : Outside} {batch : List Bytes} {s s' : Sending} {frame : Bytes}

def Offer.Respects (flow : Bytes) (offer : Offer) : Prop :=
  offer.payload = flow ++ offer.packed.flatten ∧
    (offer.outside.known = true → offer.payload.length ≤ offer.outside.limit)

structure Inv (flow : Bytes) (batch : List Bytes) (s : Sending) : Prop where
  order : ∃ taken, batch = taken ++ s.rest ∧ s.kept.Sublist taken ∧ taken.Perm (s.delivered ++ s.kept)
  offered : ∀ offer ∈ s.offered, offer.Respects flow

theorem fitting_prefix (l size : Nat) (rest : List Bytes) : fitting l size rest <+: rest := by
  induction rest generalizing size with
  | nil => exact List.prefix_rfl
  | cons frame rest ih =>
    unfold fitting
    split_ifs
    · exact (List.prefix_cons_inj frame).mpr (ih _)
    · exact List.nil_prefix

theorem fitting_length {limit size : Nat} {rest : List Bytes} (h : fitting limit size rest ≠ []) :
    size + (fitting limit size rest).flatten.length ≤ limit := by
  induction rest generalizing size with
  | nil => exact absurd rfl h
  | cons frame rest ih =>
    unfold fitting at h ⊢
    split_ifs at h ⊢ with hfits
    · by_cases hrest : fitting limit (size + frame.length) rest = []
      · simpa [hrest] using hfits
      · have hlen := ih hrest
        simp only [List.flatten_cons, List.length_append]
        omega
    · exact absurd rfl h

theorem packed_spec (hne : s.rest = frame :: s.rest.drop 1) {fits : List Bytes}
    (hfits : fits = fitting out.limit flow.length s.rest) (hk : ¬ (fits = [] ∧ out.known = true)) :
    let packed := if fits = [] then [frame] else fits
    packed ≠ [] ∧ s.rest = packed ++ s.rest.drop packed.length ∧
      Offer.Respects flow ⟨flow ++ packed.flatten, packed, out⟩ := by
  by_cases hnil : fits = []
  · have hguess : out.known = false := by simpa [hnil] using hk
    rw [if_pos hnil]
    exact ⟨by simp, hne, rfl, by simp [hguess]⟩
  · obtain ⟨rest, hrest⟩ := fitting_prefix out.limit flow.length s.rest
    rw [if_neg hnil]
    rw [← hfits] at hrest
    refine ⟨hnil, by simp [← hrest], rfl, fun _ => ?_⟩
    simpa [hfits] using fitting_length (hfits ▸ hnil)

namespace Inv

variable {packed : List Bytes} {offered : List Offer} {retried : Bool}

theorem keep (h : Inv flow batch s) (hr : s.rest = packed ++ s.rest.drop packed.length)
    (ho : ∀ o ∈ offered, o.Respects flow) (hn : offered.filter (·.outside.answer = .accepted) = []) :
    Inv flow batch ⟨s.rest.drop packed.length, s.kept ++ packed, retried, s.offered ++ offered⟩ := by
  obtain ⟨t, hb, hk, hp⟩ := h.order
  refine ⟨⟨t ++ packed, ?_, hk.append_right packed, ?_⟩, fun o hmem => ?_⟩
  · rw [List.append_assoc, ← hr, hb]
  · simpa [Sending.delivered, hn] using hp.append_right packed
  · exact (List.mem_append.mp hmem).elim (h.offered o) (ho o)

theorem deliver (h : Inv flow batch s) (hr : s.rest = packed ++ s.rest.drop packed.length)
    (ho : Offer.Respects flow ⟨flow ++ packed.flatten, packed, out⟩) (ha : out.answer = .accepted) :
    Inv flow batch { s.offer flow packed out with rest := s.rest.drop packed.length, retried } := by
  obtain ⟨t, hb, hk, hp⟩ := h.order
  refine ⟨⟨t ++ packed, ?_, hk.trans (List.sublist_append_left ..), ?_⟩, fun o hmem => ?_⟩
  · rw [List.append_assoc, ← hr, hb]
  · have hperm := hp.append_right packed
    simp only [Sending.delivered, Sending.offer, List.filter_append, List.flatMap_append, List.append_assoc] at hperm ⊢
    refine hperm.trans (List.Perm.append_left _ ?_)
    simpa [ha] using List.perm_append_comm
  · rcases List.mem_append.mp hmem with hmem | hmem
    · exact h.offered o hmem
    · rwa [List.mem_singleton.mp hmem]

theorem again (h : Inv flow batch s) (ho : Offer.Respects flow ⟨flow ++ packed.flatten, packed, out⟩)
    (ha : out.answer ≠ .accepted) : Inv flow batch { s.offer flow packed out with retried } := by
  refine ⟨by simpa [Sending.delivered, Sending.offer, ha] using h.order, fun o hmem => ?_⟩
  rcases List.mem_append.mp hmem with hmem | hmem
  · exact h.offered o hmem
  · rwa [List.mem_singleton.mp hmem]

end Inv

/-- The rounds that the loop may still make. -/
def Sending.left (s : Sending) : Nat := 2 * s.rest.length - s.retried.toNat

theorem round_spec (h : Inv flow batch s) (hne : s.rest = frame :: s.rest.drop 1)
    (hround : round flow out s frame = some s') : Inv flow batch s' ∧ s'.left < s.left := by
  have hpos : 0 < s.rest.length := by rw [hne]; simp
  have hless (packed : List Bytes) (hp : packed ≠ []) (retried : Bool) :
      2 * (s.rest.drop packed.length).length - retried.toNat < s.left := by
    have hlen := List.length_pos_iff.mpr hp
    have hone := s.retried.toNat_le
    rw [List.length_drop, Sending.left]
    omega
  unfold round at hround
  extract_lets fits packed t keep at hround
  by_cases hk : fits = [] ∧ out.known = true
  · rw [if_pos hk] at hround
    cases hround
    have hkeep : Inv flow batch ⟨s.rest.drop [frame].length, s.kept ++ [frame], s.retried, s.offered ++ []⟩ :=
      h.keep hne (by simp) rfl
    rw [List.append_nil] at hkeep
    exact ⟨hkeep, hless [frame] (by simp) _⟩
  · rw [if_neg hk] at hround
    obtain ⟨hp, hr, ho⟩ := packed_spec hne rfl hk
    have hkept (ha : out.answer ≠ .accepted) : Inv flow batch keep ∧ keep.left < s.left := by
      refine ⟨h.keep hr ?_ ?_, hless _ hp false⟩
      · intro offer hmem
        rwa [List.mem_singleton.mp hmem]
      · simp [ha]
    cases ha : out.answer with
    | ended => simp [ha] at hround
    | accepted =>
      simp only [ha, Option.some.injEq] at hround
      subst hround
      exact ⟨h.deliver hr ho ha, hless _ hp false⟩
    | failed =>
      simp only [ha, Option.some.injEq] at hround
      subst hround
      exact hkept (by simp [ha])
    | tooLarge =>
      simp only [ha, Option.some.injEq] at hround
      subst hround
      split_ifs with hretried
      · exact hkept (by simp [ha])
      · refine ⟨h.again ho (by simp [ha]), ?_⟩
        simp only [Sending.left, Bool.eq_false_iff.mpr hretried, Bool.toNat_true, Bool.toNat_false]
        change 2 * s.rest.length - 1 < 2 * s.rest.length - 0
        omega

theorem ended_of_round (h : round flow out s frame = none) : out.answer = .ended := by
  unfold round at h
  extract_lets fits packed t keep at h
  by_cases hk : fits = [] ∧ out.known = true
  · simp [hk] at h
  · rw [if_neg hk] at h
    cases ha : out.answer <;> simp [ha] at h ⊢

theorem loop_spec (h : Inv flow batch s) (rounds n : Nat) (hr : s.left ≤ rounds) :
    (loop flow outside rounds n s = .ended ∧ ∃ n, (outside n).answer = .ended) ∨
      ∃ s', loop flow outside rounds n s = .sent s' ∧ s'.rest = [] ∧ Inv flow batch s' := by
  induction rounds generalizing n s with
  | zero =>
    have hrest : s.rest = [] := by
      have hone := s.retried.toNat_le
      rw [Sending.left] at hr
      exact List.eq_nil_of_length_eq_zero (by omega)
    exact .inr ⟨s, if_pos hrest, hrest, h⟩
  | succ rounds ih =>
    unfold loop
    cases hrest : s.rest with
    | nil => exact .inr ⟨s, rfl, hrest, h⟩
    | cons frame rest =>
      dsimp only
      cases hround : round flow (outside n) s frame with
      | none => exact .inl ⟨rfl, n, ended_of_round hround⟩
      | some t =>
        obtain ⟨ht, hless⟩ := round_spec h (by rw [hrest]; rfl) hround
        exact ih ht (n + 1) (by omega)

structure SendsOnce (flow : Bytes) (batch : List Bytes) (s : Sending) : Prop where
  -- Every message is returned or in one datagram that was accepted.
  conserved : batch.Perm (s.delivered ++ s.kept)
  order : s.kept.Sublist batch
  offered : ∀ offer ∈ s.offered, offer.Respects flow

theorem sendBatch_sends_once (flow : Bytes) (outside : Nat → Outside) (ended : Bool) (batch : List Bytes) :
    (sendBatch flow outside ended batch = .ended ∧ (ended = true ∨ ∃ n, (outside n).answer = .ended)) ∨
      ∃ s, sendBatch flow outside ended batch = .sent s ∧ SendsOnce flow batch s := by
  unfold sendBatch
  cases ended with
  | true => exact .inl ⟨rfl, .inl rfl⟩
  | false =>
    have hinv : Inv flow batch { rest := batch } := ⟨⟨[], rfl, .slnil, .nil⟩, by simp⟩
    rcases loop_spec hinv (2 * batch.length) 0 (Nat.sub_le ..) with ⟨hended, hn⟩ | ⟨s, hs, hrest, h⟩
    · exact .inl ⟨hended, .inr hn⟩
    · obtain ⟨taken, hb, hk, hp⟩ := h.order
      rw [hrest, List.append_nil] at hb
      subst hb
      exact .inr ⟨s, hs, hp, hk, h.offered⟩

end TrevRpc.Go.DatagramBatch
