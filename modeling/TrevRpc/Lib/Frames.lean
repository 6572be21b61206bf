import TrevRpc.Lib.Varint

/-! # Frames -/

namespace TrevRpc.Frames

abbrev Frame := Nat × List UInt8

def read (bytes : List UInt8) : Option (Frame × List UInt8) := do
  let (frameType, typeLen) ← Varint.decode bytes
  let rest := bytes.drop typeLen
  let (len, lengthLen) ← Varint.decode rest
  let rest := rest.drop lengthLen
  if len ≤ rest.length then some ((frameType, rest.take len), rest.drop len) else none

/-- `bytes` are exactly the frames. -/
inductive Framed : List UInt8 → List Frame → Prop
  | nil : Framed [] []
  | cons {bytes rest : List UInt8} {frame : Frame} {frames : List Frame} (hread : read bytes = some (frame, rest))
      (hrest : Framed rest frames) : Framed bytes (frame :: frames)

variable {bytes rest : List UInt8} {frame : Frame} {frames : List Frame}

theorem read_nil : read [] = none := rfl

theorem read_length (h : read bytes = some (frame, rest)) : rest.length < bytes.length := by
  obtain ⟨⟨frameType, n⟩, ht, h⟩ := Option.bind_eq_some_iff.mp h
  obtain ⟨⟨len, m⟩, hlen, h⟩ := Option.bind_eq_some_iff.mp h
  obtain ⟨-, h⟩ := Option.ite_none_right_eq_some.mp h
  obtain ⟨rfl, rfl⟩ := Prod.mk.inj (Option.some.inj h)
  have hn := Varint.decode_length ht
  simp only [List.length_drop]
  omega

theorem framed_cons_iff (hread : read bytes = some (frame, rest)) :
    Framed bytes frames ↔ ∃ others, frames = frame :: others ∧ Framed rest others := by
  constructor
  · rintro (_ | ⟨ho, hr⟩)
    · cases hread
    · rw [hread] at ho
      obtain ⟨rfl, rfl⟩ := Prod.mk.inj (Option.some.inj ho)
      exact ⟨_, rfl, hr⟩
  · rintro ⟨others, rfl, hr⟩
    exact .cons hread hr

theorem not_framed (hne : bytes ≠ []) (hr : read bytes = none) : ¬ Framed bytes frames := by
  rintro (_ | ⟨ho, -⟩)
  · exact hne rfl
  · rw [hr] at ho
    cases ho

theorem Framed.unique {frames' : List Frame} (h : Framed bytes frames) (h' : Framed bytes frames') :
    frames = frames' := by
  induction h generalizing frames' with
  | nil =>
    cases h' with
    | nil => rfl
    | cons hr => cases hr
  | cons hr _ ih =>
    obtain ⟨others, rfl, ho⟩ := (framed_cons_iff hr).mp h'
    rw [ih ho]

/-! ## Writing -/

def write (frame : Frame) : Option (List UInt8) := do
  let frameType ← Varint.encode frame.1
  let len ← Varint.encode frame.2.length
  return frameType ++ len ++ frame.2

theorem read_write {wire : List UInt8} (h : write frame = some wire) (rest : List UInt8) :
    read (wire ++ rest) = some (frame, rest) := by
  obtain ⟨ft, ht, h⟩ := Option.bind_eq_some_iff.mp h
  obtain ⟨len, hlen, h⟩ := Option.bind_eq_some_iff.mp h
  obtain rfl := Option.some.inj h
  have hb : ft ++ len ++ frame.2 ++ rest = ft ++ (len ++ (frame.2 ++ rest)) := by
    simp only [List.append_assoc]
  unfold read
  rw [hb, Varint.decode_encode ht, ← Varint.length_of_encode ht]
  simp only [Option.bind_eq_bind, Option.bind_some, List.drop_left, Varint.decode_encode hlen]
  rw [← Varint.length_of_encode hlen, List.drop_left, List.take_left, List.drop_left, if_pos (by simp)]

theorem Framed.write_append {wire : List UInt8} (hw : write frame = some wire) (h : Framed rest frames) :
    Framed (wire ++ rest) (frame :: frames) :=
  .cons (read_write hw rest) h

end TrevRpc.Frames
