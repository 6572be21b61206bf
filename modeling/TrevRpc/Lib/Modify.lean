import Mathlib.Algebra.Order.Ring.Nat
import Mathlib.Data.List.Basic

/-! # One entry of a list at a time -/

namespace TrevRpc.Modify

variable {α β : Type*} {l : List α} {i : Nat} {a : α} {f : α → α}

theorem map_modify (g : α → β) (f' : β → β) (h : ∀ a, g (f a) = f' (g a)) (l : List α) (i : Nat) :
    (l.modify i f).map g = (l.map g).modify i f' := by
  induction l generalizing i with
  | nil => simp
  | cons x l ih => cases i <;> simp [h, ih]

theorem map_modify_same (g : α → β) (h : ∀ a, g (f a) = g a) (l : List α) (i : Nat) :
    (l.modify i f).map g = l.map g := by
  induction l generalizing i with
  | nil => simp
  | cons x l ih => cases i <;> simp [h, ih]

theorem mem_modify {x : α} (h : x ∈ l.modify i f) : x ∈ l ∨ ∃ a, l[i]? = some a ∧ x = f a := by
  obtain ⟨j, hj⟩ := List.getElem?_of_mem h
  rw [List.getElem?_modify] at hj
  by_cases hij : i = j
  · subst hij
    cases ha : l[i]? with
    | none => simp [ha] at hj
    | some a => exact .inr ⟨a, rfl, by simpa [ha] using hj.symm⟩
  · simp only [hij, if_false, id_map'] at hj
    exact .inl (List.mem_of_getElem? hj)

theorem forall_mem_modify {P : α → Prop} (hall : ∀ x ∈ l, P x)
    (hnew : ∀ a, l[i]? = some a → P (f a)) : ∀ x ∈ l.modify i f, P x := by
  intro x hx
  rcases mem_modify hx with hx | ⟨a, ha, rfl⟩
  · exact hall x hx
  · exact hnew a ha

theorem sum_modify (w : α → Nat) (h : l[i]? = some a) : ((l.modify i f).map w).sum + w a = (l.map w).sum + w (f a) := by
  induction l generalizing i with
  | nil => simp at h
  | cons x l ih =>
    cases i with
    | zero =>
      simp only [List.getElem?_cons_zero, Option.some.injEq] at h
      subst h
      simp
      omega
    | succ i =>
      have := ih (by simpa using h)
      simp
      omega

theorem sum_set (w : α → Nat) {b : α} (h : l[i]? = some a) : ((l.set i b).map w).sum + w a = (l.map w).sum + w b := by
  rw [List.set_eq_modify]
  exact sum_modify w h

theorem map_zipWith_same {γ : Type*} {flag : γ → α → α} (g : α → β) (h : ∀ c a, g (flag c a) = g a)
    {fs : List γ} (hlen : fs.length = l.length) : (List.zipWith flag fs l).map g = l.map g := by
  induction l generalizing fs with
  | nil => simp
  | cons a l ih =>
    cases fs with
    | nil => simp at hlen
    | cons c fs => simp [h, ih (by simpa using hlen)]

end TrevRpc.Modify
