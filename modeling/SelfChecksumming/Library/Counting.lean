import Mathlib.Algebra.GroupWithZero.Nat
import Mathlib.Data.List.Nodup

/-! # Sums that count

A sum of positive numbers is as small as their number only when all of them are one. -/
namespace Library

theorem length_le_sum {l : List Nat} (h : ∀ n ∈ l, 0 < n) : l.length ≤ l.sum := by
  induction l with
  | nil => exact Nat.le_refl 0
  | cons n l ih =>
    have hn := h n List.mem_cons_self
    have hl := ih fun m hm => h m (List.mem_cons_of_mem _ hm)
    rw [List.length_cons, List.sum_cons]
    omega

theorem sum_eq_length_iff {l : List Nat} (h : ∀ n ∈ l, 0 < n) :
    l.sum = l.length ↔ ∀ n ∈ l, n = 1 := by
  induction l with
  | nil => simp
  | cons n l ih =>
    have hn := h n List.mem_cons_self
    have hl : ∀ m ∈ l, 0 < m := fun m hm => h m (List.mem_cons_of_mem _ hm)
    have hle := length_le_sum hl
    rw [List.sum_cons, List.length_cons, List.forall_mem_cons, ← ih hl]
    omega

/-- Each use of a value counts its weight once for every use of it. -/
theorem sum_count_mul_eq_length_iff {α : Type} [DecidableEq α] {l : List α} {f : α → Nat}
    (hf : ∀ a ∈ l, 0 < f a) :
    (l.map fun a => l.count a * f a).sum = l.length ↔ l.Nodup ∧ ∀ a ∈ l, f a = 1 := by
  have hcount : ∀ a ∈ l, 0 < l.count a := fun a ha => List.count_pos_iff.mpr ha
  have hpos : ∀ n ∈ l.map (fun a => l.count a * f a), 0 < n := by
    intro n hn
    obtain ⟨a, ha, rfl⟩ := List.mem_map.mp hn
    exact Nat.mul_pos (hcount a ha) (hf a ha)
  have hlen : l.length = (l.map fun a => l.count a * f a).length := (List.length_map _).symm
  rw [hlen, sum_eq_length_iff hpos, List.forall_mem_map]
  constructor
  · intro h
    have hone : ∀ a ∈ l, l.count a = 1 ∧ f a = 1 := fun a ha =>
      ⟨Nat.eq_one_of_mul_eq_one_right (h a ha), Nat.eq_one_of_mul_eq_one_left (h a ha)⟩
    refine ⟨List.nodup_iff_count.mpr fun a => ?_, fun a ha => (hone a ha).2⟩
    by_cases ha : a ∈ l
    · exact Nat.le_of_eq (hone a ha).1
    · rw [List.count_eq_zero_of_not_mem ha]
      exact Nat.zero_le 1
  · intro h a ha
    rw [List.count_eq_one_of_mem h.1 ha, h.2 a ha]

end Library
