import Mathlib.Combinatorics.Enumerative.DoubleCounting

/-! # Matchings that are not one to one

Two finite sets and a relation between them. On each side the matched elements, and the
matches that each has beyond the first, come to the number of related pairs. -/
namespace Library

variable {α β : Type} (r : α → β → Prop) [∀ a b, Decidable (r a b)] (s : Finset α) (t : Finset β)

/-- The elements of `s` that have a match. -/
def matched : Finset α := s.filter fun a => 0 < (t.bipartiteAbove r a).card

/-- The matches of the elements of `s`, beyond the first of each. -/
def surplus : Nat := ∑ a ∈ s, ((t.bipartiteAbove r a).card - 1)

theorem card_matched_add_surplus :
    (matched r s t).card + surplus r s t = ∑ a ∈ s, (t.bipartiteAbove r a).card := by
  rw [matched, surplus, Finset.card_filter, ← Finset.sum_add_distrib]
  refine Finset.sum_congr rfl fun a _ => ?_
  split <;> omega

/-- Both sides count the related pairs. -/
theorem matched_balance :
    (matched r s t).card + surplus r s t =
      (matched (fun b a => r a b) t s).card + surplus (fun b a => r a b) t s := by
  rw [card_matched_add_surplus, card_matched_add_surplus]
  exact Finset.sum_card_bipartiteAbove_eq_sum_card_bipartiteBelow r

theorem mem_matched {a : α} : a ∈ matched r s t ↔ a ∈ s ∧ ∃ b ∈ t, r a b := by
  rw [matched, Finset.mem_filter, Finset.card_pos]
  simp only [Finset.Nonempty, Finset.mem_bipartiteAbove]

/-- How many of two elements a set holds. -/
theorem card_filter_eq_or [DecidableEq β] (a b : β) : (t.filter fun x => x = a ∨ x = b).card =
    (if a ∈ t ∨ b ∈ t then 1 else 0) + if a ∈ t ∧ b ∈ t ∧ a ≠ b then 1 else 0 := by
  by_cases hab : a = b
  · subst hab
    simp only [or_self, Finset.filter_eq', ne_eq, not_true_eq_false, and_false, if_false]
    split <;> rfl
  · have hdisjoint : Disjoint (t.filter (· = a)) (t.filter (· = b)) :=
      Finset.disjoint_filter.mpr fun x _ hx hx' => hab (hx ▸ hx')
    rw [Finset.filter_or, Finset.card_union_of_disjoint hdisjoint, Finset.filter_eq',
      Finset.filter_eq']
    by_cases ha : a ∈ t <;> by_cases hb : b ∈ t <;> simp [ha, hb, hab]

end Library
