import SelfChecksumming.Network.ConstructSoundness
import Mathlib.Algebra.Group.Nat.Defs

/-! # What the connectivity decides

The pools do not depend on the connectivity; it only decides how long a prefix of each
shuffled pool is drawn. With a negative one, which the comparison with a size turns into
a huge number, the whole pool is drawn. -/
namespace SelfChecksumming
open Library

variable {Fn : Type} [LinearOrder Fn]

/-! ## Lists with duplicates -/

/-- The last turn of `F` for which a checker is left. -/
structure LastTurn (sens checkers : List Fn) (F : Fn) (i : Nat) : Prop where
  turn : sens[i]? = some F
  pool : pool sens checkers i ≠ []
  last : ∀ j, i < j → sens[j]? = some F → SelfChecksumming.pool sens checkers j = []

/-- An entry is drawn at the last turn of its function, or there was none from here on. -/
theorem assignCheckers_find? (shuffles : Nat → Shuffle Nat) (c : Int32) {sens : List Fn}
    (checkers : List Fn) (F : Fn) (cs : List Fn) :
    ∀ (rest done : List Fn) (m : SortedMap Fn (List Fn)),
      sens = done ++ rest →
      ((assignCheckers shuffles sens c done.length rest (remaining checkers done) m).find? F =
          some cs ↔
        (∃ i, done.length ≤ i ∧ LastTurn sens checkers F i ∧
          cs = randomComb (shuffles i) c (pool sens checkers i)) ∨
        (∀ i, done.length ≤ i → sens[i]? = some F → pool sens checkers i = []) ∧
          m.find? F = some cs) := by
  intro rest
  induction rest with
  | nil =>
    intro done m hs
    have hnone : ∀ i, done.length ≤ i → sens[i]? = none := fun i hi => by
      rw [hs, List.append_nil]
      exact List.getElem?_eq_none hi
    constructor
    · intro h
      refine .inr ⟨fun i hi hF => ?_, h⟩
      rw [hnone i hi] at hF
      cases hF
    · intro h
      rcases h with ⟨i, hi, hlast, -⟩ | ⟨-, h⟩
      · have hturn := hlast.turn
        rw [hnone i hi] at hturn
        cases hturn
      · exact h
  | cons G rest ih =>
    intro done m hs
    have hG : sens[done.length]? = some G := by simp [hs]
    rw [assignCheckers_cons hs]
    by_cases hpool : pool sens checkers done.length = []
    · -- the loop is over, and no later turn finds a checker
      have hnil : ∀ i, done.length ≤ i → pool sens checkers i = [] :=
        fun i hi => pool_eq_nil_of_le hi hpool
      rw [if_pos hpool]
      constructor
      · intro h
        exact .inr ⟨fun i hi _ => hnil i hi, h⟩
      · intro h
        rcases h with ⟨i, hi, hlast, -⟩ | ⟨-, h⟩
        · exact absurd (hnil i hi) hlast.pool
        · exact h
    · rw [if_neg hpool, ih (done ++ [G]) _ (by simp [hs])]
      simp only [List.length_append, List.length_singleton]
      constructor
      · intro h
        rcases h with ⟨i, hi, hlast, hcs⟩ | ⟨hlater, h⟩
        · exact .inl ⟨i, by omega, hlast, hcs⟩
        · by_cases hF : F = G
          · subst hF
            rw [SortedMap.find?_insert_self] at h
            exact .inl ⟨done.length, le_rfl, ⟨hG, hpool, fun j hj => hlater j hj⟩,
              (Option.some.inj h).symm⟩
          · rw [SortedMap.find?_insert_ne _ _ hF] at h
            refine .inr ⟨fun i hi hiF => ?_, h⟩
            rcases Nat.eq_or_lt_of_le hi with rfl | hlt
            · exact absurd (Option.some.inj (hiF.symm.trans hG)) hF
            · exact hlater i hlt hiF
      · intro h
        rcases h with ⟨i, hi, hlast, hcs⟩ | ⟨hlater, h⟩
        · rcases Nat.eq_or_lt_of_le hi with rfl | hlt
          · obtain rfl : G = F := Option.some.inj (hG.symm.trans hlast.turn)
            refine .inr ⟨fun j hj => hlast.last j hj, ?_⟩
            rw [SortedMap.find?_insert_self, hcs]
          · exact .inl ⟨i, hlt, hlast, hcs⟩
        · have hF : F ≠ G := fun hF => hpool (hlater done.length le_rfl (hF ▸ hG))
          refine .inr ⟨fun i hi => hlater i (by omega), ?_⟩
          rw [SortedMap.find?_insert_ne _ _ hF]
          exact h

theorem checkersOfCheckee_last {shuffles : Nat → Shuffle Nat} {sens checkers : List Fn} {c : Int32}
    {F : Fn} {cs : List Fn} : (checkersOfCheckee shuffles sens checkers c).find? F = some cs ↔
      ∃ i, LastTurn sens checkers F i ∧
        cs = randomComb (shuffles i) c (pool sens checkers i) := by
  have hr : remaining checkers [] = checkers := by simp [remaining]
  have h := assignCheckers_find? shuffles c checkers F cs sens [] .empty rfl
  rw [hr] at h
  rw [checkersOfCheckee]
  simpa using h

/-! ## More connectivity, more edges -/

omit [LinearOrder Fn] in
theorem randomComb_subset_of_le {c c' : Int32} (hc : 0 ≤ c.toInt) (hle : c.toInt ≤ c'.toInt)
    (shuffle : Shuffle Nat) (fs : List Fn) :
    randomComb shuffle c fs ⊆ randomComb shuffle c' fs := by
  rw [randomComb_eq, randomComb_eq, clamp_of_nonneg hc, clamp_of_nonneg (hc.trans hle)]
  exact (List.take_sublist_take_left (by omega)).subset

/-- Raising the connectivity keeps every edge, whatever the two lists hold. -/
theorem raising_keeps_edges (shuffles : Nat → Shuffle Nat)
    (sensitiveFunctions checkerFunctions : List Fn) {c c' : Int32} (hc : 0 ≤ c.toInt)
    (hle : c.toInt ≤ c'.toInt) :
    ∃ net net', accepting.constructProtectionNetwork shuffles sensitiveFunctions checkerFunctions c =
        .ok net ∧
      accepting.constructProtectionNetwork shuffles sensitiveFunctions checkerFunctions c' =
        .ok net' ∧
      ∀ k F, Edge net.find? k F → Edge net'.find? k F := by
  refine ⟨_, _, accepting_ok _ _ _ _, accepting_ok _ _ _ _, fun k F he => ?_⟩
  simp only [edge_inverted, ← SortedMap.find?_eq_some_iff, checkersOfCheckee_last] at he ⊢
  obtain ⟨cs, ⟨i, hlast, rfl⟩, hk⟩ := he
  exact ⟨_, ⟨i, hlast, rfl⟩, randomComb_subset_of_le hc hle _ _ hk⟩

theorem raising_keeps_edges_sample : ∃ net net',
    accepting.constructProtectionNetwork (fun _ => .refl) [1, 2, 1] [1, 2, 3, 4] 1 = .ok net ∧
    accepting.constructProtectionNetwork (fun _ => .refl) [1, 2, 1] [1, 2, 3, 4] 2 = .ok net' ∧
    ∀ k F, Edge net.find? k F → Edge net'.find? k F :=
  raising_keeps_edges (fun _ => .refl) [1, 2, 1] [1, 2, 3, 4] (by decide) (by decide)

/-! ## A negative connectivity -/

/-- A drawing that a negative connectivity does not keep empty. -/
def Overdraws (connectivity : Int32) (size : Nat) : Prop :=
  connectivity.toInt < 0 ∧ size < toSize connectivity ∧ 0 < (Int32.ofNat size).toInt

theorem toSize_of_neg {c : Int32} (h : c.toInt < 0) : 2 ^ 63 < toSize c := by
  have hle : -2 ^ 31 ≤ c.toInt := c.le_toInt
  unfold toSize
  omega

theorem toInt_ofNat_le (size : Nat) : (Int32.ofNat size).toInt ≤ size := by
  have hsize : Int32.size = 2 ^ 32 := rfl
  rw [Int32.toInt_ofNat', Int.bmod_def, hsize]
  omega

theorem clamp_le (c : Int32) (size : Nat) : clamp c size ≤ size := by
  have hcast := toInt_ofNat_le size
  unfold clamp
  split
  · omega
  · rename_i hsize
    by_cases hc : 0 ≤ c.toInt
    · rw [toSize_of_nonneg hc] at hsize
      omega
    · omega

theorem clamp_of_neg {c : Int32} (h : c.toInt < 0) (size : Nat) :
    clamp c size = if size < toSize c then (Int32.ofNat size).toInt.toNat else 0 := by
  unfold clamp
  by_cases hsize : size < toSize c
  · rw [if_pos hsize, if_pos hsize]
  · rw [if_neg hsize, if_neg hsize]
    omega

/-- The clamp keeps to the connectivity unless a negative one overdraws. -/
theorem clamp_le_iff (c : Int32) (size : Nat) :
    (clamp c size : Int) ≤ max c.toInt 0 ↔ ¬ Overdraws c size := by
  by_cases hc : 0 ≤ c.toInt
  · rw [clamp_of_nonneg hc]
    have hno : ¬ Overdraws c size := fun h => absurd h.1 (by omega)
    simp only [hno, not_false_iff, iff_true]
    omega
  · have hneg : c.toInt < 0 := by omega
    rw [clamp_of_neg hneg]
    by_cases hsize : size < toSize c
    · simp only [Overdraws, hneg, hsize, true_and, if_true]
      omega
    · simp only [Overdraws, hneg, hsize, true_and, false_and, not_false_iff, if_false, iff_true]
      omega

omit [LinearOrder Fn] in
theorem length_randomComb (shuffle : Shuffle Nat) (c : Int32) (fs : List Fn) :
    (randomComb shuffle c fs).length = clamp c fs.length := by
  rw [randomComb_eq, List.length_take, (shuffled_perm shuffle fs).length_eq]
  exact Nat.min_eq_left (clamp_le c fs.length)

/-- Whatever the connectivity, a function gets as many checkers as the clamp says. -/
theorem length_checkersOf (shuffles : Nat → Shuffle Nat) {sens checkers : List Fn} (c : Int32)
    (hs : sens.Nodup) (hc : checkers.Nodup) {i : Nat} {F : Fn} (hF : sens[i]? = some F) :
    (checkersOf (inverted (checkersOfCheckee shuffles sens checkers c).entries .empty) F).length =
      clamp c (pool sens checkers i).length := by
  have hget := checkersOfCheckee_getD shuffles checkers c hs hF
  have hnd : (randomComb (shuffles i) c (pool sens checkers i)).Nodup :=
    randomComb_nodup (pool_nodup _ hc i)
  rw [(checkersOf_inverted (hget ▸ hnd)).length_eq, hget, length_randomComb]

theorem pool_zero_eq_nil {sens checkers : List Fn} (hne : sens ≠ []) :
    pool sens checkers 0 = [] ↔ ∀ k ∈ checkers, sens.head? = some k := by
  obtain ⟨F, rest, rfl⟩ := List.exists_cons_of_ne_nil hne
  simp only [List.eq_nil_iff_forall_not_mem, mem_pool, List.take_succ_cons, List.take_zero,
    List.mem_singleton, not_and, not_not, List.head?_cons, Option.some.injEq]
  exact forall₂_congr fun k _ => eq_comm

theorem pool_length_le (sens checkers : List Fn) (i : Nat) :
    (pool sens checkers i).length ≤ checkers.length := List.length_filter_le _ _

theorem pool_length_anti (sens checkers : List Fn) {i j : Nat} (hij : i ≤ j) :
    (pool sens checkers j).length ≤ (pool sens checkers i).length := by
  have hsub : (sens.take (i + 1)).Sublist (sens.take (j + 1)) :=
    List.take_sublist_take_left (by omega)
  refine (List.monotone_filter_right checkers fun k hk => ?_).length_le
  simp only [decide_eq_true_eq] at hk ⊢
  exact fun hmem => hk (hsub.subset hmem)

/-- Pools of fewer than `2 ^ 31` checkers are overdrawn by every negative connectivity. -/
theorem overdraws_iff {c : Int32} {size : Nat} (hsize : size < 2 ^ 31) :
    Overdraws c size ↔ c.toInt < 0 ∧ size ≠ 0 := by
  rw [Overdraws, Int32.toInt_ofNat_of_lt hsize]
  constructor
  · intro h
    exact ⟨h.1, by omega⟩
  · intro h
    have := toSize_of_neg h.1
    exact ⟨h.1, by omega, by omega⟩

/-- No function gets more checkers than the connectivity says, or none at all when it
is negative. -/
def WithinConnectivity (shuffles : Nat → Shuffle Nat)
    (sensitiveFunctions checkerFunctions : List Fn) (connectivity : Int32) : Prop :=
  ∃ net, accepting.constructProtectionNetwork shuffles sensitiveFunctions checkerFunctions
      connectivity = .ok net ∧
    ∀ F ∈ sensitiveFunctions, ((checkersOf net F).length : Int) ≤ max connectivity.toInt 0

/-- A negative connectivity is broken by the first pool that holds a checker. -/
theorem withinConnectivity_iff (shuffles : Nat → Shuffle Nat)
    (sensitiveFunctions checkerFunctions : List Fn) (connectivity : Int32)
    (hs : sensitiveFunctions.Nodup) (hc : checkerFunctions.Nodup) :
    (WithinConnectivity shuffles sensitiveFunctions checkerFunctions connectivity ↔
      ∀ i < sensitiveFunctions.length,
        ¬ Overdraws connectivity (pool sensitiveFunctions checkerFunctions i).length) ∧
    (checkerFunctions.length < 2 ^ 31 →
      (WithinConnectivity shuffles sensitiveFunctions checkerFunctions connectivity ↔
        0 ≤ connectivity.toInt ∨ sensitiveFunctions = [] ∨
          ∀ k ∈ checkerFunctions, sensitiveFunctions.head? = some k)) := by
  have hgeneral : WithinConnectivity shuffles sensitiveFunctions checkerFunctions connectivity ↔
      ∀ i < sensitiveFunctions.length,
        ¬ Overdraws connectivity (pool sensitiveFunctions checkerFunctions i).length := by
    constructor
    · intro h i hi
      obtain ⟨net, hnet, hall⟩ := h
      rw [accepting_ok] at hnet
      have hlen := hall _ (List.getElem_mem hi)
      rw [← Except.ok.inj hnet,
        length_checkersOf shuffles connectivity hs hc (List.getElem?_eq_getElem hi)] at hlen
      exact (clamp_le_iff _ _).mp hlen
    · intro h
      refine ⟨_, accepting_ok _ _ _ _, fun F hF => ?_⟩
      obtain ⟨i, hi, rfl⟩ := List.getElem_of_mem hF
      rw [length_checkersOf shuffles connectivity hs hc (List.getElem?_eq_getElem hi)]
      exact (clamp_le_iff _ _).mpr (h i hi)
  refine ⟨hgeneral, fun hlen => hgeneral.trans ?_⟩
  have hover : ∀ i, Overdraws connectivity (pool sensitiveFunctions checkerFunctions i).length ↔
      connectivity.toInt < 0 ∧ pool sensitiveFunctions checkerFunctions i ≠ [] := fun i => by
    have hle := pool_length_le sensitiveFunctions checkerFunctions i
    rw [overdraws_iff (by omega), ne_eq, List.length_eq_zero_iff]
  simp only [hover, not_and, not_not]
  by_cases hneg : 0 ≤ connectivity.toInt
  · have hno : ¬ connectivity.toInt < 0 := by omega
    simp [hneg, hno]
  · have hyes : connectivity.toInt < 0 := by omega
    simp only [hneg, hyes, forall_const, false_or]
    by_cases hnil : sensitiveFunctions = []
    · simp [hnil]
    · have hpos := List.length_pos_iff.mpr hnil
      simp only [hnil, false_or, ← pool_zero_eq_nil hnil]
      exact ⟨fun h => h 0 hpos, fun h i _ => pool_eq_nil_of_le (Nat.zero_le i) h⟩

theorem withinConnectivity_iff_sample :
    WithinConnectivity (fun _ => .refl) [1, 2] [1] (-2) ∧
      ¬ WithinConnectivity (fun _ => .refl) [1, 2] [1, 3] (-2) := by
  rw [(withinConnectivity_iff (fun _ => .refl) [1, 2] [1] (-2) (by decide) (by decide)).2
      (by decide),
    (withinConnectivity_iff (fun _ => .refl) [1, 2] [1, 3] (-2) (by decide) (by decide)).2
      (by decide)]
  decide

/-- With a connectivity of -1 the one sensitive function gets the one checker. -/
theorem negative_connectivity_overdraws : ([1] : List Nat).Nodup ∧ ([2] : List Nat).Nodup ∧
    ¬ WithinConnectivity (fun _ => .refl) [1] [2] (-1) := by
  refine ⟨by decide, by decide, fun h => ?_⟩
  obtain ⟨net, hnet, hall⟩ := h
  cases hnet
  exact absurd (hall 1 (by decide)) (by decide)

end SelfChecksumming
