import SelfChecksumming.Pass.Reports
import Mathlib.Algebra.BigOperators.Intervals

/-! # How much is protected

How many guards a run injects depends on the numbers of sensitive and of other functions and
on the connectivity, on no shuffle and on no pointer. A function goes without guards only if
the sensitive ones are among themselves. -/
namespace SelfChecksumming
open Library

variable {Fn : Type} [LinearOrder Fn] [OrderBot Fn]

section Pools

variable (opts : Options) (env : Environment Fn) (M : Module Fn)

theorem length_sensitiveOf :
    (sensitiveOf opts env M).length = M.functions.countP (isSensitive opts env M) := by
  rw [sensitiveOf, (env.shuffleSensitive.perm _).length_eq, List.countP_eq_length_filter, classify_eq]

theorem length_otherOf :
    (otherOf opts env M).length = M.functions.countP (isOther opts env M) := by
  rw [otherOf, (env.shuffleOther.perm _).length_eq, List.countP_eq_length_filter, classify_eq]

variable {opts env M}

theorem notMem_otherOf {F : Fn} (hF : F ∈ sensitiveOf opts env M) : F ∉ otherOf opts env M := by
  intro hother
  have hno := isOther_of_isSensitive (mem_sensitiveOf.mp hF).2
  rw [(mem_otherOf.mp hother).2] at hno
  cases hno

omit [OrderBot Fn] in
/-- Of a list without repeats its last elements are left. -/
theorem remaining_take {l : List Fn} (hnd : l.Nodup) (n : Nat) :
    remaining l (l.take n) = l.drop n := by
  have hsplit := List.take_append_drop n l
  rw [← hsplit] at hnd
  have happart := (List.nodup_append.mp hnd).2.2
  conv_lhs => rw [remaining, ← hsplit]
  rw [List.filter_append, hsplit, List.filter_eq_nil_iff.mpr (by simp), List.nil_append,
    List.filter_eq_self]
  intro F hF
  rw [decide_eq_true_iff]
  exact fun hF' => happart F hF' F hF rfl

/-- The pool of a function: all others, and with neither flag the sensitive ones behind it. -/
theorem length_pool (i : Nat) : (pool (sensitiveOf opts env M) (checkersFor opts env M) i).length =
    M.functions.countP (isOther opts env M) + if opts.sensitiveOnlyChecked || opts.extractedOnly
      then 0 else M.functions.countP (isSensitive opts env M) - (i + 1) := by
  have hothers : remaining (otherOf opts env M) ((sensitiveOf opts env M).take (i + 1)) =
      otherOf opts env M := by
    refine List.filter_eq_self.mpr fun F hF => ?_
    rw [decide_eq_true_iff]
    exact fun hsens => notMem_otherOf (List.mem_of_mem_take hsens) hF
  have hlast := remaining_take (sensitiveOf_nodup opts env M) (i + 1)
  rw [pool, checkersFor]
  by_cases hflag : (opts.sensitiveOnlyChecked || opts.extractedOnly) = true
  · rw [if_neg (by simpa [or_iff_not_imp_left] using hflag), if_pos hflag, hothers, length_otherOf]
    rfl
  · rw [if_pos (by simpa using hflag), if_neg hflag, ← length_otherOf, ← length_sensitiveOf,
      ← List.length_drop, ← hlast, ← List.length_append]
    conv_rhs => rw [← hothers]
    rw [remaining, List.filter_append]
    rfl

end Pools

/-! ## The guards of a run -/

/-- The connectivity that is used is never zero. -/
theorem effectiveConnectivity_pos {opts : Options} (h : 0 ≤ opts.desiredConnectivity.toInt) :
    0 < (effectiveConnectivity opts).toInt := by
  unfold effectiveConnectivity
  by_cases hzero : opts.desiredConnectivity = 0
  · rw [if_pos hzero]
    decide
  · rw [if_neg hzero]
    have hne : opts.desiredConnectivity.toInt ≠ 0 := fun h => hzero (Int32.toInt.inj h)
    omega

/-- The injected guards, counted by the functions they are on. -/
theorem Constructed.length_injected {opts : Options} {env : Environment Fn} {M : Module Fn}
    {net : Network Fn} (hc : Constructed opts env M net) :
    net.injected.length = ∑ i ∈ Finset.range (M.functions.countP (isSensitive opts env M)),
      clamp (effectiveConnectivity opts)
        (pool (sensitiveOf opts env M) (checkersFor opts env M) i).length := by
  have hall : net.injected.countP (fun e => e.2 ∈ sensitiveOf opts env M) = net.injected.length :=
    List.countP_eq_length.mpr fun e he =>
      decide_eq_true (hc.edge (mem_injected.mp he).2).2.1
  have hcounts : (sensitiveOf opts env M).map (fun F => net.injected.countP fun e => e.2 = F) =
      (List.range (M.functions.countP (isSensitive opts env M))).map fun i =>
        clamp (effectiveConnectivity opts)
          (pool (sensitiveOf opts env M) (checkersFor opts env M) i).length := by
    refine List.ext_getElem (by simp [length_sensitiveOf]) fun i hi hi' => ?_
    have hF := List.getElem?_eq_getElem (l := sensitiveOf opts env M) (i := i) (by simpa using hi)
    rw [List.getElem_map, List.getElem_map, List.getElem_range, ← hc.count_injected hF,
      List.count, List.countP_map]
    rfl
  rw [← hall, ← sum_countP Prod.snd _ _ (sensitiveOf_nodup opts env M), hcounts]
  rfl

/-- A run that constructs its network injects a number of guards that is known beforehand.
It leaves a sensitive function without guards only if there are no others: then the one that
is shuffled to the end, or all of them if they may not check each other. -/
theorem number_of_guards (opts : Options) (env : Environment Fn) (M : Module Fn)
    (hload : opts.loadCheckersNetwork = "") (hc : 0 ≤ opts.desiredConnectivity.toInt) :
    ∃ r, runOnModule opts env M = .ok r ∧
      r.state.guards.length =
        (if opts.sensitiveOnlyChecked || opts.extractedOnly then
          M.functions.countP (isSensitive opts env M) *
            min (effectiveConnectivity opts).toInt.toNat (M.functions.countP (isOther opts env M))
        else ∑ j ∈ Finset.range (M.functions.countP (isSensitive opts env M)),
          min (effectiveConnectivity opts).toInt.toNat
            (M.functions.countP (isOther opts env M) + j)) ∧
      ∀ F ∈ r.sensitiveFunctions, (∀ g ∈ r.state.guards, g.checkee ≠ F) ↔
        M.functions.countP (isOther opts env M) = 0 ∧
          ((opts.sensitiveOnlyChecked || opts.extractedOnly) = true ∨
            r.sensitiveFunctions.getLast? = some F) := by
  obtain ⟨r, hr, hcon, hsens, ht⟩ := runOnModule_constructs env M hload
  have hpos := effectiveConnectivity_pos hc
  refine ⟨r, hr, ?_, fun F hF => ?_⟩
  · rw [ht.guards, guardsOf_length, hcon.length_injected]
    simp only [clamp_of_nonneg hpos.le, length_pool]
    by_cases hflag : (opts.sensitiveOnlyChecked || opts.extractedOnly) = true
    · simp only [if_pos hflag, Nat.add_zero]
      rw [Finset.sum_const_nat fun _ _ => rfl, Finset.card_range]
    · simp only [if_neg hflag]
      rw [← Finset.sum_range_reflect]
      refine Finset.sum_congr rfl fun i hi => ?_
      have hlt := Finset.mem_range.mp hi
      congr 2
      omega
  · rw [hsens] at hF ⊢
    obtain ⟨i, hi, rfl⟩ := List.getElem_of_mem hF
    have hat := List.getElem?_eq_getElem hi
    have hcount := hcon.count_injected hat
    rw [clamp_of_nonneg hpos.le, length_pool] at hcount
    have hnone : (∀ g ∈ r.state.guards, g.checkee ≠ (sensitiveOf opts env M)[i]) ↔
        (r.network.injected.map Prod.snd).count (sensitiveOf opts env M)[i] = 0 := by
      rw [List.count_eq_zero, ← guardsOf_edge r.network.injected, ← ht.guards, List.map_map,
        List.mem_map]
      simp [Guard.edge]
    have hlast : (sensitiveOf opts env M).getLast? = some (sensitiveOf opts env M)[i] ↔
        i + 1 = M.functions.countP (isSensitive opts env M) := by
      rw [List.getLast?_eq_getElem?, ← hat,
        List.getElem?_inj (by omega) (sensitiveOf_nodup opts env M), ← length_sensitiveOf]
      omega
    have hlt : i < M.functions.countP (isSensitive opts env M) := length_sensitiveOf opts env M ▸ hi
    rw [hnone, hcount, hlast]
    cases opts.sensitiveOnlyChecked || opts.extractedOnly with
    | true =>
      simp only [if_true, true_or, and_true]
      omega
    | false =>
      simp only [Bool.false_eq_true, if_false, false_or]
      omega

/-- Three sensitive functions and no others, with the default connectivity. -/
theorem number_of_guards_sample : ∃ r,
    runOnModule {} (sampleEnvironment .unopened) sampleModule = .ok r ∧
    r.state.guards.length = 3 ∧ ∀ F ∈ r.sensitiveFunctions,
      (∀ g ∈ r.state.guards, g.checkee ≠ F) ↔ r.sensitiveFunctions.getLast? = some F := by
  obtain ⟨r, hr, hlength, hbare⟩ :=
    number_of_guards {} (sampleEnvironment .unopened) sampleModule rfl (by decide)
  refine ⟨r, hr, hlength, fun F hF => (hbare F hF).trans ?_⟩
  have hnone : sampleModule.functions.countP (isOther {} (sampleEnvironment .unopened) sampleModule) =
      0 := rfl
  simp [hnone]

end SelfChecksumming
