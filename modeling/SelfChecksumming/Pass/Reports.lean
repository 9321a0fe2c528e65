import SelfChecksumming.Network.Connectivity
import SelfChecksumming.Pass.RunSoundness
import Mathlib.Algebra.BigOperators.Group.List.Basic
import Mathlib.Data.Finset.Card

/-! # What a run says about itself

The statistics are read off the map of protected functions, which holds every sensitive
function from the start on. The closing checks compare a counter of guards with a set of
functions, and the functions the loop looked at with the filter. -/
namespace SelfChecksumming
open Library

variable {Fn : Type} [LinearOrder Fn] [OrderBot Fn]

/-! ## The statistics -/

theorem Tally.keys_perm {env : Environment Fn} {M : Module Fn} {sens : List Fn}
    {edges : List (Fn × Fn)} {st : PassState Fn} (ht : Tally env M sens edges st)
    (hnd : sens.Nodup) : st.protectedFuncs.keys.Perm sens := by
  rw [List.perm_ext_iff_of_nodup st.protectedFuncs.nodup_keys hnd]
  intro F
  rw [SortedMap.mem_keys, ht.protectedFuncs]
  by_cases hF : F ∈ sens <;> simp [hF]

omit [OrderBot Fn] in
/-- What the statistics read off the state. -/
theorem passStats_spec (opts : Options) (sens : List Fn) (st : PassState Fn) :
    (passStats opts sens st).numberOfGuards = st.numberOfGuards ∧
      (passStats opts sens st).numberOfProtectedFunctions = st.protectedFuncs.keys.length ∧
      (passStats opts sens st).numberOfProtectedInstructions =
        ((st.protectedFuncs.keys.map fun F => instructionCount (st.deref F)).sum : Nat) ∧
      (passStats opts sens st).avgConnectivity =
        Stats.divide ((st.protectedFuncs.entries.map Prod.snd).sum : Nat)
          st.protectedFuncs.keys.length := by
  have hcast : ∀ l : List (Fn × Nat),
      ((l.map fun e => (e.2 : Int)).map fun x : Int => (x : Rat)).sum = (l.map Prod.snd).sum := by
    intro l
    induction l with
    | nil => rfl
    | cons e l ih => simpa using ih
  refine ⟨?_, ?_, ?_, ?_⟩
  · exact Int.zero_add _
  · rw [SortedMap.keys, List.length_map]
    exact Int.zero_add _
  · rw [SortedMap.keys, List.map_map]
    exact Int.zero_add _
  · simp only [passStats, Stats.calculateConnectivity, hcast, List.length_map, SortedMap.keys]

/-- A run dumps statistics only for a network it constructed. -/
theorem constructs_of_stats {opts : Options} {env : Environment Fn} {M : Module Fn}
    {r : PassResult Fn} {s : Stats} (h : runOnModule opts env M = .ok r) (hs : r.stats = some s) :
    opts.loadCheckersNetwork = "" ∧ s = passStats opts r.sensitiveFunctions r.state := by
  obtain ⟨hnet, -, -, -, hstats, -⟩ := runOnModule_ok h
  rw [hstats] at hs
  have hdump : opts.dumpSCStat ≠ "" := by
    intro he
    simp [he] at hs
  rw [if_pos hdump] at hs
  refine ⟨?_, (Option.some.inj hs).symm⟩
  by_contra hload
  rw [chosenNetwork, checkersNetwork, if_pos hload, loadNetwork] at hnet
  obtain ⟨loaded, -, hnet⟩ := bind_eq_ok.mp hnet
  rw [if_pos hdump] at hnet
  cases hnet

/-- What the statistics promise of a run: the guards are counted, every sensitive function
counts as protected, and the mean is taken over these. -/
theorem runOnModule_stats {opts : Options} {env : Environment Fn} {M : Module Fn}
    {r : PassResult Fn} {s : Stats} (h : runOnModule opts env M = .ok r) (hs : r.stats = some s) :
    s.numberOfGuards = r.state.guards.length ∧
      s.numberOfProtectedFunctions = r.sensitiveFunctions.length ∧
      r.sensitiveFunctions.Nodup ∧
      (∀ g ∈ r.state.guards, g.checkee ∈ r.sensitiveFunctions) ∧
      s.numberOfProtectedInstructions =
        (r.sensitiveFunctions.map fun F => instructionCount (r.state.deref F)).sum ∧
      (r.sensitiveFunctions ≠ [] → (r.sensitiveFunctions.length : Rat) ≠ 0 ∧
        s.avgConnectivity =
          some ((r.state.guards.length : Rat) / (r.sensitiveFunctions.length : Rat))) := by
  obtain ⟨hload, rfl⟩ := constructs_of_stats h hs
  obtain ⟨r', hr', hc, hsens, ht⟩ := runOnModule_constructs env M hload
  obtain rfl : r' = r := Except.ok.inj (hr'.symm.trans h)
  have hnd := sensitiveOf_nodup opts env M
  have hkeys := ht.keys_perm hnd
  have hguards : r'.state.guards.length = r'.network.injected.length := by
    rw [ht.guards, guardsOf_length]
  have hchecked : ∀ e ∈ r'.network.injected, e.2 ∈ sensitiveOf opts env M := fun e he =>
    (hc.edge (mem_injected.mp he).2).2.1
  have hstats := passStats_spec opts (sensitiveOf opts env M) r'.state
  rw [hsens]
  refine ⟨?_, ?_, hnd, ?_, ?_, fun hne => ?_⟩
  · rw [hstats.1, ht.numberOfGuards, hguards]
  · rw [hstats.2.1, hkeys.length_eq]
  · exact fun g hg => hchecked _ (ht.edge_mem hg)
  · rw [hstats.2.2.1, (hkeys.map _).sum_eq]
  · have hpos : (sensitiveOf opts env M).length ≠ 0 := by simpa using hne
    refine ⟨Nat.cast_ne_zero.mpr hpos, ?_⟩
    rw [hstats.2.2.2, hkeys.length_eq, ht.protected_sum hchecked, hguards, Stats.divide,
      if_neg hpos]

theorem runOnModule_stats_sample : ∃ r s,
    runOnModule { dumpSCStat := "sc.stats" } (sampleEnvironment .unopened) sampleModule = .ok r ∧
      r.stats = some s ∧ s.numberOfProtectedFunctions = 3 := by
  obtain ⟨r, hr⟩ : ∃ r, runOnModule { dumpSCStat := "sc.stats" } (sampleEnvironment .unopened)
      sampleModule = .ok r := ⟨_, rfl⟩
  obtain ⟨s, hs⟩ : ∃ s, r.stats = some s := by cases hr; exact ⟨_, rfl⟩
  obtain ⟨-, hfunctions, -⟩ := runOnModule_stats hr hs
  refine ⟨r, s, hr, hs, hfunctions.trans ?_⟩
  cases hr
  rfl

/-- Three functions count as protected, and the guards check two of them. -/
theorem stats_count_unchecked : ∃ r s,
    runOnModule { dumpSCStat := "sc.stats" } (sampleEnvironment .unopened) sampleModule = .ok r ∧
      r.stats = some s ∧
      s.numberOfProtectedFunctions ≠ ((r.state.guards.map Guard.checkee).toFinset.card : Int) :=
  ⟨_, _, rfl, rfl, by decide⟩

/-! ## The closing checks -/

omit [OrderBot Fn] in
/-- No function is listed twice under one checker. -/
theorem checkees_nodup {shuffles : Nat → Shuffle Nat} {sens checkers : List Fn} {c : Int32}
    (hs : sens.Nodup) (hc : checkers.Nodup) {k : Fn} {vs : List Fn}
    (hk : (inverted (checkersOfCheckee shuffles sens checkers c).entries .empty).find? k = some vs) :
    vs.Nodup := by
  rw [← (inverted_find?.mp hk).2, List.nodup_iff_count_le_one]
  intro F
  rw [count_checkeesOf]
  by_cases hF : F ∈ sens
  · obtain ⟨i, hi, rfl⟩ := List.getElem_of_mem hF
    rw [checkersOfCheckee_getD shuffles checkers c hs (List.getElem?_eq_getElem hi)]
    exact List.nodup_iff_count_le_one.mp (randomComb_nodup (pool_nodup _ hc i)) k
  · cases hf : (checkersOfCheckee shuffles sens checkers c).find? F with
    | none => simp
    | some cs =>
      obtain ⟨i, hi, -⟩ := checkersOfCheckee_sound hf
      exact absurd (List.mem_of_getElem? hi) hF

omit [OrderBot Fn] in
/-- As many edges lead to a function as it has checkers. -/
theorem count_edgesOf {net : SortedMap Fn (List Fn)}
    (hnd : ∀ k vs, net.find? k = some vs → vs.Nodup) (F : Fn) :
    ((edgesOf net).map Prod.snd).count F = (checkersOf net F).length := by
  have aux : ∀ l : List (Fn × List Fn), (∀ e ∈ l, e.2.Nodup) →
      ((l.flatMap fun e => e.2.map fun checkee => (e.1, checkee)).map Prod.snd).count F =
        (l.filter fun e => F ∈ e.2).length := by
    intro l hl
    induction l with
    | nil => rfl
    | cons e l ih =>
      have hmap : (e.2.map fun checkee => (e.1, checkee)).map Prod.snd = e.2 := by
        simp [Function.comp_def]
      rw [List.flatMap_cons, List.map_append, hmap, List.count_append,
        ih fun x hx => hl x (List.mem_cons_of_mem _ hx), (hl e List.mem_cons_self).count,
        List.filter_cons]
      by_cases hF : F ∈ e.2
      · simp [hF, Nat.add_comm]
      · simp [hF]
  rw [edgesOf, checkersOf, List.length_map]
  exact aux net.entries fun e he => hnd e.1 e.2 (SortedMap.find?_eq_some_iff.mpr he)

/-- The counter agrees with the set where no function is guarded twice. -/
theorem Tally.markedError_iff {env : Environment Fn} {M : Module Fn} {sens : List Fn}
    {edges : List (Fn × Fn)} {st : PassState Fn} (ht : Tally env M sens edges st) :
    markedError st = [] ↔ (edges.map Prod.snd).Nodup := by
  have hset : st.functionInfo.functions = (edges.map Prod.snd).toFinset := by
    ext F
    rw [ht.marked, List.mem_toFinset, List.mem_map]
  have hcard : st.markedFunctionCount = st.functionInfo.functions.card ↔
      (edges.map Prod.snd).Nodup := by
    rw [ht.markedFunctionCount, hset, eq_comm, ← List.length_map Prod.snd]
    exact Multiset.toFinset_card_eq_card_iff_nodup (m := (edges.map Prod.snd : Multiset Fn))
  rw [← hcard, markedError]
  by_cases h : st.markedFunctionCount = st.functionInfo.functions.card
  · simp [h]
  · simp [h]

/-- The network of a run leads to a function as often as the clamp allows. -/
theorem Constructed.count_injected {opts : Options} {env : Environment Fn} {M : Module Fn}
    {net : Network Fn} (hc : Constructed opts env M net) {i : Nat} {F : Fn}
    (hF : (sensitiveOf opts env M)[i]? = some F) :
    (net.injected.map Prod.snd).count F = clamp (effectiveConnectivity opts)
      (pool (sensitiveOf opts env M) (checkersFor opts env M) i).length := by
  obtain ⟨hnd, hmem, -⟩ := hc.sorted
  have hs := sensitiveOf_nodup opts env M
  have hcheckers := checkersFor_nodup opts env M
  have hmap := constructProtectionNetwork_ok hc.map
  rw [((injected_perm hnd hmem).map Prod.snd).count_eq, count_edgesOf, hmap,
    length_checkersOf env.shuffles _ hs hcheckers hF]
  intro k vs hk
  exact checkees_nodup hs hcheckers (hmap ▸ hk)

/-- No sensitive function gets a second checker. -/
def OneCheckerEach (opts : Options) (env : Environment Fn) (M : Module Fn) : Prop :=
  ∀ i < (sensitiveOf opts env M).length, clamp (effectiveConnectivity opts)
    (pool (sensitiveOf opts env M) (checkersFor opts env M) i).length ≤ 1

theorem Constructed.injected_nodup_iff {opts : Options} {env : Environment Fn} {M : Module Fn}
    {net : Network Fn} (hc : Constructed opts env M net) :
    (net.injected.map Prod.snd).Nodup ↔ OneCheckerEach opts env M := by
  rw [List.nodup_iff_count_le_one]
  constructor
  · intro h i hi
    rw [← hc.count_injected (List.getElem?_eq_getElem hi)]
    exact h _
  · intro h F
    by_cases hF : F ∈ sensitiveOf opts env M
    · obtain ⟨i, hi, rfl⟩ := List.getElem_of_mem hF
      rw [hc.count_injected (List.getElem?_eq_getElem hi)]
      exact h i hi
    · have hzero : (net.injected.map Prod.snd).count F = 0 := by
        rw [List.count_eq_zero]
        intro hmem
        obtain ⟨e, he, rfl⟩ := List.mem_map.mp hmem
        exact hF (hc.edge (mem_injected.mp he).2).2.1
      omega

theorem clamp_le_one {c : Int32} (hc : c ≠ 0) {size : Nat} (hsize : size < 2 ^ 31) :
    clamp c size ≤ 1 ↔ c = 1 ∨ size ≤ 1 := by
  have hzero : c.toInt ≠ 0 := fun h => hc (Int32.toInt_inj.mp h)
  have hone : c = 1 ↔ c.toInt = 1 := Int32.toInt_inj.symm
  by_cases hneg : c.toInt < 0
  · have hhuge := toSize_of_neg hneg
    rw [clamp_of_neg hneg, if_pos (by omega), Int32.toInt_ofNat_of_lt hsize, hone]
    omega
  · rw [clamp_of_nonneg (by omega), hone]
    omega

theorem checkersFor_length_le (opts : Options) (env : Environment Fn) (M : Module Fn) :
    (checkersFor opts env M).length ≤ M.functions.length := by
  refine ((checkersFor_nodup opts env M).subperm fun F hF => ?_).length_le
  exact (eligible_of_checker hF).mem

/-- One checker is asked for, or there is at most one besides the first sensitive function. -/
theorem oneCheckerEach_iff {opts : Options} {env : Environment Fn} {M : Module Fn}
    (hsize : M.functions.length < 2 ^ 31) : OneCheckerEach opts env M ↔
      effectiveConnectivity opts = 1 ∨ sensitiveOf opts env M = [] ∨
        (pool (sensitiveOf opts env M) (checkersFor opts env M) 0).length ≤ 1 := by
  have hne : effectiveConnectivity opts ≠ 0 := by
    unfold effectiveConnectivity
    split
    · decide
    · assumption
  have hclamp : ∀ i, clamp (effectiveConnectivity opts)
      (pool (sensitiveOf opts env M) (checkersFor opts env M) i).length ≤ 1 ↔
      effectiveConnectivity opts = 1 ∨
        (pool (sensitiveOf opts env M) (checkersFor opts env M) i).length ≤ 1 := by
    intro i
    have h₁ := pool_length_le (sensitiveOf opts env M) (checkersFor opts env M) i
    have h₂ := checkersFor_length_le opts env M
    exact clamp_le_one hne (by omega)
  simp only [OneCheckerEach, hclamp]
  by_cases hone : effectiveConnectivity opts = 1
  · simp [hone]
  by_cases hnil : sensitiveOf opts env M = []
  · simp [hnil]
  simp only [hone, hnil, false_or]
  constructor
  · intro h
    exact h 0 (List.length_pos_iff.mpr hnil)
  · intro h i _
    exact (pool_length_anti _ _ (Nat.zero_le i)).trans h

/-- The functions that the pass looks at are all in a filter that is just the sensitive set. -/
def FilterCovers (opts : Options) (env : Environment Fn) (M : Module Fn) : Prop :=
  env.filter.functions ≠ ∅ → (∀ F, F ∈ sensitiveOf opts env M ↔ F ∈ env.filter.functions) →
    ∀ F ∈ M.functions, isProcessed M F = true → F ∈ env.filter.functions

theorem card_filter_iff {opts : Options} {env : Environment Fn} {M : Module Fn}
    (hsens : ∀ F, F ∈ sensitiveOf opts env M ↔ F ∈ env.filter.functions) :
    M.functions.countP (isProcessed M) = env.filter.functions.card ↔
      ∀ F ∈ M.functions, isProcessed M F = true → F ∈ env.filter.functions := by
  have hprocessed : (M.functions.filter (isProcessed M)).toFinset.card =
      M.functions.countP (isProcessed M) := by
    rw [List.toFinset_card_of_nodup (M.nodup.filter _), List.countP_eq_length_filter]
  have hsub : env.filter.functions ⊆ (M.functions.filter (isProcessed M)).toFinset := by
    intro F hF
    obtain ⟨hmem, hs⟩ := mem_sensitiveOf.mp ((hsens F).mpr hF)
    simp only [isSensitive, Bool.and_eq_true] at hs
    exact List.mem_toFinset.mpr (List.mem_filter.mpr ⟨hmem, hs.1.1⟩)
  rw [← hprocessed]
  constructor
  · intro hcard F hF hp
    rw [Finset.eq_of_subset_of_card_le hsub hcard.le]
    exact List.mem_toFinset.mpr (List.mem_filter.mpr ⟨hF, hp⟩)
  · intro hall
    refine le_antisymm (Finset.card_le_card fun F hF => ?_) (Finset.card_le_card hsub)
    obtain ⟨hmem, hp⟩ := List.mem_filter.mp (List.mem_toFinset.mp hF)
    exact hall F hmem hp

theorem processedError_iff (opts : Options) (env : Environment Fn) (M : Module Fn) :
    (env.filter.functions ≠ ∅ → (∀ F, F ∈ sensitiveOf opts env M ↔ F ∈ env.filter.functions) →
      processedError env (classify opts env M).countProcessedFuncs = []) ↔
    FilterCovers opts env M := by
  refine forall₂_congr fun hne hsens => ?_
  rw [← card_filter_iff hsens, classify_eq, processedError]
  by_cases h : M.functions.countP (isProcessed M) = env.filter.functions.card
  · simp [h]
  · simp [h, hne]

/-- What the two closing errors should say: the first is about marked functions that no
guard checks, or the other way round; the second is no matter of a filter that is just the
sensitive set. -/
structure NoFalseError (opts : Options) (env : Environment Fn) (M : Module Fn)
    (r : PassResult Fn) : Prop where
  marked : markedError r.state ≠ [] ↔
    ¬ ∀ F, F ∈ r.state.functionInfo.functions ↔ ∃ g ∈ r.state.guards, g.checkee = F
  processed : env.filter.functions ≠ ∅ →
    (∀ F, F ∈ r.sensitiveFunctions ↔ F ∈ env.filter.functions) →
    processedError env (classify opts env M).countProcessedFuncs = []

theorem Tally.marked_checkees {env : Environment Fn} {M : Module Fn} {sens : List Fn}
    {edges : List (Fn × Fn)} {st : PassState Fn} (ht : Tally env M sens edges st) (F : Fn) :
    F ∈ st.functionInfo.functions ↔ ∃ g ∈ st.guards, g.checkee = F := by
  rw [ht.marked]
  constructor
  · intro h
    obtain ⟨e, he, rfl⟩ := h
    obtain ⟨g, hg, -, hcheckee⟩ := ht.exists_guard he
    exact ⟨g, hg, hcheckee⟩
  · intro h
    obtain ⟨g, hg, rfl⟩ := h
    exact ⟨_, ht.edge_mem hg, rfl⟩

/-- The closing checks are right exactly when no function has a second checker and a filter
that is just the sensitive set leaves no function out that the pass looks at. -/
theorem noFalseError_iff (opts : Options) (env : Environment Fn) (M : Module Fn)
    (h : opts.loadCheckersNetwork = "") :
    ∃ r, runOnModule opts env M = .ok r ∧
      r.errors = markedError r.state ++
        processedError env (classify opts env M).countProcessedFuncs ∧
      (NoFalseError opts env M r ↔ OneCheckerEach opts env M ∧ FilterCovers opts env M) ∧
      (M.functions.length < 2 ^ 31 → (OneCheckerEach opts env M ↔
        effectiveConnectivity opts = 1 ∨ sensitiveOf opts env M = [] ∨
          (pool (sensitiveOf opts env M) (checkersFor opts env M) 0).length ≤ 1)) := by
  obtain ⟨r, hr, hc, hsens, ht⟩ := runOnModule_constructs env M h
  obtain ⟨-, -, -, -, -, herrors⟩ := runOnModule_ok hr
  have hmarked : (markedError r.state ≠ [] ↔
      ¬ ∀ F, F ∈ r.state.functionInfo.functions ↔ ∃ g ∈ r.state.guards, g.checkee = F) ↔
      OneCheckerEach opts env M := by
    rw [← hc.injected_nodup_iff, ← ht.markedError_iff]
    simp [ht.marked_checkees]
  refine ⟨r, hr, herrors, ?_, oneCheckerEach_iff⟩
  rw [← hmarked, ← processedError_iff, ← hsens]
  exact ⟨fun h => ⟨h.marked, h.processed⟩, fun h => ⟨h.1, h.2⟩⟩

/-- The filter is the sensitive set; it holds all functions at first, and then one. -/
theorem noFalseError_iff_sample :
    (∃ r, runOnModule { desiredConnectivity := 1 }
        { sampleEnvironment .unopened with filter := ⟨{1, 2, 3}⟩ } sampleModule = .ok r ∧
      NoFalseError { desiredConnectivity := 1 }
        { sampleEnvironment .unopened with filter := ⟨{1, 2, 3}⟩ } sampleModule r) ∧
    ∃ r, runOnModule { desiredConnectivity := 1 }
        { sampleEnvironment .unopened with filter := ⟨{1}⟩ } sampleModule = .ok r ∧
      ¬ NoFalseError { desiredConnectivity := 1 }
        { sampleEnvironment .unopened with filter := ⟨{1}⟩ } sampleModule r := by
  constructor
  · obtain ⟨r, hr, -, hiff, hone⟩ := noFalseError_iff { desiredConnectivity := 1 }
      { sampleEnvironment .unopened with filter := ⟨{1, 2, 3}⟩ } sampleModule rfl
    refine ⟨r, hr, hiff.mpr ⟨(hone (by decide)).mpr (.inl rfl), fun _ _ F hF _ => ?_⟩⟩
    simpa [sampleModule] using hF
  · obtain ⟨r, hr, -, hiff, -⟩ := noFalseError_iff { desiredConnectivity := 1 }
      { sampleEnvironment .unopened with filter := ⟨{1}⟩ } sampleModule rfl
    refine ⟨r, hr, fun hno => ?_⟩
    have hsens : sensitiveOf { desiredConnectivity := 1 }
        { sampleEnvironment .unopened with filter := ⟨{1}⟩ } sampleModule = [1] := rfl
    have hcovered := (hiff.mp hno).2 (by decide) (fun F => by simp [hsens]) 2 (by decide) rfl
    exact absurd hcovered (by decide)

/-- Three guards on two functions, all of them marked: the error is reported. -/
theorem marked_error_raised_falsely : ∃ r,
    runOnModule {} (sampleEnvironment .unopened) sampleModule = .ok r ∧
      r.errors = ["ERR. Marked functions 3 are not reflected correctly 2\n"] ∧
      ¬ NoFalseError {} (sampleEnvironment .unopened) sampleModule r := by
  have hload : ({} : Options).loadCheckersNetwork = "" := rfl
  obtain ⟨r, hr, -, -, ht⟩ := runOnModule_constructs (sampleEnvironment .unopened) sampleModule hload
  refine ⟨r, hr, ?_, fun h => h.marked.mp ?_ ht.marked_checkees⟩
  · cases hr
    rfl
  · cases hr
    decide

end SelfChecksumming
