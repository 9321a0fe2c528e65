import SelfChecksumming.Network.JsonRoundtrip
import SelfChecksumming.Pass.Selection

/-! # What a run of the pass guarantees

A run that constructs its network always completes; its guards are the edges of
that network and respect the selection flags. A loaded network is taken as it is. -/
namespace SelfChecksumming
open Library

variable {Fn : Type} [LinearOrder Fn] [OrderBot Fn]

/-! ## The stages of a run -/

/-- The network of the run, with the two lists it classifies. -/
def chosenNetwork (opts : Options) (env : Environment Fn) (M : Module Fn) :
    Except Fault (Network Fn) :=
  checkersNetwork opts env M (sensitiveOf opts env M) (otherOf opts env M)

theorem runOnModule_ok {opts : Options} {env : Environment Fn} {M : Module Fn} {r : PassResult Fn}
    (h : runOnModule opts env M = .ok r) :
    chosenNetwork opts env M = .ok r.network ∧ dumpNetwork opts M r.network = .ok r.dumped ∧
      injectGuards env M (sensitiveOf opts env M) r.network = .ok r.state ∧
      r.sensitiveFunctions = sensitiveOf opts env M ∧
      r.stats = (if opts.dumpSCStat ≠ "" then
        some (passStats opts r.sensitiveFunctions r.state) else none) ∧
      r.errors = markedError r.state ++
        processedError env (classify opts env M).countProcessedFuncs := by
  obtain ⟨net, hnet, h⟩ := bind_eq_ok.mp h
  obtain ⟨dumped, hdump, h⟩ := bind_eq_ok.mp h
  obtain ⟨st, hst, h⟩ := bind_eq_ok.mp h
  cases h
  exact ⟨hnet, hdump, hst, rfl, rfl, rfl⟩

/-- What the injection loop and the dump rely on. -/
structure Network.WellFormed (M : Module Fn) (net : Network Fn) : Prop where
  within : Within M net.checkerFuncMap
  mem : ∀ F, F ∈ net.topologicalSortFuncs ↔ F ∈ net.checkerFuncMap.keys
  isDefined : ∀ F ∈ net.topologicalSortFuncs, (M.deref F).isDeclaration = false

theorem runOnModule_total {opts : Options} {env : Environment Fn} {M : Module Fn}
    {net : Network Fn} (h : chosenNetwork opts env M = .ok net) (hnet : net.WellFormed M) :
    ∃ r, runOnModule opts env M = .ok r ∧ r.network = net := by
  obtain ⟨j, -, hdump, -⟩ := loadJson_of_dumpJson hnet.within hnet.mem
  obtain ⟨st, hst⟩ := injectGuards_total env (sensitiveOf opts env M) net
    (fun F hF => by
      obtain ⟨vs, hvs⟩ := SortedMap.mem_keys.mp ((hnet.mem F).mp hF)
      exact ⟨(hnet.within F vs hvs).1, hnet.isDefined F hF⟩)
    (fun F v he => by
      obtain ⟨vs, hvs, hv⟩ := he
      exact (hnet.within F vs hvs).2 v hv)
  obtain ⟨dumped, hd⟩ : ∃ dumped, dumpNetwork opts M net = .ok dumped := by
    unfold dumpNetwork
    rw [hdump]
    split
    · exact ⟨some j, rfl⟩
    · exact ⟨none, rfl⟩
  have hrun : ∃ r, runOnModule opts env M = .ok r :=
    ⟨_, bind_eq_ok.mpr ⟨net, h, bind_eq_ok.mpr ⟨dumped, hd, bind_eq_ok.mpr ⟨st, hst, rfl⟩⟩⟩⟩
  obtain ⟨r, hr⟩ := hrun
  exact ⟨r, hr, Except.ok.inj ((runOnModule_ok hr).1.symm.trans h)⟩

/-! ## The constructed network -/

/-- The network of the construct branch. -/
structure Constructed (opts : Options) (env : Environment Fn) (M : Module Fn) (net : Network Fn) :
    Prop where
  map : accepting.constructProtectionNetwork env.shuffles (sensitiveOf opts env M)
    (checkersFor opts env M) (effectiveConnectivity opts) = .ok net.checkerFuncMap
  sort : getReverseTopologicalSort net.checkerFuncMap = .ok net.topologicalSortFuncs

namespace Constructed

variable {opts : Options} {env : Environment Fn} {M : Module Fn} {net : Network Fn}

theorem edge (h : Constructed opts env M net) {k F : Fn}
    (he : Edge net.checkerFuncMap.find? k F) :
    k ∈ checkersFor opts env M ∧ F ∈ sensitiveOf opts env M ∧ k ≠ F := by
  obtain ⟨i, hF, hk⟩ := edge_of_constructed h.map he
  have hpool := mem_pool.mp (randomComb_subset hk)
  refine ⟨hpool.1, List.mem_of_getElem? hF, ?_⟩
  intro hkF
  subst hkF
  exact acyclic_of_constructed h.map k (.single he)

/-- Who is a key checks somebody. -/
theorem exists_edge (h : Constructed opts env M net) {k : Fn}
    (hk : k ∈ net.checkerFuncMap.keys) : ∃ F, Edge net.checkerFuncMap.find? k F := by
  obtain ⟨vs, hvs⟩ := SortedMap.mem_keys.mp hk
  have hne : vs ≠ [] := by
    have hmap := constructProtectionNetwork_ok h.map
    exact noEmptyList_inverted _ k vs (hmap ▸ hvs)
  obtain ⟨F, hF⟩ := List.exists_mem_of_ne_nil vs hne
  exact ⟨F, vs, hvs, hF⟩

theorem sorted (h : Constructed opts env M net) :
    net.topologicalSortFuncs.Nodup ∧
      (∀ F, F ∈ net.topologicalSortFuncs ↔ F ∈ net.checkerFuncMap.keys) ∧
      Ordered net.checkerFuncMap.find? net.topologicalSortFuncs := by
  obtain ⟨L, hL, hnd, hmem, hord⟩ := getReverseTopologicalSort_ordered net.checkerFuncMap
  obtain rfl : L = net.topologicalSortFuncs := Except.ok.inj (hL.symm.trans h.sort)
  exact ⟨hnd, hmem, hord⟩

theorem wellFormed (h : Constructed opts env M net) : net.WellFormed M where
  within k vs hk := by
    refine ⟨?_, fun F hF => ?_⟩
    · obtain ⟨F, he⟩ := h.exists_edge (SortedMap.mem_keys.mpr ⟨vs, hk⟩)
      exact (eligible_of_checker (h.edge he).1).mem
    · exact (eligible_of_sensitive (h.edge ⟨vs, hk, hF⟩).2.1).mem
  mem := h.sorted.2.1
  isDefined F hF := by
    obtain ⟨v, he⟩ := h.exists_edge ((h.sorted.2.1 F).mp hF)
    exact (eligible_of_checker (h.edge he).1).isDefined

end Constructed

/-- With one of the two flags set, no checker is sensitive. -/
theorem checkersFor_insensitive {opts : Options} {env : Environment Fn} {M : Module Fn}
    (h : opts.sensitiveOnlyChecked = true ∨ opts.extractedOnly = true) {F : Fn}
    (hF : F ∈ checkersFor opts env M) : F ∉ sensitiveOf opts env M := by
  rcases mem_checkersFor hF with ho | ⟨hs, he, -⟩
  · intro hsens
    have hother := (mem_otherOf.mp ho).2
    rw [isOther_of_isSensitive (mem_sensitiveOf.mp hsens).2] at hother
    cases hother
  · rw [hs, he] at h
    exact absurd h (by simp)

/-- The construct branch always ends with a network; its assertion never fails. -/
theorem constructNetwork_total (opts : Options) (env : Environment Fn) (M : Module Fn) :
    ∃ net, constructNetwork opts env (sensitiveOf opts env M) (otherOf opts env M) = .ok net ∧
      Constructed opts env M net := by
  obtain ⟨map, hmap⟩ : ∃ map, accepting.constructProtectionNetwork env.shuffles
      (sensitiveOf opts env M) (checkersFor opts env M) (effectiveConnectivity opts) = .ok map :=
    ⟨_, accepting_ok _ _ _ _⟩
  obtain ⟨L, hL, -⟩ := getReverseTopologicalSort_ordered map
  have hc : Constructed opts env M ⟨map, L⟩ := ⟨hmap, hL⟩
  refine ⟨⟨map, L⟩, ?_, hc⟩
  refine bind_eq_ok.mpr ⟨map, hmap, bind_eq_ok.mpr ⟨L, hL, bind_eq_ok.mpr ⟨(), ?_, rfl⟩⟩⟩
  by_cases hflag : (opts.sensitiveOnlyChecked || opts.extractedOnly) = true
  · rw [if_pos hflag, assertSensitiveOnlyCheckedCondition, if_neg]
    · intro hex
      obtain ⟨F, hF, hkey⟩ := hex
      obtain ⟨v, he⟩ := hc.exists_edge
        (SortedMap.mem_keys.mpr (Option.isSome_iff_exists.mp hkey))
      exact checkersFor_insensitive (by simpa using hflag) (hc.edge he).1 hF
  · rw [if_neg hflag]

/-- Without a network to load, the run constructs one and completes. -/
theorem runOnModule_constructs {opts : Options} (env : Environment Fn) (M : Module Fn)
    (h : opts.loadCheckersNetwork = "") :
    ∃ r, runOnModule opts env M = .ok r ∧ Constructed opts env M r.network ∧
      r.sensitiveFunctions = sensitiveOf opts env M ∧
      Tally env M (sensitiveOf opts env M) r.network.injected r.state := by
  obtain ⟨net, hnet, hc⟩ := constructNetwork_total opts env M
  have hchosen : chosenNetwork opts env M = .ok net := by
    rw [chosenNetwork, checkersNetwork, if_neg (not_not.mpr h), hnet]
  obtain ⟨r, hr, rfl⟩ := runOnModule_total hchosen hc.wellFormed
  obtain ⟨-, -, hst, hsens, -⟩ := runOnModule_ok hr
  exact ⟨r, hr, hc, hsens, tally_of_injectGuards hst⟩

/-! ## No guard lost or doubled -/

/-- The edges of a network, checker first. -/
def edgesOf (net : SortedMap Fn (List Fn)) : List (Fn × Fn) :=
  net.entries.flatMap fun e => e.2.map fun checkee => (e.1, checkee)

omit [OrderBot Fn] in
theorem edgesOf_eq (net : SortedMap Fn (List Fn)) :
    edgesOf net = net.keys.flatMap (hostEdges net) := by
  rw [edgesOf, SortedMap.keys, List.flatMap_map]
  refine List.flatMap_congr fun e he => ?_
  rw [hostEdges, SortedMap.find?_eq_some_iff.mpr he]
  rfl

omit [OrderBot Fn] in
theorem mem_edgesOf {net : SortedMap Fn (List Fn)} {k F : Fn} :
    (k, F) ∈ edgesOf net ↔ Edge net.find? k F := by
  simp only [edgesOf, List.mem_flatMap, List.mem_map, Prod.mk.injEq, Edge,
    SortedMap.find?_eq_some_iff]
  constructor
  · intro h
    obtain ⟨⟨a, vs⟩, he, v, hv, rfl, rfl⟩ := h
    exact ⟨vs, he, hv⟩
  · intro h
    obtain ⟨vs, he, hF⟩ := h
    exact ⟨(k, vs), he, F, hF, rfl, rfl⟩

omit [OrderBot Fn] in
/-- A list of the keys without repetition visits every edge once. -/
theorem injected_perm {net : Network Fn} (hnd : net.topologicalSortFuncs.Nodup)
    (hmem : ∀ F, F ∈ net.topologicalSortFuncs ↔ F ∈ net.checkerFuncMap.keys) :
    net.injected.Perm (edgesOf net.checkerFuncMap) := by
  rw [edgesOf_eq]
  exact ((List.perm_ext_iff_of_nodup hnd net.checkerFuncMap.nodup_keys).mpr hmem).flatMap_right _

omit [OrderBot Fn] in
/-- Elements counted by the one key each of them has. -/
theorem sum_countP {α : Type} (key : α → Fn) (l : List α) : ∀ keys : List Fn, keys.Nodup →
    (keys.map fun k => l.countP fun x => key x = k).sum = l.countP fun x => key x ∈ keys := by
  intro keys
  induction keys with
  | nil => intro _; simp
  | cons k keys ih =>
    intro hnd
    obtain ⟨hk, hnd⟩ := List.nodup_cons.mp hnd
    -- no element is counted under `k` and under a later key
    have hsplit : ∀ l : List α, (l.countP fun x => key x = k) + (l.countP fun x => key x ∈ keys) =
        l.countP fun x => key x ∈ k :: keys := by
      intro l
      induction l with
      | nil => rfl
      | cons x l ihl =>
        rw [List.countP_cons, List.countP_cons, List.countP_cons, ← ihl]
        by_cases hx : key x = k
        · simp [hx, hk]
          omega
        · simp [hx]
          omega
    rw [List.map_cons, List.sum_cons, ih hnd, hsplit]

theorem Tally.protected_sum {env : Environment Fn} {M : Module Fn} {sens : List Fn}
    {edges : List (Fn × Fn)} {st : PassState Fn} (ht : Tally env M sens edges st)
    (hsens : ∀ e ∈ edges, e.2 ∈ sens) :
    (st.protectedFuncs.entries.map Prod.snd).sum = edges.length := by
  have hkey : ∀ F, F ∈ st.protectedFuncs.keys ↔ F ∈ sens := by
    intro F
    rw [SortedMap.mem_keys, ht.protectedFuncs]
    by_cases hF : F ∈ sens <;> simp [hF]
  have hvalues : st.protectedFuncs.entries.map Prod.snd =
      st.protectedFuncs.keys.map fun k => edges.countP fun e => e.2 = k := by
    rw [SortedMap.keys, List.map_map]
    refine List.map_congr_left fun e he => ?_
    have hfind := ht.protectedFuncs e.1
    have hmem : e.1 ∈ sens := (hkey e.1).mp (List.mem_map_of_mem he)
    rw [SortedMap.find?_eq_some_iff.mpr he, if_pos hmem] at hfind
    exact Option.some.inj hfind
  rw [hvalues, sum_countP Prod.snd edges _ st.protectedFuncs.nodup_keys, List.countP_eq_length]
  exact fun e he => decide_eq_true ((hkey e.2).mpr (hsens e he))

/-- On the branch that constructs the network the run completes, the guards injected
are the edges of the network, and all four tallies agree on their number. -/
theorem runOnModule_guards_edges (opts : Options) (env : Environment Fn) (M : Module Fn)
    (h : opts.loadCheckersNetwork = "") :
    ∃ r, runOnModule opts env M = .ok r ∧
      accepting.constructProtectionNetwork env.shuffles r.sensitiveFunctions
        (checkersFor opts env M) (effectiveConnectivity opts) = .ok r.network.checkerFuncMap ∧
      (r.state.guards.map Guard.edge).Perm (edgesOf r.network.checkerFuncMap) ∧
      r.state.numberOfGuards = (edgesOf r.network.checkerFuncMap).length ∧
      r.state.guide.length = (edgesOf r.network.checkerFuncMap).length ∧
      (r.state.protectedFuncs.entries.map Prod.snd).sum =
        (edgesOf r.network.checkerFuncMap).length ∧
      ∀ F, F ∈ r.state.functionInfo.functions ↔
        ∃ k, (k, F) ∈ edgesOf r.network.checkerFuncMap := by
  obtain ⟨r, hr, hc, hsens, ht⟩ := runOnModule_constructs env M h
  obtain ⟨hnd, hmem, -⟩ := hc.sorted
  have hperm := injected_perm hnd hmem
  refine ⟨r, hr, hsens ▸ hc.map, ?_, ?_, ?_, ?_, fun F => ?_⟩
  · rwa [ht.guards, guardsOf_edge]
  · rw [ht.numberOfGuards, hperm.length_eq]
  · rw [ht.guide, List.length_map, ht.guards, guardsOf_length, hperm.length_eq]
  · rw [ht.protected_sum fun e he => ?_, hperm.length_eq]
    exact (hc.edge (mem_edgesOf.mp (hperm.mem_iff.mp he))).2.1
  · rw [ht.marked]
    constructor
    · intro hF
      obtain ⟨⟨k, v⟩, he, rfl⟩ := hF
      exact ⟨k, hperm.mem_iff.mp he⟩
    · intro hF
      obtain ⟨k, he⟩ := hF
      exact ⟨(k, F), hperm.mem_iff.mpr he, rfl⟩

theorem runOnModule_guards_edges_sample :
    ∃ r, runOnModule {} (sampleEnvironment .unopened) sampleModule = .ok r ∧
      r.state.numberOfGuards = (edgesOf r.network.checkerFuncMap).length := by
  obtain ⟨r, hr, -, -, hn, -⟩ :=
    runOnModule_guards_edges {} (sampleEnvironment .unopened) sampleModule rfl
  exact ⟨r, hr, hn⟩

/-! ## The selection policy -/

/-- What the flags and the filter promise about one guard. -/
structure FollowsPolicy (opts : Options) (env : Environment Fn) (M : Module Fn)
    (sensitiveFunctions : List Fn) (host checkee : Fn) : Prop where
  checkeeInFilter : env.filter.functions ≠ ∅ → checkee ∈ env.filter.functions
  checkeeExtracted : opts.extractedOnly = true → env.analysisInfo checkee = some true
  distinct : host ≠ checkee
  hostInsensitive : opts.sensitiveOnlyChecked = true ∨ opts.extractedOnly = true →
    host ∉ sensitiveFunctions
  hostInFilter : env.filter.functions ≠ ∅ → opts.useOtherFunctions = false →
    opts.extractedOnly = false → host ∈ env.filter.functions
  hostEligible : Eligible env M host
  checkeeEligible : Eligible env M checkee

theorem mem_filter_of_passesFilter {env : Environment Fn} {F : Fn}
    (h : passesFilter env F = true) (hne : env.filter.functions ≠ ∅) :
    F ∈ env.filter.functions := by
  simp only [passesFilter, hne, false_or, Bool.decide_eq_true, FunctionInformation.isFunction] at h
  split at h
  · cases h
  · simpa using h

/-- A run that constructs its network completes, so its assertion is never hit, and
every guard it injects follows the policy. -/
theorem runOnModule_follows_policy (opts : Options) (env : Environment Fn) (M : Module Fn)
    (h : opts.loadCheckersNetwork = "") :
    ∃ r, runOnModule opts env M = .ok r ∧
      ∀ g ∈ r.state.guards, FollowsPolicy opts env M r.sensitiveFunctions g.host g.checkee := by
  obtain ⟨r, hr, hc, hsens, ht⟩ := runOnModule_constructs env M h
  refine ⟨r, hr, fun g hg => ?_⟩
  obtain ⟨-, he⟩ := mem_injected.mp (ht.edge_mem hg)
  obtain ⟨hhost, hcheckee, hne⟩ := hc.edge he
  have hs := (mem_sensitiveOf.mp hcheckee).2
  simp only [isSensitive, Bool.and_eq_true] at hs
  refine ⟨mem_filter_of_passesFilter hs.1.2, fun hx => ?_, hne, fun hflag => ?_, ?_,
    eligible_of_checker hhost, eligible_of_sensitive hcheckee⟩
  · cases ha : env.analysisInfo g.checkee with
    | none => rw [ha] at hs; cases hs.2
    | some isExtracted => simpa [ha, hx] using hs.2
  · rw [hsens]
    exact checkersFor_insensitive hflag hhost
  · intro hfilter huse hext
    rcases mem_checkersFor hhost with ho | ⟨-, -, hsh⟩
    · have hother := (mem_otherOf.mp ho).2
      simp [isOther, hext, huse] at hother
    · have hsh := (mem_sensitiveOf.mp hsh).2
      simp only [isSensitive, Bool.and_eq_true] at hsh
      exact mem_filter_of_passesFilter hsh.1.2 hfilter

/-- The first two functions are extracted, and the first one is in the filter. -/
def filteredEnvironment : Environment Nat :=
  { sampleEnvironment .unopened with
    analysisInfo := fun F => some (decide (F ≠ 3))
    filter := ⟨{1}⟩ }

def onlyChecked : Options := { sensitiveOnlyChecked := true, useOtherFunctions := true }

/-- With `-extracted-only` the second function falls into no list. -/
theorem runOnModule_follows_policy_sample :
    (∃ r, runOnModule { extractedOnly := true } filteredEnvironment sampleModule = .ok r ∧
      r.state.guards.map (fun g => (g.host, g.checkee)) = [(3, 1)] ∧
      ∀ g ∈ r.state.guards, FollowsPolicy { extractedOnly := true } filteredEnvironment sampleModule
        r.sensitiveFunctions g.host g.checkee) ∧
    ∃ r, runOnModule onlyChecked filteredEnvironment sampleModule = .ok r ∧
      r.state.guards.map (fun g => (g.host, g.checkee)) = [(2, 1), (3, 1)] ∧
      ∀ g ∈ r.state.guards, FollowsPolicy onlyChecked filteredEnvironment sampleModule
        r.sensitiveFunctions g.host g.checkee := by
  constructor
  · obtain ⟨r, hr, hpolicy⟩ := runOnModule_follows_policy { extractedOnly := true }
      filteredEnvironment sampleModule rfl
    refine ⟨r, hr, ?_, hpolicy⟩
    cases hr
    rfl
  · obtain ⟨r, hr, hpolicy⟩ := runOnModule_follows_policy onlyChecked filteredEnvironment
      sampleModule rfl
    refine ⟨r, hr, ?_, hpolicy⟩
    cases hr
    rfl

end SelfChecksumming
