import SelfChecksumming.Pass.RunSoundness

/-! # Runs that load a network

Nothing is asserted about a loaded network: the flags of the run that dumped it
may have been others. -/
namespace SelfChecksumming
open Library

variable {Fn : Type} [LinearOrder Fn] [OrderBot Fn]

/-! ## What a network file lists -/

/-- The values under "topologicalsort". -/
def listedCheckers (j : Json) : List Json :=
  match j.member "topologicalsort" with
  | .ok sorted => sorted.elements
  | .error _ => []

/-- The values under a name in "map". -/
def listedCheckees (j : Json) (name : String) : List Json :=
  match j.member "map" >>= fun map => map.member name with
  | .ok checkees => checkees.elements
  | .error _ => []

theorem loadCheckees_ok {M : Module Fn} : ∀ {listed : List Json} {vs : List Fn},
    listed.mapM (loadCheckee M) = .ok vs →
      ∃ names : List String, listed = names.map .str ∧ vs = names.map M.getFunction := by
  intro listed
  induction listed with
  | nil =>
    intro vs h
    cases h
    exact ⟨[], rfl, rfl⟩
  | cons checkee listed ih =>
    intro vs h
    rw [List.mapM_cons] at h
    obtain ⟨F, hF, h⟩ := bind_eq_ok.mp h
    obtain ⟨Fs, hFs, h⟩ := bind_eq_ok.mp h
    cases h
    obtain ⟨names, rfl, rfl⟩ := ih hFs
    cases checkee <;> cases hF
    exact ⟨_ :: names, rfl, rfl⟩

/-- What one name adds. -/
theorem loadChecker_ok {M : Module Fn} {j checker : Json}
    {loaded loaded' : SortedMap Fn (List Fn) × List Fn}
    (h : loadChecker M j loaded checker = .ok loaded') :
    ∃ (name : String) (names : List String), checker = .str name ∧
      listedCheckees j name = names.map .str ∧
      loaded' = (loaded.1.insert (M.getFunction name) (names.map M.getFunction),
        loaded.2 ++ [M.getFunction name]) := by
  obtain ⟨name, hname, h⟩ := bind_eq_ok.mp h
  obtain ⟨map, hmap, h⟩ := bind_eq_ok.mp h
  obtain ⟨checkees, hcheckees, h⟩ := bind_eq_ok.mp h
  obtain ⟨vs, hvs, h⟩ := bind_eq_ok.mp h
  cases h
  obtain ⟨names, hlisted, rfl⟩ := loadCheckees_ok hvs
  refine ⟨name, names, ?_, ?_, rfl⟩
  · cases checker <;> cases hname
    rfl
  · rw [← hlisted, listedCheckees, bind_eq_ok.mpr ⟨map, hmap, hcheckees⟩]

/-- The loaded map knows as many checkees of a function as the file lists. -/
theorem loadJson_lists {M : Module Fn} {j : Json} {loaded : SortedMap Fn (List Fn) × List Fn}
    (h : loadJson M (.parsed j) = .ok loaded) {F : Fn} (hF : F ∈ M.functions) :
    (F ∈ loaded.2 ↔ .str (M.getName F) ∈ listedCheckers j) ∧
      (F ∈ loaded.2 → ((loaded.1.find? F).getD []).length =
        (listedCheckees j (M.getName F)).length) := by
  obtain ⟨sorted, hsorted, h⟩ := bind_eq_ok.mp h
  rw [listedCheckers, hsorted]
  have hinv := foldlM_invariant (fun done (loaded : SortedMap Fn (List Fn) × List Fn) =>
    (F ∈ loaded.2 ↔ .str (M.getName F) ∈ done) ∧ (F ∈ loaded.2 →
      ((loaded.1.find? F).getD []).length = (listedCheckees j (M.getName F)).length))
    (fun done x b b' hb hx => ?_) sorted.elements [] (by simp) h
  · simpa using hinv
  · obtain ⟨name, names, rfl, hlisted, rfl⟩ := loadChecker_ok hx
    by_cases hname : M.getName F = name
    · subst hname
      rw [M.getFunction_getName hF]
      simp [hlisted]
    · have hne : F ≠ M.getFunction name := fun he =>
        hname (M.getFunction_mem he.symm (M.ne_bot hF)).2
      simp only [List.mem_append, List.mem_singleton, hne, or_false, Json.str.injEq, hname]
      rwa [SortedMap.find?_insert_ne _ _ hne]

/-! ## Sensitive functions as checkers -/

/-- The file makes a function check others that this run classifies as sensitive. -/
def NamesSensitiveChecker (opts : Options) (env : Environment Fn) (M : Module Fn) (j : Json) :
    Prop :=
  ∃ F ∈ M.functions, isSensitive opts env M F = true ∧
    .str (M.getName F) ∈ listedCheckers j ∧ listedCheckees j (M.getName F) ≠ []

/-- A function gets something to check when the file lists it with something to check. -/
theorem loadJson_hosts {M : Module Fn} {j : Json} {loaded : SortedMap Fn (List Fn) × List Fn}
    (h : loadJson M (.parsed j) = .ok loaded) {F : Fn} (hF : F ∈ M.functions) :
    (F ∈ loaded.2 ∧ (loaded.1.find? F).getD [] ≠ []) ↔
      .str (M.getName F) ∈ listedCheckers j ∧ listedCheckees j (M.getName F) ≠ [] := by
  obtain ⟨hmem, hlen⟩ := loadJson_lists h hF
  rw [hmem]
  refine and_congr_right fun hlisted => ?_
  rw [ne_eq, ne_eq, ← List.length_eq_zero_iff, ← List.length_eq_zero_iff, hlen (hmem.mpr hlisted)]

/-- What a run takes from a file is what the file holds. -/
theorem loadNetwork_ok {opts : Options} {env : Environment Fn} {M : Module Fn} {net : Network Fn}
    (h : loadNetwork opts env M = .ok net) :
    ∃ loaded, loadJson M (env.networkFile opts.loadCheckersNetwork) = .ok loaded ∧
      net = ⟨loaded.1, loaded.2⟩ := by
  obtain ⟨loaded, hjson, h⟩ := bind_eq_ok.mp h
  split at h
  · cases h
  · exact ⟨loaded, hjson, (Except.ok.inj h).symm⟩

/-- A listed checker is a function of the module, or else null. -/
theorem loadJson_mem {M : Module Fn} {file : NetworkFile}
    {loaded : SortedMap Fn (List Fn) × List Fn} (h : loadJson M file = .ok loaded) :
    ∀ F ∈ loaded.2, F ≠ ⊥ → F ∈ M.functions := by
  cases file with
  | unopened => cases h; simp
  | malformed => cases h
  | parsed j =>
    obtain ⟨sorted, -, h⟩ := bind_eq_ok.mp h
    refine foldlM_invariant (fun _ (loaded : SortedMap Fn (List Fn) × List Fn) =>
      ∀ F ∈ loaded.2, F ≠ ⊥ → F ∈ M.functions)
      (fun done x b b' hb hx => ?_) sorted.elements [] (by simp) h
    obtain ⟨name, vs, -, -, rfl⟩ := loadChecker_ok hx
    intro F hF hne
    rcases List.mem_append.mp hF with hF | hF
    · exact hb F hF hne
    · obtain rfl := List.mem_singleton.mp hF
      exact (M.getFunction_mem rfl hne).1

theorem chosenNetwork_mem {opts : Options} {env : Environment Fn} {M : Module Fn}
    {net : Network Fn} (h : chosenNetwork opts env M = .ok net) :
    ∀ F ∈ net.topologicalSortFuncs, F ≠ ⊥ → F ∈ M.functions := by
  rw [chosenNetwork, checkersNetwork] at h
  by_cases hload : opts.loadCheckersNetwork ≠ ""
  · rw [if_pos hload] at h
    obtain ⟨loaded, hjson, rfl⟩ := loadNetwork_ok h
    exact loadJson_mem hjson
  · rw [if_neg hload] at h
    obtain ⟨net', hnet', hc⟩ := constructNetwork_total opts env M
    obtain rfl : net = net' := Except.ok.inj (h.symm.trans hnet')
    intro F hF _
    obtain ⟨vs, hvs⟩ := SortedMap.mem_keys.mp ((hc.wellFormed.mem F).mp hF)
    exact (hc.wellFormed.within F vs hvs).1

/-- Every guard sits in a function of the module. -/
theorem runOnModule_host_mem {opts : Options} {env : Environment Fn} {M : Module Fn}
    {r : PassResult Fn} (h : runOnModule opts env M = .ok r) {g : Guard Fn}
    (hg : g ∈ r.state.guards) : g.host ∈ M.functions := by
  obtain ⟨hnet, -, hst, -⟩ := runOnModule_ok h
  obtain ⟨hmem, vs, hvs, -⟩ := mem_injected.mp ((tally_of_injectGuards hst).edge_mem hg)
  exact chosenNetwork_mem hnet _ hmem (host_ne_bot hst _ hmem (by rw [hvs]; rfl))

/-- The hosts are the listed functions that have something to check. -/
theorem hostsOf {env : Environment Fn} {M : Module Fn} {sens : List Fn} {net : Network Fn}
    {st : PassState Fn} (ht : Tally env M sens net.injected st) (F : Fn) :
    (∃ g ∈ st.guards, g.host = F) ↔
      F ∈ net.topologicalSortFuncs ∧ (net.checkerFuncMap.find? F).getD [] ≠ [] := by
  constructor
  · intro h
    obtain ⟨g, hg, rfl⟩ := h
    obtain ⟨hmem, vs, hvs, hv⟩ := mem_injected.mp (ht.edge_mem hg)
    exact ⟨hmem, by rw [hvs]; exact List.ne_nil_of_mem hv⟩
  · intro h
    obtain ⟨hmem, hne⟩ := h
    cases hfind : net.checkerFuncMap.find? F with
    | none => rw [hfind] at hne; exact absurd rfl hne
    | some vs =>
      rw [hfind] at hne
      obtain ⟨v, hv⟩ := List.exists_mem_of_ne_nil vs hne
      obtain ⟨g, hg, hhost, -⟩ := ht.exists_guard (mem_injected.mpr ⟨hmem, vs, hfind, hv⟩)
      exact ⟨g, hg, hhost⟩

/-- With one of the two flags set, a completed run keeps sensitive functions free of
guards exactly when it constructed its network or loaded one that does not make a
sensitive function check others: no assertion looks at a loaded network. -/
theorem sensitive_hosts_iff (opts : Options) (env : Environment Fn) (M : Module Fn)
    {r : PassResult Fn} (hflag : opts.sensitiveOnlyChecked = true ∨ opts.extractedOnly = true)
    (h : runOnModule opts env M = .ok r) :
    (∀ g ∈ r.state.guards, g.host ∉ r.sensitiveFunctions) ↔
      opts.loadCheckersNetwork = "" ∨ ∀ j, env.networkFile opts.loadCheckersNetwork = .parsed j →
        ¬ NamesSensitiveChecker opts env M j := by
  obtain ⟨hnet, -, hst, hsens, -⟩ := runOnModule_ok h
  have ht := tally_of_injectGuards hst
  rw [hsens]
  by_cases hload : opts.loadCheckersNetwork = ""
  · simp only [hload, true_or, iff_true]
    intro g hg
    obtain ⟨r', hr', hc, -, -⟩ := runOnModule_constructs env M hload
    obtain rfl : r = r' := Except.ok.inj (h.symm.trans hr')
    exact checkersFor_insensitive hflag (hc.edge (mem_injected.mp (ht.edge_mem hg)).2).1
  · rw [chosenNetwork, checkersNetwork, if_pos hload] at hnet
    obtain ⟨loaded, hjson, hloaded⟩ := loadNetwork_ok hnet
    rw [or_iff_right hload]
    have hhosts : ∀ F, (∃ g ∈ r.state.guards, g.host = F) ↔
        F ∈ loaded.2 ∧ (loaded.1.find? F).getD [] ≠ [] := fun F => by
      rw [hostsOf ht, hloaded]
    cases hfile : env.networkFile opts.loadCheckersNetwork with
    | unopened =>
      rw [hfile] at hjson
      cases hjson
      have hnone : ∀ g, g ∉ r.state.guards := by simpa using hhosts
      simp [hnone]
    | malformed => rw [hfile] at hjson; cases hjson
    | parsed j =>
      rw [hfile] at hjson
      constructor
      · intro hno j' hj' hnames
        cases hj'
        obtain ⟨F, hF, hs, hlisted⟩ := hnames
        obtain ⟨g, hg, rfl⟩ := (hhosts F).mpr ((loadJson_hosts hjson hF).mpr hlisted)
        exact hno g hg (mem_sensitiveOf.mpr ⟨hF, hs⟩)
      · intro hno g hg hs
        obtain ⟨hF, hs⟩ := mem_sensitiveOf.mp hs
        have hhost := (hhosts g.host).mp ⟨g, hg, rfl⟩
        exact hno j rfl ⟨g.host, hF, hs, (loadJson_hosts hjson hF).mp hhost⟩

/-- A network from a run without the flag: `f2` checks `f1`. -/
def dumpedElsewhere : Json :=
  .obj [("allCheckees", .arr [.str "f1"]), ("map", .obj [("f2", .arr [.str "f1"])]),
    ("topologicalsort", .arr [.str "f2"])]

/-- `f1` alone is sensitive. In the constructed network `f2` and `f3` check it, in the one
that is loaded `f2` does. -/
theorem sensitive_hosts_iff_filtered :
    (∃ r, runOnModule onlyChecked { sampleEnvironment .unopened with filter := ⟨{1}⟩ }
        sampleModule = .ok r ∧
      r.state.guards.length = 2 ∧ ∀ g ∈ r.state.guards, g.host ∉ r.sensitiveFunctions) ∧
    ∃ r, runOnModule { onlyChecked with loadCheckersNetwork := "network.json" }
        { sampleEnvironment (.parsed dumpedElsewhere) with filter := ⟨{1}⟩ } sampleModule = .ok r ∧
      r.state.guards.length = 1 ∧ ∀ g ∈ r.state.guards, g.host ∉ r.sensitiveFunctions := by
  constructor
  · exact ⟨_, rfl, rfl, (sensitive_hosts_iff onlyChecked
      { sampleEnvironment .unopened with filter := ⟨{1}⟩ } sampleModule (.inl rfl) rfl).mpr
      (.inl rfl)⟩
  · refine ⟨_, rfl, rfl, (sensitive_hosts_iff
      { onlyChecked with loadCheckersNetwork := "network.json" }
      { sampleEnvironment (.parsed dumpedElsewhere) with filter := ⟨{1}⟩ } sampleModule
      (.inl rfl) rfl).mpr (.inr fun j hj => ?_)⟩
    cases hj
    rintro ⟨F, hF, hs, hlisted, -⟩
    have hfirst : ∀ F ∈ [1, 2, 3],
        isSensitive { onlyChecked with loadCheckersNetwork := "network.json" }
          { sampleEnvironment (.parsed dumpedElsewhere) with filter := ⟨{1}⟩ } sampleModule F = true →
        F = 1 := by decide
    obtain rfl := hfirst F hF hs
    have hname : "f1" = "f2" := Json.str.inj (List.mem_singleton.mp hlisted)
    exact absurd hname (by decide)

/-- The loaded network puts a guard into a sensitive function, and no error is
raised. -/
theorem loaded_network_unchecked :
    ∃ r, runOnModule { sensitiveOnlyChecked := true, loadCheckersNetwork := "network.json" }
        (sampleEnvironment (.parsed dumpedElsewhere)) sampleModule = .ok r ∧
      ∃ g ∈ r.state.guards, g.host ∈ r.sensitiveFunctions :=
  ⟨_, rfl, ⟨2, 1, 222222222, 555555555, 444444444⟩, by decide, by decide⟩

/-! ## Dump, then load -/

section

variable {Fn' : Type} [LinearOrder Fn'] [OrderBot Fn']

/-- The guard at the pointers of another module. -/
def Guard.rename (φ : Fn → Fn') (g : Guard Fn) : Guard Fn' :=
  { g with host := φ g.host, checkee := φ g.checkee }

omit [LinearOrder Fn] [OrderBot Fn] [LinearOrder Fn'] [OrderBot Fn'] in
theorem guardsOf_rename (φ : Fn → Fn') (edges : List (Fn × Fn)) :
    guardsOf (edges.map (Prod.map φ φ)) = (guardsOf edges).map (Guard.rename φ) := by
  unfold guardsOf
  apply List.ext_getElem
  · simp
  · intro i h₁ h₂
    simp [guardAt, Guard.rename]

variable {M : Module Fn} {M' : Module Fn'} {φ : Fn → Fn'} {net : Network Fn}
  {net' : SortedMap Fn' (List Fn')}

theorem Renamed.wellFormed (hM : Holds M M' φ) (hnet : net.WellFormed M)
    (h : Renamed M φ net.checkerFuncMap net') :
    Network.WellFormed M' ⟨net', net.topologicalSortFuncs.map φ⟩ := by
  have hkey : ∀ F ∈ net.checkerFuncMap.keys, F ∈ M.functions := fun F hF => by
    obtain ⟨vs, hvs⟩ := SortedMap.mem_keys.mp hF
    exact (hnet.within F vs hvs).1
  refine ⟨?_, ?_, ?_⟩
  · intro k vs' hk
    obtain ⟨F, hF, rfl⟩ := h.keys k (SortedMap.mem_keys.mpr ⟨vs', hk⟩)
    obtain ⟨vs, hvs⟩ := SortedMap.mem_keys.mp hF
    rw [h.find? F (hkey F hF), hvs] at hk
    obtain rfl : vs.map φ = vs' := Option.some.inj hk
    refine ⟨hM.mem F (hkey F hF), fun G' hG' => ?_⟩
    obtain ⟨G, hG, rfl⟩ := List.mem_map.mp hG'
    exact hM.mem G ((hnet.within F vs hvs).2 G hG)
  · intro F'
    constructor
    · intro hF'
      obtain ⟨F, hF, rfl⟩ := List.mem_map.mp hF'
      obtain ⟨vs, hvs⟩ := SortedMap.mem_keys.mp ((hnet.mem F).mp hF)
      refine SortedMap.mem_keys.mpr ⟨vs.map φ, ?_⟩
      rw [h.find? F (hnet.within F vs hvs).1, hvs]
      rfl
    · intro hF'
      obtain ⟨F, hF, rfl⟩ := h.keys F' hF'
      exact List.mem_map_of_mem ((hnet.mem F).mpr hF)
  · intro F' hF'
    obtain ⟨F, hF, rfl⟩ := List.mem_map.mp hF'
    rw [hM.deref F (hkey F ((hnet.mem F).mp hF))]
    exact hnet.isDefined F hF

omit [OrderBot Fn'] in
theorem Renamed.injected (hnet : net.WellFormed M) (h : Renamed M φ net.checkerFuncMap net') :
    Network.injected ⟨net', net.topologicalSortFuncs.map φ⟩ =
      net.injected.map (Prod.map φ φ) := by
  unfold Network.injected
  rw [List.flatMap_map, List.map_flatMap]
  refine List.flatMap_congr fun F hF => ?_
  obtain ⟨vs, hvs⟩ := SortedMap.mem_keys.mp ((hnet.mem F).mp hF)
  simp [hostEdges, h.find? F (hnet.within F vs hvs).1, hvs]

/-- A run that loads the file a constructed network was dumped to injects the same
guards, in the same order and with the same placeholders. -/
theorem replays {opts opts' : Options} {env : Environment Fn} {env' : Environment Fn'}
    {r : PassResult Fn} {j : Json} (hM : Holds M M' φ) (hload : opts.loadCheckersNetwork = "")
    (hr : runOnModule opts env M = .ok r)
    (hj : dumpJson M r.network.checkerFuncMap r.network.topologicalSortFuncs = .ok j)
    (hload' : opts'.loadCheckersNetwork ≠ "") (hstat : opts'.dumpSCStat = "")
    (hfile : env'.networkFile opts'.loadCheckersNetwork = .parsed j) :
    ∃ r', runOnModule opts' env' M' = .ok r' ∧
      r'.state.guards = r.state.guards.map (Guard.rename φ) := by
  obtain ⟨_, hr₁, hc, -, ht⟩ := runOnModule_constructs env M hload
  obtain rfl := Except.ok.inj (hr.symm.trans hr₁)
  obtain ⟨j₁, _, hj₁, -, -, -, hloads⟩ :=
    loadJson_of_dumpJson hc.wellFormed.within hc.wellFormed.mem
  obtain rfl : j = j₁ := Except.ok.inj (hj.symm.trans hj₁)
  obtain ⟨net', hnet', hren⟩ := hloads hM
  have hchosen : chosenNetwork opts' env' M' =
      .ok ⟨net', r.network.topologicalSortFuncs.map φ⟩ := by
    rw [chosenNetwork, checkersNetwork, if_pos hload']
    refine bind_eq_ok.mpr ⟨_, (congrArg (loadJson M') hfile).trans hnet', ?_⟩
    rw [if_neg (not_not.mpr hstat)]
  obtain ⟨r', hr', hnetwork⟩ := runOnModule_total hchosen (hren.wellFormed hM hc.wellFormed)
  have ht' := tally_of_injectGuards (runOnModule_ok hr').2.2.1
  refine ⟨r', hr', ?_⟩
  rw [ht'.guards, hnetwork, hren.injected hc.wellFormed, guardsOf_rename, ht.guards]

end

/-- Dump, then load. A module with the same functions reads back the same map and
the same list, whether or not its functions lie at the same pointers, and a run on
it replays the guards of the run that dumped them; "allCheckees" lists every checkee
once. -/
theorem dumped_network_reloads (M : Module Fn) (network : DAGCheckersNetwork)
    (shuffles : Nat → Shuffle Nat) (sensitiveFunctions checkerFunctions : List Fn)
    (connectivity : Int32) {net : SortedMap Fn (List Fn)} {L : List Fn}
    (hsens : ∀ F ∈ sensitiveFunctions, F ∈ M.functions)
    (hcheckers : ∀ F ∈ checkerFunctions, F ∈ M.functions)
    (hnet : network.constructProtectionNetwork shuffles sensitiveFunctions checkerFunctions
      connectivity = .ok net) (hL : getReverseTopologicalSort net = .ok L) :
    ∃ (j : Json) (names : List String), dumpJson M net L = .ok j ∧
      j.member "allCheckees" = .ok (.arr (names.map .str)) ∧ names.Nodup ∧
      (∀ name, name ∈ names ↔ ∃ k F, Edge net.find? k F ∧ M.getName F = name) ∧
      (∀ M' : Module Fn, Holds M M' id → loadJson M' (.parsed j) = .ok (net, L)) ∧
      ∀ {Fn' : Type} [LinearOrder Fn'] [OrderBot Fn'] {M' : Module Fn'} {φ : Fn → Fn'},
        Holds M M' φ →
          (∃ net', loadJson M' (.parsed j) = .ok (net', L.map φ) ∧ Renamed M φ net net') ∧
          ∀ {opts opts' : Options} {env : Environment Fn} {env' : Environment Fn'}
            {r : PassResult Fn}, runOnModule opts env M = .ok r → r.network = ⟨net, L⟩ →
            opts.loadCheckersNetwork = "" → opts'.loadCheckersNetwork ≠ "" →
            opts'.dumpSCStat = "" →
            env'.networkFile opts'.loadCheckersNetwork = .parsed j →
            ∃ r', runOnModule opts' env' M' = .ok r' ∧
              r'.state.guards = r.state.guards.map (Guard.rename φ) := by
  have hwithin : Within M net := by
    intro k vs hk
    obtain ⟨v, hv⟩ : ∃ v, v ∈ vs := List.exists_mem_of_ne_nil vs
      (noEmptyList_inverted _ k vs (constructProtectionNetwork_ok hnet ▸ hk))
    refine ⟨?_, fun F hF => ?_⟩
    · obtain ⟨i, -, hkp⟩ := edge_of_constructed hnet ⟨vs, hk, hv⟩
      exact hcheckers k (mem_pool.mp (randomComb_subset hkp)).1
    · obtain ⟨i, hi, -⟩ := edge_of_constructed hnet ⟨vs, hk, hF⟩
      exact hsens F (List.mem_of_getElem? hi)
  obtain ⟨L', hL', -, hmem, -⟩ := getReverseTopologicalSort_ordered net
  obtain rfl : L = L' := Except.ok.inj (hL.symm.trans hL')
  obtain ⟨j, names, hj, hall, hnd, hnames, hloads⟩ := loadJson_of_dumpJson hwithin hmem
  refine ⟨j, names, hj, hall, hnd, hnames, ?_, ?_⟩
  · intro M' hM'
    obtain ⟨net', hnet', hren⟩ := hloads hM'
    rw [hnet', hren.eq_self hwithin, List.map_id]
  · intro Fn' _ _ M' φ hM'
    refine ⟨hloads hM', ?_⟩
    intro opts opts' env env' r hr hnetwork hload hload' hstat hfile
    have hjr : dumpJson M r.network.checkerFuncMap r.network.topologicalSortFuncs = .ok j := by
      rw [hnetwork, hj]
    exact replays hM' hload hr hjr hload' hstat hfile

theorem dumped_network_reloads_sample : ∃ net L j,
    accepting.constructProtectionNetwork (fun _ => .refl) [1, 2] [1, 2, 3] 2 = .ok net ∧
      getReverseTopologicalSort net = .ok L ∧ L = [2, 3] ∧ dumpJson sampleModule net L = .ok j ∧
      loadJson sampleModule (.parsed j) = .ok (net, L) := by
  have hnet : accepting.constructProtectionNetwork (fun _ => .refl) [1, 2] [1, 2, 3] 2 =
      .ok ⟨[(2, [1]), (3, [1, 2])], by decide⟩ := rfl
  obtain ⟨j, -, hj, -, -, -, hload, -⟩ := dumped_network_reloads sampleModule accepting
    (fun _ => .refl) [1, 2] [1, 2, 3] 2 (by decide) (by decide) hnet rfl
  exact ⟨_, [2, 3], j, hnet, rfl, rfl, hj, hload sampleModule ⟨fun _ h => h, fun _ _ => rfl⟩⟩

end SelfChecksumming
