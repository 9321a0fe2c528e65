import SelfChecksumming.Pass.LoadedSoundness
import SelfChecksumming.PatchedProgram

/-! # The protected program runs

From the options of the pass to the runs of the patched program: its guards hand the numbers
of the patched file to `guardMe`, which finds nothing there, and the program does what it did
before. -/
namespace SelfChecksumming
open Library

variable {Fn : Type}

/-! ## Scheduled guards -/

section Scheduled

variable {functions : List Fn} {layout : Layout Fn} {binary : List UInt8} {loader : Nat → Nat}

/-- The last guard that is injected is hosted by a function that none checks. -/
theorem Layout.Schedules.exists_unchecked {guards : List (Guard Fn)}
    (hsched : layout.Schedules functions binary guards) (hne : guards ≠ []) :
    ∃ g ∈ guards, ∀ g' ∈ guards, g'.checkee ≠ g.host := by
  obtain ⟨front, g, rfl⟩ := (List.eq_nil_or_concat guards).resolve_left hne
  rw [List.concat_eq_append] at hsched ⊢
  refine ⟨g, by simp, fun g' hg' => ?_⟩
  rcases List.mem_append.mp hg' with hfront | hlast
  · have hlater := (List.pairwise_append.mp hsched.later).2.2
    exact (hlater g' hfront g List.mem_cons_self).symm
  · obtain rfl := List.mem_singleton.mp hlast
    exact (hsched.self g' hg').symm

theorem Layout.Schedules.passes_iff {guards : List (Guard Fn)}
    (hsched : layout.Schedules functions binary guards) {g : Guard Fn} (hg : g ∈ guards)
    (file : List UInt8) : g.Passes loader binary file ↔ ¬ g.Alarms loader binary file := by
  obtain ⟨i, hi, -⟩ := hsched.holds.once g hg g.address.toNat (by simp [Guard.placeholders])
  obtain ⟨j, hj, -⟩ := hsched.holds.once g hg g.length.toNat (by simp [Guard.placeholders])
  obtain ⟨k, hk, -⟩ := hsched.holds.once g hg g.expectedHash.toNat (by simp [Guard.placeholders])
  simp [Guard.Passes, Guard.Alarms, hi, hj, hk]

theorem Layout.Schedules.passes_of_finds {guards : List (Guard Fn)}
    (hsched : layout.Schedules functions binary guards) {g : Guard Fn} (hg : g ∈ guards)
    {file : List UInt8} (h : g.finds loader binary file = false) : g.Passes loader binary file := by
  refine (hsched.passes_iff hg file).mpr fun halarm => ?_
  rw [halarm.finds] at h
  cases h

theorem Layout.Rewrites.set {T : Fn} {patched tampered : List UInt8}
    (h : layout.Rewrites T patched tampered) {k : Nat} (hk : layout.Covers T k) (b : UInt8) :
    layout.Rewrites T patched (tampered.set k b) where
  length := List.length_set.trans h.length
  outside j hj := by
    rw [List.getElem?_set_ne (by rintro rfl; exact hj hk)]
    exact h.outside j hj

/-- Among the values of one byte there is one with which the differences cancel. -/
theorem Layout.difference_set_eq_zero {T : Fn} {k : Nat} (hk : layout.Covers T k)
    {patched tampered : List UInt8} (htamper : layout.Rewrites T patched tampered)
    (hin : layout.start T + layout.size T ≤ patched.length) :
    ∃ b, ∀ b', layout.difference T patched (tampered.set k b') = 0 ↔ b' = b := by
  have hlt : k < tampered.length := by
    rw [htamper.length]
    unfold Layout.Covers at hk
    omega
  have hat : (readAt tampered (layout.start T) (layout.size T))[k - layout.start T]? =
      some tampered[k] := by
    rw [readAt_getElem?, if_pos (by unfold Layout.Covers at hk; omega),
      Nat.add_sub_cancel' hk.1, List.getElem?_eq_getElem hlt]
  refine ⟨tampered[k] ^^^ (xorBytes (readAt tampered (layout.start T) (layout.size T)) ^^^
    xorBytes (readAt patched (layout.start T) (layout.size T))), fun b' => ?_⟩
  rw [(htamper.set hk b').difference_eq, readAt_set hk.1, xorBytes_set b' hat, UInt8.xor_eq_zero_iff]
  constructor
  · intro h
    rw [h, xor_xor_cancel, xor_xor_cancel]
  · rintro rfl
    rw [xor_xor_cancel, xor_xor_cancel]

end Scheduled

variable [LinearOrder Fn] [OrderBot Fn]

/-! ## Networks that can be scheduled -/

/-- The network is constructed, or its file lists it well. -/
def Trusted (opts : Options) (env : Environment Fn) (M : Module Fn) : Prop :=
  opts.loadCheckersNetwork = "" ∨
    ∃ j, env.networkFile opts.loadCheckersNetwork = .parsed j ∧ WellListed M j

theorem Constructed.sound {opts : Options} {env : Environment Fn} {M : Module Fn}
    {net : Network Fn} (h : Constructed opts env M net) :
    SoundNetwork M (net.checkerFuncMap, net.topologicalSortFuncs) := by
  obtain ⟨hnd, hmem, hord⟩ := h.sorted
  have ha := acyclic_of_constructed h.map
  have hkeys : ∀ F, F ∈ net.topologicalSortFuncs ↔ (net.checkerFuncMap.find? F).isSome := by
    intro F
    rw [hmem, SortedMap.mem_keys, Option.isSome_iff_exists]
  exact ⟨h.wellFormed.within, hord.topologicalSort ha hnd hkeys, ha⟩

theorem sound_of_trusted {opts : Options} {env : Environment Fn} {M : Module Fn}
    {r : PassResult Fn} (h : runOnModule opts env M = .ok r) (htrust : Trusted opts env M) :
    SoundNetwork M (r.network.checkerFuncMap, r.network.topologicalSortFuncs) := by
  by_cases hload : opts.loadCheckersNetwork = ""
  · obtain ⟨r', hr', hc, -⟩ := runOnModule_constructs env M hload
    obtain rfl := Except.ok.inj (h.symm.trans hr')
    exact hc.sound
  · obtain ⟨j, hfile, hlisted⟩ := htrust.resolve_left hload
    obtain ⟨hchosen, -⟩ := runOnModule_ok h
    rw [chosenNetwork, checkersNetwork, if_pos hload] at hchosen
    obtain ⟨loaded, hloaded, hnet⟩ := bind_eq_ok.mp hchosen
    split at hnet
    · cases hnet
    · rw [← Except.ok.inj hnet]
      rw [hfile] at hloaded
      obtain ⟨names, hnames, hl⟩ := loadJson_loadedFrom hloaded
      exact hl.sound hnames hlisted

/-- The order of a sound network keeps the hosts of what is checked in front. -/
theorem SoundNetwork.pairwise {M : Module Fn} {net : Network Fn}
    (h : SoundNetwork M (net.checkerFuncMap, net.topologicalSortFuncs)) :
    net.injected.Pairwise fun e e' => e'.1 ≠ e.2 := by
  refine injected_pairwise h.sort.nodup (fun F hF => ?_) (fun u w _ he hw => ?_) h.acyclic
  · exact SortedMap.mem_keys.mpr (Option.isSome_iff_exists.mp ((h.sort.mem F).mp hF))
  · exact .inl (h.sort.before u w he hw)

/-- No guard of such a run checks its host, nor the host of a later one. -/
theorem ordered_of_trusted {opts : Options} {env : Environment Fn} {M : Module Fn}
    {r : PassResult Fn} (h : runOnModule opts env M = .ok r) (htrust : Trusted opts env M) :
    (∀ g ∈ r.state.guards, g.host ≠ g.checkee) ∧
      r.state.guards.Pairwise fun g g' => g'.host ≠ g.checkee := by
  obtain ⟨-, -, hst, -⟩ := runOnModule_ok h
  have ht := tally_of_injectGuards hst
  have hsound := sound_of_trusted h htrust
  constructor
  · intro g hg heq
    have hloop := (mem_injected.mp (ht.edge_mem hg)).2
    rw [← heq] at hloop
    exact hsound.acyclic g.host (.single hloop)
  · have hpair := hsound.pairwise
    rwa [← guardsOf_edge (Network.injected _), ← ht.guards, List.pairwise_map] at hpair

/-- The patches of a run's guide belong to its guards. -/
theorem fits_of_run {opts : Options} {env : Environment Fn} {M : Module Fn} {r : PassResult Fn}
    {layout : Layout Fn} {infos : List (FuncInfo × Bool)} (h : runOnModule opts env M = .ok r)
    (hfew : r.state.guards.length ≤ guardLimit)
    (hinfos : List.Forall₂ layout.Resolves r.state.guards infos) :
    List.Forall₂ layout.Fits r.state.guards (guidePatches r.state.guide infos) := by
  obtain ⟨-, -, hst, -⟩ := runOnModule_ok h
  have ht := tally_of_injectGuards hst
  rw [ht.guide]
  refine guidePatches_fits hinfos ?_
  rw [ht.guards, guardsOf_length] at hfew
  rw [ht.guards]
  exact fun g hg => guardsOf_toInt32 hfew hg

theorem resolved_lt {Fn : Type} {layout : Layout Fn} {guards : List (Guard Fn)}
    {infos : List (FuncInfo × Bool)} (hinfos : List.Forall₂ layout.Resolves guards infos)
    (hreal : ∀ info ∈ infos, info.2 = false) : ∀ g ∈ guards,
      layout.offset g.checkee < 2 ^ 32 ∧ layout.size g.checkee < 2 ^ 32 := by
  intro g hg
  obtain ⟨info, hinfo, hbound, hat⟩ := exists_related hinfos hg
  obtain ⟨hoffset, hsize⟩ := hat (hreal info hinfo)
  rw [← hoffset, ← hsize]
  exact hbound

/-! ## The binary -/

/-- A binary built from the instrumented module: where its functions and its placeholders
are, and what radare2 makes of the names in the guide. -/
structure Deployment (functions : List Fn) (st : PassState Fn) (layout : Layout Fn)
    (binary : List UInt8) (loader : Nat → Nat) (r2 : Radare) (infos : List (FuncInfo × Bool)) :
    Prop where
  mem : ∀ g ∈ st.guards, g.host ∈ functions ∧ g.checkee ∈ functions
  describes : layout.Describes functions binary loader r2
  holds : layout.Holds binary st.guards
  plain : ∀ line ∈ st.guide, PlainName line.functionName.toList
  resolve : resolveNames r2 [] (st.guide.map GuideLine.functionName) = .ok infos
  resolves : List.Forall₂ layout.Resolves st.guards infos

section Deployment

variable {functions : List Fn} {layout : Layout Fn} {binary : List UInt8} {loader : Nat → Nat}
  {r2 : Radare} {infos : List (FuncInfo × Bool)} {opts : Options} {env : Environment Fn}
  {M : Module Fn} {r : PassResult Fn}

theorem Deployment.schedules (d : Deployment functions r.state layout binary loader r2 infos)
    (h : runOnModule opts env M = .ok r) (htrust : Trusted opts env M) :
    layout.Schedules functions binary r.state.guards :=
  ⟨d.holds, d.mem, (ordered_of_trusted h htrust).1, (ordered_of_trusted h htrust).2⟩

theorem Deployment.few (d : Deployment functions r.state layout binary loader r2 infos)
    (h : runOnModule opts env M = .ok r) : r.state.guards.length ≤ guardLimit := by
  have hholds := d.holds
  rw [(tally_of_injectGuards (runOnModule_ok h).2.2.1).guards] at hholds ⊢
  rw [guardsOf_length]
  exact hholds.length_le

theorem Deployment.fits (d : Deployment functions r.state layout binary loader r2 infos)
    (h : runOnModule opts env M = .ok r) :
    List.Forall₂ layout.Fits r.state.guards (guidePatches r.state.guide infos) :=
  fits_of_run h (d.few h) d.resolves

/-! ## Its runs -/

/-- A module is instrumented, built and patched. Then the script completes, and from any
function, whatever the instructions of the program mean, the patched program does what the
original one does: no guard that it calls finds anything, so no report is printed. All this
holds if `guardMe` is the one of rtlib.c, and is given no guards. -/
theorem protected_program_runs (hM : Uninstrumented M) (h : runOnModule opts env M = .ok r)
    (hspares : SparesGuardMe opts M r) (htrust : Trusted opts env M) (order : DictOrder)
    (dumpMode : Bool) (d : Deployment functions r.state layout binary loader r2 infos) :
    ∃ result, dumpPipe r2 order dumpMode binary (some (guideText r.state.guide)) = .ok result ∧
      ∀ {σ ε : Type} (sem : Semantics Fn Instruction σ ε) (report : ε) (summary : Calls Fn σ ε)
        (F : Fn) (s : σ) (m : Machine),
        SameRuns M.program (r.patched M binary result.binary) sem
          (linkage M r.hosts (rtlib loader result.binary report summary)) (M.program.start F s)
          ((r.patched M binary result.binary).start F (s, m)) ∧
        ∀ c, (r.patched M binary result.binary).Runs
            (beside (linkage M r.hosts (rtlib loader result.binary report summary)) sem)
            ((r.patched M binary result.binary).start F (s, m)) c →
          ∀ call, .inr call ∈ c.events → ∃ g ∈ r.state.guards,
            call = (g.patched binary result.binary).call ∧ g.Passes loader binary result.binary := by
  obtain ⟨result, hrun, hpass⟩ := dumpPipe_passes order dumpMode d.describes
    (d.schedules h htrust) d.plain d.resolve (d.fits h)
  obtain ⟨-, -, hst, -⟩ := runOnModule_ok h
  have hq := (guarded_of_injectGuards hM hst).patched binary result.binary
  refine ⟨result, hrun, fun sem report summary F s m => ⟨?_, fun c hc call hcall => ?_⟩⟩
  · have hw : Woven (isInserted 0) M.program (r.patched M binary result.binary) :=
      woven_patchedProgram (runOnModule_woven hM h)
    refine hq.sameRuns hw (fun k g hg s => ?_) sem F s m
    obtain ⟨g, hk, rfl⟩ := Option.map_eq_some_iff.mp hg
    rw [linkage_unchanged (hspares.notMem h)]
    exact (hpass g (List.mem_of_getElem? hk)).call s
  · obtain ⟨k, g, hg, he⟩ := hq.calls hc hcall
    obtain ⟨g, hk, rfl⟩ := Option.map_eq_some_iff.mp hg
    have hmem := List.mem_of_getElem? hk
    exact ⟨g, hmem, he, hpass g hmem⟩

/-- What a rewritten function does to the guards of the file that the script leaves. -/
theorem Deployment.rewritten (d : Deployment functions r.state layout binary loader r2 infos)
    (h : runOnModule opts env M = .ok r) (htrust : Trusted opts env M) (order : DictOrder)
    (dumpMode : Bool) (hreal : ∀ info ∈ infos, info.2 = false) {T : Fn} (hT : T ∈ functions) :
    ∃ result, dumpPipe r2 order dumpMode binary (some (guideText r.state.guide)) = .ok result ∧
      result.binary.length = binary.length ∧
      ∀ tampered, layout.Rewrites T result.binary tampered → ∀ g ∈ r.state.guards,
        (g.checkee = T → (g.Alarms loader binary tampered ↔
          layout.difference T result.binary tampered ≠ 0)) ∧
        (g.host ≠ T → g.checkee ≠ T → g.Passes loader binary tampered) := by
  have hsched := d.schedules h htrust
  have hfits := d.fits h
  have hpatches : ∀ p ∈ guidePatches r.state.guide infos, p.dummy = false := by
    intro p hp
    obtain ⟨line, info, -, hinfo, rfl⟩ := mem_guidePatches hp
    exact hreal info hinfo
  obtain ⟨done, result, hdone, hrun, hbinary, -⟩ :=
    dumpPipe_scheduled order dumpMode d.describes hsched d.plain d.resolve hfits
  refine ⟨result, hrun, by rw [hbinary, (patchBinary_ok hdone).length],
    fun tampered htamper g hg => ?_⟩
  rw [hbinary] at htamper ⊢
  exact (patchBinary_ok hdone).rewritten d.describes hsched hfits hpatches hT htamper hg

/-- The program in a file, in which one function is replaced by other code. -/
def PassResult.rewritten (M : Module Fn) (r : PassResult Fn) (binary file : List UInt8) (T : Fn)
    (blocks : List (List Instruction)) : Program Fn Instruction :=
  Function.update (r.patched M binary file) T blocks

theorem guarded_rewritten (hM : Uninstrumented M) (h : runOnModule opts env M = .ok r) {T : Fn}
    {blocks : List (List Instruction)}
    (hblocks : ∀ block ∈ blocks, ∀ x ∈ block, isInserted 0 x = false) (binary file : List UInt8) :
    Guarded M (fun k => (r.state.guards[k]?.map (Guard.patched binary file)).filter (·.host ≠ T))
      (r.rewritten M binary file T blocks) := by
  obtain ⟨-, -, hst, -⟩ := runOnModule_ok h
  exact ((guarded_of_injectGuards hM hst).patched binary file).update T hblocks

/-- Where one function is replaced by code without guards, only the others call theirs. -/
theorem calls_of_rewritten (hM : Uninstrumented M) (h : runOnModule opts env M = .ok r) {T : Fn}
    {blocks : List (List Instruction)}
    (hblocks : ∀ block ∈ blocks, ∀ x ∈ block, isInserted 0 x = false) {file : List UInt8}
    {σ ε : Type} {calls : Calls Fn σ ε} {sem : Semantics Fn Instruction σ ε} {F : Fn}
    {s : σ × Machine} {c : Config Fn Instruction (σ × Machine) (ε ⊕ GuardCall Fn)}
    (hc : (r.rewritten M binary file T blocks).Runs (beside calls sem)
      ((r.rewritten M binary file T blocks).start F s) c) {call : GuardCall Fn}
    (hcall : .inr call ∈ c.events) :
    ∃ g ∈ r.state.guards, call = (g.patched binary file).call ∧ g.host ≠ T := by
  obtain ⟨k, g', hk, he⟩ := (guarded_rewritten hM h hblocks binary file).calls hc hcall
  obtain ⟨g, hg, rfl, hhost⟩ := Guard.exists_of_patched hk
  exact ⟨g, hg, he, of_decide_eq_true hhost⟩

/-- One function of the patched program is rewritten, without guards but otherwise at
will. In every run of the result, whatever is called, the guards that are called are those
hosted elsewhere, and the ones on this function alarm unless the differences of its bytes
cancel; no other one does. -/
theorem tampered_program_runs (hM : Uninstrumented M) (h : runOnModule opts env M = .ok r)
    (htrust : Trusted opts env M) (order : DictOrder) (dumpMode : Bool)
    (d : Deployment functions r.state layout binary loader r2 infos)
    (hreal : ∀ info ∈ infos, info.2 = false) {T : Fn} (hT : T ∈ functions) :
    ∃ result, dumpPipe r2 order dumpMode binary (some (guideText r.state.guide)) = .ok result ∧
      ∀ tampered, layout.Rewrites T result.binary tampered →
        ∀ blocks : List (List Instruction),
        (∀ block ∈ blocks, ∀ x ∈ block, isInserted 0 x = false) →
        ∀ {σ ε : Type} (calls : Calls Fn σ ε) (sem : Semantics Fn Instruction σ ε) (F : Fn) (s : σ)
        (m : Machine) c,
        (r.rewritten M binary tampered T blocks).Runs (beside calls sem)
          ((r.rewritten M binary tampered T blocks).start F (s, m)) c →
        ∀ call, .inr call ∈ c.events → ∃ g ∈ r.state.guards,
          call = (g.patched binary tampered).call ∧ g.host ≠ T ∧
          (g.checkee = T → (g.Alarms loader binary tampered ↔
            layout.difference T result.binary tampered ≠ 0)) ∧
          (g.checkee ≠ T → g.Passes loader binary tampered) := by
  obtain ⟨result, hrun, -, hguards⟩ := d.rewritten h htrust order dumpMode hreal hT
  refine ⟨result, hrun, fun tampered htamper blocks hblocks σ ε calls sem F s m c hc call
    hcall => ?_⟩
  obtain ⟨g, hg, he, hhost⟩ := calls_of_rewritten hM h hblocks hc hcall
  obtain ⟨halarm, hpass⟩ := hguards tampered htamper g hg
  exact ⟨g, hg, he, hhost, halarm, hpass hhost⟩

/-- The same, and the other way round: if the differences do not cancel, then whenever the
result enters another function whose saved instruction is no call, the guards that it hosts
on the rewritten one are called before anything else, as long as `guardMe` returns, and
raise the alarm. With the `guardMe` of rtlib.c the report is printed. -/
theorem tampering_caught (hM : Uninstrumented M) (h : runOnModule opts env M = .ok r)
    (htrust : Trusted opts env M) (order : DictOrder) (dumpMode : Bool)
    (d : Deployment functions r.state layout binary loader r2 infos)
    (hreal : ∀ info ∈ infos, info.2 = false) {T : Fn} (hT : T ∈ functions) :
    ∃ result, dumpPipe r2 order dumpMode binary (some (guideText r.state.guide)) = .ok result ∧
      ∀ tampered, layout.Rewrites T result.binary tampered →
        layout.difference T result.binary tampered ≠ 0 →
        ∀ blocks : List (List Instruction),
        (∀ block ∈ blocks, ∀ x ∈ block, isInserted 0 x = false) →
        ∀ {σ ε : Type} {sem : Semantics Fn Instruction σ ε}, Sequential sem →
        ∀ {calls : Calls Fn σ ε}, (∀ args s, (calls "guardMe" args s).control = .next) →
        ∀ (G : Fn) (s : σ) (m : Machine) c,
        (r.rewritten M binary tampered T blocks).Runs (beside calls sem)
          ((r.rewritten M binary tampered T blocks).start G (s, m)) c →
        ∀ F frames, F ≠ T → FallsThrough (M.deref F) →
          c.frames = (r.rewritten M binary tampered T blocks).enter F 0 :: frames →
          ∃ n s' rest more,
            (r.rewritten M binary tampered T blocks).steps (beside calls sem) n c =
              ⟨⟨F, rest⟩ :: frames, s', c.events ++ more⟩ ∧
            ∀ g ∈ r.state.guards, g.host = F → g.checkee = T →
              .inr (g.patched binary tampered).call ∈ more ∧ g.Alarms loader binary tampered ∧
              ∀ report summary,
                calls "guardMe" = rtlib loader tampered report summary "guardMe" →
                .inl report ∈ more := by
  obtain ⟨result, hrun, -, hguards⟩ := d.rewritten h htrust order dumpMode hreal hT
  obtain ⟨-, -, hst, -⟩ := runOnModule_ok h
  refine ⟨result, hrun, fun tampered htamper hdiff blocks hblocks σ ε sem hseq calls hreturn G s m c
    hc F frames hFT hF hentry => ?_⟩
  by_cases hhost : ∃ g ∈ r.state.guards, g.host = F
  · obtain ⟨g, hg, rfl⟩ := hhost
    have hfront := (fronted_of_injectGuards hM hst hF (runOnModule_host_mem h hg)
      ⟨g, hg, rfl⟩).patched binary tampered
    obtain ⟨n, s', rest, more, hsteps, -, -, hcalls⟩ := (hfront.update hFT blocks).calls
      (guarded_rewritten hM h hblocks binary tampered) (fun _ g _ s => hreturn g.args s) hseq hc
      hentry
    refine ⟨n, s', rest, more, hsteps, fun g' hg' hhost' hcheckee => ?_⟩
    have halarm := ((hguards tampered htamper g' hg').1 hcheckee).mpr hdiff
    obtain ⟨k, hk⟩ := List.mem_iff_getElem?.mp hg'
    obtain ⟨hcall, t, hevents⟩ := hcalls k _
      (Guard.patched_left hk (decide_eq_true (hhost' ▸ hFT))) hhost'
    refine ⟨hcall, halarm, fun report summary hrtlib => hevents report ?_⟩
    rw [hrtlib, halarm.call]
    exact List.mem_singleton_self report
  · obtain ⟨cframes, t, events⟩ := c
    obtain rfl : cframes = _ := hentry
    exact ⟨0, t, _, [], by rw [List.append_nil]; rfl,
      fun g hg hgF _ => absurd ⟨g, hg, hgF⟩ hhost⟩

/-! ## What is not noticed -/

/-- Whatever is done to a function that is checked, for each of its bytes there is exactly
one value with which no guard elsewhere notices. -/
theorem tampering_hidden (h : runOnModule opts env M = .ok r) (htrust : Trusted opts env M)
    (order : DictOrder) (dumpMode : Bool)
    (d : Deployment functions r.state layout binary loader r2 infos)
    (hreal : ∀ info ∈ infos, info.2 = false) {T : Fn}
    (hchecked : ∃ g ∈ r.state.guards, g.checkee = T) :
    ∃ result, dumpPipe r2 order dumpMode binary (some (guideText r.state.guide)) = .ok result ∧
      ∀ tampered, layout.Rewrites T result.binary tampered → ∀ k, layout.Covers T k →
        ∃ b, ∀ b', (∀ g ∈ r.state.guards, g.host ≠ T → g.Passes loader binary (tampered.set k b')) ↔
          b' = b := by
  have hsched := d.schedules h htrust
  have hT : T ∈ functions := by
    obtain ⟨g, hg, rfl⟩ := hchecked
    exact (d.mem g hg).2
  obtain ⟨result, hrun, hlen, hguards⟩ := d.rewritten h htrust order dumpMode hreal hT
  refine ⟨result, hrun, fun tampered htamper k hk => ?_⟩
  have hin : layout.start T + layout.size T ≤ result.binary.length := by
    rw [hlen]
    exact d.describes.inside T hT
  obtain ⟨b, hb⟩ := layout.difference_set_eq_zero hk htamper hin
  refine ⟨b, fun b' => ?_⟩
  rw [← hb]
  have hrest := hguards _ (htamper.set hk b')
  constructor
  · intro hpass
    obtain ⟨g, hg, hcheckee⟩ := hchecked
    have hhost : g.host ≠ T := hcheckee ▸ hsched.self g hg
    by_contra hdiff
    exact (hsched.passes_iff hg _).mp (hpass g hg hhost) (((hrest g hg).1 hcheckee).mpr hdiff)
  · intro hzero g hg hhost
    by_cases hcheckee : g.checkee = T
    · refine (hsched.passes_iff hg _).mpr fun halarm => ?_
      exact ((hrest g hg).1 hcheckee).mp halarm hzero
    · exact (hrest g hg).2 hhost hcheckee

/-- There always is a host that can be stripped of its guards: whatever its code is
replaced by, no guard that is still called finds anything. -/
theorem guards_removed_unnoticed (hM : Uninstrumented M) (h : runOnModule opts env M = .ok r)
    (htrust : Trusted opts env M) (order : DictOrder) (dumpMode : Bool)
    (d : Deployment functions r.state layout binary loader r2 infos)
    (hreal : ∀ info ∈ infos, info.2 = false) (hne : r.state.guards ≠ []) :
    ∃ result T, dumpPipe r2 order dumpMode binary (some (guideText r.state.guide)) = .ok result ∧
      (∃ g ∈ r.state.guards, g.host = T) ∧
      ∀ tampered, layout.Rewrites T result.binary tampered →
        ∀ blocks : List (List Instruction),
        (∀ block ∈ blocks, ∀ x ∈ block, isInserted 0 x = false) →
        ∀ {σ ε : Type} (calls : Calls Fn σ ε) (sem : Semantics Fn Instruction σ ε) (F : Fn) (s : σ)
        (m : Machine) c,
        (r.rewritten M binary tampered T blocks).Runs (beside calls sem)
          ((r.rewritten M binary tampered T blocks).start F (s, m)) c →
        ∀ call, .inr call ∈ c.events → ∃ g ∈ r.state.guards,
          call = (g.patched binary tampered).call ∧ g.host ≠ T ∧
          g.Passes loader binary tampered := by
  obtain ⟨g, hg, hunchecked⟩ := (d.schedules h htrust).exists_unchecked hne
  obtain ⟨result, hrun, -, hguards⟩ := d.rewritten h htrust order dumpMode hreal (d.mem g hg).1
  refine ⟨result, g.host, hrun, ⟨g, hg, rfl⟩, fun tampered htamper blocks hblocks σ ε calls sem F s
    m c hc call hcall => ?_⟩
  obtain ⟨g', hg', he, hhost⟩ := calls_of_rewritten hM h hblocks hc hcall
  exact ⟨g', hg', he, hhost, (hguards tampered htamper g' hg').2 hhost (hunchecked g' hg')⟩

end Deployment

/-! ## A small binary -/

theorem sample_deployed : ∃ r infos,
    runOnModule { desiredConnectivity := 1 } (sampleEnvironment .unopened) sampleModule = .ok r ∧
    r.state.guards = [⟨2, 1, 222222222, 555555555, 444444444⟩,
      ⟨3, 2, 222222223, 555555556, 444444445⟩] ∧
    Deployment [1, 2, 2, 3] r.state sampleLayout sampleBinary (fun address => address - 4096)
      sampleRadare infos ∧ ∀ info ∈ infos, info.2 = false := by
  obtain ⟨r, hr⟩ : ∃ r, runOnModule { desiredConnectivity := 1 } (sampleEnvironment .unopened)
      sampleModule = .ok r := ⟨_, rfl⟩
  have hguards : r.state.guards = [⟨2, 1, 222222222, 555555555, 444444444⟩,
      ⟨3, 2, 222222223, 555555556, 444444445⟩] := by
    cases hr
    rfl
  obtain ⟨st, infos, hst, hsame, hholds, hplain, hresolve, hinfos, hreal⟩ := sample_injected
  rw [← hguards] at hsame
  have hguide : st.guide = r.state.guide := by
    rw [(tally_of_injectGuards hst).guide, (tally_of_injectGuards (runOnModule_ok hr).2.2.1).guide,
      hsame]
  rw [hsame] at hholds hinfos
  rw [hguide] at hplain hresolve
  refine ⟨r, infos, hr, hguards, ?_, hreal⟩
  refine ⟨?_, sampleLayout_describes, hholds, hplain, hresolve, hinfos⟩
  rw [hguards]
  decide

/-- The guard of the last function is called, it passes, and the program ends. -/
theorem protected_program_runs_sample : ∃ r result,
    runOnModule { desiredConnectivity := 1 } (sampleEnvironment .unopened) sampleModule = .ok r ∧
    dumpPipe sampleRadare sampleOrder false sampleBinary (some (guideText r.state.guide)) =
      .ok result ∧
    (∃ g ∈ r.state.guards, g.host = 3 ∧
      g.Passes (fun address => address - 4096) sampleBinary result.binary) ∧
    ((r.patched sampleModule sampleBinary result.binary).result
      (beside (linkage sampleModule r.hosts (rtlib (fun address => address - 4096) result.binary
        (.original 0) sampleCalls)) sampleSemantics)
      ((r.patched sampleModule sampleBinary result.binary).start 3 (0, .init))).Dom := by
  obtain ⟨r, infos, hr, -, d, -⟩ := sample_deployed
  obtain ⟨result, hrun, hruns⟩ := protected_program_runs sampleModule_uninstrumented hr (absurd rfl)
    (.inl rfl) sampleOrder false d
  obtain ⟨hsame, hcalls⟩ := hruns sampleSemantics (.original 0) sampleCalls 3 0 .init
  have hcall : ∃ call : GuardCall Nat, call.host = 3 ∧ .inr call ∈
      ((r.patched sampleModule sampleBinary result.binary).steps
        (beside (linkage sampleModule r.hosts (rtlib (fun address => address - 4096) result.binary
          (.original 0) sampleCalls)) sampleSemantics) 11
        ((r.patched sampleModule sampleBinary result.binary).start 3 (0, .init))).events := by
    cases hr
    exact ⟨_, rfl, List.mem_of_getElem? (i := 1) rfl⟩
  obtain ⟨call, hhost, hcall⟩ := hcall
  obtain ⟨g, hg, rfl, hpass⟩ := hcalls _
    ((r.patched sampleModule sampleBinary result.binary).runs_steps _ 11 _) _ hcall
  refine ⟨r, result, hr, hrun, ⟨g, hg, hhost, hpass⟩, hsame.dom.mpr ?_⟩
  have hend : sampleModule.program.steps sampleSemantics 2 (sampleModule.program.start 3 0) ∈
      sampleModule.program.result sampleSemantics (sampleModule.program.start 3 0) :=
    StateTransition.mem_eval.mpr ⟨sampleModule.program.runs_steps _ 2 _, rfl⟩
  exact Part.dom_iff_mem.mpr ⟨_, hend⟩

/-- The first function is rewritten, and the guard on it is called. -/
theorem tampered_program_runs_sample : ∃ r result,
    runOnModule { desiredConnectivity := 1 } (sampleEnvironment .unopened) sampleModule = .ok r ∧
    dumpPipe sampleRadare sampleOrder false sampleBinary (some (guideText r.state.guide)) =
      .ok result ∧
    ∀ tampered, sampleLayout.Rewrites 1 result.binary tampered → ∃ g ∈ r.state.guards,
      g.host = 2 ∧ (g.checkee = 1 → (g.Alarms (fun address => address - 4096) sampleBinary tampered ↔
        sampleLayout.difference 1 result.binary tampered ≠ 0)) := by
  obtain ⟨r, infos, hr, -, d, hreal⟩ := sample_deployed
  obtain ⟨result, hrun, hruns⟩ := tampered_program_runs sampleModule_uninstrumented hr (.inl rfl)
    sampleOrder false d hreal (T := 1) (by decide)
  refine ⟨r, result, hr, hrun, fun tampered htamper => ?_⟩
  have hcall : ∃ call : GuardCall Nat, call.host = 2 ∧ .inr call ∈
      ((r.rewritten sampleModule sampleBinary tampered 1 []).steps
        (beside sampleCalls sampleSemantics) 11
        ((r.rewritten sampleModule sampleBinary tampered 1 []).start 2 (0, .init))).events := by
    cases hr
    exact ⟨_, rfl, List.mem_of_getElem? (i := 1) rfl⟩
  obtain ⟨call, hhost, hcall⟩ := hcall
  obtain ⟨g, hg, rfl, -, halarm, -⟩ := hruns tampered htamper [] nofun sampleCalls sampleSemantics 2
    0 .init _ (Program.runs_steps _ _ 11 _) _ hcall
  exact ⟨g, hg, hhost, halarm⟩

/-- The second function, which checks the first one, is entered. -/
theorem tampering_caught_sample : ∃ r result,
    runOnModule { desiredConnectivity := 1 } (sampleEnvironment .unopened) sampleModule = .ok r ∧
    dumpPipe sampleRadare sampleOrder false sampleBinary (some (guideText r.state.guide)) =
      .ok result ∧
    ∀ tampered, sampleLayout.Rewrites 1 result.binary tampered →
      sampleLayout.difference 1 result.binary tampered ≠ 0 →
      ∃ n, .inl (.original 0) ∈ ((r.rewritten sampleModule sampleBinary tampered 1 []).steps
        (beside (rtlib (fun address => address - 4096) tampered (.original 0) sampleCalls)
          sampleSemantics) n
        ((r.rewritten sampleModule sampleBinary tampered 1 []).start 2 (0, .init))).events := by
  obtain ⟨r, infos, hr, hguards, d, hreal⟩ := sample_deployed
  obtain ⟨result, hrun, hcaught⟩ := tampering_caught sampleModule_uninstrumented hr (.inl rfl)
    sampleOrder false d hreal (T := 1) (by decide)
  have hF : FallsThrough (sampleModule.deref 2) := by
    intro BB rest c hb hc callee args
    cases hb
    cases hc
    exact nofun
  have hmem : (⟨2, 1, 222222222, 555555555, 444444444⟩ : Guard Nat) ∈ r.state.guards := by
    rw [hguards]
    exact List.mem_cons_self
  refine ⟨r, result, hr, hrun, fun tampered htamper hdiff => ?_⟩
  have hreturn : ∀ args s, (rtlib (fun address => address - 4096) tampered (.original 0) sampleCalls
      "guardMe" args s).control = .next := by
    intro args s
    unfold rtlib
    split <;> rfl
  obtain ⟨n, s', rest, more, hsteps, hcalls⟩ := hcaught tampered htamper hdiff []
    (fun block hblock => absurd hblock List.not_mem_nil) sampleSemantics_sequential hreturn 2 0 .init
    _ .refl 2 [] (by decide) hF rfl
  obtain ⟨-, -, hreport⟩ := hcalls _ hmem rfl rfl
  refine ⟨n, ?_⟩
  rw [hsteps]
  exact List.mem_append_right _ (hreport _ _ rfl)

/-- The first function is replaced by zeros, and its second byte makes up for it. -/
theorem tampering_hidden_sample : ∃ r result,
    runOnModule { desiredConnectivity := 1 } (sampleEnvironment .unopened) sampleModule = .ok r ∧
    dumpPipe sampleRadare sampleOrder false sampleBinary (some (guideText r.state.guide)) =
      .ok result ∧
    ∃ b, ∀ b', (∀ g ∈ r.state.guards, g.host ≠ 1 → g.Passes (fun address => address - 4096)
      sampleBinary ((result.binary.set 0 0).set 1 b')) ↔ b' = b := by
  obtain ⟨r, infos, hr, hguards, d, hreal⟩ := sample_deployed
  have hchecked : ∃ g ∈ r.state.guards, g.checkee = 1 := by
    rw [hguards]
    exact ⟨_, List.mem_cons_self, rfl⟩
  obtain ⟨result, hrun, hhidden⟩ := tampering_hidden hr (.inl rfl) sampleOrder false d hreal hchecked
  exact ⟨r, result, hr, hrun, hhidden _
    (sampleLayout.rewrites_set ⟨by decide, by decide⟩ result.binary 0) 1 ⟨by decide, by decide⟩⟩

theorem guards_removed_unnoticed_sample : ∃ r result T,
    runOnModule { desiredConnectivity := 1 } (sampleEnvironment .unopened) sampleModule = .ok r ∧
    dumpPipe sampleRadare sampleOrder false sampleBinary (some (guideText r.state.guide)) =
      .ok result ∧
    (∃ g ∈ r.state.guards, g.host = T) ∧
    ∀ tampered, sampleLayout.Rewrites T result.binary tampered → ∀ n call,
      .inr call ∈ ((r.rewritten sampleModule sampleBinary tampered T []).steps
        (beside sampleCalls sampleSemantics) n
        ((r.rewritten sampleModule sampleBinary tampered T []).start 2 (0, .init))).events →
      ∃ g ∈ r.state.guards, g.Passes (fun address => address - 4096) sampleBinary tampered := by
  obtain ⟨r, infos, hr, hguards, d, hreal⟩ := sample_deployed
  have hne : r.state.guards ≠ [] := by
    rw [hguards]
    exact List.cons_ne_nil _ _
  obtain ⟨result, T, hrun, hhost, hremoved⟩ := guards_removed_unnoticed
    sampleModule_uninstrumented hr (.inl rfl) sampleOrder false d hreal hne
  refine ⟨r, result, T, hr, hrun, hhost, fun tampered htamper n call hcall => ?_⟩
  obtain ⟨g, hg, -, -, hpass⟩ := hremoved tampered htamper []
    (fun block hblock => absurd hblock List.not_mem_nil) sampleCalls sampleSemantics 2 0 .init _
    (Program.runs_steps _ _ n _) call hcall
  exact ⟨g, hg, hpass⟩

end SelfChecksumming
