import SelfChecksumming.Patcher.Failure
import SelfChecksumming.Protected
import SelfChecksumming.Sealed

/-! # A guide that was there before

`appendToPatchGuide` opens guide.txt for appending, and neither the pass nor dump_pipe.py
removes it, as some of the shell scripts do. Otherwise the lines of an earlier run of the
pass, on whatever module, stand in front of those of the last one. Both runs draw the same
placeholders. -/
namespace SelfChecksumming
open Library

/-! ## Lines and values -/

variable {Fn : Type}

theorem guidePatches_append {guide more : List GuideLine} {infos rest : List (FuncInfo × Bool)}
    (h : infos.length = guide.length) :
    guidePatches (guide ++ more) (infos ++ rest) =
      guidePatches guide infos ++ guidePatches more rest := List.zipWith_append h.symm

/-- The three values of a line, as the script reads them. -/
def GuideLine.values (line : GuideLine) : List Int :=
  [line.address.toInt32.toInt, line.length.toInt32.toInt, line.expectedHash.toInt32.toInt]

theorem allPlaceholders_guidePatches {guide : List GuideLine} {infos : List (FuncInfo × Bool)}
    (h : infos.length = guide.length) :
    allPlaceholders (guidePatches guide infos) = guide.flatMap GuideLine.values := by
  induction guide generalizing infos with
  | nil => rfl
  | cons line guide ih =>
    obtain ⟨info, infos, rfl⟩ := List.exists_cons_of_length_eq_add_one h
    have hrest : infos.length = guide.length := by simpa using h
    rw [guidePatches, List.zipWith_cons_cons, allPlaceholders, List.flatMap_cons, List.flatMap_cons,
      ← ih hrest]
    rfl

/-- Whatever radare2 knows, a guide that is read makes one patch of each line. -/
theorem readGuide_patches {r2 : Radare} {guide : List GuideLine} {patches : List Patch}
    (hplain : ∀ line ∈ guide, PlainName line.functionName.toList)
    (h : readGuide r2 (guideText guide) = .ok patches) :
    ∃ infos, infos.length = guide.length ∧ patches = guidePatches guide infos := by
  obtain ⟨st, hfold, hst⟩ := bind_eq_ok.mp h
  rw [content_guideText hplain, List.foldlM_map] at hfold
  have hinv := foldlM_invariant (fun (done : List GuideLine) (st : List Patch × List String) =>
    (∀ line ∈ done, PlainName line.functionName.toList) →
      ∃ infos, infos.length = done.length ∧ st.1 = guidePatches done infos)
    (fun done line st st' hb hline hdone => ?_) guide [] (fun _ => ⟨[], rfl, rfl⟩) hfold hplain
  · obtain ⟨infos, hlen, hpatches⟩ := hinv
    refine ⟨infos, hlen, ?_⟩
    split at hst
    · cases hst
    · rw [← Except.ok.inj hst, hpatches, List.nil_append]
  · obtain ⟨infos, hlen, hpatches⟩ := hb fun l hl => hdone l (List.mem_append_left _ hl)
    rw [readLine_eq, parseLine_body (hdone line (by simp))] at hline
    obtain ⟨_, hparsed, hline⟩ := bind_eq_ok.mp hline
    obtain ⟨⟨info, dummy, seeks⟩, -, hline⟩ := bind_eq_ok.mp hline
    cases hparsed
    refine ⟨infos ++ [(info, dummy)], by simp [hlen], ?_⟩
    rw [← Except.ok.inj hline, guidePatches_append hlen, hpatches]
    rfl

/-- Up to the limit the values of the lines are the placeholders of the guards. -/
theorem values_guardsOf [LinearOrder Fn] [OrderBot Fn] (cxaDemangle : String → Option String)
    (M : Module Fn) {edges : List (Fn × Fn)} (hlen : edges.length ≤ guardLimit) :
    ((guardsOf edges).map (Guard.line cxaDemangle M)).flatMap GuideLine.values =
      (guardsOf edges).flatMap Guard.placeholders := by
  rw [List.flatMap_map]
  refine List.flatMap_congr fun g hg => ?_
  obtain ⟨hadd, hsize, hhash⟩ := guardsOf_toInt32 hlen hg
  simp only [GuideLine.values, Guard.line, Guard.placeholders, hadd, hsize, hhash]

/-- The placeholders of a run only depend on the number of its guards. -/
theorem placeholders_guardsOf_subset {Fn₀ : Type} {edges : List (Fn₀ × Fn₀)}
    {edges' : List (Fn × Fn)} (h : edges.length ≤ edges'.length) {v : Int}
    (hv : v ∈ (guardsOf edges).flatMap Guard.placeholders) :
    v ∈ (guardsOf edges').flatMap Guard.placeholders := by
  obtain ⟨g, hg, hv⟩ := List.mem_flatMap.mp hv
  obtain ⟨k, hk⟩ := List.mem_iff_getElem?.mp hg
  rw [getElem?_guardsOf, Option.map_eq_some_iff] at hk
  obtain ⟨edge, hedge, rfl⟩ := hk
  have hlt : k < edges'.length := (List.getElem?_eq_some_iff.mp hedge).1.trans_le h
  refine List.mem_flatMap.mpr ⟨guardAt k edges'[k], List.mem_of_getElem? (i := k) ?_, hv⟩
  rw [getElem?_guardsOf, List.getElem?_eq_getElem hlt, Option.map_some]

/-! ## Two runs -/

section TwoRuns

variable {Fn₀ : Type} [LinearOrder Fn₀] [OrderBot Fn₀] {opts₀ : Options} {env₀ : Environment Fn₀}
  {M₀ : Module Fn₀} {r₀ : PassResult Fn₀} [LinearOrder Fn] [OrderBot Fn] {opts : Options}
  {env : Environment Fn} {M : Module Fn} {r : PassResult Fn} {functions : List Fn}
  {layout : Layout Fn} {binary : List UInt8} {loader : Nat → Nat} {r2 : Radare}
  {infos₀ infos : List (FuncInfo × Bool)}

/-- The lines of a run with no more guards bring no placeholders of their own. -/
theorem placeholders_of_earlier (h₀ : runOnModule opts₀ env₀ M₀ = .ok r₀)
    (h : runOnModule opts env M = .ok r) (hlimit : r.state.guards.length ≤ guardLimit)
    (hfew : r₀.state.guards.length ≤ r.state.guards.length)
    (hlen : infos₀.length = r₀.state.guide.length) :
    ∀ v ∈ allPlaceholders (guidePatches r₀.state.guide infos₀),
      v ∈ r.state.guards.flatMap Guard.placeholders := by
  intro v hv
  have ht₀ := tally_of_injectGuards (runOnModule_ok h₀).2.2.1
  have ht := tally_of_injectGuards (runOnModule_ok h).2.2.1
  rw [ht₀.guards, ht.guards, guardsOf_length, guardsOf_length] at hfew
  rw [ht.guards, guardsOf_length] at hlimit
  rw [allPlaceholders_guidePatches hlen, ht₀.guide, ht₀.guards,
    values_guardsOf _ _ (hfew.trans hlimit)] at hv
  rw [ht.guards]
  exact placeholders_guardsOf_subset hfew hv

theorem guidePatches_eq_nil_iff (h₀ : runOnModule opts₀ env₀ M₀ = .ok r₀)
    (hlen : infos₀.length = r₀.state.guide.length) :
    guidePatches r₀.state.guide infos₀ = [] ↔ r₀.state.guards = [] := by
  rw [← List.length_eq_zero_iff, guidePatches, List.length_zipWith, hlen, Nat.min_self,
    (tally_of_injectGuards (runOnModule_ok h₀).2.2.1).guide, List.length_map, List.length_eq_zero_iff]

/-- The guide of an earlier run with no more guards than this one, its names resolved to
anything at all, does no harm: the script leaves the file that it leaves without these
lines. It does not say so, though: it reports failure unless there are none. -/
theorem stale_guide_harmless (h₀ : runOnModule opts₀ env₀ M₀ = .ok r₀)
    (h : runOnModule opts env M = .ok r) (htrust : Trusted opts env M)
    (d : Deployment functions r.state layout binary loader r2 infos)
    (hreal : ∀ info ∈ infos, info.2 = false)
    (hfew : r₀.state.guards.length ≤ r.state.guards.length)
    (hplain : ∀ line ∈ r₀.state.guide, PlainName line.functionName.toList)
    (hlen : infos₀.length = r₀.state.guide.length)
    (hresolve : resolveNames r2 [] ((r₀.state.guide ++ r.state.guide).map
      GuideLine.functionName) = .ok (infos₀ ++ infos))
    (hsmall : ∀ info ∈ infos₀, info.1.offset < 2 ^ 32 ∧ info.1.size < 2 ^ 32)
    (order : DictOrder) (dumpMode : Bool) :
    ∃ fresh result,
      dumpPipe r2 order dumpMode binary (some (guideText r.state.guide)) = .ok fresh ∧
      dumpPipe r2 order dumpMode binary (some (guideText (r₀.state.guide ++ r.state.guide))) =
        .ok result ∧
      result.binary = fresh.binary ∧ fresh.succeeded ∧
      (result.succeeded ↔ r₀.state.guards = []) := by
  have hsched := d.schedules h htrust
  have hfits := d.fits h
  have hstale := placeholders_of_earlier h₀ h (d.few h) hfew hlen
  have hread : readGuide r2 (guideText r.state.guide) =
      .ok ([] ++ guidePatches r.state.guide infos) := (readGuide_guideText d.plain d.resolve).2
  have hplainBoth : ∀ line ∈ r₀.state.guide ++ r.state.guide, PlainName line.functionName.toList :=
    fun line hline => (List.mem_append.mp hline).elim (hplain line) (d.plain line)
  have hreadBoth := (readGuide_guideText hplainBoth hresolve).2
  rw [guidePatches_append hlen] at hreadBoth
  obtain ⟨fresh, hfresh, hsealed, hsuccess⟩ := dumpPipe_sealed order dumpMode d.describes hsched
    hread hfits (guidePatches_real hreal) (fun v hv => absurd hv List.not_mem_nil)
    fun p hp => absurd hp List.not_mem_nil
  obtain ⟨result, hresult, hsealed', hsuccess'⟩ := dumpPipe_sealed order dumpMode d.describes hsched
    hreadBoth hfits (guidePatches_real hreal) hstale fun p hp => by
      obtain ⟨line, info, -, hinfo, rfl⟩ := mem_guidePatches hp
      exact hsmall info hinfo
  exact ⟨fresh, result, hfresh, hresult, hsealed'.eq hsched d.describes hsealed, hsuccess.mpr rfl,
    hsuccess'.trans (guidePatches_eq_nil_iff h₀ hlen)⟩

/-- With more guards than this module has, the guide asks for a placeholder that is not in
the binary. Whatever the names, the script stops, and the file is what it was. -/
theorem stale_guide_refused (h₀ : runOnModule opts₀ env₀ M₀ = .ok r₀)
    (h : runOnModule opts env M = .ok r)
    (d : Deployment functions r.state layout binary loader r2 infos)
    (hmany : r.state.guards.length < r₀.state.guards.length)
    (hplain : ∀ line ∈ r₀.state.guide, PlainName line.functionName.toList)
    (hnone : occurrences binary (222222222 + r.state.guards.length : Nat) = [])
    (order : DictOrder) (dumpMode : Bool) :
    ∃ fault, dumpPipe r2 order dumpMode binary
      (some (guideText (r₀.state.guide ++ r.state.guide))) = .error (fault, binary) := by
  have ht₀ := tally_of_injectGuards (runOnModule_ok h₀).2.2.1
  have ht := tally_of_injectGuards (runOnModule_ok h).2.2.1
  have hlimit := d.few h
  cases hread : readGuide r2 (guideText (r₀.state.guide ++ r.state.guide)) with
  | error fault => exact ⟨fault, by simp only [dumpPipe, hread]⟩
  | ok patches =>
    obtain ⟨infos', hlen, rfl⟩ := readGuide_patches (fun line hline =>
      (List.mem_append.mp hline).elim (hplain line) (d.plain line)) hread
    -- the first line that this module has no guard for
    have hvalue : ((222222222 + r.state.guards.length : Nat) : Int) ∈
        allPlaceholders (guidePatches (r₀.state.guide ++ r.state.guide) infos') := by
      rw [ht₀.guards, guardsOf_length] at hmany
      obtain ⟨edge, hedge⟩ : ∃ edge, r₀.network.injected[r.state.guards.length]? = some edge :=
        ⟨_, List.getElem?_eq_getElem hmany⟩
      have hguard : guardAt r.state.guards.length edge ∈ guardsOf r₀.network.injected := by
        refine List.mem_of_getElem? (i := r.state.guards.length) ?_
        rw [getElem?_guardsOf, hedge, Option.map_some]
      have haddress := (guardAt_toNat hlimit edge).1
      have hlt : (guardAt r.state.guards.length edge).address.toNat < 2 ^ 31 := by
        unfold guardLimit at hlimit
        omega
      rw [allPlaceholders_guidePatches hlen, List.flatMap_append, ht₀.guide, ht₀.guards,
        List.flatMap_map]
      refine List.mem_append_left _ (List.mem_flatMap.mpr ⟨_, hguard, ?_⟩)
      rw [← haddress, ← toInt32_of_lt hlt]
      exact List.mem_cons_self
    have hunfound : ¬ Findable binary (guidePatches (r₀.state.guide ++ r.state.guide) infos') :=
      fun hfound => hfound.occurs _ hvalue hnone
    obtain ⟨fault, hstop⟩ := patchBinary_unfound r2 order hunfound
    exact ⟨fault, by simp only [dumpPipe, hread, hstop]⟩

end TwoRuns

/-! ## A small binary -/

/-- The guide of the same run is there twice. -/
theorem sample_twice : ∃ r infos,
    runOnModule { desiredConnectivity := 1 } (sampleEnvironment .unopened) sampleModule = .ok r ∧
    r.state.guards = [⟨2, 1, 222222222, 555555555, 444444444⟩,
      ⟨3, 2, 222222223, 555555556, 444444445⟩] ∧
    Deployment [1, 2, 2, 3] r.state sampleLayout sampleBinary (fun address => address - 4096)
      sampleRadare infos ∧ (∀ info ∈ infos, info.2 = false) ∧
    infos.length = r.state.guide.length ∧
    resolveNames sampleRadare [] ((r.state.guide ++ r.state.guide).map
      GuideLine.functionName) = .ok (infos ++ infos) ∧
    ∀ info ∈ infos, info.1.offset < 2 ^ 32 ∧ info.1.size < 2 ^ 32 := by
  obtain ⟨r, infos, hr, hguards, d, hreal⟩ := sample_deployed
  have hguide : r.state.guide = [⟨"f1", 222222222, 555555555, 444444444⟩,
      ⟨"f2", 222222223, 555555556, 444444445⟩] := by
    cases hr
    rfl
  have hinfos : infos = [(⟨"sym.f1", 4096, 2⟩, false), (⟨"sym.f2", 4098, 12⟩, false)] := by
    have hresolve := d.resolve
    rw [hguide] at hresolve
    exact (Except.ok.inj hresolve).symm
  refine ⟨r, infos, hr, hguards, d, hreal, ?_, ?_, ?_⟩
  · rw [hinfos, hguide]
    rfl
  · rw [hguide, hinfos]
    rfl
  · rw [hinfos]
    decide

theorem stale_guide_harmless_sample : ∃ r fresh result,
    runOnModule { desiredConnectivity := 1 } (sampleEnvironment .unopened) sampleModule = .ok r ∧
    dumpPipe sampleRadare sampleOrder false sampleBinary (some (guideText r.state.guide)) =
      .ok fresh ∧
    dumpPipe sampleRadare sampleOrder false sampleBinary
      (some (guideText (r.state.guide ++ r.state.guide))) = .ok result ∧
    result.binary = fresh.binary ∧ fresh.succeeded ∧ ¬ result.succeeded := by
  obtain ⟨r, infos, hr, hguards, d, hreal, hlen, htwice, hsmall⟩ := sample_twice
  obtain ⟨fresh, result, hfresh, hresult, hsame, hsucceeded, hdone⟩ := stale_guide_harmless hr hr
    (.inl rfl) d hreal le_rfl d.plain hlen htwice hsmall sampleOrder false
  refine ⟨r, fresh, result, hr, hfresh, hresult, hsame, hsucceeded, fun h => ?_⟩
  rw [hdone.mp h] at hguards
  cases hguards

/-- A run that protects with more guards comes first. -/
theorem stale_guide_refused_sample : ∃ r₀ r fault,
    runOnModule {} (sampleEnvironment .unopened) sampleModule = .ok r₀ ∧
    runOnModule { desiredConnectivity := 1 } (sampleEnvironment .unopened) sampleModule = .ok r ∧
    dumpPipe sampleRadare sampleOrder false sampleBinary
      (some (guideText (r₀.state.guide ++ r.state.guide))) = .error (fault, sampleBinary) := by
  obtain ⟨r, infos, hr, hguards, d, -⟩ := sample_deployed
  obtain ⟨r₀, hr₀⟩ : ∃ r₀, runOnModule {} (sampleEnvironment .unopened) sampleModule = .ok r₀ :=
    ⟨_, rfl⟩
  have hmany : r.state.guards.length < r₀.state.guards.length := by
    rw [hguards]
    cases hr₀
    decide
  have hplain : ∀ line ∈ r₀.state.guide, PlainName line.functionName.toList := by
    have hnames : ∀ line ∈ r₀.state.guide, line.functionName = "f1" ∨ line.functionName = "f2" := by
      cases hr₀
      decide
    intro line hline
    rcases hnames line hline with h | h
    · rw [h]
      exact ⟨by decide, by decide, fun c hc => by cases hc; rfl⟩
    · rw [h]
      exact ⟨by decide, by decide, fun c hc => by cases hc; rfl⟩
  obtain ⟨fault, hstop⟩ := stale_guide_refused hr₀ hr d hmany hplain
    (by rw [hguards]; decide +kernel) sampleOrder false
  exact ⟨r₀, r, fault, hr₀, hr, hstop⟩

end SelfChecksumming
