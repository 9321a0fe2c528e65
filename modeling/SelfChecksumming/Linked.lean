import SelfChecksumming.StaleGuide

/-! # Two modules in one binary

Every instance of the pass counts its placeholders from the same numbers, and all of them
append to one guide. In a binary that is linked from two instrumented modules a placeholder
stands in the code of either, and the script puts what the last line asks for into both. -/
namespace SelfChecksumming
open Library

/-! ## The binary -/

section Binary

variable {Fn₀ Fn : Type} {functions : List Fn} {guards : List (Guard Fn)} {layout : Layout Fn}
  {binary patched : List UInt8} {loader : Nat → Nat} {r2 : Radare}

/-- A binary that is linked from the module of `functions` and others: the placeholders of its
guards may stand in other code as well, but in no function of the module save their host. -/
structure Linked (functions : List Fn) (guards : List (Guard Fn)) (layout : Layout Fn)
    (binary : List UInt8) (loader : Nat → Nat) (r2 : Radare) : Prop where
  mem : ∀ g ∈ guards, g.host ∈ functions ∧ g.checkee ∈ functions
  few : guards.length ≤ guardLimit
  describes : layout.Describes functions binary loader r2
  found : ∀ v ∈ guards.flatMap Guard.placeholders, occurrences binary v ≠ []
  apart : ∀ v ∈ guards.flatMap Guard.placeholders, ∀ w ∈ guards.flatMap Guard.placeholders,
    ∀ i ∈ occurrences binary v, ∀ j ∈ occurrences binary w, i ≠ j → i + 4 ≤ j ∨ j + 4 ≤ i
  placed : ∀ g ∈ guards, ∀ v ∈ g.placeholders, ∀ i ∈ occurrences binary v, ∀ F ∈ functions,
    g.host ≠ F → ∀ k, layout.Covers F k → k < i ∨ i + 4 ≤ k

theorem Linked.solvable (d : Linked functions guards layout binary loader r2)
    (hnd : (guards.flatMap Guard.placeholders).Nodup) (hself : ∀ g ∈ guards, g.host ≠ g.checkee)
    (hlater : guards.Pairwise fun g g' => g'.host ≠ g.checkee) :
    layout.Solvable functions binary guards where
  nodup := hnd
  found := d.found
  apart := d.apart
  mem g hg := (d.mem g hg).2
  self g hg i hi k hk := d.placed g hg _ (by simp [Guard.placeholders]) i hi g.checkee
    (d.mem g hg).2 (hself g hg) k hk
  later := hlater.imp_of_mem fun {g g'} hg hg' hne v hv i hi k hk =>
    d.placed g' hg' v hv i hi g.checkee (d.mem g hg).2 hne k hk

/-- Wherever the placeholders of a guard were, the code that stands there now, with the same
constants as in `patched`, alarms if and only if `F` no longer has the checksum it has there. -/
def Layout.Watches (layout : Layout Fn) (g₀ : Guard Fn₀) (F : Fn) (loader : Nat → Nat)
    (binary patched : List UInt8) : Prop :=
  ∀ file : List UInt8, file.length = patched.length →
    ∀ i ∈ occurrences binary g₀.address.toNat, ∀ j ∈ occurrences binary g₀.length.toNat,
      ∀ k ∈ occurrences binary g₀.expectedHash.toNat,
        (∀ w ∈ [i, j, k], readAt file w 4 = readAt patched w 4) →
          (guardMe (loadedAt loader file) (constantAt file i) (constantAt file j)
            (constantAt file k) = true ↔
              xorBytes (readAt file (layout.start F) (layout.size F)) ≠
                xorBytes (readAt patched (layout.start F) (layout.size F)))

/-- `file` differs from `patched` in no constant of the guards and in nothing that they check. -/
structure Layout.Spares (layout : Layout Fn) (guards : List (Guard Fn))
    (binary patched file : List UInt8) : Prop where
  length : file.length = patched.length
  constants : ∀ g ∈ guards, ∀ v ∈ g.placeholders, ∀ i ∈ occurrences binary v,
    readAt file i 4 = readAt patched i 4
  checkees : ∀ g ∈ guards, readAt file (layout.start g.checkee) (layout.size g.checkee) =
    readAt patched (layout.start g.checkee) (layout.size g.checkee)

/-- Wherever the placeholders of a guard were, the code that stands there finds nothing. -/
def Guard.Silent (g₀ : Guard Fn₀) (loader : Nat → Nat) (binary file : List UInt8) : Prop :=
  ∀ i ∈ occurrences binary g₀.address.toNat, ∀ j ∈ occurrences binary g₀.length.toNat,
    ∀ k ∈ occurrences binary g₀.expectedHash.toNat,
      guardMe (loadedAt loader file) (constantAt file i) (constantAt file j)
        (constantAt file k) = false

theorem Layout.Watches.silent {g₀ : Guard Fn₀} {g : Guard Fn} (hg : g ∈ guards)
    (haddress : g₀.address = g.address) (hlength : g₀.length = g.length)
    (hhash : g₀.expectedHash = g.expectedHash)
    (h : layout.Watches g₀ g.checkee loader binary patched) {file : List UInt8}
    (hspares : layout.Spares guards binary patched file) : g₀.Silent loader binary file := by
  intro i hi j hj k hk
  have hconstants : ∀ w ∈ [i, j, k], readAt file w 4 = readAt patched w 4 := by
    have hat := hspares.constants g hg
    simp only [Guard.placeholders, List.forall_mem_cons, ← haddress, ← hlength, ← hhash] at hat
    obtain ⟨hadd, hsize, hexpected, -⟩ := hat
    simp only [List.forall_mem_cons]
    exact ⟨hadd i hi, hsize j hj, hexpected k hk, fun w hw => absurd hw List.not_mem_nil⟩
  have halarm := h file hspares.length i hi j hj k hk hconstants
  rw [← Bool.not_eq_true, halarm, not_not]
  exact congrArg xorBytes (hspares.checkees g hg)

theorem Sealed.watches (hsealed : Sealed layout binary guards patched)
    (hlayout : layout.Describes functions binary loader r2) {g : Guard Fn} (hg : g ∈ guards)
    (hcheckee : g.checkee ∈ functions)
    (hnum : layout.offset g.checkee < 2 ^ 32 ∧ layout.size g.checkee < 2 ^ 32) {g₀ : Guard Fn₀}
    (haddress : g₀.address = g.address) (hlength : g₀.length = g.length)
    (hhash : g₀.expectedHash = g.expectedHash) :
    layout.Watches g₀ g.checkee loader binary patched := by
  intro file hlen i hi j hj k hk hsame
  rw [haddress] at hi
  rw [hlength] at hj
  rw [hhash] at hk
  rw [hsealed.guardMe_eq hlayout (hlen.trans hsealed.length) hg hcheckee hnum hi hj hk hsame,
    decide_eq_true_iff]

end Binary

/-! ## Two runs -/

section TwoRuns

variable {Fn₀ : Type} [LinearOrder Fn₀] [OrderBot Fn₀] {opts₀ : Options} {env₀ : Environment Fn₀}
  {M₀ : Module Fn₀} {r₀ : PassResult Fn₀} {Fn : Type} [LinearOrder Fn] [OrderBot Fn]
  {opts : Options} {env : Environment Fn} {M : Module Fn} {r : PassResult Fn}
  {functions : List Fn} {layout : Layout Fn} {binary : List UInt8} {loader : Nat → Nat}
  {r2 : Radare} {infos₀ infos : List (FuncInfo × Bool)}

/-- Guards of one number have the same placeholders in every module. -/
theorem numbers_eq (h₀ : runOnModule opts₀ env₀ M₀ = .ok r₀) (h : runOnModule opts env M = .ok r)
    {k : Nat} {g₀ : Guard Fn₀} {g : Guard Fn} (hg₀ : r₀.state.guards[k]? = some g₀)
    (hg : r.state.guards[k]? = some g) :
    g₀.address = g.address ∧ g₀.length = g.length ∧ g₀.expectedHash = g.expectedHash := by
  rw [(tally_of_injectGuards (runOnModule_ok h₀).2.2.1).guards, getElem?_guardsOf,
    Option.map_eq_some_iff] at hg₀
  rw [(tally_of_injectGuards (runOnModule_ok h).2.2.1).guards, getElem?_guardsOf,
    Option.map_eq_some_iff] at hg
  obtain ⟨_, -, rfl⟩ := hg₀
  obtain ⟨_, -, rfl⟩ := hg
  exact ⟨rfl, rfl, rfl⟩

/-- Two modules are instrumented one after the other and linked, and the second has no fewer
guards. The script completes on their guide, though without reporting success; but a guard of
the first module then watches what the guard of the same number watches in the second, and no
guard is left on any function of the first: whatever is done to these, none alarms. -/
theorem linked_guards_watch (h₀ : runOnModule opts₀ env₀ M₀ = .ok r₀)
    (h : runOnModule opts env M = .ok r) (htrust : Trusted opts env M)
    (d : Linked functions r.state.guards layout binary loader r2)
    (hfew : r₀.state.guards.length ≤ r.state.guards.length)
    (hplain : ∀ line ∈ r₀.state.guide ++ r.state.guide, PlainName line.functionName.toList)
    (hlen : infos₀.length = r₀.state.guide.length)
    (hresolve : resolveNames r2 [] ((r₀.state.guide ++ r.state.guide).map
      GuideLine.functionName) = .ok (infos₀ ++ infos))
    (hsmall : ∀ info ∈ infos₀, info.1.offset < 2 ^ 32 ∧ info.1.size < 2 ^ 32)
    (hinfos : List.Forall₂ layout.Resolves r.state.guards infos)
    (hreal : ∀ info ∈ infos, info.2 = false) (order : DictOrder) (dumpMode : Bool) :
    ∃ result,
      dumpPipe r2 order dumpMode binary (some (guideText (r₀.state.guide ++ r.state.guide))) =
        .ok result ∧
      (result.succeeded → r₀.state.guards = []) ∧
      (∀ (k : Nat) (g₀ : Guard Fn₀), r₀.state.guards[k]? = some g₀ →
        ∃ g, r.state.guards[k]? = some g ∧
          layout.Watches g₀ g.checkee loader binary result.binary) ∧
      (∀ g ∈ r.state.guards, layout.Watches g g.checkee loader binary result.binary) ∧
      ∀ file, layout.Spares r.state.guards binary result.binary file →
        (∀ g₀ ∈ r₀.state.guards, g₀.Silent loader binary file) ∧
        ∀ g ∈ r.state.guards, g.Silent loader binary file := by
  have hfits := fits_of_run h d.few hinfos
  have ht₀ := tally_of_injectGuards (runOnModule_ok h₀).2.2.1
  have ht := tally_of_injectGuards (runOnModule_ok h).2.2.1
  have hnd : (r.state.guards.flatMap Guard.placeholders).Nodup := by
    have hfew := d.few
    rw [ht.guards, guardsOf_length] at hfew
    rw [ht.guards]
    exact nodup_placeholders hfew
  obtain ⟨hself, hlater⟩ := ordered_of_trusted h htrust
  have hread := (readGuide_guideText hplain hresolve).2
  rw [guidePatches_append hlen] at hread
  obtain ⟨result, hrun, hsealed, hsuccess⟩ := dumpPipe_solvable order dumpMode d.describes
    (d.solvable hnd hself hlater) hread hfits (guidePatches_real hreal)
    (placeholders_of_earlier h₀ h d.few hfew hlen) fun p hp => by
      obtain ⟨line, info, -, hinfo, rfl⟩ := mem_guidePatches hp
      exact hsmall info hinfo
  have hnum := resolved_lt hinfos hreal
  have hfirst : ∀ (k : Nat) (g₀ : Guard Fn₀), r₀.state.guards[k]? = some g₀ →
      ∃ g, r.state.guards[k]? = some g ∧ (g₀.address = g.address ∧ g₀.length = g.length ∧
        g₀.expectedHash = g.expectedHash) ∧
        layout.Watches g₀ g.checkee loader binary result.binary := by
    intro k g₀ hg₀
    have hk : k < r.state.guards.length := (List.getElem?_eq_some_iff.mp hg₀).1.trans_le hfew
    have hat : r.state.guards[k]? = some r.state.guards[k] := List.getElem?_eq_getElem hk
    have hg : r.state.guards[k] ∈ r.state.guards := List.getElem_mem hk
    obtain ⟨haddress, hlength, hhash⟩ := numbers_eq h₀ h hg₀ hat
    exact ⟨_, hat, ⟨haddress, hlength, hhash⟩,
      hsealed.watches d.describes hg (d.mem _ hg).2 (hnum _ hg) haddress hlength hhash⟩
  have hsecond : ∀ g ∈ r.state.guards, layout.Watches g g.checkee loader binary result.binary :=
    fun g hg => hsealed.watches d.describes hg (d.mem g hg).2 (hnum g hg) rfl rfl rfl
  refine ⟨result, hrun, fun hs => ?_, fun k g₀ hg₀ => ?_, hsecond, fun file hspares =>
    ⟨fun g₀ hg₀ => ?_, fun g hg => (hsecond g hg).silent hg rfl rfl rfl hspares⟩⟩
  · exact (guidePatches_eq_nil_iff h₀ hlen).mp (hsuccess.mp hs).1
  · obtain ⟨g, hg, -, hwatch⟩ := hfirst k g₀ hg₀
    exact ⟨g, hg, hwatch⟩
  · obtain ⟨k, hk⟩ := List.mem_iff_getElem?.mp hg₀
    obtain ⟨g, hg, ⟨haddress, hlength, hhash⟩, hwatch⟩ := hfirst k g₀ hk
    exact hwatch.silent (List.mem_of_getElem? hg) haddress hlength hhash hspares

end TwoRuns

/-! ## A small binary -/

/-- The module is linked with a copy of itself, whose code lies behind. -/
theorem sample_linked : Linked [1, 2, 2, 3] [⟨2, 1, 222222222, 555555555, 444444444⟩,
    ⟨3, 2, 222222223, 555555556, 444444445⟩] sampleLayout (sampleBinary ++ sampleBinary)
    (fun address => address - 4096) sampleRadare where
  mem := by decide
  few := by decide
  describes := {
    nonempty := List.cons_ne_nil _ _
    inside := by decide +kernel
    disjoint := sampleLayout_describes.disjoint
    loaded := sampleLayout_describes.loaded
    reads := fun F _ file _ => by
      show Except.ok (readAt file (4096 + sampleLayout.start F - 4096) _) = _
      rw [Nat.add_sub_cancel_left]
    answers := fun file _ size offset => ⟨_, rfl⟩ }
  found := by decide +kernel
  apart := by decide +kernel
  placed := by
    have hplaces : ∀ g ∈ ([⟨2, 1, 222222222, 555555555, 444444444⟩,
        ⟨3, 2, 222222223, 555555556, 444444445⟩] : List (Guard Nat)), ∀ v ∈ g.placeholders,
        ∀ i ∈ occurrences (sampleBinary ++ sampleBinary) v, ∀ F ∈ [1, 2, 2, 3], g.host ≠ F →
          i + 4 ≤ sampleLayout.start F ∨ sampleLayout.start F + sampleLayout.size F ≤ i := by
      decide +kernel
    intro g hg v hv i hi F hF hne k hk
    have := hplaces g hg v hv i hi F hF hne
    unfold Layout.Covers at hk
    omega

/-- The first byte of the copy can be changed. -/
theorem linked_guards_watch_sample : ∃ r result,
    runOnModule { desiredConnectivity := 1 } (sampleEnvironment .unopened) sampleModule = .ok r ∧
    dumpPipe sampleRadare sampleOrder false (sampleBinary ++ sampleBinary)
      (some (guideText (r.state.guide ++ r.state.guide))) = .ok result ∧
    ¬ result.succeeded ∧ (∀ g ∈ r.state.guards,
      sampleLayout.Watches g g.checkee (fun address => address - 4096)
        (sampleBinary ++ sampleBinary) result.binary) ∧
    ∀ b, ∀ g ∈ r.state.guards, g.Silent (fun address => address - 4096)
      (sampleBinary ++ sampleBinary) (result.binary.set 26 b) := by
  obtain ⟨r, infos, hr, hguards, d, hreal, hlen, htwice, hsmall⟩ := sample_twice
  have hlinked := sample_linked
  have hoff : (∀ g ∈ ([⟨2, 1, 222222222, 555555555, 444444444⟩,
      ⟨3, 2, 222222223, 555555556, 444444445⟩] : List (Guard Nat)), ∀ v ∈ g.placeholders,
      ∀ i ∈ occurrences (sampleBinary ++ sampleBinary) v, 26 < i ∨ i + 4 ≤ 26) ∧
      ∀ F ∈ [1, 2, 2, 3], sampleLayout.start F + sampleLayout.size F ≤ 26 := by
    decide +kernel
  rw [← hguards] at hlinked hoff
  obtain ⟨result, hrun, hsuccess, -, hwatch, hsilent⟩ := linked_guards_watch hr hr (.inl rfl)
    hlinked le_rfl (fun line hline => (List.mem_append.mp hline).elim (d.plain line) (d.plain line))
    hlen htwice hsmall d.resolves hreal sampleOrder false
  refine ⟨r, result, hr, hrun, fun h => ?_, hwatch, fun b => (hsilent _ ⟨List.length_set, ?_, ?_⟩).2⟩
  · rw [hsuccess h] at hguards
    cases hguards
  · intro g hg v hv i hi
    refine readAt_congr fun k hk hk' => List.getElem?_set_ne ?_
    have := hoff.1 g hg v hv i hi
    omega
  · intro g hg
    refine readAt_congr fun k hk hk' => List.getElem?_set_ne ?_
    have := hoff.2 g.checkee (d.mem g hg).2
    omega

end SelfChecksumming
