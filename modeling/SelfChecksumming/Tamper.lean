import SelfChecksumming.EndToEnd

/-! # Tamper detection

The file is changed inside one function once it is patched. The guards that check this
function see the checksum of the differences; the constants of guards hosted elsewhere
are out of reach. -/
namespace SelfChecksumming
open Library

variable {Fn : Type} {layout : Layout Fn} {binary : List UInt8}

/-! ## Rewriting a function -/

/-- `tampered` differs from `patched` inside `T` only. -/
structure Layout.Rewrites (layout : Layout Fn) (T : Fn) (patched tampered : List UInt8) : Prop where
  length : tampered.length = patched.length
  outside : ∀ k, ¬ layout.Covers T k → tampered[k]? = patched[k]?

/-- The exclusive or, over the range of `T`, of old and new bytes. -/
def Layout.difference (layout : Layout Fn) (T : Fn) (patched tampered : List UInt8) : UInt8 :=
  xorBytes (List.zipWith (· ^^^ ·) (readAt patched (layout.start T) (layout.size T))
    (readAt tampered (layout.start T) (layout.size T)))

theorem Layout.rewrites_set {T : Fn} {k : Nat} (hk : layout.Covers T k) (patched : List UInt8)
    (b : UInt8) : layout.Rewrites T patched (patched.set k b) where
  length := List.length_set
  outside j hj := List.getElem?_set_ne (by rintro rfl; exact hj hk)

/-- Checksums of the old and the new range agree when the differences cancel. -/
theorem Layout.Rewrites.difference_eq {T : Fn} {patched tampered : List UInt8}
    (h : layout.Rewrites T patched tampered) : layout.difference T patched tampered =
      xorBytes (readAt patched (layout.start T) (layout.size T)) ^^^
        xorBytes (readAt tampered (layout.start T) (layout.size T)) := by
  refine xorBytes_zipWith ?_
  rw [readAt, readAt, List.length_take, List.length_take, List.length_drop, List.length_drop,
    h.length]

/-- A range apart from `T` is what it was. -/
theorem Layout.Rewrites.readAt_eq {T : Fn} {patched tampered : List UInt8}
    (h : layout.Rewrites T patched tampered) {start n : Nat}
    (hout : ∀ k, start ≤ k → k < start + n → ¬ layout.Covers T k) :
    readAt tampered start n = readAt patched start n :=
  readAt_congr fun k hk hk' => h.outside k (hout k hk hk')

/-! ## The guards in a rewritten file -/

/-- The code that replaced the placeholders of a guard raises the alarm. -/
def Guard.Alarms (g : Guard Fn) (loader : Nat → Nat) (binary file : List UInt8) : Prop :=
  ∃ i j k, occurrences binary g.address.toNat = [i] ∧ occurrences binary g.length.toNat = [j] ∧
    occurrences binary g.expectedHash.toNat = [k] ∧
    guardMe (loadedAt loader file) (constantAt file i) (constantAt file j)
      (constantAt file k) = true

/-- A scheduled guard that is no mismatch, hosted outside what is rewritten, compares
the checksum of its checkee with the one from before. -/
theorem Patched.guardMe_rewritten {guards : List (Guard Fn)} {functions : List Fn}
    {loader : Nat → Nat} {r2 : Radare} {order : DictOrder} {patches : List Patch} {st : PatchState}
    (hp : Patched r2 order binary patches st)
    (hlayout : layout.Describes functions binary loader r2)
    (hsched : layout.Schedules functions binary guards)
    (hfits : List.Forall₂ layout.Fits guards patches) (hreal : ∀ p ∈ patches, p.dummy = false)
    {T : Fn} (hT : T ∈ functions) {tampered : List UInt8}
    (htamper : layout.Rewrites T st.mm.bytes tampered) {g : Guard Fn} (hg : g ∈ guards)
    (hhost : g.host ≠ T) :
    ∃ i j k, occurrences binary g.address.toNat = [i] ∧ occurrences binary g.length.toNat = [j] ∧
      occurrences binary g.expectedHash.toNat = [k] ∧
      guardMe (loadedAt loader tampered) (constantAt tampered i) (constantAt tampered j)
          (constantAt tampered k) =
        decide (xorBytes (readAt tampered (layout.start g.checkee) (layout.size g.checkee)) ≠
          xorBytes (readAt st.mm.bytes (layout.start g.checkee) (layout.size g.checkee))) := by
  have hrecords := fits_records hfits hp.records
  obtain ⟨n, hn, rfl⟩ := List.getElem_of_mem hg
  have hn' : n < st.dumpPatch.length := by rw [← hrecords.length_eq]; exact hn
  have hr : layout.Fits guards[n] st.dumpPatch[n] := hrecords.get hn hn'
  have hat : st.dumpPatch[n]? = some st.dumpPatch[n] := List.getElem?_eq_getElem hn'
  have hdummy : st.dumpPatch[n].dummy = false := by
    have hn'' : n < patches.length := by rw [← hfits.length_eq]; exact hn
    have hsame : Patch.SameBut patches[n] st.dumpPatch[n] := hp.records.get hn'' hn'
    rw [hsame]
    exact hreal patches[n] (List.getElem_mem hn'')
  obtain ⟨i, j, k, hocc, hwindows, hi, hj, hk⟩ := hsched.windows hg hr
  have hmem := hsched.mem _ hg
  -- the constants are in the host, which is not rewritten
  have hconstant : ∀ w ∈ [i, j, k], constantAt tampered w = constantAt st.mm.bytes w := by
    intro w hw
    rw [constantAt, constantAt, htamper.readAt_eq]
    intro b hb hb' hcovers
    have hin := hwindows w hw
    exact hlayout.disjoint _ hmem.1 T hT hhost b ⟨⟨by omega, by omega⟩, hcovers⟩
  have hlen : tampered.length = binary.length := htamper.length.trans hp.length
  obtain ⟨haddTarget, hsizeTarget⟩ := hr.checkee hdummy
  have hhash := hp.hashTarget_eq hat hdummy haddTarget hsizeTarget
    (hp.hashed hlayout hsched hfits hn hn')
  refine ⟨i, j, k, hocc.1, hocc.2.1, hocc.2.2, ?_⟩
  rw [hconstant i (by simp), hconstant j (by simp), hconstant k (by simp),
    hp.guardMe_eq (windowsApart_of_holds hsched.holds hfits)
      (fits_placeholders hfits ▸ hsched.holds.nodup) hat hr.add hr.size hi hj hk,
    Patch.writtenSize, if_neg (by simp [hdummy]), haddTarget, hsizeTarget,
    hlayout.bytesFrom_eq hmem.2 hlen, hhash, UInt8.ofNat_toNat]

/-- In a rewritten file the guards of the function alarm when the differences do not
cancel, and the guards that have nothing to do with it pass. -/
theorem Patched.rewritten {guards : List (Guard Fn)} {functions : List Fn}
    {loader : Nat → Nat} {r2 : Radare} {order : DictOrder} {patches : List Patch} {st : PatchState}
    (hp : Patched r2 order binary patches st)
    (hlayout : layout.Describes functions binary loader r2)
    (hsched : layout.Schedules functions binary guards)
    (hfits : List.Forall₂ layout.Fits guards patches) (hreal : ∀ p ∈ patches, p.dummy = false)
    {T : Fn} (hT : T ∈ functions) {tampered : List UInt8}
    (htamper : layout.Rewrites T st.mm.bytes tampered) {g : Guard Fn} (hg : g ∈ guards) :
    (g.checkee = T → (g.Alarms loader binary tampered ↔
        layout.difference T st.mm.bytes tampered ≠ 0)) ∧
      (g.host ≠ T → g.checkee ≠ T → g.Passes loader binary tampered) := by
  constructor
  · rintro rfl
    obtain ⟨i, j, k, hi, hj, hk, hguard⟩ :=
      hp.guardMe_rewritten hlayout hsched hfits hreal hT htamper hg (hsched.self g hg)
    have hdiff : layout.difference g.checkee st.mm.bytes tampered ≠ 0 ↔
        guardMe (loadedAt loader tampered) (constantAt tampered i) (constantAt tampered j)
          (constantAt tampered k) = true := by
      rw [hguard, decide_eq_true_iff, htamper.difference_eq, Ne, UInt8.xor_eq_zero_iff, eq_comm]
    rw [hdiff]
    constructor
    · intro h
      obtain ⟨i', j', k', hi', hj', hk', halarm⟩ := h
      rw [hi, List.singleton_inj] at hi'
      rw [hj, List.singleton_inj] at hj'
      rw [hk, List.singleton_inj] at hk'
      rwa [hi', hj', hk']
    · intro halarm
      exact ⟨i, j, k, hi, hj, hk, halarm⟩
  · intro hhost hcheckee
    obtain ⟨i, j, k, hi, hj, hk, hguard⟩ :=
      hp.guardMe_rewritten hlayout hsched hfits hreal hT htamper hg hhost
    refine ⟨i, j, k, hi, hj, hk, ?_⟩
    rw [hguard, decide_eq_false_iff_not, not_not, htamper.readAt_eq]
    intro b hb hb' hcovers
    exact hlayout.disjoint _ (hsched.mem g hg).2 T hT hcheckee b ⟨⟨hb, hb'⟩, hcovers⟩

/-- One byte of the range changed: the differences do not cancel. -/
theorem Layout.difference_set_ne {T : Fn} {k : Nat} (hk : layout.Covers T k)
    {patched : List UInt8} (hin : layout.start T + layout.size T ≤ patched.length) {b : UInt8}
    (hb : patched[k]? ≠ some b) : layout.difference T patched (patched.set k b) ≠ 0 := by
  have hlt : k < patched.length := by unfold Layout.Covers at hk; omega
  have hat : (readAt patched (layout.start T) (layout.size T))[k - layout.start T]? =
      some patched[k] := by
    rw [readAt_getElem?, if_pos (by unfold Layout.Covers at hk; omega),
      Nat.add_sub_cancel' hk.1, List.getElem?_eq_getElem hlt]
  have hne : patched[k] ≠ b := fun he => hb (by rw [List.getElem?_eq_getElem hlt, he])
  rw [(layout.rewrites_set hk patched b).difference_eq, readAt_set hk.1, Ne,
    UInt8.xor_eq_zero_iff]
  exact Ne.symm (xorBytes_set_ne hat hne)

/-! ## From the network to the check -/

theorem Layout.Schedules.mono {guards : List (Guard Fn)} {functions all : List Fn}
    (h : layout.Schedules functions binary guards) (hsub : functions ⊆ all) :
    layout.Schedules all binary guards where
  holds := h.holds
  mem g hg := ⟨hsub (h.mem g hg).1, hsub (h.mem g hg).2⟩
  self := h.self
  later := h.later

variable [LinearOrder Fn] [OrderBot Fn]

/-- Tampering with one function of the patched program, whatever network was constructed.
The guards on it alarm when the exclusive or of the differences is not zero, as it is
after a change of one byte; the guards hosted elsewhere that check something else stay
silent. -/
theorem tampering_detected (network : DAGCheckersNetwork) (shuffles : Nat → Shuffle Nat)
    (sensitiveFunctions checkerFunctions : List Fn) (connectivity : Int32)
    {map : SortedMap Fn (List Fn)} {sorted : List Fn} {st : PassState Fn} (env : Environment Fn)
    (M : Module Fn)
    (hnet : network.constructProtectionNetwork shuffles sensitiveFunctions checkerFunctions
      connectivity = .ok map)
    (hsort : getReverseTopologicalSort map = .ok sorted)
    (hinject : injectGuards env M sensitiveFunctions ⟨map, sorted⟩ = .ok st)
    (order : DictOrder) (dumpMode : Bool) {functions : List Fn} {binary : List UInt8}
    {loader : Nat → Nat} {r2 : Radare} {infos : List (FuncInfo × Bool)}
    (hfunctions : sensitiveFunctions ++ checkerFunctions ⊆ functions)
    (hlayout : layout.Describes functions binary loader r2)
    (hholds : layout.Holds binary st.guards)
    (hplain : ∀ line ∈ st.guide, PlainName line.functionName.toList)
    (hresolve : resolveNames r2 [] (st.guide.map GuideLine.functionName) = .ok infos)
    (hinfos : List.Forall₂ layout.Resolves st.guards infos) (hreal : ∀ info ∈ infos, info.2 = false)
    {T : Fn} (hT : T ∈ functions) :
    ∃ result, dumpPipe r2 order dumpMode binary (some (guideText st.guide)) = .ok result ∧
      (∀ tampered, layout.Rewrites T result.binary tampered → ∀ g ∈ st.guards,
        (g.checkee = T → (g.Alarms loader binary tampered ↔
          layout.difference T result.binary tampered ≠ 0)) ∧
        (g.host ≠ T → g.checkee ≠ T → g.Passes loader binary tampered)) ∧
      (∀ k b, layout.Covers T k → result.binary[k]? ≠ some b → ∀ g ∈ st.guards,
        (g.checkee = T → g.Alarms loader binary (result.binary.set k b)) ∧
        (g.host ≠ T → g.checkee ≠ T → g.Passes loader binary (result.binary.set k b))) := by
  have ht := tally_of_injectGuards hinject
  have hsched := (schedules_of_constructed hnet hsort ht hholds).mono hfunctions
  have hfits : List.Forall₂ layout.Fits st.guards (guidePatches st.guide infos) := by
    rw [ht.guide]
    refine guidePatches_fits hinfos ?_
    rw [ht.guards] at hholds ⊢
    exact fun g hg => guardsOf_toInt32 hholds.length_le hg
  have hpatches : ∀ p ∈ guidePatches st.guide infos, p.dummy = false := by
    intro p hp
    obtain ⟨line, info, -, hinfo, rfl⟩ := mem_guidePatches hp
    exact hreal info hinfo
  obtain ⟨done, result, hdone, hrun, hbinary, -⟩ :=
    dumpPipe_scheduled order dumpMode hlayout hsched hplain hresolve hfits
  have hp := patchBinary_ok hdone
  refine ⟨result, hrun, ?_, ?_⟩
  · intro tampered htamper g hg
    rw [hbinary] at htamper ⊢
    exact hp.rewritten hlayout hsched hfits hpatches hT htamper hg
  · intro k b hk hb g hg
    have hin : layout.start T + layout.size T ≤ result.binary.length := by
      rw [hbinary, hp.length]
      exact hlayout.inside T hT
    have hdiff := layout.difference_set_ne hk hin hb
    have htamper := layout.rewrites_set hk result.binary b
    rw [hbinary] at htamper hdiff ⊢
    have hguard := hp.rewritten hlayout hsched hfits hpatches hT htamper hg
    exact ⟨fun hcheckee => (hguard.1 hcheckee).mpr hdiff, hguard.2⟩

/-- The first byte of the first function set to zero. -/
theorem tampering_detected_sample : ∃ st result,
    injectGuards (sampleEnvironment .unopened) sampleModule [1, 2] sampleNetwork = .ok st ∧
    dumpPipe sampleRadare sampleOrder false sampleBinary (some (guideText st.guide)) = .ok result ∧
    ∀ g ∈ st.guards, g.checkee = 1 →
      (∀ tampered, sampleLayout.Rewrites 1 result.binary tampered →
        (g.Alarms (fun address => address - 4096) sampleBinary tampered ↔
          sampleLayout.difference 1 result.binary tampered ≠ 0)) ∧
      (result.binary[0]? ≠ some 0 →
        g.Alarms (fun address => address - 4096) sampleBinary (result.binary.set 0 0)) := by
  obtain ⟨st, infos, hst, -, hholds, hplain, hresolve, hinfos, hreal⟩ := sample_injected
  obtain ⟨result, hrun, hrewritten, hset⟩ := tampering_detected {} (fun _ => .refl) [1, 2] [2, 3] 1
    (sampleEnvironment .unopened) sampleModule rfl rfl hst sampleOrder false (List.Subset.refl _)
    sampleLayout_describes hholds hplain hresolve hinfos hreal (T := 1) (by decide)
  refine ⟨st, result, hst, hrun, fun g hg hcheckee => ⟨fun tampered htamper => ?_, fun hb => ?_⟩⟩
  · exact (hrewritten tampered htamper g hg).1 hcheckee
  · exact (hset 0 0 ⟨by decide, by decide⟩ hb g hg).1 hcheckee

end SelfChecksumming
