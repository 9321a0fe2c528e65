import SelfChecksumming.IRPatch.SCPatch
import SelfChecksumming.Pass.Instrument
import SelfChecksumming.Pass.Loaded
import SelfChecksumming.Patcher.Failure

/-! # The two ways of patching

The manifest that the script writes for the binary is what SCPatchPass reads for the
module. The pass goes by the metadata of the stores, which the instrumentation does not
attach. -/
namespace SelfChecksumming
open Library

/-! ## The manifest file -/

/-- An entry of the manifest, as the other side parses it. -/
def Patch.toJson (p : Patch) : Json :=
  .obj [("add_placeholder", .num p.addPlaceholder), ("add_target", .num p.addTarget),
    ("dummy", .bool p.dummy), ("hash_placeholder", .num p.hashPlaceholder),
    ("hash_target", .num p.hashTarget), ("size_placeholder", .num p.sizePlaceholder),
    ("size_target", .num p.sizeTarget)]

def manifestJson (manifest : List Patch) : Json := .arr (manifest.map Patch.toJson)

/-- The numbers of an entry have 64 bits. -/
structure Patch.Readable (p : Patch) : Prop where
  placeholders : ∀ v ∈ p.placeholders, 0 ≤ v ∧ v.toNat < 2 ^ 32
  addTarget : p.addTarget < 2 ^ 32
  sizeTarget : p.sizeTarget < 2 ^ 32
  hashTarget : p.hashTarget < 2 ^ 32

theorem Patch.readEntry_toJson {p : Patch} (h : p.Readable) : readEntry p.toJson = .ok {
    sizePlaceholder := p.sizePlaceholder
    sizeTarget := p.sizeTarget
    addPlaceholder := p.addPlaceholder
    addTarget := p.addTarget
    hashPlaceholder := p.hashPlaceholder
    hashTarget := p.hashTarget } := by
  have hnumber : ∀ v : Int, 0 ≤ v ∧ v.toNat < 2 ^ 32 → (Json.num v).getNumber = .ok v := by
    intro v hv
    refine if_pos ⟨hv.2.trans (by omega), ?_⟩
    rw [Int.toNat_of_nonpos (by omega)]
    exact Nat.zero_le _
  have htarget : ∀ n : Nat, n < 2 ^ 32 → (Json.num n).getNumber = .ok (n : Int) := fun n hn =>
    hnumber n ⟨Int.natCast_nonneg n, hn⟩
  have hplaceholders := h.placeholders
  simp only [placeholders, List.forall_mem_cons] at hplaceholders
  obtain ⟨hadd, hsize, hhash, -⟩ := hplaceholders
  simp [readEntry, Json.numberAt, Patch.toJson, Json.constMember, bind, Except.bind,
    hnumber _ hadd, hnumber _ hsize, hnumber _ hhash, htarget _ h.addTarget,
    htarget _ h.sizeTarget, htarget _ h.hashTarget, pure, Except.pure]

theorem readPatchManifest_total {manifest : List Patch} (h : ∀ p ∈ manifest, p.Readable) :
    ∃ maps, PatchManifest.readPatchManifest (manifestJson manifest) = .ok maps := by
  obtain ⟨maps, hmaps, -⟩ := foldlM_total (f := PatchManifest.readPatch) (fun _ => True)
    (manifest.map Patch.toJson) (fun patch hpatch maps _ => by
      obtain ⟨p, hp, rfl⟩ := List.mem_map.mp hpatch
      exact ⟨_, bind_eq_ok.mpr ⟨_, Patch.readEntry_toJson (h p hp), rfl⟩, trivial⟩) {} trivial
  exact ⟨maps, hmaps⟩

/-- What the script dumps can be read, when the sizes fit. -/
theorem readable_of_dumped {r2 : Radare} {order : DictOrder} {binary : List UInt8}
    {guide : List Char} {result : PatchResult} {manifest : List Patch}
    (h : dumpPipe r2 order true binary (some guide) = .ok result)
    (hmanifest : result.manifest = some manifest)
    (hsize : ∀ r ∈ manifest, r.sizeTarget < 2 ^ 16) : ∀ r ∈ manifest, r.Readable := by
  obtain ⟨patches, st, -, hpatch, rfl⟩ := dumpPipe_ok.mp h
  obtain rfl : st.dumpPatch = manifest := Option.some.inj hmanifest
  have hp := patchBinary_ok hpatch
  intro r hr
  obtain ⟨n, hn', rfl⟩ := List.getElem_of_mem hr
  have hn : n < patches.length := by rw [hp.records.length_eq]; exact hn'
  have hmem : patches[n] ∈ patches := List.getElem_mem hn
  have hsame : Patch.SameBut patches[n] st.dumpPatch[n] := hp.records.get hn hn'
  refine ⟨?_, ?_, (hsize _ hr).trans (by omega), ?_⟩
  · intro v hv
    rw [hsame] at hv
    exact hp.range v (List.mem_flatMap.mpr ⟨patches[n], hmem, hv⟩)
  · rw [hsame]
    exact (patchBinary_packable hpatch _ hmem).1
  · exact (hashOf_lt (hp.hashes n _ (List.getElem?_eq_getElem hn'))).trans (by omega)

/-! ## The instrumented module -/

variable {Fn : Type} [LinearOrder Fn] [OrderBot Fn]

/-- The functions that SCPatchPass goes through. -/
def instrumented (M : Module Fn) (st : PassState Fn) : List Function := M.functions.map st.deref

/-- No instruction of a guard has one of the three kinds. -/
theorem patchKind_instructions {M : Module Fn} {k : Nat} {g : Guard Fn} {x : Instruction}
    (hx : x ∈ g.instructions M k) : SCPatchPass.patchKind x = none := by
  simp only [Guard.instructions, guardInstructions, Bool.false_eq_true, if_false, List.mem_cons,
    List.not_mem_nil, or_false] at hx
  rcases hx with rfl | rfl | rfl | rfl | rfl | rfl | rfl | rfl | rfl | rfl <;> rfl

/-- The store of the length placeholder. -/
def Guard.lengthStore (k : Nat) (g : Guard Fn) : Instruction :=
  ⟨.guard k 4, .store (.i32 g.length) (.result (.guard k 1)), [scGuardMd]⟩

theorem lengthStore_mem (M : Module Fn) (k : Nat) (g : Guard Fn) :
    g.lengthStore k ∈ g.instructions M k := by
  simp [Guard.lengthStore, Guard.instructions, guardInstructions]

/-- What has none of the three kinds stays. -/
theorem contains_of_untagged {maps : PatchManifest} {F F' : Function}
    (h : SCPatchPass.Pointwise (SCPatchPass.Rewrites maps) F F') {x : Instruction}
    (hx : F.Contains x) (hkind : SCPatchPass.patchKind x = none) : F'.Contains x := by
  obtain ⟨block, hblock, hx⟩ := hx
  obtain ⟨block', hblock', hrel⟩ := exists_related h.blocks hblock
  obtain ⟨x', hx', hrewrites⟩ := exists_related hrel hx
  exact ⟨block', hblock', hrewrites.eq_of_untagged hkind ▸ hx'⟩

/-- The pass leaves every instruction of every guard where it is. -/
theorem guards_untouched {opts : Options} {env : Environment Fn} {M : Module Fn}
    {r : PassResult Fn} (hrun : runOnModule opts env M = .ok r) {maps : PatchManifest}
    {M' : List Function} (hpatch : List.Forall₂
      (SCPatchPass.Pointwise (SCPatchPass.Rewrites maps)) (instrumented M r.state) M')
    {k : Nat} {g : Guard Fn} (hg : r.state.guards[k]? = some g) {x : Instruction}
    (hx : x ∈ g.instructions M k) : ∃ F ∈ M', F.Contains x := by
  obtain ⟨-, -, hst, -⟩ := runOnModule_ok hrun
  have hhost := runOnModule_host_mem hrun (List.mem_of_getElem? hg)
  have hplanted : (r.state.deref g.host).Contains x :=
    (planted_of_injectGuards hst g.host x).mpr (.inr ⟨k, g, hg, rfl, hx⟩)
  obtain ⟨F', hF', hrel⟩ := exists_related hpatch (List.mem_map_of_mem hhost)
  exact ⟨F', hF', contains_of_untagged hrel hplanted (patchKind_instructions hx)⟩

/-! ## Agreement -/

def Opcode.operands : Opcode → List Value
  | .store value pointer => [value, pointer]
  | .load pointer => [pointer]
  | .call _ args => args
  | _ => []

/-- The patched module and the patched binary carry the same numbers. -/
structure Agrees (guards : List (Guard Fn)) (manifest : List Patch) (M' : List Function) :
    Prop where
  replaced : ∀ (k : Nat) g p, guards[k]? = some g → manifest[k]? = some p → ∀ F ∈ M', ∀ x,
    F.Contains x → ∀ j target, (j, target) ∈ [(3, p.addTarget), (4, p.sizeTarget),
      (5, p.hashTarget)] → x.id = .guard k j → ∃ pointer, x.op = .store (.i32 (.ofNat target)) pointer
  cleared : ∀ g ∈ guards, ∀ v ∈ [g.address, g.length, g.expectedHash], ∀ F ∈ M', ∀ x,
    F.Contains x → .i32 v ∉ x.op.operands

/-- Exactly when patching the module agrees with patching the binary: there is no guard to
patch, and the module has come with no tagged instruction that the pass cannot take. -/
theorem ir_patching_agrees_iff {opts : Options} {env : Environment Fn} {M : Module Fn}
    {r : PassResult Fn} (hrun : runOnModule opts env M = .ok r) {r2 : Radare} {order : DictOrder}
    {binary : List UInt8} {result : PatchResult} {manifest : List Patch}
    (hdump : dumpPipe r2 order true binary (some (guideText r.state.guide)) = .ok result)
    (hmanifest : result.manifest = some manifest)
    (hresolved : ∀ p ∈ manifest, p.dummy = false ∧ p.sizeTarget < 2 ^ 16) :
    (∃ M' didModify, SCPatchPass.runOnModule (manifestJson manifest) (instrumented M r.state) =
        .ok (M', didModify) ∧ Agrees r.state.guards manifest M') ↔
      r.state.guards = [] ∧
        ∀ F ∈ M.functions, ∀ I, (M.deref F).Contains I → SCPatchPass.Patchable I := by
  obtain ⟨maps, hmaps⟩ := readPatchManifest_total
    (readable_of_dumped hdump hmanifest fun p hp => (hresolved p hp).2)
  obtain ⟨-, -, hst, -⟩ := runOnModule_ok hrun
  have hplanted := planted_of_injectGuards hst
  have htotal := SCPatchPass.runOnModule_total_iff (M := instrumented M r.state) hmaps
  simp only [instrumented, List.forall_mem_map] at htotal
  constructor
  · intro h
    obtain ⟨M', didModify, hpass, hagrees⟩ := h
    have hnil : r.state.guards = [] := by
      by_contra hne
      obtain ⟨g, hg⟩ := List.exists_mem_of_ne_nil _ hne
      obtain ⟨k, hk, rfl⟩ := List.getElem_of_mem hg
      have hrel := (SCPatchPass.runOnModule_ok hmaps).mp ⟨didModify, hpass⟩
      obtain ⟨F, hF, hx⟩ := guards_untouched hrun hrel (List.getElem?_eq_getElem hk)
        (lengthStore_mem M k _)
      exact hagrees.cleared _ hg _ (by simp) F hF _ hx List.mem_cons_self
    refine ⟨hnil, fun F hF I hI => ?_⟩
    exact htotal.mp ⟨_, hpass⟩ F hF I ((hplanted F I).mpr (.inl hI))
  · intro h
    obtain ⟨hnil, hpatchable⟩ := h
    obtain ⟨⟨M', didModify⟩, hpass⟩ := htotal.mpr fun F hF I hI => by
      refine hpatchable F hF I (((hplanted F I).mp hI).resolve_right fun hex => ?_)
      obtain ⟨k, g, hg, -⟩ := hex
      rw [hnil] at hg
      cases hg
    refine ⟨M', didModify, hpass, ?_, ?_⟩
    · intro k g p hg
      rw [hnil] at hg
      cases hg
    · intro g hg
      rw [hnil] at hg
      cases hg

/-- The record of a guard of the first function. -/
def sampleRecord : Patch := ⟨222222222, 555555555, 444444444, 4096, 2, 3, false⟩

/-- A run with one guard, the manifest for it, and what the pass makes of the module. -/
theorem sample_dumped : ∃ r result,
    runOnModule { loadCheckersNetwork := "network.json" }
      (sampleEnvironment (.parsed dumpedElsewhere)) sampleModule = .ok r ∧
    r.state.guards = [⟨2, 1, 222222222, 555555555, 444444444⟩] ∧
    dumpPipe sampleRadare sampleOrder true sampleBinary (some (guideText r.state.guide)) =
      .ok result ∧
    result.manifest = some [sampleRecord] ∧
    SCPatchPass.runOnModule (manifestJson [sampleRecord]) (instrumented sampleModule r.state) =
      .ok (instrumented sampleModule r.state, false) := by
  obtain ⟨r, hr⟩ : ∃ r, runOnModule { loadCheckersNetwork := "network.json" }
      (sampleEnvironment (.parsed dumpedElsewhere)) sampleModule = .ok r := ⟨_, rfl⟩
  have hguards : r.state.guards = [⟨2, 1, 222222222, 555555555, 444444444⟩] := by
    cases hr
    rfl
  have hguide : r.state.guide = [⟨"f1", 222222222, 555555555, 444444444⟩] := by
    cases hr
    rfl
  refine ⟨r, _, hr, hguards, by rw [hguide]; rfl, ?_, ?_⟩
  · decide +kernel
  · cases hr
    rfl

theorem ir_patching_agrees_iff_sample : ∃ r,
    runOnModule { loadCheckersNetwork := "network.json" }
      (sampleEnvironment (.parsed dumpedElsewhere)) sampleModule = .ok r ∧
    ((∃ M' didModify, SCPatchPass.runOnModule (manifestJson [sampleRecord])
        (instrumented sampleModule r.state) = .ok (M', didModify) ∧
          Agrees r.state.guards [sampleRecord] M') ↔
      r.state.guards = [] ∧ ∀ F ∈ sampleModule.functions, ∀ I,
        (sampleModule.deref F).Contains I → SCPatchPass.Patchable I) := by
  obtain ⟨r, result, hrun, -, hdump, hmanifest, -⟩ := sample_dumped
  exact ⟨r, hrun, ir_patching_agrees_iff hrun hdump hmanifest (by simp [sampleRecord])⟩

/-- The pass completes and changes nothing, and the placeholder 555555555 is still stored. -/
theorem length_placeholder_remains : ∃ r result,
    runOnModule { loadCheckersNetwork := "network.json" }
      (sampleEnvironment (.parsed dumpedElsewhere)) sampleModule = .ok r ∧
    dumpPipe sampleRadare sampleOrder true sampleBinary (some (guideText r.state.guide)) =
      .ok result ∧
    result.manifest = some [sampleRecord] ∧
    SCPatchPass.runOnModule (manifestJson [sampleRecord]) (instrumented sampleModule r.state) =
      .ok (instrumented sampleModule r.state, false) ∧
    ¬ Agrees r.state.guards [sampleRecord] (instrumented sampleModule r.state) := by
  obtain ⟨r, result, hrun, hguards, hdump, hmanifest, hpass⟩ := sample_dumped
  refine ⟨r, result, hrun, hdump, hmanifest, hpass, fun h => ?_⟩
  obtain ⟨maps, hmaps⟩ := readPatchManifest_total
    (readable_of_dumped hdump hmanifest (by simp [sampleRecord]))
  have hfirst : r.state.guards[0]? = some ⟨2, 1, 222222222, 555555555, 444444444⟩ := by
    rw [hguards]
    rfl
  obtain ⟨F, hF, hx⟩ := guards_untouched hrun
    ((SCPatchPass.runOnModule_ok hmaps).mp ⟨false, hpass⟩) hfirst (lengthStore_mem _ 0 _)
  obtain ⟨pointer, hop⟩ := h.replaced 0 _ sampleRecord hfirst rfl F hF _ hx 4 2 (by decide) rfl
  cases hop

end SelfChecksumming
