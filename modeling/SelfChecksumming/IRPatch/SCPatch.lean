import Mathlib.Algebra.Group.Int.Defs
import SelfChecksumming.IRPatch.PatchManifest

/-! # SCPatchPass

The pass takes every instruction that carries one of three metadata kinds for the store
of a placeholder, and stores what the manifest has for it. -/
namespace SelfChecksumming
open Library

/-- `I.getMetadata(kind)` is not null. -/
def Instruction.getMetadata (I : Instruction) (kind : String) : Bool :=
  I.metadata.any fun md => md.1 = kind

/-- The number of a `ConstantInt`, sign-extended. -/
def Value.constantInt : Value → Option Int
  | i16 v => some v.toInt16.toInt
  | i32 v => some v.toInt32.toInt
  | constant _ v => some v
  | result _ => none
  | other _ => none

/-- What `getSExtValue` asserts of the number. -/
def Fits64 (CI : Int) : Prop := CI.toNat < 2 ^ 63 ∧ (-CI).toNat ≤ 2 ^ 63

instance (CI : Int) : Decidable (Fits64 CI) :=
  inferInstanceAs (Decidable (CI.toNat < 2 ^ 63 ∧ (-CI).toNat ≤ 2 ^ 63))

namespace SCPatchPass

/-- The map is a copy, so that what `lookupMap[placeholder]` inserts is lost; the value
that it inserts is zero. -/
def patchStore (I : Instruction) (lookupMap : SortedMap Int Int32) (is16bit : Bool) :
    Except Fault (Instruction × Bool) :=
  match I.op with
  | .store v pointer =>
    match v.constantInt with
    | some CI =>
      if Fits64 CI then
        let placeholder := Int32.ofInt CI
        let patch := (lookupMap.find? placeholder.toInt).getD 0
        let valueToPatch :=
          if is16bit then Value.i16 patch.toUInt32.toUInt16 else Value.i32 patch.toUInt32
        .ok ({ I with op := .store valueToPatch pointer }, true)
      else .error (.undefined "getSExtValue() of more than 64 bits")
    | none => .error (.undefined "assert(false)")
  | _ => .error (.undefined "no value returned")

/-- The body of the loop over the instructions. -/
def patchInstruction (patchManifest : PatchManifest) (didModify : Bool) (I : Instruction) :
    Except Fault (Instruction × Bool) :=
  if I.getMetadata "address" then patchStore I patchManifest.addressPatches false
  else if I.getMetadata "length" then patchStore I patchManifest.sizePatches true
  else if I.getMetadata "hash" then patchStore I patchManifest.hashPatches false
  else .ok (I, didModify)

def patchBlock (patchManifest : PatchManifest) :
    Bool → List Instruction → Except Fault (List Instruction × Bool) :=
  mapAccumM (patchInstruction patchManifest)

def patchFunction (patchManifest : PatchManifest) (didModify : Bool) (F : Function) :
    Except Fault (Function × Bool) := do
  let (blocks, didModify) ← mapAccumM (patchBlock patchManifest) didModify F.blocks
  return ({ F with blocks }, didModify)

/-- `root` is what the manifest parses to, `M` the functions of the module. -/
def runOnModule (root : Json) (M : List Function) : Except Fault (List Function × Bool) := do
  let patchManifest ← PatchManifest.readPatchManifest root
  mapAccumM (patchFunction patchManifest) false M

/-! ## One instruction -/

/-- The branch that an instruction takes. -/
def patchKind (I : Instruction) : Option PatchKind :=
  if I.getMetadata "address" then some .address
  else if I.getMetadata "length" then some .length
  else if I.getMetadata "hash" then some .hash
  else none

/-- The constant that is stored in place of a placeholder. -/
def valueToPatch (lookupMap : SortedMap Int Int32) (is16bit : Bool) (CI : Int) : Value :=
  let patch := (lookupMap.find? (Int32.ofInt CI).toInt).getD 0
  if is16bit then .i16 patch.toUInt32.toUInt16 else .i32 patch.toUInt32

theorem patchStore_ok {I I' : Instruction} {lookupMap : SortedMap Int Int32} {is16bit : Bool} :
    (∃ didModify, patchStore I lookupMap is16bit = .ok (I', didModify)) ↔
      ∃ v pointer CI, I.op = .store v pointer ∧ v.constantInt = some CI ∧ Fits64 CI ∧
        I' = { I with op := .store (valueToPatch lookupMap is16bit CI) pointer } := by
  constructor
  · intro h
    obtain ⟨didModify, h⟩ := h
    unfold patchStore at h
    cases hop : I.op with
    | store v pointer =>
      simp only [hop] at h
      cases hv : v.constantInt with
      | none => simp only [hv] at h; cases h
      | some CI =>
        simp only [hv] at h
        by_cases hfits : Fits64 CI
        · rw [if_pos hfits] at h
          cases h
          exact ⟨v, pointer, CI, rfl, hv, hfits, rfl⟩
        · rw [if_neg hfits] at h
          cases h
    | _ => simp only [hop] at h; cases h
  · intro h
    obtain ⟨v, pointer, CI, hop, hv, hfits, rfl⟩ := h
    refine ⟨true, ?_⟩
    simp only [patchStore, hop, hv, if_pos hfits]
    rfl

/-- What becomes of an instruction. -/
inductive Rewrites (manifest : PatchManifest) (I : Instruction) : Instruction → Prop where
  | untagged : patchKind I = none → Rewrites manifest I I
  | tagged {kind : PatchKind} {v pointer : Value} {CI : Int} : patchKind I = some kind →
      I.op = .store v pointer → v.constantInt = some CI → Fits64 CI →
      Rewrites manifest I
        { I with op := .store (valueToPatch (manifest.patches kind) (kind = .length) CI) pointer }

theorem Rewrites.eq_of_untagged {manifest : PatchManifest} {I I' : Instruction}
    (h : Rewrites manifest I I') (hkind : patchKind I = none) : I' = I := by
  cases h with
  | untagged => rfl
  | tagged hk => rw [hkind] at hk; cases hk

theorem patchInstruction_eq (manifest : PatchManifest) (didModify : Bool) (I : Instruction) :
    patchInstruction manifest didModify I =
      match patchKind I with
      | none => .ok (I, didModify)
      | some kind => patchStore I (manifest.patches kind) (kind = .length) := by
  unfold patchInstruction patchKind
  split
  · rfl
  · split
    · rfl
    · split <;> rfl

theorem patchInstruction_maps (manifest : PatchManifest) :
    Maps (patchInstruction manifest) (Rewrites manifest) := by
  intro didModify I I'
  rw [patchInstruction_eq]
  cases hkind : patchKind I with
  | none =>
    constructor
    · intro h
      obtain ⟨_, h⟩ := h
      cases h
      exact .untagged hkind
    · intro h
      cases h with
      | untagged => exact ⟨didModify, rfl⟩
      | tagged hk => rw [hkind] at hk; cases hk
  | some kind =>
    rw [patchStore_ok]
    constructor
    · intro h
      obtain ⟨v, pointer, CI, hop, hv, hfits, rfl⟩ := h
      exact .tagged hkind hop hv hfits
    · intro h
      cases h with
      | untagged hk => rw [hkind] at hk; cases hk
      | tagged hk hop hv hfits =>
        cases hkind.symm.trans hk
        exact ⟨_, _, _, hop, hv, hfits, rfl⟩

/-! ## The module -/

/-- Two functions whose instructions are related one by one. -/
structure Pointwise (R : Instruction → Instruction → Prop) (F F' : Function) : Prop where
  name : F'.name = F.name
  blocks : List.Forall₂ (List.Forall₂ R) F.blocks F'.blocks

theorem patchFunction_maps (manifest : PatchManifest) :
    Maps (patchFunction manifest) (Pointwise (Rewrites manifest)) := by
  have hblocks := (patchInstruction_maps manifest).mapAccumM.mapAccumM
  intro didModify F F'
  rw [show Pointwise (Rewrites manifest) F F' ↔ F'.name = F.name ∧
    List.Forall₂ (List.Forall₂ (Rewrites manifest)) F.blocks F'.blocks from
      ⟨fun h => ⟨h.name, h.blocks⟩, fun h => ⟨h.1, h.2⟩⟩, ← hblocks didModify]
  constructor
  · intro h
    obtain ⟨didModify', h⟩ := h
    obtain ⟨⟨blocks, _⟩, hrun, h⟩ := bind_eq_ok.mp h
    cases h
    exact ⟨rfl, _, hrun⟩
  · intro h
    obtain ⟨hname, didModify', hrun⟩ := h
    refine ⟨didModify', bind_eq_ok.mpr ⟨_, hrun, ?_⟩⟩
    cases F
    cases F'
    cases hname
    rfl

/-- Every instruction is rewritten for itself. -/
theorem runOnModule_ok {root : Json} {manifest : PatchManifest} {M M' : List Function}
    (hread : PatchManifest.readPatchManifest root = .ok manifest) :
    (∃ didModify, runOnModule root M = .ok (M', didModify)) ↔
      List.Forall₂ (Pointwise (Rewrites manifest)) M M' := by
  rw [← (patchFunction_maps manifest).mapAccumM false, runOnModule, hread]
  rfl

theorem Pointwise.iff_forall {R S : Instruction → Instruction → Prop} {P : Instruction → Prop}
    {F F' : Function} (h : Pointwise R F F') (hiff : ∀ I I', R I I' → (S I I' ↔ P I)) :
    Pointwise S F F' ↔ ∀ I, F.Contains I → P I := by
  have hblocks := forall₂_iff_forall (S := List.Forall₂ S) (P := fun block => ∀ I ∈ block, P I)
    h.blocks fun _ _ hb => forall₂_iff_forall hb hiff
  constructor
  · intro hS I hI
    obtain ⟨block, hblock, hI⟩ := hI
    exact hblocks.mp hS.blocks block hblock I hI
  · intro hP
    exact ⟨h.name, hblocks.mpr fun block hblock I hI => hP I ⟨block, hblock, hI⟩⟩

theorem exists_pointwise {R : Instruction → Instruction → Prop} {F : Function} :
    (∃ F', Pointwise R F F') ↔ ∀ I, F.Contains I → ∃ I', R I I' := by
  constructor
  · intro h I hI
    obtain ⟨F', h⟩ := h
    obtain ⟨block, hblock, hI⟩ := hI
    obtain ⟨block', hrel⟩ := exists_forall₂.mp ⟨_, h.blocks⟩ block hblock
    exact exists_forall₂.mp ⟨_, hrel⟩ I hI
  · intro h
    obtain ⟨blocks, hblocks⟩ := exists_forall₂.mpr fun block hblock =>
      exists_forall₂.mpr fun I hI => h I ⟨block, hblock, hI⟩
    exact ⟨⟨F.name, blocks⟩, rfl, hblocks⟩

/-- The pass can take the instruction. -/
def Patchable (I : Instruction) : Prop :=
  patchKind I = none ∨ ∃ v pointer CI, I.op = .store v pointer ∧ v.constantInt = some CI ∧ Fits64 CI

theorem exists_rewrites {manifest : PatchManifest} {I : Instruction} :
    (∃ I', Rewrites manifest I I') ↔ Patchable I := by
  constructor
  · intro h
    obtain ⟨I', hI⟩ := h
    cases hI with
    | untagged hkind => exact .inl hkind
    | tagged _ hop hv hfits => exact .inr ⟨_, _, _, hop, hv, hfits⟩
  · intro h
    rcases h with hkind | ⟨v, pointer, CI, hop, hv, hfits⟩
    · exact ⟨I, .untagged hkind⟩
    · cases hkind : patchKind I with
      | none => exact ⟨I, .untagged hkind⟩
      | some kind => exact ⟨_, .tagged hkind hop hv hfits⟩

/-- When the pass completes. -/
theorem runOnModule_total_iff {root : Json} {manifest : PatchManifest} {M : List Function}
    (hread : PatchManifest.readPatchManifest root = .ok manifest) :
    (∃ out, runOnModule root M = .ok out) ↔ ∀ F ∈ M, ∀ I, F.Contains I → Patchable I := by
  have hrun : (∃ out, runOnModule root M = .ok out) ↔
      ∃ M', List.Forall₂ (Pointwise (Rewrites manifest)) M M' := by
    simp only [← runOnModule_ok hread]
    exact ⟨fun ⟨out, h⟩ => ⟨out.1, out.2, h⟩, fun ⟨M', didModify, h⟩ => ⟨_, h⟩⟩
  rw [hrun, exists_forall₂]
  refine forall₂_congr fun F _ => ?_
  rw [exists_pointwise]
  exact forall₂_congr fun I _ => exists_rewrites

/-! ## Which targets arrive -/

/-- What a tagged store of a 32-bit constant is to become: the store of the target that
the manifest lists for its placeholder, or else what it was. -/
def PatchedAs (entries : List ManifestEntry) (I I' : Instruction) : Prop :=
  ∀ kind v pointer, patchKind I = some kind → I.op = .store (.i32 v) pointer →
    (∀ target, PatchManifest.listed entries kind v.toInt32 = some target → ∃ w : UInt32,
      I' = { I with op := .store (.i32 w) pointer } ∧ (w.toNat : Int) = target % 2 ^ 32) ∧
    (PatchManifest.listed entries kind v.toInt32 = none → I' = I)

/-- No length, and listed or zero. -/
def Arrives (entries : List ManifestEntry) (I : Instruction) : Prop :=
  ∀ kind v pointer, patchKind I = some kind → I.op = .store (.i32 v) pointer →
    kind ≠ .length ∧ (v = 0 ∨ (PatchManifest.listed entries kind v.toInt32).isSome)

theorem toNat_ofInt (target : Int) :
    ((Int32.ofInt target).toUInt32.toNat : Int) = target % 2 ^ 32 := by
  show ((BitVec.ofInt 32 target).toNat : Int) = _
  rw [BitVec.toNat_ofInt, Int.toNat_of_nonneg]
  · rfl
  · exact Int.emod_nonneg _ (by decide)

theorem fits64_i32 (v : UInt32) : Fits64 v.toInt32.toInt := by
  have hlow := v.toInt32.le_toInt
  have hhigh := v.toInt32.toInt_lt
  constructor <;> omega

/-- One store of a 32-bit constant. -/
theorem valueToPatch_i32 {manifest : PatchManifest} {root : List Json} (h : manifest.Holds root)
    (kind : PatchKind) (v : UInt32) :
    valueToPatch (manifest.patches kind) (kind = .length) v.toInt32.toInt =
      let patch := ((PatchManifest.listed (PatchManifest.entriesOf root) kind v.toInt32).map
        Int32.ofInt).getD 0
      if kind = .length then .i16 patch.toUInt32.toUInt16 else .i32 patch.toUInt32 := by
  unfold valueToPatch
  rw [Int32.ofInt_toInt, h]
  simp only [decide_eq_true_eq]

/-- Replacing the stored value by an equal one. -/
theorem store_eq_iff {I : Instruction} {value pointer : Value} (hop : I.op = .store value pointer)
    (value' : Value) : { I with op := .store value' pointer } = I ↔ value' = value := by
  obtain ⟨id, op, metadata⟩ := I
  obtain rfl : op = .store value pointer := hop
  simp

theorem patchedAs_iff {manifest : PatchManifest} {root : List Json} (h : manifest.Holds root)
    {I I' : Instruction} (hI : Rewrites manifest I I') :
    PatchedAs (PatchManifest.entriesOf root) I I' ↔ Arrives (PatchManifest.entriesOf root) I := by
  refine forall_congr' fun kind => forall_congr' fun v => forall_congr' fun pointer =>
    forall_congr' fun hkind => forall_congr' fun hop => ?_
  cases hI with
  | untagged hk => rw [hkind] at hk; cases hk
  | @tagged kind' value pointer' CI hk hop' hCI _ =>
    cases hkind.symm.trans hk
    cases hop.symm.trans hop'
    cases hCI
    rw [valueToPatch_i32 h, store_eq_iff hop]
    cases hlisted : PatchManifest.listed (PatchManifest.entriesOf root) kind v.toInt32 with
    | none =>
      have hzero : (0 : Int32).toUInt32 = v ↔ v = 0 := eq_comm
      by_cases hlength : kind = .length
      · simp [hlength]
      · simpa [hlength] using hzero
    | some target =>
      by_cases hlength : kind = .length
      · simp [hlength]
      · simpa [hlength] using toNat_ofInt target

/-- Exactly when every tagged store of a 32-bit constant becomes what the manifest says:
none of them is a length, and the manifest lists the placeholders that are not zero. The
numbers of a manifest that is read are integers of 64 bits. -/
theorem placeholders_patched_iff {root : Json} {manifest : PatchManifest}
    (hread : PatchManifest.readPatchManifest root = .ok manifest) {M : List Function}
    (hM : ∀ F ∈ M, ∀ I, F.Contains I → patchKind I ≠ none →
      ∃ v pointer, I.op = .store (.i32 v) pointer) :
    ∃ M' didModify, runOnModule root M = .ok (M', didModify) ∧
      (List.Forall₂ (Pointwise (PatchedAs (PatchManifest.entriesOf root.elements))) M M' ↔
        ∀ F ∈ M, ∀ I, F.Contains I → Arrives (PatchManifest.entriesOf root.elements) I) := by
  have hholds := PatchManifest.holds_of_read hread
  have hpatchable : ∀ F ∈ M, ∀ I, F.Contains I → Patchable I := by
    intro F hF I hI
    by_cases hkind : patchKind I = none
    · exact .inl hkind
    · obtain ⟨v, pointer, hop⟩ := hM F hF I hI hkind
      exact .inr ⟨.i32 v, pointer, _, hop, rfl, fits64_i32 v⟩
  obtain ⟨⟨M', didModify⟩, hrun⟩ := (runOnModule_total_iff hread).mpr hpatchable
  have hrel := (runOnModule_ok hread).mp ⟨didModify, hrun⟩
  exact ⟨M', didModify, hrun, forall₂_iff_forall hrel fun F F' hF =>
    hF.iff_forall fun I I' hI => patchedAs_iff hholds hI⟩

/-- One entry, for the placeholders 1, 2 and 3. -/
def sampleManifest : Json :=
  .arr [.obj [("add_placeholder", .num 1), ("size_placeholder", .num 2),
    ("hash_placeholder", .num 3), ("add_target", .num 4096), ("size_target", .num 70000),
    ("hash_target", .num 255)]]

/-- A tagged store. -/
def sampleStore (tag : String) (placeholder : UInt32) : Instruction :=
  ⟨.original 0, .store (.i32 placeholder) (.other 0), [(tag, "")]⟩

/-- An address and a hash that are listed. -/
def sampleFunction : Function := ⟨"f1", [[sampleStore "address" 1, sampleStore "hash" 3]]⟩

theorem placeholders_patched_iff_sample :
    ∃ M' didModify, runOnModule sampleManifest [sampleFunction] = .ok (M', didModify) ∧
      List.Forall₂ (Pointwise (PatchedAs (PatchManifest.entriesOf sampleManifest.elements)))
        [sampleFunction] M' := by
  obtain ⟨manifest, hread⟩ : ∃ manifest,
      PatchManifest.readPatchManifest sampleManifest = .ok manifest := ⟨_, rfl⟩
  have hstores : ∀ F ∈ [sampleFunction], ∀ I, F.Contains I →
      I = sampleStore "address" 1 ∨ I = sampleStore "hash" 3 := by
    intro F hF I hI
    obtain rfl := List.mem_singleton.mp hF
    obtain ⟨block, hblock, hI⟩ := hI
    obtain rfl := List.mem_singleton.mp hblock
    exact List.mem_pair.mp hI
  obtain ⟨M', didModify, hrun, hiff⟩ := placeholders_patched_iff hread fun F hF I hI _ => by
    rcases hstores F hF I hI with rfl | rfl <;> exact ⟨_, _, rfl⟩
  refine ⟨M', didModify, hrun, hiff.mpr fun F hF I hI kind v pointer hkind hop => ?_⟩
  rcases hstores F hF I hI with rfl | rfl
  · cases hkind
    cases hop
    exact ⟨nofun, .inr rfl⟩
  · cases hkind
    cases hop
    exact ⟨nofun, .inr rfl⟩

/-- The listed length is stored with 16 bits, which hold 4464 of 70000; the address that
no entry lists is overwritten with zero. -/
theorem length_truncated_unlisted_zeroed :
    runOnModule sampleManifest [⟨"f1", [[sampleStore "length" 2, sampleStore "address" 7]]⟩] =
      .ok ([⟨"f1", [[{ sampleStore "length" 2 with op := .store (.i16 4464) (.other 0) },
        sampleStore "address" 0]]⟩], true) ∧
    ¬ PatchedAs (PatchManifest.entriesOf sampleManifest.elements) (sampleStore "length" 2)
      { sampleStore "length" 2 with op := .store (.i16 4464) (.other 0) } ∧
    ¬ PatchedAs (PatchManifest.entriesOf sampleManifest.elements) (sampleStore "address" 7)
      (sampleStore "address" 0) := by
  refine ⟨rfl, fun h => ?_, fun h => ?_⟩
  · obtain ⟨w, hw, -⟩ := (h .length 2 (.other 0) rfl rfl).1 70000 rfl
    have hop := congrArg Instruction.op hw
    cases hop
  · have hop := congrArg Instruction.op ((h .address 7 (.other 0) rfl rfl).2 rfl)
    simp [sampleStore] at hop

end SCPatchPass

end SelfChecksumming
