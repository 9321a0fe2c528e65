import SelfChecksumming.EndToEnd

/-! # The manifest

The records that are dumped next to what was written. The loop is run once more with
the calls of `patch_placeholder` noted; they show that a mismatch is recorded with the
size of the function that was found, and patched with zero. -/
namespace SelfChecksumming
open Library

/-! ## The loop with its calls noted -/

/-- `patch_placeholder`, with its placeholder and the number it packs noted. -/
def tracedPlaceholder (addresses : SortedMap Int (List Nat)) (placeholderValue : Int)
    (targetValue : Nat) (st : PatchState × List (Int × Nat)) :
    Except (Fault × PatchState) (PatchState × List (Int × Nat)) := do
  let done ← patchPlaceholder addresses placeholderValue targetValue st.1
  return (done, st.2 ++ [(placeholderValue, targetValue)])

/-- `patchGuard`, with the calls of each iteration noted. -/
def tracedGuard (r2 : Radare) (addresses : SortedMap Int (List Nat))
    (st : PatchState × List (List (Int × Nat))) (patch : Patch) :
    Except (Fault × PatchState) (PatchState × List (List (Int × Nat))) := do
  let st₁ ← tracedPlaceholder addresses patch.addPlaceholder patch.addTarget (st.1, [])
  let sizeTarget := if patch.dummy then 0 else patch.sizeTarget
  let st₂ ← tracedPlaceholder addresses patch.sizePlaceholder sizeTarget st₁
  let expectedHash ←
    (precomputeHash r2 st₂.1.mm.bytes patch.addTarget patch.sizeTarget).mapError (·, st₂.1)
  let expectedHash := if patch.dummy then 0 else expectedHash
  let patch := { patch with hashTarget := expectedHash }
  let st₃ ← tracedPlaceholder addresses patch.hashPlaceholder expectedHash st₂
  return ({ st₃.1 with dumpPatch := st₃.1.dumpPatch ++ [patch] }, st.2 ++ [st₃.2])

theorem tracedPlaceholder_ok {addresses : SortedMap Int (List Nat)} {v : Int} {target : Nat}
    {st st' : PatchState × List (Int × Nat)} :
    tracedPlaceholder addresses v target st = .ok st' ↔
      ∃ done, patchPlaceholder addresses v target st.1 = .ok done ∧
        st' = (done, st.2 ++ [(v, target)]) := by
  rw [tracedPlaceholder, bind_eq_ok]
  exact exists_congr fun done => and_congr_right fun _ =>
    ⟨fun h => (Except.ok.inj h).symm, fun h => congrArg Except.ok h.symm⟩

/-- The trace of a line is what its record says was written. -/
theorem tracedGuard_ok {r2 : Radare} {addresses : SortedMap Int (List Nat)} {st st' : PatchState}
    {patch : Patch} (calls : List (List (Int × Nat)))
    (h : patchGuard r2 addresses st patch = .ok st') :
    ∃ r, st'.dumpPatch = st.dumpPatch ++ [r] ∧
      tracedGuard r2 addresses (st, calls) patch = .ok (st', calls ++ [r.fields]) := by
  obtain ⟨st₁, h₁, h⟩ := bind_eq_ok.mp h
  obtain ⟨st₂, h₂, h⟩ := bind_eq_ok.mp h
  obtain ⟨computed, hc, h⟩ := bind_eq_ok.mp h
  obtain ⟨st₃, h₃, h⟩ := bind_eq_ok.mp h
  cases h
  have hdump : st₃.dumpPatch = st.dumpPatch := by
    obtain ⟨-, -, -, -, hd₁⟩ := patchPlaceholder_ok h₁
    obtain ⟨-, -, -, -, hd₂⟩ := patchPlaceholder_ok h₂
    obtain ⟨-, -, -, -, hd₃⟩ := patchPlaceholder_ok h₃
    rw [hd₃, hd₂, hd₁]
  refine ⟨_, congrArg (· ++ _) hdump, ?_⟩
  refine bind_eq_ok.mpr ⟨_, tracedPlaceholder_ok.mpr ⟨st₁, h₁, rfl⟩, ?_⟩
  refine bind_eq_ok.mpr ⟨_, tracedPlaceholder_ok.mpr ⟨st₂, h₂, rfl⟩, ?_⟩
  refine bind_eq_ok.mpr ⟨computed, hc, ?_⟩
  exact bind_eq_ok.mpr ⟨_, tracedPlaceholder_ok.mpr ⟨st₃, h₃, rfl⟩, rfl⟩

/-- The loop, traced. -/
theorem tracedGuards_ok {r2 : Radare} {addresses : SortedMap Int (List Nat)} :
    ∀ (patches : List Patch) {st st' : PatchState} (calls : List (List (Int × Nat))),
      patches.foldlM (patchGuard r2 addresses) st = .ok st' →
      ∃ records, st'.dumpPatch = st.dumpPatch ++ records ∧
        patches.foldlM (tracedGuard r2 addresses) (st, calls) =
          .ok (st', calls ++ records.map Patch.fields) := by
  intro patches
  induction patches with
  | nil =>
    intro st st' calls h
    obtain rfl : st = st' := Except.ok.inj h
    exact ⟨[], by simp, by simp; rfl⟩
  | cons patch patches ih =>
    intro st st' calls h
    rw [List.foldlM_cons] at h
    obtain ⟨st₁, hpatch, hrest⟩ := bind_eq_ok.mp h
    obtain ⟨r, hr, htraced⟩ := tracedGuard_ok calls hpatch
    obtain ⟨records, hrecords, hrun⟩ := ih (calls ++ [r.fields]) hrest
    refine ⟨r :: records, ?_, ?_⟩
    · rw [hrecords, hr, List.append_assoc, List.singleton_append]
    · rw [List.foldlM_cons, htraced]
      refine hrun.trans ?_
      rw [List.append_assoc, List.singleton_append, List.map_cons]

/-- `patchBinary` with the calls of its loop. -/
def tracedBinary (r2 : Radare) (order : DictOrder) (binary : List UInt8) (patches : List Patch) :
    Except (Fault × List UInt8) (PatchState × List (List (Int × Nat))) :=
  if binary = [] then .error (.exception "ValueError: cannot mmap an empty file", binary)
  else
    match findAllPlaceholders order ⟨binary, 0⟩ patches with
    | .error fault => .error (fault, binary)
    | .ok found =>
      match patches.foldlM (tracedGuard r2 found.2) ({ mm := found.1 }, []) with
      | .error stop => .error (stop.1, stop.2.mm.bytes)
      | .ok st => .ok st

/-- A run that completes has made the calls that its records stand for. -/
theorem tracedBinary_ok {r2 : Radare} {order : DictOrder} {binary : List UInt8}
    {patches : List Patch} {st : PatchState} (h : patchBinary r2 order binary patches = .ok st) :
    tracedBinary r2 order binary patches = .ok (st, st.dumpPatch.map Patch.fields) := by
  unfold patchBinary at h
  unfold tracedBinary
  by_cases hne : binary = []
  · rw [if_pos hne] at h
    cases h
  rw [if_neg hne] at h ⊢
  cases hfind : findAllPlaceholders order ⟨binary, 0⟩ patches with
  | error fault => rw [hfind] at h; cases h
  | ok found =>
    rw [hfind] at h
    cases hloop : patches.foldlM (patchGuard r2 found.2) { mm := found.1 } with
    | error stop => simp only [hloop] at h; cases h
    | ok st' =>
      simp only [hloop] at h
      obtain rfl : st' = st := Except.ok.inj h
      obtain ⟨records, hrecords, hrun⟩ := tracedGuards_ok patches [] hloop
      simp only [hrun, hrecords, List.nil_append]

/-! ## What the entries say -/

/-- An entry of the manifest, read as what was written for its guard. -/
def Patch.entry (r : Patch) : List (Int × Nat) :=
  [(r.addPlaceholder, r.addTarget), (r.sizePlaceholder, r.sizeTarget),
    (r.hashPlaceholder, r.hashTarget)]

theorem Patch.fields_eq_entry {r : Patch} :
    r.fields = r.entry ↔ (r.dummy = true → r.sizeTarget = 0) := by
  unfold fields entry writtenSize
  cases r.dummy <;> simp [eq_comm]

/-- The entries say what was written if and only if no mismatch has a size. -/
theorem entries_iff {patches records : List Patch}
    (h : List.Forall₂ Patch.SameBut patches records) :
    records.map Patch.fields = records.map Patch.entry ↔
      ∀ p ∈ patches, p.dummy = true → p.sizeTarget = 0 := by
  induction h with
  | nil => simp
  | @cons p r _ _ hpr _ ih =>
    have hkeep : (r.dummy = true → r.sizeTarget = 0) ↔ (p.dummy = true → p.sizeTarget = 0) := by
      rw [hpr]
    rw [List.map_cons, List.map_cons, List.cons.injEq, ih, Patch.fields_eq_entry, hkeep,
      List.forall_mem_cons]

section Patched

variable {r2 : Radare} {order : DictOrder} {binary : List UInt8} {patches : List Patch}
  {st : PatchState}

/-- Where the windows lie apart, they hold what truthful entries say. -/
theorem Patched.entry_window (h : Patched r2 order binary patches st)
    (hapart : WindowsApart binary patches) (hnd : (allPlaceholders patches).Nodup) {r : Patch}
    (hr : r ∈ st.dumpPatch) (htrue : r.fields = r.entry) {field : Int × Nat}
    (hfield : field ∈ r.entry) {i : Nat} (hi : i ∈ occurrences binary field.1) :
    readAt st.mm.bytes i 4 = littleEndian 4 field.2 := by
  have hvalues : (st.dumpPatch.flatMap Patch.fields).map Prod.fst = allPlaceholders patches := by
    rw [fields_fst, sameBut_placeholders h.records]
  have hmem : field ∈ st.dumpPatch.flatMap Patch.fields :=
    List.mem_flatMap.mpr ⟨r, hr, htrue ▸ hfield⟩
  have hall : field.1 ∈ allPlaceholders patches :=
    hvalues ▸ List.mem_map_of_mem (f := Prod.fst) hmem
  obtain ⟨t, hlast, hread⟩ := h.window hapart hall hi
  rw [lastTarget_of_nodup (by rw [hvalues]; exact hnd) hmem] at hlast
  rwa [Option.some.inj hlast]

/-- A truthful entry of a scheduled guard gives the checksum of the range it names. -/
theorem Patched.entry_checksum {Fn : Type} {layout : Layout Fn} {functions : List Fn}
    {loader : Nat → Nat} {guards : List (Guard Fn)} (h : Patched r2 order binary patches st)
    (hlayout : layout.Describes functions binary loader r2)
    (hsched : layout.Schedules functions binary guards)
    (hfits : List.Forall₂ layout.Fits guards patches) {r : Patch} (hr : r ∈ st.dumpPatch)
    (htrue : r.fields = r.entry) :
    (xorBytes (bytesFrom (loadedAt loader st.mm.bytes) r.addTarget r.sizeTarget)).toNat =
      r.hashTarget := by
  obtain ⟨n, hn', rfl⟩ := List.getElem_of_mem hr
  have hrecords := fits_records hfits h.records
  have hn : n < guards.length := by rw [hrecords.length_eq]; exact hn'
  have hat := List.getElem?_eq_getElem hn'
  cases hd : st.dumpPatch[n].dummy with
  | true =>
    rw [h.hashTarget_dummy hat hd, Patch.fields_eq_entry.mp htrue hd]
    rfl
  | false =>
    obtain ⟨hadd, hsize⟩ := (hrecords.get hn hn').checkee hd
    simp only [List.get_eq_getElem] at hadd hsize
    rw [h.hashTarget_eq hat hd hadd hsize (h.hashed hlayout hsched hfits hn hn'), hadd, hsize,
      hlayout.bytesFrom_eq (hsched.mem _ (List.getElem_mem hn)).2 h.length]

end Patched

/-- Exactly when the manifest tells the truth: the entries are the numbers that the run
packed for their guards when no mismatch was found with a size. The patched file then
holds them in the windows of their placeholders, and for scheduled guards the checksum
of the range that an entry names is the hash that it gives. -/
theorem manifest_truthful_iff {r2 : Radare} {order : DictOrder} {binary : List UInt8}
    {guide : List Char} {result : PatchResult}
    (h : dumpPipe r2 order true binary (some guide) = .ok result) :
    ∃ patches st log manifest, readGuide r2 guide = .ok patches ∧
      tracedBinary r2 order binary patches = .ok (st, log) ∧ result.binary = st.mm.bytes ∧
      result.manifest = some manifest ∧
      (log = manifest.map Patch.entry ↔ ∀ p ∈ patches, p.dummy = true → p.sizeTarget = 0) ∧
      (log = manifest.map Patch.entry →
        ((allPlaceholders patches).Nodup → WindowsApart binary patches → ∀ r ∈ manifest,
          ∀ field ∈ r.entry, ∀ i ∈ occurrences binary field.1,
            readAt result.binary i 4 = littleEndian 4 field.2) ∧
        ∀ (Fn : Type) (layout : Layout Fn) (functions : List Fn) (loader : Nat → Nat)
          (guards : List (Guard Fn)), layout.Describes functions binary loader r2 →
          layout.Schedules functions binary guards → List.Forall₂ layout.Fits guards patches →
          ∀ r ∈ manifest, (xorBytes (bytesFrom (loadedAt loader result.binary) r.addTarget
            r.sizeTarget)).toNat = r.hashTarget) := by
  obtain ⟨patches, st, hread, hpatch, rfl⟩ := dumpPipe_ok.mp h
  have hp := patchBinary_ok hpatch
  refine ⟨patches, st, _, _, hread, tracedBinary_ok hpatch, rfl, rfl, entries_iff hp.records,
    fun htrue => ?_⟩
  have hentry : ∀ r ∈ st.dumpPatch, r.fields = r.entry := List.map_inj_left.mp htrue
  constructor
  · intro hnd hapart r hr field hfield i hi
    exact hp.entry_window hapart hnd hr (hentry r hr) hfield hi
  · intro Fn layout functions loader guards hlayout hsched hfits r hr
    exact hp.entry_checksum hlayout hsched hfits hr (hentry r hr)

/-- One entry is of a mismatch with a function of size zero. -/
theorem manifest_truthful_iff_sample : ∃ result manifest,
    dumpPipe (mismatchRadare 0) sampleOrder true sampleBinary (some mismatchGuide) = .ok result ∧
    result.manifest = some manifest ∧ (∃ r ∈ manifest, r.dummy = true) ∧
    ∀ r ∈ manifest, ∀ field ∈ r.entry, ∀ i ∈ occurrences sampleBinary field.1,
      readAt result.binary i 4 = littleEndian 4 field.2 := by
  obtain ⟨result, hresult⟩ : ∃ result, dumpPipe (mismatchRadare 0) sampleOrder true sampleBinary
      (some mismatchGuide) = .ok result := ⟨_, rfl⟩
  obtain ⟨patches, st, log, manifest, hread, -, -, hmanifest, hiff, hholds⟩ :=
    manifest_truthful_iff hresult
  have hguide : readGuide (mismatchRadare 0) mismatchGuide = .ok (mismatchPatches 0) := rfl
  obtain rfl : patches = mismatchPatches 0 := Except.ok.inj (hread.symm.trans hguide)
  have hapart : WindowsApart sampleBinary (mismatchPatches 0) := by
    unfold WindowsApart
    decide +kernel
  refine ⟨result, manifest, hresult, hmanifest, ?_,
    (hholds (hiff.mpr (by decide))).1 (by decide) hapart⟩
  have hdummy : result.manifest.getD [] |>.any Patch.dummy := by
    cases hresult
    decide +kernel
  rw [hmanifest] at hdummy
  simpa using hdummy

/-- The same guide, with a mismatch of size twelve: it is patched with size zero and
recorded with size twelve. -/
theorem mismatch_recorded_with_size : ∃ result r₁ r₂,
    dumpPipe (mismatchRadare 12) sampleOrder true sampleBinary (some mismatchGuide) = .ok result ∧
    result.manifest = some [r₁, r₂] ∧ r₂.dummy = true ∧ r₂.sizeTarget = 12 ∧
    occurrences sampleBinary r₂.sizePlaceholder = [18] ∧
    readAt result.binary 18 4 = littleEndian 4 0 := by
  refine ⟨_, ⟨222222222, 555555555, 444444444, 4096, 2, 3, false⟩,
    ⟨222222223, 555555556, 444444445, 4110, 12, 0, true⟩, rfl, ?_, rfl, rfl, ?_, ?_⟩
  · decide +kernel
  · decide +kernel
  · decide +kernel

end SelfChecksumming
