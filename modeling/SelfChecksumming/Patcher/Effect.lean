import SelfChecksumming.Patcher.Patching
import Mathlib.Data.List.Nodup

/-! # The patched file

Where the windows of the placeholders lie apart, each of them ends up with the
target of the last field that uses its value, and nothing else changes. -/
namespace SelfChecksumming
open Library

/-! ## The values of a guide -/

def Patch.placeholders (p : Patch) : List Int :=
  [p.addPlaceholder, p.sizePlaceholder, p.hashPlaceholder]

/-- The placeholder values in the order of the lines. -/
def allPlaceholders (patches : List Patch) : List Int := patches.flatMap Patch.placeholders

theorem placeholderValues_perm (order : DictOrder) (patches : List Patch) :
    (placeholderValues order patches).Perm (allPlaceholders patches) :=
  List.Perm.flatMap_left patches fun p _ => order.perm.map p.value

theorem fields_fst (patches : List Patch) :
    (patches.flatMap Patch.fields).map Prod.fst = allPlaceholders patches := by
  rw [List.map_flatMap]
  rfl

theorem sameBut_placeholders {patches records : List Patch}
    (h : List.Forall₂ Patch.SameBut patches records) :
    allPlaceholders records = allPlaceholders patches := by
  induction h with
  | nil => rfl
  | cons hpr _ ih =>
    rw [allPlaceholders, List.flatMap_cons, allPlaceholders, List.flatMap_cons]
    rw [allPlaceholders, allPlaceholders] at ih
    rw [ih, hpr]
    rfl

/-! ## A completed run -/

/-- The addresses that the search records. -/
def foundAt (order : DictOrder) (binary : List UInt8) (patches : List Patch) : Int → List Nat :=
  addressesOf binary (placeholderValues order patches)

theorem mem_foundAt {order : DictOrder} {binary : List UInt8} {patches : List Patch} {v : Int}
    {i : Nat} : i ∈ foundAt order binary patches v ↔
      v ∈ allPlaceholders patches ∧ i ∈ occurrences binary v := by
  rw [foundAt, mem_addressesOf, (placeholderValues_perm order patches).mem_iff]

theorem Searched.recorded {bytes : List UInt8} {values : List Int}
    {st : Mmap × SortedMap Int (List Nat)} (h : Searched bytes values st) :
    recorded st.2 = addressesOf bytes values := by
  funext v
  rw [SelfChecksumming.recorded, h.found v]
  by_cases hv : v ∈ values
  · rw [if_pos hv, Option.getD_some]
  · rw [if_neg hv, Option.getD_none, addressesOf, List.count_eq_zero_of_not_mem hv]
    rfl

/-- What a run that completes has found, written and recorded. -/
structure Patched (r2 : Radare) (order : DictOrder) (binary : List UInt8) (patches : List Patch)
    (st : PatchState) : Prop where
  range : ∀ v ∈ allPlaceholders patches, 0 ≤ v ∧ v.toNat < 2 ^ 32
  occurs : ∀ v ∈ allPlaceholders patches, occurrences binary v ≠ []
  records : List.Forall₂ Patch.SameBut patches st.dumpPatch
  written : st.mm.bytes =
    writeAll binary (patchWrites (foundAt order binary patches) st.dumpPatch)
  hashes : ∀ k r, st.dumpPatch[k]? = some r → hashOf r2 (writeAll binary
    (writesBeforeHash (foundAt order binary patches) (st.dumpPatch.take k) r)) r = .ok r.hashTarget
  total : st.totalPatches =
    ((allPlaceholders patches).map fun v => (foundAt order binary patches v).length).sum

theorem patchBinary_ok {r2 : Radare} {order : DictOrder} {binary : List UInt8}
    {patches : List Patch} {st : PatchState} (h : patchBinary r2 order binary patches = .ok st) :
    Patched r2 order binary patches st := by
  unfold patchBinary at h
  by_cases hb : binary = []
  · rw [if_pos hb] at h
    cases h
  rw [if_neg hb] at h
  cases hfind : findAllPlaceholders order ⟨binary, 0⟩ patches with
  | error fault => rw [hfind] at h; cases h
  | ok found =>
    rw [hfind] at h
    have hs := findAllPlaceholders_ok hfind
    cases hloop : patches.foldlM (patchGuard r2 found.2) { mm := found.1 } with
    | error stop => simp only [hloop] at h; cases h
    | ok st' =>
      simp only [hloop] at h
      cases h
      have hp := patchGuards_progress hloop
      have hmem : ∀ v, v ∈ allPlaceholders patches → v ∈ placeholderValues order patches :=
        fun v => (placeholderValues_perm order patches).mem_iff.mpr
      have hrec : recorded found.2 = foundAt order binary patches := hs.recorded
      have hbytes : found.1.bytes = binary := by rw [hs.mm]
      refine ⟨fun v hv => hs.range v (hmem v hv), fun v hv => hs.occurs v (hmem v hv), hp.records,
        ?_, ?_, ?_⟩
      · rw [hp.written, hrec, hbytes]
      · intro k r hk
        rw [← hrec, ← hbytes]
        exact hp.hashes k r hk
      · rw [hp.total, hrec]
        rfl

/-- The run completes on a file in which all values of the guide occur, when the
targets are 32-bit numbers and radare2 answers. -/
theorem patchBinary_total (r2 : Radare) (order : DictOrder) {binary : List UInt8}
    {patches : List Patch} (hne : binary ≠ [])
    (hrange : ∀ v ∈ allPlaceholders patches, 0 ≤ v ∧ v.toNat < 2 ^ 32)
    (hocc : ∀ v ∈ allPlaceholders patches, occurrences binary v ≠ [])
    (htargets : ∀ p ∈ patches, p.addTarget < 2 ^ 32 ∧ p.sizeTarget < 2 ^ 32)
    (hanswers : ∀ file : List UInt8, file.length = binary.length → ∀ p ∈ patches,
      ∃ bytes, r2.p6e file p.sizeTarget p.addTarget = .ok bytes) :
    ∃ st, patchBinary r2 order binary patches = .ok st := by
  have hmem : ∀ {v}, v ∈ placeholderValues order patches ↔ v ∈ allPlaceholders patches :=
    (placeholderValues_perm order patches).mem_iff
  obtain ⟨found, hfind⟩ := findAllPlaceholders_total order
    (fun v hv => hrange v (hmem.mp hv)) (fun v hv => hocc v (hmem.mp hv))
  have hs := findAllPlaceholders_ok hfind
  have hstep : ∀ p ∈ patches, ∀ st : PatchState, st.mm.bytes.length = binary.length →
      ∃ st', patchGuard r2 found.2 st p = .ok st' ∧ st'.mm.bytes.length = binary.length := by
    intro p hp st hlen
    refine patchGuard_total (fun v hv => ?_) (htargets p hp).1 (htargets p hp).2
      (fun file hfile => hanswers file hfile p hp) hlen
    have hall : v ∈ placeholderValues order patches :=
      hmem.mpr (List.mem_flatMap.mpr ⟨p, hp, hv⟩)
    refine ⟨_, by rw [hs.found v, if_pos hall], fun addr haddr => ?_⟩
    exact occurrence_fits (mem_addressesOf.mp haddr).2
  obtain ⟨st, hloop, -⟩ := foldlM_total _ patches hstep { mm := found.1 } (by rw [hs.mm])
  refine ⟨st, ?_⟩
  unfold patchBinary
  rw [if_neg hne, hfind]
  simp only [hloop]

/-- A run of the script completes when it can read the guide and patch the file. -/
theorem dumpPipe_ok {r2 : Radare} {order : DictOrder} {dumpMode : Bool} {binary : List UInt8}
    {guide : List Char} {result : PatchResult} :
    dumpPipe r2 order dumpMode binary (some guide) = .ok result ↔
      ∃ patches st, readGuide r2 guide = .ok patches ∧
        patchBinary r2 order binary patches = .ok st ∧
        result = ⟨st.mm.bytes, patchReport (patches.length * 3) st.totalPatches,
          if dumpMode then some st.dumpPatch else none⟩ := by
  constructor
  · intro h
    unfold dumpPipe at h
    cases hread : readGuide r2 guide with
    | error fault => simp only [hread] at h; cases h
    | ok patches =>
      cases hpatch : patchBinary r2 order binary patches with
      | error stop => simp only [hread, hpatch] at h; cases h
      | ok st =>
        simp only [hread, hpatch] at h
        exact ⟨patches, st, rfl, hpatch, (Except.ok.inj h).symm⟩
  · intro h
    obtain ⟨patches, st, hread, hpatch, rfl⟩ := h
    unfold dumpPipe
    simp only [hread, hpatch]

/-! ## The windows -/

/-- Two windows at which placeholder values of the guide stand do not overlap. -/
def WindowsApart (binary : List UInt8) (patches : List Patch) : Prop :=
  ∀ v ∈ allPlaceholders patches, ∀ w ∈ allPlaceholders patches,
    ∀ i ∈ occurrences binary v, ∀ j ∈ occurrences binary w, i ≠ j → i + 4 ≤ j ∨ j + 4 ≤ i

/-- What the last field that uses a value writes. -/
def lastTarget (fields : List (Int × Nat)) (v : Int) : Option Nat :=
  (fields.reverse.find? fun field => field.1 = v).map Prod.snd

theorem lastTarget_of_mem (fields : List (Int × Nat)) {v : Int} (h : v ∈ fields.map Prod.fst) :
    ∃ pre t post, fields = pre ++ (v, t) :: post ∧ (∀ field ∈ post, field.1 ≠ v) ∧
      lastTarget fields v = some t := by
  cases hfind : fields.reverse.find? fun field => field.1 = v with
  | none =>
    obtain ⟨field, hmem, rfl⟩ := List.mem_map.mp h
    exact absurd (List.find?_eq_none.mp hfind field (List.mem_reverse.mpr hmem)) (by simp)
  | some field =>
    obtain ⟨hv, post, pre, hsplit, hpost⟩ := List.find?_eq_some_iff_append.mp hfind
    obtain ⟨w, t⟩ := field
    obtain rfl : w = v := by simpa using hv
    refine ⟨pre.reverse, t, post.reverse, ?_, ?_, ?_⟩
    · rw [← List.reverse_reverse fields, hsplit]
      simp
    · intro field hfield
      simpa using hpost field (List.mem_reverse.mp hfield)
    · rw [lastTarget, hfind]
      rfl

/-- Where every value is used once, its field is the last one. -/
theorem lastTarget_of_nodup {fields : List (Int × Nat)} (hnd : (fields.map Prod.fst).Nodup)
    {v : Int} {t : Nat} (h : (v, t) ∈ fields) : lastTarget fields v = some t := by
  obtain ⟨pre, t', post, hsplit, -, hlast⟩ :=
    lastTarget_of_mem fields (List.mem_map_of_mem (f := Prod.fst) h)
  have hmem : (v, t') ∈ fields := by rw [hsplit]; simp
  have heq : (v, t) = (v, t') := List.inj_on_of_nodup_map hnd h hmem rfl
  rw [hlast, (Prod.mk.inj heq).2]

variable {r2 : Radare} {order : DictOrder} {binary : List UInt8} {patches : List Patch}
  {st : PatchState}

theorem fieldWrites_fits (order : DictOrder) (binary : List UInt8) (patches : List Patch)
    (field : Int × Nat) :
    Fits binary.length 4 (fieldWrites (foundAt order binary patches) field) :=
  writesAt_fits _ fun _ hi => occurrence_fits (mem_foundAt.mp hi).2

theorem fields_fit (order : DictOrder) (binary : List UInt8) (patches : List Patch)
    (fields : List (Int × Nat)) :
    Fits binary.length 4 (fields.flatMap (fieldWrites (foundAt order binary patches))) := by
  intro w hw
  obtain ⟨field, -, hw⟩ := List.mem_flatMap.mp hw
  exact fieldWrites_fits order binary patches field w hw

theorem writesBeforeHash_fits (order : DictOrder) (binary : List UInt8) (patches done : List Patch)
    (p : Patch) :
    Fits binary.length 4 (writesBeforeHash (foundAt order binary patches) done p) :=
  ((fields_fit order binary patches _).append (fieldWrites_fits order binary patches _)).append
    (fieldWrites_fits order binary patches _)

/-- One value stands at an index. -/
theorem occurrences_inj {v w : Int} {i : Nat} (hv : 0 ≤ v ∧ v.toNat < 2 ^ 32)
    (hw : 0 ≤ w ∧ w.toNat < 2 ^ 32) (hi : i ∈ occurrences binary v)
    (hj : i ∈ occurrences binary w) : v = w := by
  have hle := (mem_occurrences.mp hi).symm.trans (mem_occurrences.mp hj)
  have hnat := littleEndian_inj (by omega) (by omega) hle
  omega

/-- A window holds what the last field with its value writes. -/
theorem window_of_last (order : DictOrder)
    (hrange : ∀ v ∈ allPlaceholders patches, 0 ≤ v ∧ v.toNat < 2 ^ 32)
    (hapart : WindowsApart binary patches) (pre : List (Int × Nat)) {v : Int} (t : Nat)
    {post : List (Int × Nat)} (hpost : ∀ field ∈ post, field.1 ≠ v) {i : Nat}
    (hi : i ∈ foundAt order binary patches v) :
    readAt (writeAll binary ((pre ++ (v, t) :: post).flatMap
      (fieldWrites (foundAt order binary patches)))) i 4 = littleEndian 4 t := by
  obtain ⟨before, behind, hat⟩ := List.append_of_mem hi
  obtain ⟨hv, hiv⟩ := mem_foundAt.mp hi
  -- the writes with the one into the window singled out
  have hwrites : (pre ++ (v, t) :: post).flatMap (fieldWrites (foundAt order binary patches)) =
      (pre.flatMap (fieldWrites (foundAt order binary patches)) ++ writesAt before t) ++
        (i, littleEndian 4 t) :: (writesAt behind t ++
          post.flatMap (fieldWrites (foundAt order binary patches))) := by
    rw [List.flatMap_append, List.flatMap_cons, fieldWrites, hat, writesAt,
      List.map_append, List.map_cons, writesAt, writesAt]
    simp
  have hfits := fields_fit order binary patches (pre ++ (v, t) :: post)
  rw [hwrites] at hfits ⊢
  refine readAt_writeAll_last rfl hfits fun w hw => ?_
  rcases List.mem_append.mp hw with hw | hw
  · obtain ⟨j, hj, rfl⟩ := List.mem_map.mp hw
    have hjf : j ∈ foundAt order binary patches v := by
      rw [hat]
      exact List.mem_append_right _ (List.mem_cons_of_mem _ hj)
    have hjv := (mem_foundAt.mp hjf).2
    by_cases hij : i = j
    · exact .inl (by rw [hij])
    · exact .inr (hapart v hv v hv i hiv j hjv hij)
  · obtain ⟨field, hfield, hw⟩ := List.mem_flatMap.mp hw
    obtain ⟨j, hj, rfl⟩ := List.mem_map.mp hw
    obtain ⟨hf, hj⟩ := mem_foundAt.mp hj
    refine .inr (hapart v hv field.1 hf i hiv j hj fun hij => hpost field hfield ?_)
    exact occurrences_inj (hrange field.1 hf) (hrange v hv) hj (hij ▸ hiv)

/-- A window holds the target of the last field with its value. -/
theorem Patched.window (h : Patched r2 order binary patches st)
    (hapart : WindowsApart binary patches) {v : Int} (hv : v ∈ allPlaceholders patches) {i : Nat}
    (hi : i ∈ occurrences binary v) :
    ∃ t, lastTarget (st.dumpPatch.flatMap Patch.fields) v = some t ∧
      readAt st.mm.bytes i 4 = littleEndian 4 t := by
  have hvalues : (st.dumpPatch.flatMap Patch.fields).map Prod.fst = allPlaceholders patches := by
    rw [fields_fst, sameBut_placeholders h.records]
  obtain ⟨pre, t, post, hsplit, hpost, hlast⟩ :=
    lastTarget_of_mem (st.dumpPatch.flatMap Patch.fields) (hvalues ▸ hv)
  refine ⟨t, hlast, ?_⟩
  rw [h.written, patchWrites, hsplit]
  exact window_of_last order h.range hapart pre t hpost (mem_foundAt.mpr ⟨hv, hi⟩)

/-- What lies outside of all windows is what it was. -/
theorem Patched.outside (h : Patched r2 order binary patches st) {k : Nat}
    (hk : ∀ v ∈ allPlaceholders patches, ∀ i ∈ occurrences binary v, k < i ∨ i + 4 ≤ k) :
    st.mm.bytes[k]? = binary[k]? := by
  rw [h.written]
  refine writeAll_getElem?_of_outside rfl (fields_fit order binary patches _) fun w hw => ?_
  obtain ⟨field, -, hw⟩ := List.mem_flatMap.mp hw
  obtain ⟨i, hi, rfl⟩ := List.mem_map.mp hw
  obtain ⟨hv, hi⟩ := mem_foundAt.mp hi
  exact hk field.1 hv i hi

/-- A mismatch is recorded with the hash zero. -/
theorem Patched.hashTarget_dummy (h : Patched r2 order binary patches st) {k : Nat} {r : Patch}
    (hr : st.dumpPatch[k]? = some r) (hdummy : r.dummy = true) : r.hashTarget = 0 := by
  obtain ⟨bytes, -, hhash⟩ := hashOf_ok.mp (h.hashes k r hr)
  rw [hhash, if_pos hdummy]

/-- Any other line is recorded with the checksum of what radare2 showed of the file. -/
theorem Patched.hashTarget_eq (h : Patched r2 order binary patches st) {k : Nat} {r : Patch}
    (hr : st.dumpPatch[k]? = some r) (hdummy : r.dummy = false) {offset size : Nat}
    (hadd : r.addTarget = offset) (hsize : r.sizeTarget = size) {bytes : List UInt8}
    (hbytes : r2.p6e (writeAll binary (writesBeforeHash (foundAt order binary patches)
      (st.dumpPatch.take k) r)) size offset = .ok bytes) :
    r.hashTarget = (xorBytes bytes).toNat := by
  subst hadd hsize
  obtain ⟨bytes', hbytes', hhash⟩ := hashOf_ok.mp (h.hashes k r hr)
  obtain rfl : bytes = bytes' := Except.ok.inj (hbytes.symm.trans hbytes')
  rw [hhash, if_neg (by simp [hdummy])]

/-- A range that holds no window of a hash or of the lines behind it keeps the bytes
of which the hash was taken. -/
theorem Patched.settled (h : Patched r2 order binary patches st) {k : Nat} {r : Patch}
    (hr : st.dumpPatch[k]? = some r) {start n : Nat}
    (hout : ∀ v ∈ r.hashPlaceholder :: allPlaceholders (st.dumpPatch.drop (k + 1)),
      ∀ i ∈ occurrences binary v, ∀ j, start ≤ j → j < start + n → j < i ∨ i + 4 ≤ j) :
    readAt st.mm.bytes start n = readAt (writeAll binary
      (writesBeforeHash (foundAt order binary patches) (st.dumpPatch.take k) r)) start n := by
  obtain ⟨hk, hr⟩ := List.getElem?_eq_some_iff.mp hr
  have hsplit : st.dumpPatch = st.dumpPatch.take k ++ r :: st.dumpPatch.drop (k + 1) := by
    rw [← hr, ← List.drop_eq_getElem_cons hk, List.take_append_drop]
  let behind := (r.hashPlaceholder, r.hashTarget) ::
    (st.dumpPatch.drop (k + 1)).flatMap Patch.fields
  have hwrites : patchWrites (foundAt order binary patches) st.dumpPatch =
      writesBeforeHash (foundAt order binary patches) (st.dumpPatch.take k) r ++
        behind.flatMap (fieldWrites (foundAt order binary patches)) := by
    conv_lhs => rw [hsplit]
    simp [patchWrites, writesBeforeHash, behind, Patch.fields]
  have hfits := writesBeforeHash_fits order binary patches (st.dumpPatch.take k) r
  rw [h.written, hwrites, writeAll_append]
  refine readAt_congr fun j hj hj' => ?_
  refine writeAll_getElem?_of_outside (length_writeAll rfl hfits)
    (fields_fit order binary patches behind) fun w hw => ?_
  obtain ⟨field, hfield, hw⟩ := List.mem_flatMap.mp hw
  obtain ⟨i, hi, rfl⟩ := List.mem_map.mp hw
  refine hout field.1 ?_ i (mem_foundAt.mp hi).2 j hj hj'
  rw [← fields_fst]
  exact List.mem_map_of_mem (f := Prod.fst) hfield

theorem Patched.length (h : Patched r2 order binary patches st) :
    st.mm.bytes.length = binary.length := by
  rw [h.written]
  exact length_writeAll rfl (fields_fit order binary patches _)

/-- The effect of a run that completes. The records are the patches of the guide with
the hash that was taken for each, zero for a mismatch; every window at which a value
of the guide stood holds what the last field with that value wrote; the rest of the
file is untouched. -/
theorem patchBinary_effect (r2 : Radare) (order : DictOrder) (binary : List UInt8)
    (patches : List Patch) {st : PatchState} (hapart : WindowsApart binary patches)
    (h : patchBinary r2 order binary patches = .ok st) :
    st.mm.bytes.length = binary.length ∧
      (∀ v ∈ allPlaceholders patches, ∀ i ∈ occurrences binary v,
        ∃ target, lastTarget (st.dumpPatch.flatMap Patch.fields) v = some target ∧
          readAt st.mm.bytes i 4 = littleEndian 4 target) ∧
      (∀ k, (∀ v ∈ allPlaceholders patches, ∀ i ∈ occurrences binary v, k < i ∨ i + 4 ≤ k) →
        st.mm.bytes[k]? = binary[k]?) ∧
      List.Forall₂ Patch.SameBut patches st.dumpPatch ∧
      ∀ k r, st.dumpPatch[k]? = some r → hashOf r2 (writeAll binary
        (writesBeforeHash (foundAt order binary patches) (st.dumpPatch.take k) r)) r =
          .ok r.hashTarget := by
  have hp := patchBinary_ok h
  exact ⟨hp.length, fun v hv i hi => hp.window hapart hv hi, fun k hk => hp.outside hk, hp.records,
    hp.hashes⟩

/-- The patches of the small binary. -/
def samplePatches : List Patch :=
  [{ addPlaceholder := 222222222, sizePlaceholder := 555555555, hashPlaceholder := 444444444
     addTarget := 4096, sizeTarget := 2, dummy := false },
    { addPlaceholder := 222222223, sizePlaceholder := 555555556, hashPlaceholder := 444444445
      addTarget := 4098, sizeTarget := 12, dummy := false }]

theorem patchBinary_effect_sample : ∃ st,
    patchBinary sampleRadare sampleOrder sampleBinary samplePatches = .ok st ∧
      st.mm.bytes.length = 26 ∧
      ∀ k, (∀ v ∈ allPlaceholders samplePatches, ∀ i ∈ occurrences sampleBinary v,
        k < i ∨ i + 4 ≤ k) → st.mm.bytes[k]? = sampleBinary[k]? := by
  obtain ⟨st, hst⟩ : ∃ st, patchBinary sampleRadare sampleOrder sampleBinary samplePatches =
      .ok st := ⟨_, rfl⟩
  have h := patchBinary_effect sampleRadare sampleOrder sampleBinary samplePatches
    (by unfold WindowsApart; decide +kernel) hst
  exact ⟨st, hst, h.1, h.2.2.1⟩

end SelfChecksumming
