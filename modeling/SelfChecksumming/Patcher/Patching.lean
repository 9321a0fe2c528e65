import SelfChecksumming.Library.Checksum
import SelfChecksumming.Patcher.Search
import Mathlib.Algebra.GroupWithZero.Nat

/-! # What the patching loop writes

The loop is a run of four-byte writes: for every line its address, size and hash, at
every index that the search recorded for the placeholder. -/
namespace SelfChecksumming
open Library

/-! ## One placeholder -/

theorem patchAddress_ok {mm mm' : Mmap} {addr : Nat} {data : List UInt8}
    (h : patchAddress mm addr data = .ok mm') :
    mm'.bytes = writeAt mm.bytes addr data ∧ addr + data.length ≤ mm.bytes.length := by
  obtain ⟨mm₁, hseek, hwrite⟩ := bind_eq_ok.mp h
  unfold Mmap.seek at hseek
  unfold Mmap.write at hwrite
  split at hseek
  · cases hseek
    split at hwrite
    · rename_i hfits
      cases hwrite
      exact ⟨rfl, hfits⟩
    · cases hwrite
  · cases hseek

theorem patchAddress_total (mm : Mmap) {addr : Nat} {data : List UInt8}
    (h : addr + data.length ≤ mm.bytes.length) : ∃ mm', patchAddress mm addr data = .ok mm' := by
  have hseek : mm.seek addr = .ok { mm with pos := addr } :=
    if_pos (show addr ≤ mm.bytes.length by omega)
  exact ⟨_, bind_eq_ok.mpr ⟨_, hseek, if_pos h⟩⟩

/-- Four bytes of a target, at each address. -/
def writesAt (addresses : List Nat) (target : Nat) : List (Nat × List UInt8) :=
  addresses.map fun addr => (addr, littleEndian 4 target)

theorem writesAt_fits {size : Nat} {addresses : List Nat} (target : Nat)
    (h : ∀ addr ∈ addresses, addr + 4 ≤ size) : Fits size 4 (writesAt addresses target) := by
  intro w hw
  obtain ⟨addr, haddr, rfl⟩ := List.mem_map.mp hw
  exact ⟨length_littleEndian 4 target, h addr haddr⟩

theorem patchAt_ok {target addr : Nat} {st st' : PatchState}
    (h : patchAt target st addr = .ok st') :
    target < 2 ^ 32 ∧ addr + 4 ≤ st.mm.bytes.length ∧
      st'.mm.bytes = writeAt st.mm.bytes addr (littleEndian 4 target) ∧
      st'.totalPatches = st.totalPatches + 1 ∧ st'.dumpPatch = st.dumpPatch := by
  unfold patchAt at h
  cases hrun : packI target >>= patchAddress st.mm addr with
  | error fault => rw [hrun] at h; cases h
  | ok mm =>
    rw [hrun] at h
    cases h
    obtain ⟨data, hpack, haddr⟩ := bind_eq_ok.mp hrun
    obtain ⟨⟨-, hlt⟩, rfl⟩ := packI_ok hpack
    obtain ⟨hbytes, hfits⟩ := patchAddress_ok haddr
    rw [length_littleEndian] at hfits
    exact ⟨hlt, hfits, hbytes, rfl, rfl⟩

theorem patchAt_total {target addr : Nat} {st : PatchState} (ht : target < 2 ^ 32)
    (haddr : addr + 4 ≤ st.mm.bytes.length) : ∃ st', patchAt target st addr = .ok st' := by
  have hfits : addr + (littleEndian 4 target).length ≤ st.mm.bytes.length := by
    rwa [length_littleEndian]
  obtain ⟨mm, hmm⟩ := patchAddress_total st.mm hfits
  have hpack : packI target = .ok (littleEndian 4 target) :=
    packI_of_lt ⟨Int.natCast_nonneg target, ht⟩
  have hrun : packI target >>= patchAddress st.mm addr = .ok mm :=
    bind_eq_ok.mpr ⟨_, hpack, hmm⟩
  unfold patchAt
  rw [hrun]
  exact ⟨_, rfl⟩

theorem patchPlaceholder_ok {addresses : SortedMap Int (List Nat)} {value : Int} {target : Nat}
    {st st' : PatchState} (h : patchPlaceholder addresses value target st = .ok st') :
    ∃ found, addresses.find? value = some found ∧
      st'.mm.bytes = writeAll st.mm.bytes (writesAt found target) ∧
      st'.totalPatches = st.totalPatches + found.length ∧ st'.dumpPatch = st.dumpPatch := by
  unfold patchPlaceholder at h
  cases hfind : addresses.find? value with
  | none => rw [hfind] at h; cases h
  | some found =>
    rw [hfind] at h
    have hinv := foldlM_invariant
      (fun done (st₁ : PatchState) => st₁.mm.bytes = writeAll st.mm.bytes (writesAt done target) ∧
        st₁.totalPatches = st.totalPatches + done.length ∧ st₁.dumpPatch = st.dumpPatch)
      (fun done addr b b' hb hstep => ?_) found [] ⟨rfl, rfl, rfl⟩ h
    · exact ⟨found, rfl, hinv⟩
    · obtain ⟨hbytes, htotal, hdump⟩ := hb
      obtain ⟨-, -, hbytes', htotal', hdump'⟩ := patchAt_ok hstep
      refine ⟨?_, ?_, hdump'.trans hdump⟩
      · rw [hbytes', hbytes, writesAt, writesAt, List.map_append, writeAll_append]
        rfl
      · rw [htotal', htotal, List.length_append, List.length_singleton, Nat.add_assoc]

theorem patchPlaceholder_total {addresses : SortedMap Int (List Nat)} {value : Int}
    {target size : Nat} {found : List Nat} {st : PatchState}
    (hfind : addresses.find? value = some found) (ht : target < 2 ^ 32)
    (hfits : ∀ addr ∈ found, addr + 4 ≤ size) (hsize : st.mm.bytes.length = size) :
    ∃ st', patchPlaceholder addresses value target st = .ok st' ∧ st'.mm.bytes.length = size := by
  unfold patchPlaceholder
  rw [hfind]
  refine foldlM_total (fun st : PatchState => st.mm.bytes.length = size) found
    (fun addr haddr st hst => ?_) st hsize
  have haddr : addr + 4 ≤ st.mm.bytes.length := by rw [hst]; exact hfits addr haddr
  obtain ⟨st', hst'⟩ := patchAt_total ht haddr
  obtain ⟨-, -, hbytes, -, -⟩ := patchAt_ok hst'
  refine ⟨st', hst', ?_⟩
  rw [hbytes, length_writeAt (by rwa [length_littleEndian]), hst]

/-! ## One line -/

/-- The size that a patch writes. -/
def Patch.writtenSize (p : Patch) : Nat := if p.dummy then 0 else p.sizeTarget

/-- The placeholders of a patch with what is written over them, in turn. -/
def Patch.fields (p : Patch) : List (Int × Nat) :=
  [(p.addPlaceholder, p.addTarget), (p.sizePlaceholder, p.writtenSize),
    (p.hashPlaceholder, p.hashTarget)]

def fieldWrites (addresses : Int → List Nat) (field : Int × Nat) : List (Nat × List UInt8) :=
  writesAt (addresses field.1) field.2

/-- All writes for some patches. -/
def patchWrites (addresses : Int → List Nat) (patches : List Patch) : List (Nat × List UInt8) :=
  (patches.flatMap Patch.fields).flatMap (fieldWrites addresses)

/-- What is written before the hash of a patch is taken. -/
def writesBeforeHash (addresses : Int → List Nat) (done : List Patch) (p : Patch) :
    List (Nat × List UInt8) :=
  patchWrites addresses done ++ fieldWrites addresses (p.addPlaceholder, p.addTarget) ++
    fieldWrites addresses (p.sizePlaceholder, p.writtenSize)

/-- The hash that belongs to a patch, given the file at that moment. It is asked for even
when it is not used. -/
def hashOf (r2 : Radare) (file : List UInt8) (p : Patch) : Except Fault Nat :=
  (precomputeHash r2 file p.addTarget p.sizeTarget).map fun h => if p.dummy then 0 else h

/-- What the script has computed for it. -/
theorem computed_of_hashOf {r2 : Radare} {file : List UInt8} {p : Patch} {hash : Nat}
    (h : hashOf r2 file p = .ok hash) :
    ∃ computed, precomputeHash r2 file p.addTarget p.sizeTarget = .ok computed ∧
      hash = if p.dummy then 0 else computed := by
  unfold hashOf at h
  cases hc : precomputeHash r2 file p.addTarget p.sizeTarget with
  | error fault => rw [hc] at h; cases h
  | ok computed =>
    rw [hc] at h
    exact ⟨computed, rfl, (Except.ok.inj h).symm⟩

theorem stopped_of_hashOf {r2 : Radare} {file : List UInt8} {p : Patch} {fault : Fault}
    (h : hashOf r2 file p = .error fault) :
    precomputeHash r2 file p.addTarget p.sizeTarget = .error fault := by
  unfold hashOf at h
  cases hc : precomputeHash r2 file p.addTarget p.sizeTarget with
  | error fault' => rw [hc] at h; exact h
  | ok computed => rw [hc] at h; cases h

theorem hashOf_ok {r2 : Radare} {file : List UInt8} {p : Patch} {hash : Nat} :
    hashOf r2 file p = .ok hash ↔ ∃ bytes, r2.p6e file p.sizeTarget p.addTarget = .ok bytes ∧
      hash = if p.dummy then 0 else (xorBytes bytes).toNat := by
  unfold hashOf precomputeHash
  cases r2.p6e file p.sizeTarget p.addTarget with
  | error fault => exact ⟨nofun, nofun⟩
  | ok bytes =>
    have hxor : bytes.foldl (fun h b => h ^^^ b.toNat) 0 = (xorBytes bytes).toNat :=
      foldl_xor_toNat bytes
    constructor
    · intro h
      refine ⟨bytes, rfl, ?_⟩
      rw [← hxor]
      exact (Except.ok.inj h).symm
    · rintro ⟨_, hbytes, rfl⟩
      cases hbytes
      rw [← hxor]
      rfl

/-- The recorded addresses of a value, none for other values. -/
def recorded (addresses : SortedMap Int (List Nat)) (value : Int) : List Nat :=
  (addresses.find? value).getD []

theorem patchGuard_ok {r2 : Radare} {addresses : SortedMap Int (List Nat)} {st st' : PatchState}
    {patch : Patch} (h : patchGuard r2 addresses st patch = .ok st') :
    ∃ (file : List UInt8) (hash : Nat),
      file = writeAll st.mm.bytes (fieldWrites (recorded addresses)
          (patch.addPlaceholder, patch.addTarget) ++
        fieldWrites (recorded addresses) (patch.sizePlaceholder, patch.writtenSize)) ∧
      hashOf r2 file patch = .ok hash ∧
      st'.mm.bytes = writeAll file (fieldWrites (recorded addresses)
        (patch.hashPlaceholder, hash)) ∧
      st'.totalPatches = st.totalPatches + (recorded addresses patch.addPlaceholder).length +
        (recorded addresses patch.sizePlaceholder).length +
        (recorded addresses patch.hashPlaceholder).length ∧
      st'.dumpPatch = st.dumpPatch ++ [{ patch with hashTarget := hash }] := by
  obtain ⟨st₁, h₁, h⟩ := bind_eq_ok.mp h
  obtain ⟨st₂, h₂, h⟩ := bind_eq_ok.mp h
  obtain ⟨computed, hc, h⟩ := bind_eq_ok.mp h
  obtain ⟨st₃, h₃, h⟩ := bind_eq_ok.mp h
  cases h
  have hcomputed := mapError_eq_ok.mp hc
  obtain ⟨found₁, hf₁, hb₁, ht₁, hd₁⟩ := patchPlaceholder_ok h₁
  obtain ⟨found₂, hf₂, hb₂, ht₂, hd₂⟩ := patchPlaceholder_ok h₂
  obtain ⟨found₃, hf₃, hb₃, ht₃, hd₃⟩ := patchPlaceholder_ok h₃
  have hr₁ : recorded addresses patch.addPlaceholder = found₁ := by rw [recorded, hf₁]; rfl
  have hr₂ : recorded addresses patch.sizePlaceholder = found₂ := by rw [recorded, hf₂]; rfl
  have hr₃ : recorded addresses patch.hashPlaceholder = found₃ := by rw [recorded, hf₃]; rfl
  refine ⟨st₂.mm.bytes, if patch.dummy then 0 else computed, ?_, ?_, ?_, ?_, ?_⟩
  · rw [writeAll_append, fieldWrites, fieldWrites, hr₁, hr₂, ← hb₁]
    exact hb₂
  · rw [hashOf, hcomputed, Except.map]
  · rw [fieldWrites, hr₃]
    exact hb₃
  · show st₃.totalPatches = _
    rw [ht₃, ht₂, ht₁, hr₁, hr₂, hr₃]
  · show st₃.dumpPatch ++ _ = _
    rw [hd₃, hd₂, hd₁]

/-- A checksum of bytes is a byte. -/
theorem hashOf_lt {r2 : Radare} {file : List UInt8} {p : Patch} {hash : Nat}
    (h : hashOf r2 file p = .ok hash) : hash < 2 ^ 8 := by
  obtain ⟨bytes, -, rfl⟩ := hashOf_ok.mp h
  split
  · decide
  · exact UInt8.toNat_lt _

/-- A line can be patched when all its placeholders were found, its targets are 32-bit
numbers and its hash can be asked for. -/
theorem patchGuard_total {r2 : Radare} {addresses : SortedMap Int (List Nat)} {size : Nat}
    {patch : Patch}
    (hfound : ∀ v ∈ [patch.addPlaceholder, patch.sizePlaceholder, patch.hashPlaceholder],
      ∃ found, addresses.find? v = some found ∧ ∀ addr ∈ found, addr + 4 ≤ size)
    (hadd : patch.addTarget < 2 ^ 32) (hsize : patch.sizeTarget < 2 ^ 32)
    (hanswers : ∀ file : List UInt8, file.length = size →
      ∃ bytes, r2.p6e file patch.sizeTarget patch.addTarget = .ok bytes)
    {st : PatchState} (hlen : st.mm.bytes.length = size) :
    ∃ st', patchGuard r2 addresses st patch = .ok st' ∧ st'.mm.bytes.length = size := by
  obtain ⟨found₁, hf₁, hfits₁⟩ := hfound patch.addPlaceholder (by simp)
  obtain ⟨found₂, hf₂, hfits₂⟩ := hfound patch.sizePlaceholder (by simp)
  obtain ⟨found₃, hf₃, hfits₃⟩ := hfound patch.hashPlaceholder (by simp)
  have hwritten : patch.writtenSize < 2 ^ 32 := by
    unfold Patch.writtenSize
    split
    · decide
    · exact hsize
  obtain ⟨st₁, h₁, hlen₁⟩ := patchPlaceholder_total hf₁ hadd hfits₁ hlen
  obtain ⟨st₂, h₂, hlen₂⟩ := patchPlaceholder_total hf₂ hwritten hfits₂ hlen₁
  obtain ⟨bytes, hbytes⟩ := hanswers st₂.mm.bytes hlen₂
  have hhash := hashOf_ok.mpr ⟨bytes, hbytes, rfl⟩
  have hlt := Nat.lt_of_lt_of_le (hashOf_lt hhash) (by decide : 2 ^ 8 ≤ 2 ^ 32)
  obtain ⟨computed, hc, hw⟩ := computed_of_hashOf hhash
  rw [hw] at hlt
  obtain ⟨st₃, h₃, hlen₃⟩ := patchPlaceholder_total hf₃ hlt hfits₃ hlen₂
  exact ⟨_, bind_eq_ok.mpr ⟨st₁, h₁, bind_eq_ok.mpr ⟨st₂, h₂, bind_eq_ok.mpr
    ⟨computed, mapError_eq_ok.mpr hc, bind_eq_ok.mpr ⟨st₃, h₃, rfl⟩⟩⟩⟩, hlen₃⟩

/-! ## The loop -/

/-- The patch as it is recorded, but for its hash. -/
def Patch.SameBut (p r : Patch) : Prop := r = { p with hashTarget := r.hashTarget }

/-- The state of the loop once some patches are done, from a file `bytes`. -/
structure Progress (r2 : Radare) (addresses : SortedMap Int (List Nat)) (bytes : List UInt8)
    (done : List Patch) (st : PatchState) : Prop where
  records : List.Forall₂ Patch.SameBut done st.dumpPatch
  written : st.mm.bytes = writeAll bytes (patchWrites (recorded addresses) st.dumpPatch)
  hashes : ∀ k r, st.dumpPatch[k]? = some r → hashOf r2
    (writeAll bytes (writesBeforeHash (recorded addresses) (st.dumpPatch.take k) r)) r =
      .ok r.hashTarget
  total : st.totalPatches = ((done.flatMap fun p =>
    [p.addPlaceholder, p.sizePlaceholder, p.hashPlaceholder]).map fun v =>
      (recorded addresses v).length).sum

theorem Progress.start (r2 : Radare) (addresses : SortedMap Int (List Nat)) (mm : Mmap) :
    Progress r2 addresses mm.bytes [] { mm := mm } :=
  ⟨.nil, rfl, fun k r h => by simp at h, rfl⟩

theorem Progress.patchGuard {r2 : Radare} {addresses : SortedMap Int (List Nat)}
    {bytes : List UInt8} {done : List Patch} {st st' : PatchState} {patch : Patch}
    (hp : Progress r2 addresses bytes done st)
    (h : SelfChecksumming.patchGuard r2 addresses st patch = .ok st') :
    Progress r2 addresses bytes (done ++ [patch]) st' := by
  obtain ⟨file, hash, hfile, hhash, hbytes, htotal, hdump⟩ := patchGuard_ok h
  let r : Patch := { patch with hashTarget := hash }
  have hbefore : file = writeAll bytes (writesBeforeHash (recorded addresses) st.dumpPatch r) := by
    rw [hfile, hp.written, writesBeforeHash, List.append_assoc, ← writeAll_append]
    rfl
  refine ⟨?_, ?_, ?_, ?_⟩
  · rw [hdump]
    exact List.rel_append hp.records (.cons rfl .nil)
  · rw [hbytes, hdump, hbefore, patchWrites, List.flatMap_append, List.flatMap_append,
      ← writeAll_append, writesBeforeHash, patchWrites]
    simp only [Patch.fields, List.flatMap_cons, List.flatMap_nil, List.append_nil,
      List.append_assoc]
    rfl
  · intro k r' hk
    rw [hdump] at hk ⊢
    by_cases hlt : k < st.dumpPatch.length
    · rw [List.getElem?_append_left hlt] at hk
      rw [List.take_append_of_le_length (by omega)]
      exact hp.hashes k r' hk
    · have hkeq : k = st.dumpPatch.length := by
        have := (List.getElem?_eq_some_iff.mp hk).1
        simp only [List.length_append, List.length_singleton] at this
        omega
      subst hkeq
      rw [List.getElem?_concat_length] at hk
      obtain rfl : r = r' := Option.some.inj hk
      rw [List.take_left, ← hbefore]
      exact hhash
  · rw [htotal, hp.total, List.flatMap_append, List.map_append, List.sum_append]
    simp only [List.flatMap_cons, List.flatMap_nil, List.append_nil, List.map_cons, List.map_nil,
      List.sum_cons, List.sum_nil]
    omega

theorem patchGuards_progress {r2 : Radare} {addresses : SortedMap Int (List Nat)} {mm : Mmap}
    {patches : List Patch} {st : PatchState}
    (h : patches.foldlM (patchGuard r2 addresses) { mm := mm } = .ok st) :
    Progress r2 addresses mm.bytes patches st := by
  have hinv := foldlM_invariant (Progress r2 addresses mm.bytes)
    (fun done patch b b' hb hstep => hb.patchGuard hstep) patches []
    (Progress.start r2 addresses mm) h
  rwa [List.nil_append] at hinv

end SelfChecksumming
