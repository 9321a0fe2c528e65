import SelfChecksumming.Library.Counting
import SelfChecksumming.Patcher.Effect

/-! # The success report

`total_patches` counts writes: a value that `m` fields share and that stands at `k`
indices is recorded `m * k` times, and written that often for each of the `m`. -/
namespace SelfChecksumming
open Library

/-! ## Counting the writes -/

theorem length_foundAt (order : DictOrder) (binary : List UInt8) (patches : List Patch) (v : Int) :
    (foundAt order binary patches v).length =
      (allPlaceholders patches).count v * (occurrences binary v).length := by
  rw [foundAt, addressesOf, List.length_flatten, List.map_replicate, List.sum_replicate_nat,
    (placeholderValues_perm order patches).count_eq]

theorem length_allPlaceholders (patches : List Patch) :
    (allPlaceholders patches).length = patches.length * 3 := by
  induction patches with
  | nil => rfl
  | cons p patches ih =>
    rw [allPlaceholders] at ih
    rw [allPlaceholders, List.flatMap_cons, List.length_append, ih, List.length_cons]
    simp only [Patch.placeholders, List.length_cons, List.length_nil]
    omega

theorem nodup_occurrences (bytes : List UInt8) (v : Int) : (occurrences bytes v).Nodup :=
  (List.nodup_range' 1 Nat.one_pos).filter _

/-- One index, when there is one. -/
theorem length_occurrences_eq_one {bytes : List UInt8} {v : Int} :
    (occurrences bytes v).length = 1 ↔ ∃! i, i ∈ occurrences bytes v := by
  rw [List.length_eq_one_iff]
  constructor
  · intro h
    obtain ⟨i, hi⟩ := h
    exact ⟨i, by rw [hi]; exact List.mem_singleton_self i, fun j hj => by
      rwa [hi, List.mem_singleton] at hj⟩
  · intro h
    obtain ⟨i, hi, honly⟩ := h
    refine ⟨i, List.perm_singleton.mp ?_⟩
    refine (List.perm_ext_iff_of_nodup (nodup_occurrences bytes v) (List.nodup_singleton i)).mpr ?_
    intro j
    rw [List.mem_singleton]
    exact ⟨honly j, fun hj => hj ▸ hi⟩

/-- As many writes as fields, only when no value is shared and none stands twice. -/
theorem Patched.total_iff {r2 : Radare} {order : DictOrder} {binary : List UInt8}
    {patches : List Patch} {st : PatchState} (h : Patched r2 order binary patches st) :
    st.totalPatches = patches.length * 3 ↔ (allPlaceholders patches).Nodup ∧
      ∀ v ∈ allPlaceholders patches, ∃! i, i ∈ occurrences binary v := by
  have hpos : ∀ v ∈ allPlaceholders patches, 0 < (occurrences binary v).length :=
    fun v hv => List.length_pos_of_ne_nil (h.occurs v hv)
  rw [h.total, List.map_congr_left fun v _ => length_foundAt order binary patches v,
    ← length_allPlaceholders, sum_count_mul_eq_length_iff hpos]
  simp only [length_occurrences_eq_one]

/-! ## The report -/

/-- The last line says that all is patched. -/
def PatchResult.succeeded (result : PatchResult) : Prop :=
  "Successfuly patched all ".toList <+: result.report.toList

theorem patchReport_succeeds {expected total : Nat} :
    "Successfuly patched all ".toList <+: (patchReport expected total).toList ↔
      total = expected := by
  unfold patchReport
  by_cases h : total = expected
  · rw [if_neg (not_not.mpr h)]
    simp only [String.toList_append, List.append_assoc, h, iff_true]
    exact List.prefix_append _ _
  · rw [if_pos h]
    simp only [String.toList_append, h, iff_false]
    intro hprefix
    obtain ⟨rest, hrest⟩ := hprefix
    cases hrest

theorem readGuide_length {r2 : Radare} {guide : List Char} {patches : List Patch}
    (h : readGuide r2 guide = .ok patches) : patches.length = (readlines guide).length := by
  obtain ⟨st, -, h⟩ := bind_eq_ok.mp h
  by_cases hlen : st.1.length = ((readlines guide).map strip).length
  · rw [if_neg (not_not.mpr hlen)] at h
    rw [← Except.ok.inj h, hlen, List.length_map]
  · rw [if_pos hlen] at h
    cases h

/-- The report is exact: the last line says that all is patched when the loop made three
writes for each line of the guide, which it did if and only if no two of their values
are the same and each stands at one index of the file. -/
theorem dumpPipe_report_exact {r2 : Radare} {order : DictOrder} {dumpMode : Bool}
    {binary : List UInt8} {guide : List Char} {result : PatchResult}
    (h : dumpPipe r2 order dumpMode binary (some guide) = .ok result) :
    ∃ patches st, readGuide r2 guide = .ok patches ∧
      patchBinary r2 order binary patches = .ok st ∧
      (result.succeeded ↔ st.totalPatches = 3 * (readlines guide).length) ∧
      (result.succeeded ↔ (allPlaceholders patches).Nodup ∧
        ∀ v ∈ allPlaceholders patches, ∃! i, i ∈ occurrences binary v) := by
  obtain ⟨patches, st, hread, hpatch, rfl⟩ := dumpPipe_ok.mp h
  refine ⟨patches, st, hread, hpatch, ?_, ?_⟩
  · rw [← readGuide_length hread, Nat.mul_comm]
    exact patchReport_succeeds
  · rw [← (patchBinary_ok hpatch).total_iff]
    exact patchReport_succeeds

theorem dumpPipe_report_exact_sample : ∃ result,
    dumpPipe (mismatchRadare 0) sampleOrder false sampleBinary (some mismatchGuide) = .ok result ∧
    result.succeeded ∧ ∃ st,
      patchBinary (mismatchRadare 0) sampleOrder sampleBinary (mismatchPatches 0) = .ok st ∧
      st.totalPatches = 6 := by
  obtain ⟨result, hresult⟩ : ∃ result, dumpPipe (mismatchRadare 0) sampleOrder false sampleBinary
      (some mismatchGuide) = .ok result := ⟨_, rfl⟩
  obtain ⟨patches, st, hread, hpatch, htotal, hexact⟩ := dumpPipe_report_exact hresult
  have hguide : readGuide (mismatchRadare 0) mismatchGuide = .ok (mismatchPatches 0) := rfl
  obtain rfl : patches = mismatchPatches 0 := Except.ok.inj (hread.symm.trans hguide)
  have hsucceeded : result.succeeded := by
    refine hexact.mpr ⟨by decide, ?_⟩
    simp only [← length_occurrences_eq_one]
    decide +kernel
  exact ⟨result, hresult, hsucceeded, st, hpatch, htotal.mp hsucceeded⟩

end SelfChecksumming
