import SelfChecksumming.Network.ConstructSoundness
import SelfChecksumming.Pass.Injection
import SelfChecksumming.Patcher.Codec
import SelfChecksumming.Patcher.Effect
import SelfChecksumming.Runtime.GuardMe

/-! # No false alarm

A network that the pass constructs, the guards that it injects, the file that the
script patches with their guide, and the check at run time. -/
namespace SelfChecksumming
open Library

/-! ## A patched guard -/

/-- The number that the code at `i` passes. -/
def constantAt (file : List UInt8) (i : Nat) : UInt32 := .ofNat (ofLittleEndian (readAt file i 4))

theorem constantAt_of_readAt {file : List UInt8} {i t : Nat} (ht : t < 2 ^ 32)
    (h : readAt file i 4 = littleEndian 4 t) : constantAt file i = .ofNat t := by
  have hwidth : t < 256 ^ 4 := by omega
  rw [constantAt, h, ofLittleEndian_littleEndian hwidth]

section Patched

variable {r2 : Radare} {order : DictOrder} {binary : List UInt8} {patches : List Patch}
  {st : PatchState}

/-- Every placeholder that is used once becomes the number its field asks for. -/
theorem Patched.constant (h : Patched r2 order binary patches st)
    (hapart : WindowsApart binary patches) (hnd : (allPlaceholders patches).Nodup) {r : Patch}
    (hr : r ∈ st.dumpPatch) {v : Int} {t : Nat} (hv : (v, t) ∈ r.fields) (ht : t < 2 ^ 32) {i : Nat}
    (hi : i ∈ occurrences binary v) : constantAt st.mm.bytes i = .ofNat t := by
  have hvalues : (st.dumpPatch.flatMap Patch.fields).map Prod.fst = allPlaceholders patches := by
    rw [fields_fst, sameBut_placeholders h.records]
  have hmem : (v, t) ∈ st.dumpPatch.flatMap Patch.fields := List.mem_flatMap.mpr ⟨r, hr, hv⟩
  have hall : v ∈ allPlaceholders patches :=
    hvalues ▸ List.mem_map_of_mem (f := Prod.fst) hmem
  obtain ⟨t', hlast, hread⟩ := h.window hapart hall hi
  rw [lastTarget_of_nodup (by rw [hvalues]; exact hnd) hmem] at hlast
  obtain rfl : t = t' := Option.some.inj hlast
  exact constantAt_of_readAt ht hread

/-- A patched guard compares the checksum of the range that its fields give with the
hash that was recorded. -/
theorem Patched.guardMe_eq (h : Patched r2 order binary patches st)
    (hapart : WindowsApart binary patches) (hnd : (allPlaceholders patches).Nodup) {n : Nat}
    {r : Patch} (hr : st.dumpPatch[n]? = some r) (hadd : r.addTarget < 2 ^ 32)
    (hsize : r.sizeTarget < 2 ^ 32) {i j k : Nat} (hi : i ∈ occurrences binary r.addPlaceholder)
    (hj : j ∈ occurrences binary r.sizePlaceholder)
    (hk : k ∈ occurrences binary r.hashPlaceholder) (memory : Nat → UInt8) :
    guardMe memory (constantAt st.mm.bytes i) (constantAt st.mm.bytes j)
        (constantAt st.mm.bytes k) =
      decide (xorBytes (bytesFrom memory r.addTarget r.writtenSize) ≠ .ofNat r.hashTarget) := by
  have hmem : r ∈ st.dumpPatch := List.mem_of_getElem? hr
  have hbyte : r.hashTarget < 2 ^ 8 := hashOf_lt (h.hashes n r hr)
  have hwritten : r.writtenSize < 2 ^ 32 := by unfold Patch.writtenSize; split <;> omega
  rw [h.constant hapart hnd hmem (by simp [Patch.fields]) hadd hi,
    h.constant hapart hnd hmem (v := r.sizePlaceholder) (t := r.writtenSize)
      (by simp [Patch.fields]) hwritten hj,
    h.constant hapart hnd hmem (v := r.hashPlaceholder) (t := r.hashTarget)
      (by simp [Patch.fields]) (by omega) hk,
    SelfChecksumming.guardMe_eq, UInt32.toNat_ofNat_of_lt' hadd,
    UInt32.toNat_ofNat_of_lt' hwritten]
  congr 3
  exact UInt8.toNat.inj (by simp)

/-- A patched guard is silent when the memory still holds what the hash was taken of;
the guard of a mismatch covers nothing. -/
theorem Patched.silent (h : Patched r2 order binary patches st)
    (hapart : WindowsApart binary patches) (hnd : (allPlaceholders patches).Nodup) {n : Nat}
    {r : Patch} (hr : st.dumpPatch[n]? = some r) (hadd : r.addTarget < 2 ^ 32)
    (hsize : r.sizeTarget < 2 ^ 32) {i j k : Nat} (hi : i ∈ occurrences binary r.addPlaceholder)
    (hj : j ∈ occurrences binary r.sizePlaceholder)
    (hk : k ∈ occurrences binary r.hashPlaceholder) {memory : Nat → UInt8}
    (hsame : r.dummy = false → r2.p6e (writeAll binary (writesBeforeHash
        (foundAt order binary patches) (st.dumpPatch.take n) r)) r.sizeTarget r.addTarget =
      .ok (bytesFrom memory r.addTarget r.sizeTarget)) :
    guardMe memory (constantAt st.mm.bytes i) (constantAt st.mm.bytes j)
      (constantAt st.mm.bytes k) = false := by
  rw [h.guardMe_eq hapart hnd hr hadd hsize hi hj hk, decide_eq_false_iff_not, not_not]
  cases hd : r.dummy with
  | true =>
    rw [h.hashTarget_dummy hr hd, Patch.writtenSize, if_pos hd]
    rfl
  | false =>
    rw [h.hashTarget_eq hr hd rfl rfl (hsame hd), Patch.writtenSize, if_neg (by simp [hd]),
      UInt8.ofNat_toNat]

end Patched

variable {Fn : Type}

/-! ## Where things are -/

/-- The first byte of each function in the file, its size, and its address. -/
structure Layout (Fn : Type) where
  start : Fn → Nat
  size : Fn → Nat
  offset : Fn → Nat

/-- The `k`-th byte of the file belongs to `F`. -/
def Layout.Covers (layout : Layout Fn) (F : Fn) (k : Nat) : Prop :=
  layout.start F ≤ k ∧ k < layout.start F + layout.size F

/-- The memory of a process; `loader` takes an address to its place in the file. -/
def loadedAt (loader : Nat → Nat) (file : List UInt8) (address : Nat) : UInt8 :=
  file.getD (loader address) 0

/-- Every function is one range of the file, apart from the others and loaded as it
is; radare2 reads the current bytes of the file, and answers whatever it is asked for. -/
structure Layout.Describes (layout : Layout Fn) (functions : List Fn) (binary : List UInt8)
    (loader : Nat → Nat) (r2 : Radare) : Prop where
  nonempty : binary ≠ []
  inside : ∀ F ∈ functions, layout.start F + layout.size F ≤ binary.length
  disjoint : ∀ F ∈ functions, ∀ G ∈ functions, F ≠ G →
    ∀ k, ¬ (layout.Covers F k ∧ layout.Covers G k)
  loaded : ∀ F ∈ functions, ∀ k < layout.size F,
    loader (layout.offset F + k) = layout.start F + k
  reads : ∀ F ∈ functions, ∀ file : List UInt8, file.length = binary.length →
    r2.p6e file (layout.size F) (layout.offset F) =
      .ok (readAt file (layout.start F) (layout.size F))
  answers : ∀ file : List UInt8, file.length = binary.length → ∀ size offset,
    ∃ bytes, r2.p6e file size offset = .ok bytes

/-- The placeholders stand once in the file, each in a window of its own in the host. -/
structure Layout.Holds (layout : Layout Fn) (binary : List UInt8) (guards : List (Guard Fn)) :
    Prop where
  once : ∀ g ∈ guards, ∀ v ∈ g.placeholders, ∃ i, occurrences binary v = [i] ∧
    layout.start g.host ≤ i ∧ i + 4 ≤ layout.start g.host + layout.size g.host
  apart : (guards.flatMap Guard.placeholders).Pairwise fun v w =>
    ∀ i ∈ occurrences binary v, ∀ j ∈ occurrences binary w, Apart 4 i j

/-- What a guide name is resolved to: 32-bit numbers, those of the checkee or those
of a mismatch. -/
def Layout.Resolves (layout : Layout Fn) (g : Guard Fn) (info : FuncInfo × Bool) : Prop :=
  (info.1.offset < 2 ^ 32 ∧ info.1.size < 2 ^ 32) ∧ (info.2 = false →
    info.1.offset = layout.offset g.checkee ∧ info.1.size = layout.size g.checkee)

/-- The bytes of a function in memory are those in the file. -/
theorem Layout.Describes.bytesFrom_eq {layout : Layout Fn} {functions : List Fn}
    {binary : List UInt8} {loader : Nat → Nat} {r2 : Radare}
    (h : layout.Describes functions binary loader r2) {F : Fn} (hF : F ∈ functions)
    {file : List UInt8} (hlen : file.length = binary.length) :
    bytesFrom (loadedAt loader file) (layout.offset F) (layout.size F) =
      readAt file (layout.start F) (layout.size F) := by
  have hin := h.inside F hF
  apply List.ext_getElem?
  intro k
  rw [readAt_getElem?, bytesFrom, List.getElem?_map]
  by_cases hk : k < layout.size F
  · rw [if_pos hk, List.getElem?_range' hk, Nat.one_mul, Option.map_some, loadedAt,
      h.loaded F hF k hk, List.getD_eq_getElem?_getD, List.getElem?_eq_getElem (by omega)]
    rfl
  · rw [if_neg hk, List.getElem?_eq_none (by rw [List.length_range']; omega)]
    rfl

section Placed

variable {layout : Layout Fn} {binary : List UInt8}

theorem Layout.Holds.nodup {guards : List (Guard Fn)} (h : layout.Holds binary guards) :
    (guards.flatMap Guard.placeholders).Nodup := by
  refine h.apart.imp_of_mem fun {v w} hv _ hvw heq => ?_
  obtain ⟨g, hg, hv⟩ := List.mem_flatMap.mp hv
  obtain ⟨i, hi, -⟩ := h.once g hg v hv
  have hmem : i ∈ occurrences binary v := by rw [hi]; exact List.mem_singleton_self i
  have hself := hvw i hmem i (heq ▸ hmem)
  unfold Apart at hself
  omega

/-- The first size placeholder would come back as a hash placeholder. -/
theorem Layout.Holds.length_le {edges : List (Fn × Fn)}
    (h : layout.Holds binary (guardsOf edges)) : edges.length ≤ guardLimit := by
  by_contra hlong
  have hlt : guardLimit < edges.length := by omega
  have hpos : 0 < edges.length := by omega
  have hpair := (List.pairwise_flatMap.mp h.nodup).2
  have hapart := List.pairwise_iff_getElem.mp hpair 0 guardLimit (by rwa [guardsOf_length])
    (by rwa [guardsOf_length]) (by decide)
  have hfirst : (guardsOf edges)[0]? = some (guardAt 0 edges[0]) := by
    rw [getElem?_guardsOf, List.getElem?_eq_getElem hpos, Option.map_some]
  have hclash : (guardsOf edges)[guardLimit]? = some (guardAt guardLimit edges[guardLimit]) := by
    rw [getElem?_guardsOf, List.getElem?_eq_getElem hlt, Option.map_some]
  rw [(List.getElem?_eq_some_iff.mp hfirst).2, (List.getElem?_eq_some_iff.mp hclash).2] at hapart
  refine hapart (guardAt 0 edges[0]).length.toNat ?_
    (guardAt guardLimit edges[guardLimit]).expectedHash.toNat ?_ ?_
  · simp [Guard.placeholders]
  · simp [Guard.placeholders]
  · rw [(guardAt_toNat (Nat.zero_le _) _).2.1, (guardAt_toNat (Nat.le_refl _) _).2.2]
    rfl

/-- The patches belong to the guards in turn. -/
structure Layout.Fits (layout : Layout Fn) (g : Guard Fn) (p : Patch) : Prop where
  placeholders : p.placeholders = g.placeholders
  add : p.addTarget < 2 ^ 32
  size : p.sizeTarget < 2 ^ 32
  checkee : p.dummy = false →
    p.addTarget = layout.offset g.checkee ∧ p.sizeTarget = layout.size g.checkee

theorem guidePatches_fits [LinearOrder Fn] [OrderBot Fn] {cxaDemangle : String → Option String}
    {M : Module Fn} {guards : List (Guard Fn)} {infos : List (FuncInfo × Bool)}
    (hinfos : List.Forall₂ layout.Resolves guards infos)
    (hread : ∀ g ∈ guards, g.address.toInt32.toInt = g.address.toNat ∧
      g.length.toInt32.toInt = g.length.toNat ∧
      g.expectedHash.toInt32.toInt = g.expectedHash.toNat) :
    List.Forall₂ layout.Fits guards
      (guidePatches (guards.map (Guard.line cxaDemangle M)) infos) := by
  induction hinfos with
  | nil => exact .nil
  | @cons g info guards infos hinfo _ ih =>
    obtain ⟨hadd, hsize, hhash⟩ := hread g List.mem_cons_self
    refine .cons ⟨?_, hinfo.1.1, hinfo.1.2, hinfo.2⟩
      (ih fun g' hg' => hread g' (List.mem_cons_of_mem _ hg'))
    simp only [Patch.placeholders, GuideLine.patch, Guard.line, Guard.placeholders, hadd, hsize,
      hhash]

theorem Layout.Fits.sameBut {g : Guard Fn} {p r : Patch} (h : layout.Fits g p)
    (hr : Patch.SameBut p r) : layout.Fits g r := by
  rw [hr]
  exact ⟨h.placeholders, h.add, h.size, h.checkee⟩

theorem fits_records {guards : List (Guard Fn)} {patches records : List Patch}
    (h : List.Forall₂ layout.Fits guards patches)
    (hr : List.Forall₂ Patch.SameBut patches records) :
    List.Forall₂ layout.Fits guards records := by
  induction h generalizing records with
  | nil => cases hr; exact .nil
  | cons hgp _ ih =>
    cases hr with
    | cons hpr hrest => exact .cons (hgp.sameBut hpr) (ih hrest)

theorem fits_placeholders {guards : List (Guard Fn)} {patches : List Patch}
    (h : List.Forall₂ layout.Fits guards patches) :
    allPlaceholders patches = guards.flatMap Guard.placeholders := by
  induction h with
  | nil => rfl
  | cons hgp _ ih =>
    rw [allPlaceholders, List.flatMap_cons, List.flatMap_cons, hgp.placeholders, ← ih]
    rfl

theorem fits_targets {guards : List (Guard Fn)} {patches : List Patch}
    (h : List.Forall₂ layout.Fits guards patches) :
    ∀ p ∈ patches, p.addTarget < 2 ^ 32 ∧ p.sizeTarget < 2 ^ 32 := by
  induction h with
  | nil => nofun
  | cons hgp _ ih =>
    intro p hp
    rcases List.mem_cons.mp hp with rfl | hp
    · exact ⟨hgp.add, hgp.size⟩
    · exact ih p hp

/-- No two windows overlap, whichever placeholders they hold. -/
theorem Layout.Holds.windows_apart {guards : List (Guard Fn)} (h : layout.Holds binary guards) :
    ∀ v ∈ guards.flatMap Guard.placeholders, ∀ w ∈ guards.flatMap Guard.placeholders,
      ∀ i ∈ occurrences binary v, ∀ j ∈ occurrences binary w, i ≠ j → i + 4 ≤ j ∨ j + 4 ≤ i := by
  have hself : ∀ v ∈ guards.flatMap Guard.placeholders, ∀ i ∈ occurrences binary v,
      ∀ j ∈ occurrences binary v, i ≠ j → i + 4 ≤ j ∨ j + 4 ≤ i := by
    intro v hv i hi j hj hij
    obtain ⟨g, hg, hv⟩ := List.mem_flatMap.mp hv
    obtain ⟨a, ha, -⟩ := h.once g hg v hv
    rw [ha, List.mem_singleton] at hi hj
    exact absurd (hi.trans hj.symm) hij
  exact List.Pairwise.forall_of_forall_of_flip hself
    (h.apart.imp fun hvw i hi j hj _ => hvw i hi j hj)
    (h.apart.imp fun hvw i hi j hj _ => (hvw j hj i hi).symm)

theorem windowsApart_of_holds {guards : List (Guard Fn)} {patches : List Patch}
    (h : layout.Holds binary guards) (hfits : List.Forall₂ layout.Fits guards patches) :
    WindowsApart binary patches := by
  unfold WindowsApart
  rw [fits_placeholders hfits]
  exact h.windows_apart

/-- The windows of a guard do not touch the functions other than its host. -/
theorem Layout.Holds.outside {guards : List (Guard Fn)} {functions : List Fn}
    {loader : Nat → Nat} {r2 : Radare} (h : layout.Holds binary guards)
    (hlayout : layout.Describes functions binary loader r2) {g : Guard Fn} (hg : g ∈ guards)
    (hhost : g.host ∈ functions) {F : Fn} (hF : F ∈ functions) (hne : g.host ≠ F) {v : Int}
    (hv : v ∈ g.placeholders) {i j : Nat} (hi : i ∈ occurrences binary v)
    (hj : layout.Covers F j) : j < i ∨ i + 4 ≤ j := by
  obtain ⟨a, ha, hfirst, hlast⟩ := h.once g hg v hv
  rw [ha, List.mem_singleton] at hi
  subst hi
  by_contra hin
  exact hlayout.disjoint g.host hhost F hF hne j ⟨⟨by omega, by omega⟩, hj⟩

/-- Guards in an order that keeps the hosts of what is checked in front: from a guard
on, its checkee hosts none. -/
structure Layout.Schedules (layout : Layout Fn) (functions : List Fn) (binary : List UInt8)
    (guards : List (Guard Fn)) : Prop where
  holds : layout.Holds binary guards
  mem : ∀ g ∈ guards, g.host ∈ functions ∧ g.checkee ∈ functions
  self : ∀ g ∈ guards, g.host ≠ g.checkee
  later : guards.Pairwise fun g g' => g'.host ≠ g.checkee

/-- What is written once the hash of a guard is taken stays off its checkee. -/
theorem Layout.Schedules.outside {guards : List (Guard Fn)} {functions : List Fn}
    {loader : Nat → Nat} {r2 : Radare} (h : layout.Schedules functions binary guards)
    (hlayout : layout.Describes functions binary loader r2) {records : List Patch}
    (hfits : List.Forall₂ layout.Fits guards records) {n : Nat} (hn : n < guards.length)
    (hn' : n < records.length) {v : Int}
    (hv : v ∈ records[n].hashPlaceholder :: allPlaceholders (records.drop (n + 1))) {i j : Nat}
    (hi : i ∈ occurrences binary v) (hj : layout.Covers guards[n].checkee j) :
    j < i ∨ i + 4 ≤ j := by
  have hg : guards[n] ∈ guards := List.getElem_mem hn
  have hcheckee := (h.mem guards[n] hg).2
  rcases List.mem_cons.mp hv with rfl | hv
  · have hvalues : records[n].placeholders = guards[n].placeholders :=
      (hfits.get hn hn').placeholders
    refine h.holds.outside hlayout hg (h.mem guards[n] hg).1 hcheckee (h.self guards[n] hg) ?_ hi hj
    rw [← hvalues]
    simp [Patch.placeholders]
  · rw [fits_placeholders (List.forall₂_drop (n + 1) hfits)] at hv
    obtain ⟨g', hg', hv⟩ := List.mem_flatMap.mp hv
    have hmem : g' ∈ guards := List.mem_of_mem_drop hg'
    have hne : g'.host ≠ guards[n].checkee := by
      have hpair := h.later.sublist (List.drop_sublist n guards)
      rw [List.drop_eq_getElem_cons hn] at hpair
      exact (List.pairwise_cons.mp hpair).1 g' hg'
    exact h.holds.outside hlayout hmem (h.mem g' hmem).1 hcheckee hne hv hi hj

/-- The code that replaced the placeholders of a guard raises no alarm. -/
def Guard.Passes (g : Guard Fn) (loader : Nat → Nat) (binary patched : List UInt8) : Prop :=
  ∃ i j k, occurrences binary g.address.toNat = [i] ∧ occurrences binary g.length.toNat = [j] ∧
    occurrences binary g.expectedHash.toNat = [k] ∧
    guardMe (loadedAt loader patched) (constantAt patched i) (constantAt patched j)
      (constantAt patched k) = false

/-- The bytes of a checkee are still those of which the hash was taken. -/
theorem Patched.hashed {guards : List (Guard Fn)} {functions : List Fn} {loader : Nat → Nat}
    {r2 : Radare} {order : DictOrder} {patches : List Patch} {st : PatchState}
    (hp : Patched r2 order binary patches st)
    (hlayout : layout.Describes functions binary loader r2)
    (hsched : layout.Schedules functions binary guards)
    (hfits : List.Forall₂ layout.Fits guards patches) {n : Nat} (hn : n < guards.length)
    (hn' : n < st.dumpPatch.length) :
    r2.p6e (writeAll binary (writesBeforeHash (foundAt order binary patches)
        (st.dumpPatch.take n) st.dumpPatch[n])) (layout.size guards[n].checkee)
        (layout.offset guards[n].checkee) =
      .ok (readAt st.mm.bytes (layout.start guards[n].checkee)
        (layout.size guards[n].checkee)) := by
  have hlen : (writeAll binary (writesBeforeHash (foundAt order binary patches)
      (st.dumpPatch.take n) st.dumpPatch[n])).length = binary.length :=
    length_writeAll rfl (writesBeforeHash_fits order binary patches _ _)
  rw [hlayout.reads guards[n].checkee (hsched.mem _ (List.getElem_mem hn)).2 _ hlen]
  have hsettled := hp.settled (List.getElem?_eq_getElem hn') fun v hv a ha b hb hb' =>
    hsched.outside hlayout (fits_records hfits hp.records) hn hn' hv ha ⟨hb, hb'⟩
  rw [hsettled]

/-- The windows of a guard, and its record. -/
theorem Layout.Schedules.windows {guards : List (Guard Fn)} {functions : List Fn}
    (hsched : layout.Schedules functions binary guards) {g : Guard Fn} (hg : g ∈ guards) {r : Patch}
    (hr : layout.Fits g r) :
    ∃ i j k, (occurrences binary g.address.toNat = [i] ∧
        occurrences binary g.length.toNat = [j] ∧
        occurrences binary g.expectedHash.toNat = [k]) ∧
      (∀ w ∈ [i, j, k], layout.start g.host ≤ w ∧
        w + 4 ≤ layout.start g.host + layout.size g.host) ∧
      i ∈ occurrences binary r.addPlaceholder ∧ j ∈ occurrences binary r.sizePlaceholder ∧
      k ∈ occurrences binary r.hashPlaceholder := by
  obtain ⟨i, hi, hwi⟩ := hsched.holds.once g hg g.address.toNat (by simp [Guard.placeholders])
  obtain ⟨j, hj, hwj⟩ := hsched.holds.once g hg g.length.toNat (by simp [Guard.placeholders])
  obtain ⟨k, hk, hwk⟩ := hsched.holds.once g hg g.expectedHash.toNat (by simp [Guard.placeholders])
  have hvalues := hr.placeholders
  simp only [Patch.placeholders, Guard.placeholders, List.cons.injEq, and_true] at hvalues
  obtain ⟨hadd, hsize, hhash⟩ := hvalues
  refine ⟨i, j, k, ⟨hi, hj, hk⟩, ?_, by simp [hadd, hi], by simp [hsize, hj], by simp [hhash, hk]⟩
  exact List.forall_mem_cons.mpr ⟨hwi, List.forall_mem_cons.mpr ⟨hwj,
    List.forall_mem_singleton.mpr hwk⟩⟩

/-- Scheduled guards pass in the file that their patches give. -/
theorem Patched.passes {guards : List (Guard Fn)} {functions : List Fn} {loader : Nat → Nat}
    {r2 : Radare} {order : DictOrder} {patches : List Patch} {st : PatchState}
    (hp : Patched r2 order binary patches st)
    (hlayout : layout.Describes functions binary loader r2)
    (hsched : layout.Schedules functions binary guards)
    (hfits : List.Forall₂ layout.Fits guards patches) {g : Guard Fn} (hg : g ∈ guards) :
    g.Passes loader binary st.mm.bytes := by
  have hrecords := fits_records hfits hp.records
  obtain ⟨n, hn, rfl⟩ := List.getElem_of_mem hg
  have hn' : n < st.dumpPatch.length := by rw [← hrecords.length_eq]; exact hn
  have hr : layout.Fits guards[n] st.dumpPatch[n] := hrecords.get hn hn'
  obtain ⟨i, j, k, ⟨hi, hj, hk⟩, -, hir, hjr, hkr⟩ := hsched.windows hg hr
  refine ⟨i, j, k, hi, hj, hk, hp.silent (windowsApart_of_holds hsched.holds hfits)
    (fits_placeholders hfits ▸ hsched.holds.nodup) (List.getElem?_eq_getElem hn') hr.add hr.size
    hir hjr hkr fun hdummy => ?_⟩
  obtain ⟨haddTarget, hsizeTarget⟩ := hr.checkee hdummy
  rw [haddTarget, hsizeTarget, hlayout.bytesFrom_eq (hsched.mem _ hg).2 hp.length]
  exact hp.hashed hlayout hsched hfits hn hn'

end Placed

/-! ## From the network to the check -/

/-- The script completes on the guide of scheduled guards. -/
theorem dumpPipe_scheduled {guards : List (Guard Fn)} {functions : List Fn} {layout : Layout Fn}
    {binary : List UInt8} {loader : Nat → Nat} {r2 : Radare} {guide : List GuideLine}
    {infos : List (FuncInfo × Bool)} (order : DictOrder) (dumpMode : Bool)
    (hlayout : layout.Describes functions binary loader r2)
    (hsched : layout.Schedules functions binary guards)
    (hplain : ∀ line ∈ guide, PlainName line.functionName.toList)
    (hresolve : resolveNames r2 [] (guide.map GuideLine.functionName) = .ok infos)
    (hfits : List.Forall₂ layout.Fits guards (guidePatches guide infos)) :
    ∃ st result, patchBinary r2 order binary (guidePatches guide infos) = .ok st ∧
      dumpPipe r2 order dumpMode binary (some (guideText guide)) = .ok result ∧
      result.binary = st.mm.bytes ∧
      result.manifest = if dumpMode then some st.dumpPatch else none := by
  obtain ⟨-, hread⟩ := readGuide_guideText hplain hresolve
  obtain ⟨st, hst⟩ : ∃ st, patchBinary r2 order binary (guidePatches guide infos) = .ok st := by
    refine patchBinary_total r2 order hlayout.nonempty (fun v hv => ?_) (fun v hv => ?_)
      (fits_targets hfits) fun file hfile p _ => hlayout.answers file hfile _ _
    · rw [fits_placeholders hfits] at hv
      obtain ⟨g, -, hv⟩ := List.mem_flatMap.mp hv
      exact Guard.placeholders_range hv
    · rw [fits_placeholders hfits] at hv
      obtain ⟨g, hg, hv⟩ := List.mem_flatMap.mp hv
      obtain ⟨i, hi, -⟩ := hsched.holds.once g hg v hv
      rw [hi]
      exact List.cons_ne_nil i []
  exact ⟨st, _, hst, dumpPipe_ok.mpr ⟨_, st, hread, hst, rfl⟩, rfl, rfl⟩

/-- What the script does with the guide of scheduled guards: it completes, and every
guard passes. -/
theorem dumpPipe_passes {guards : List (Guard Fn)} {functions : List Fn} {layout : Layout Fn}
    {binary : List UInt8} {loader : Nat → Nat} {r2 : Radare} {guide : List GuideLine}
    {infos : List (FuncInfo × Bool)} (order : DictOrder) (dumpMode : Bool)
    (hlayout : layout.Describes functions binary loader r2)
    (hsched : layout.Schedules functions binary guards)
    (hplain : ∀ line ∈ guide, PlainName line.functionName.toList)
    (hresolve : resolveNames r2 [] (guide.map GuideLine.functionName) = .ok infos)
    (hfits : List.Forall₂ layout.Fits guards (guidePatches guide infos)) :
    ∃ result, dumpPipe r2 order dumpMode binary (some (guideText guide)) = .ok result ∧
      ∀ g ∈ guards, g.Passes loader binary result.binary := by
  obtain ⟨st, result, hst, hrun, hbinary, -⟩ :=
    dumpPipe_scheduled order dumpMode hlayout hsched hplain hresolve hfits
  refine ⟨result, hrun, fun g hg => ?_⟩
  rw [hbinary]
  exact (patchBinary_ok hst).passes hlayout hsched hfits hg

variable [LinearOrder Fn] [OrderBot Fn]

/-- The guards of a constructed network, in the order of the sort, are scheduled. -/
theorem schedules_of_constructed {network : DAGCheckersNetwork} {shuffles : Nat → Shuffle Nat}
    {sens checkers : List Fn} {c : Int32} {map : SortedMap Fn (List Fn)} {sorted : List Fn}
    {env : Environment Fn} {M : Module Fn} {st : PassState Fn} {layout : Layout Fn}
    {binary : List UInt8}
    (hnet : network.constructProtectionNetwork shuffles sens checkers c = .ok map)
    (hsort : getReverseTopologicalSort map = .ok sorted)
    (ht : Tally env M sens (Network.mk map sorted).injected st)
    (hholds : layout.Holds binary st.guards) :
    layout.Schedules (sens ++ checkers) binary st.guards := by
  have ha := acyclic_of_constructed hnet
  have hedge : ∀ g ∈ st.guards, Edge map.find? g.host g.checkee := fun g hg =>
    (mem_injected.mp (ht.edge_mem hg)).2
  refine ⟨hholds, fun g hg => ?_, fun g hg heq => ?_, ?_⟩
  · obtain ⟨i, hF, hk⟩ := edge_of_constructed hnet (hedge g hg)
    exact ⟨List.mem_append_right _ (mem_pool.mp (randomComb_subset hk)).1,
      List.mem_append_left _ (List.mem_of_getElem? hF)⟩
  · have hloop := hedge g hg
    rw [← heq] at hloop
    exact ha g.host (.single hloop)
  · obtain ⟨sorted', hrun, hnd, hmem, hord⟩ := getReverseTopologicalSort_ordered map
    obtain rfl : sorted = sorted' := Except.ok.inj (hsort.symm.trans hrun)
    have hpair : (Network.mk map sorted).injected.Pairwise fun e e' => e'.1 ≠ e.2 :=
      injected_pairwise hnd (fun F hF => (hmem F).mp hF) hord ha
    rwa [← guardsOf_edge (Network.injected _), ← ht.guards, List.pairwise_map] at hpair

/-- Whatever network is constructed, in whatever shuffles: the guards that the pass
injects in the order of the sort, and that the script patches in the order of the
guide, all pass in the file that results. -/
theorem no_false_alarm (network : DAGCheckersNetwork) (shuffles : Nat → Shuffle Nat)
    (sensitiveFunctions checkerFunctions : List Fn) (connectivity : Int32)
    {map : SortedMap Fn (List Fn)} {sorted : List Fn} {st : PassState Fn} (env : Environment Fn)
    (M : Module Fn)
    (hnet : network.constructProtectionNetwork shuffles sensitiveFunctions checkerFunctions
      connectivity = .ok map)
    (hsort : getReverseTopologicalSort map = .ok sorted)
    (hinject : injectGuards env M sensitiveFunctions ⟨map, sorted⟩ = .ok st)
    (order : DictOrder) (dumpMode : Bool) {layout : Layout Fn} {binary : List UInt8}
    {loader : Nat → Nat} {r2 : Radare} {infos : List (FuncInfo × Bool)}
    (hlayout : layout.Describes (sensitiveFunctions ++ checkerFunctions) binary loader r2)
    (hholds : layout.Holds binary st.guards)
    (hplain : ∀ line ∈ st.guide, PlainName line.functionName.toList)
    (hresolve : resolveNames r2 [] (st.guide.map GuideLine.functionName) = .ok infos)
    (hinfos : List.Forall₂ layout.Resolves st.guards infos) :
    ∃ result, dumpPipe r2 order dumpMode binary (some (guideText st.guide)) = .ok result ∧
      ∀ g ∈ st.guards, g.Passes loader binary result.binary := by
  have ht := tally_of_injectGuards hinject
  have hsched := schedules_of_constructed hnet hsort ht hholds
  have hread : ∀ g ∈ st.guards, g.address.toInt32.toInt = g.address.toNat ∧
      g.length.toInt32.toInt = g.length.toNat ∧
      g.expectedHash.toInt32.toInt = g.expectedHash.toNat := by
    rw [ht.guards] at hholds ⊢
    exact fun g hg => guardsOf_toInt32 hholds.length_le hg
  have hfits : List.Forall₂ layout.Fits st.guards (guidePatches st.guide infos) := by
    rw [ht.guide]
    exact guidePatches_fits hinfos hread
  exact dumpPipe_passes order dumpMode hlayout hsched hplain hresolve hfits

/-- The three functions of the small binary. -/
def sampleLayout : Layout Nat where
  start F := if F = 1 then 0 else if F = 2 then 2 else 14
  size F := if F = 1 then 2 else 12
  offset F := 4096 + if F = 1 then 0 else if F = 2 then 2 else 14

theorem sampleLayout_describes : sampleLayout.Describes [1, 2, 2, 3] sampleBinary
    (fun address => address - 4096) sampleRadare where
  nonempty := List.cons_ne_nil _ _
  inside := by decide +kernel
  disjoint F hF G hG hne k hk := by
    have hapart : ∀ F ∈ [1, 2, 2, 3], ∀ G ∈ [1, 2, 2, 3], F ≠ G →
        sampleLayout.start F + sampleLayout.size F ≤ sampleLayout.start G ∨
          sampleLayout.start G + sampleLayout.size G ≤ sampleLayout.start F := by decide +kernel
    have hFG := hapart F hF G hG hne
    unfold Layout.Covers at hk
    omega
  loaded F _ k _ := by
    show 4096 + sampleLayout.start F + k - 4096 = sampleLayout.start F + k
    omega
  reads F _ file _ := by
    show Except.ok (readAt file (4096 + sampleLayout.start F - 4096) _) = _
    rw [Nat.add_sub_cancel_left]
  answers file _ size offset := ⟨_, rfl⟩

/-- What the pass injects into the small module is scheduled in the small binary. -/
theorem sample_injected : ∃ st infos,
    injectGuards (sampleEnvironment .unopened) sampleModule [1, 2] sampleNetwork = .ok st ∧
    st.guards = [⟨2, 1, 222222222, 555555555, 444444444⟩,
      ⟨3, 2, 222222223, 555555556, 444444445⟩] ∧
    sampleLayout.Holds sampleBinary st.guards ∧
    (∀ line ∈ st.guide, PlainName line.functionName.toList) ∧
    resolveNames sampleRadare [] (st.guide.map GuideLine.functionName) = .ok infos ∧
    List.Forall₂ sampleLayout.Resolves st.guards infos ∧ ∀ info ∈ infos, info.2 = false := by
  obtain ⟨st, hst⟩ : ∃ st, injectGuards (sampleEnvironment .unopened) sampleModule [1, 2]
      sampleNetwork = .ok st := ⟨_, rfl⟩
  have hguards : st.guards = [⟨2, 1, 222222222, 555555555, 444444444⟩,
      ⟨3, 2, 222222223, 555555556, 444444445⟩] := by
    cases hst
    rfl
  have hguide : st.guide = [⟨"f1", 222222222, 555555555, 444444444⟩,
      ⟨"f2", 222222223, 555555556, 444444445⟩] := by
    cases hst
    rfl
  refine ⟨st, [(⟨"sym.f1", 4096, 2⟩, false), (⟨"sym.f2", 4098, 12⟩, false)], hst, hguards, ?_, ?_,
    ?_, ?_, by simp⟩
  · rw [hguards]
    refine ⟨fun g hg v hv => ?_, by unfold Apart; decide +kernel⟩
    have honce : ∀ g ∈ [(⟨2, 1, 222222222, 555555555, 444444444⟩ : Guard Nat),
        ⟨3, 2, 222222223, 555555556, 444444445⟩], ∀ v ∈ g.placeholders, ∃ i ∈ List.range 26,
        occurrences sampleBinary v = [i] ∧ sampleLayout.start g.host ≤ i ∧
          i + 4 ≤ sampleLayout.start g.host + sampleLayout.size g.host := by decide +kernel
    obtain ⟨i, -, hi⟩ := honce g hg v hv
    exact ⟨i, hi⟩
  · rw [hguide, List.forall_mem_cons, List.forall_mem_singleton]
    exact ⟨⟨by decide, by decide, fun c hc => by cases hc; rfl⟩,
      ⟨by decide, by decide, fun c hc => by cases hc; rfl⟩⟩
  · rw [hguide]
    rfl
  · rw [hguards]
    exact .cons ⟨⟨by decide, by decide⟩, fun _ => ⟨rfl, rfl⟩⟩
      (.cons ⟨⟨by decide, by decide⟩, fun _ => ⟨rfl, rfl⟩⟩ .nil)

theorem no_false_alarm_sample : ∃ st result,
    injectGuards (sampleEnvironment .unopened) sampleModule [1, 2] sampleNetwork = .ok st ∧
    dumpPipe sampleRadare sampleOrder false sampleBinary (some (guideText st.guide)) = .ok result ∧
    ∀ g ∈ st.guards, g.Passes (fun address => address - 4096) sampleBinary result.binary := by
  obtain ⟨st, infos, hst, -, hholds, hplain, hresolve, hinfos, -⟩ := sample_injected
  obtain ⟨result, hrun, hpass⟩ := no_false_alarm {} (fun _ => .refl) [1, 2] [2, 3] 1
    (sampleEnvironment .unopened) sampleModule rfl rfl hst sampleOrder false
    sampleLayout_describes hholds hplain hresolve hinfos
  exact ⟨st, result, hst, hrun, hpass⟩

end SelfChecksumming
