import SelfChecksumming.EndToEnd
import SelfChecksumming.Patcher.Report

/-! # The patched file as a solution

The hash of a guard depends on the bytes of its checkee, and these on the hashes of the
guards that the checkee hosts. The file that the script leaves is the one solution of
these equations, however it was arrived at. -/
namespace SelfChecksumming
open Library

variable {Fn : Type} {layout : Layout Fn} {binary : List UInt8}

/-! ## Sealed files -/

/-- The placeholders of a guard, with the numbers that stand for them in a sealed file. -/
def Layout.fieldsIn (layout : Layout Fn) (file : List UInt8) (g : Guard Fn) : List (Int × Nat) :=
  [(g.address.toNat, layout.offset g.checkee), (g.length.toNat, layout.size g.checkee),
    (g.expectedHash.toNat,
      (xorBytes (readAt file (layout.start g.checkee) (layout.size g.checkee))).toNat)]

/-- The binary, but every guard knows where its checkee is in this very file, and what
checksum it has there. -/
structure Sealed (layout : Layout Fn) (binary : List UInt8) (guards : List (Guard Fn))
    (file : List UInt8) : Prop where
  length : file.length = binary.length
  outside : ∀ k, (∀ g ∈ guards, ∀ v ∈ g.placeholders, ∀ i ∈ occurrences binary v,
    k < i ∨ i + 4 ≤ k) → file[k]? = binary[k]?
  fields : ∀ g ∈ guards, ∀ field ∈ layout.fieldsIn file g, ∀ i ∈ occurrences binary field.1,
    readAt file i 4 = littleEndian 4 field.2

theorem Sealed.of_mem_iff {guards guards' : List (Guard Fn)} {file : List UInt8}
    (h : Sealed layout binary guards file) (hmem : ∀ g, g ∈ guards' ↔ g ∈ guards) :
    Sealed layout binary guards' file where
  length := h.length
  outside k hk := h.outside k fun g hg => hk g ((hmem g).mpr hg)
  fields g hg := h.fields g ((hmem g).mp hg)

/-! ## Schedules -/

theorem Layout.Holds.perm {guards guards' : List (Guard Fn)} (h : layout.Holds binary guards)
    (hperm : guards.Perm guards') : layout.Holds binary guards' where
  once g hg := h.once g (hperm.mem_iff.mpr hg)
  apart := by
    refine ((hperm.flatMap_right Guard.placeholders).pairwise_iff fun {v w} hvw => ?_).mp h.apart
    intro i hi j hj
    exact (hvw j hj i hi).symm

theorem Layout.Schedules.perm {guards guards' : List (Guard Fn)} {functions : List Fn}
    (h : layout.Schedules functions binary guards) (hperm : guards.Perm guards')
    (hlater : guards'.Pairwise fun g g' => g'.host ≠ g.checkee) :
    layout.Schedules functions binary guards' where
  holds := h.holds.perm hperm
  mem g hg := h.mem g (hperm.mem_iff.mpr hg)
  self g hg := h.self g (hperm.mem_iff.mpr hg)
  later := hlater

theorem Layout.Fits.values {g : Guard Fn} {r : Patch} (h : layout.Fits g r) :
    r.addPlaceholder = g.address.toNat ∧ r.sizePlaceholder = g.length.toNat ∧
      r.hashPlaceholder = g.expectedHash.toNat := by
  have hvalues := h.placeholders
  simpa only [Patch.placeholders, Guard.placeholders, List.cons.injEq, and_true] using hvalues

/-- Guards whose equations the script solves: their placeholders are told apart wherever they
stand, and the hash of a guard and what is written behind it stay off its checkee. -/
structure Layout.Solvable (layout : Layout Fn) (functions : List Fn) (binary : List UInt8)
    (guards : List (Guard Fn)) : Prop where
  nodup : (guards.flatMap Guard.placeholders).Nodup
  found : ∀ v ∈ guards.flatMap Guard.placeholders, occurrences binary v ≠ []
  apart : ∀ v ∈ guards.flatMap Guard.placeholders, ∀ w ∈ guards.flatMap Guard.placeholders,
    ∀ i ∈ occurrences binary v, ∀ j ∈ occurrences binary w, i ≠ j → i + 4 ≤ j ∨ j + 4 ≤ i
  mem : ∀ g ∈ guards, g.checkee ∈ functions
  self : ∀ g ∈ guards, ∀ i ∈ occurrences binary g.expectedHash.toNat, ∀ k,
    layout.Covers g.checkee k → k < i ∨ i + 4 ≤ k
  later : guards.Pairwise fun g g' => ∀ v ∈ g'.placeholders, ∀ i ∈ occurrences binary v, ∀ k,
    layout.Covers g.checkee k → k < i ∨ i + 4 ≤ k

theorem Layout.Schedules.solvable {guards : List (Guard Fn)} {functions : List Fn}
    {loader : Nat → Nat} {r2 : Radare} (h : layout.Schedules functions binary guards)
    (hlayout : layout.Describes functions binary loader r2) :
    layout.Solvable functions binary guards where
  nodup := h.holds.nodup
  found v hv := by
    obtain ⟨g, hg, hv⟩ := List.mem_flatMap.mp hv
    obtain ⟨i, hi, -⟩ := h.holds.once g hg v hv
    rw [hi]
    exact List.cons_ne_nil i []
  apart := h.holds.windows_apart
  mem g hg := (h.mem g hg).2
  self g hg i hi k hk :=
    h.holds.outside hlayout hg (h.mem g hg).1 (h.mem g hg).2 (h.self g hg)
      (by simp [Guard.placeholders]) hi hk
  later := h.later.imp_of_mem fun {g g'} hg hg' hne v hv i hi k hk =>
    h.holds.outside hlayout hg' (h.mem g' hg').1 (h.mem g hg).2 hne hv hi hk

/-- What is written once the hash of a guard is taken stays off its checkee. -/
theorem Layout.Solvable.outside {guards : List (Guard Fn)} {functions : List Fn}
    (h : layout.Solvable functions binary guards) {records : List Patch}
    (hfits : List.Forall₂ layout.Fits guards records) {n : Nat} (hn : n < guards.length)
    (hn' : n < records.length) {v : Int}
    (hv : v ∈ records[n].hashPlaceholder :: allPlaceholders (records.drop (n + 1))) {i k : Nat}
    (hi : i ∈ occurrences binary v) (hk : layout.Covers guards[n].checkee k) :
    k < i ∨ i + 4 ≤ k := by
  rcases List.mem_cons.mp hv with rfl | hv
  · have hfit : layout.Fits guards[n] records[n] := hfits.get hn hn'
    rw [hfit.values.2.2] at hi
    exact h.self _ (List.getElem_mem hn) i hi k hk
  · rw [fits_placeholders (List.forall₂_drop (n + 1) hfits)] at hv
    obtain ⟨g', hg', hv⟩ := List.mem_flatMap.mp hv
    have hpair := h.later.sublist (List.drop_sublist n guards)
    rw [List.drop_eq_getElem_cons hn] at hpair
    exact (List.pairwise_cons.mp hpair).1 g' hg' v hv i hi k hk

/-! ## One solution -/

/-- Two sealed files agree at an index where the windows over it agree. -/
theorem Sealed.getElem?_eq {guards : List (Guard Fn)} {file file' : List UInt8}
    (h : Sealed layout binary guards file) (h' : Sealed layout binary guards file') {k : Nat}
    (hk : ∀ g ∈ guards, ∀ v ∈ g.placeholders, ∀ i ∈ occurrences binary v, i ≤ k → k < i + 4 →
      readAt file i 4 = readAt file' i 4) : file[k]? = file'[k]? := by
  by_cases hin : ∃ g ∈ guards, ∃ v ∈ g.placeholders, ∃ i ∈ occurrences binary v, i ≤ k ∧ k < i + 4
  · obtain ⟨g, hg, v, hv, i, hi, hle, hlt⟩ := hin
    have hat := congrArg (·[k - i]?) (hk g hg v hv i hi hle hlt)
    have hback : i + (k - i) = k := by omega
    simpa only [readAt_getElem?, show k - i < 4 by omega, if_true, hback] using hat
  · have hout : ∀ g ∈ guards, ∀ v ∈ g.placeholders, ∀ i ∈ occurrences binary v,
        k < i ∨ i + 4 ≤ k := by
      intro g hg v hv i hi
      by_contra hno
      exact hin ⟨g, hg, v, hv, i, hi, by omega, by omega⟩
    rw [h.outside k hout, h'.outside k hout]

/-- The windows in what a guard checks belong to guards in front of it. -/
theorem Layout.Schedules.earlier {guards : List (Guard Fn)} {functions : List Fn}
    {loader : Nat → Nat} {r2 : Radare} (hsched : layout.Schedules functions binary guards)
    (hlayout : layout.Describes functions binary loader r2) {n : Nat} (hn : n < guards.length)
    {g : Guard Fn} (hg : g ∈ guards) {v : Int} (hv : v ∈ g.placeholders) {i k : Nat}
    (hi : i ∈ occurrences binary v) (hle : i ≤ k) (hlt : k < i + 4)
    (hk : layout.Covers guards[n].checkee k) : ∃ m < n, guards[m]? = some g := by
  have hcheckee := (hsched.mem _ (List.getElem_mem hn)).2
  have hhost : g.host = guards[n].checkee := by
    by_contra hne
    have := hsched.holds.outside hlayout hg (hsched.mem g hg).1 hcheckee hne hv hi hk
    omega
  obtain ⟨m, hm, rfl⟩ := List.getElem_of_mem hg
  refine ⟨m, ?_, List.getElem?_eq_getElem hm⟩
  by_contra hle
  rcases Nat.eq_or_lt_of_le (Nat.not_lt.mp hle) with rfl | hlt
  · exact hsched.self _ hg hhost
  · exact List.pairwise_iff_getElem.mp hsched.later n m hn hm hlt hhost

/-- Sealed files hold the same in the windows of every guard: its hash is that of bytes
which the guards in front of it decide. -/
theorem Sealed.windows {guards : List (Guard Fn)} {functions : List Fn} {loader : Nat → Nat}
    {r2 : Radare} (hsched : layout.Schedules functions binary guards)
    (hlayout : layout.Describes functions binary loader r2) {file file' : List UInt8}
    (h : Sealed layout binary guards file) (h' : Sealed layout binary guards file') (n : Nat) :
    ∀ g, guards[n]? = some g → ∀ v ∈ g.placeholders, ∀ i ∈ occurrences binary v,
      readAt file i 4 = readAt file' i 4 := by
  induction n using Nat.strongRecOn with
  | ind n ih =>
    intro g hgn v hv i hi
    obtain ⟨hn, rfl⟩ := List.getElem?_eq_some_iff.mp hgn
    have hg := List.getElem_mem hn
    have hbytes : readAt file (layout.start guards[n].checkee) (layout.size guards[n].checkee) =
        readAt file' (layout.start guards[n].checkee) (layout.size guards[n].checkee) := by
      refine readAt_congr fun k hk hk' => h.getElem?_eq h' fun g' hg' w hw j hj hle hlt => ?_
      obtain ⟨m, hm, hgm⟩ := hsched.earlier hlayout hn hg' hw hj hle hlt ⟨hk, hk'⟩
      exact ih m hm g' hgm w hw j hj
    have hsame : layout.fieldsIn file guards[n] = layout.fieldsIn file' guards[n] := by
      rw [Layout.fieldsIn, Layout.fieldsIn, hbytes]
    obtain ⟨field, hfield, rfl⟩ : ∃ field ∈ layout.fieldsIn file guards[n], field.1 = v := by
      simp only [Guard.placeholders, List.mem_cons, List.not_mem_nil, or_false] at hv
      rcases hv with rfl | rfl | rfl
      · exact ⟨_, List.mem_cons_self, rfl⟩
      · exact ⟨_, List.mem_cons_of_mem _ List.mem_cons_self, rfl⟩
      · exact ⟨_, List.mem_cons_of_mem _ (List.mem_cons_of_mem _ List.mem_cons_self), rfl⟩
    rw [h.fields _ hg field hfield i hi, h'.fields _ hg field (hsame ▸ hfield) i hi]

theorem Sealed.eq {guards : List (Guard Fn)} {functions : List Fn} {loader : Nat → Nat}
    {r2 : Radare} (hsched : layout.Schedules functions binary guards)
    (hlayout : layout.Describes functions binary loader r2) {file file' : List UInt8}
    (h : Sealed layout binary guards file) (h' : Sealed layout binary guards file') :
    file = file' := by
  apply List.ext_getElem?
  intro k
  refine h.getElem?_eq h' fun g hg v hv i hi _ _ => ?_
  obtain ⟨n, hn, rfl⟩ := List.getElem_of_mem hg
  exact h.windows hsched hlayout h' n _ (List.getElem?_eq_getElem hn) v hv i hi

/-- The code that stands for a guard in a sealed file compares the checksums of its checkee in
this file and in the one that is run, as long as its own three constants are the same. -/
theorem Sealed.guardMe_eq {guards : List (Guard Fn)} {functions : List Fn} {loader : Nat → Nat}
    {r2 : Radare} {patched file : List UInt8} (hsealed : Sealed layout binary guards patched)
    (hlayout : layout.Describes functions binary loader r2) (hlen : file.length = binary.length)
    {g : Guard Fn} (hg : g ∈ guards) (hcheckee : g.checkee ∈ functions)
    (hnum : layout.offset g.checkee < 2 ^ 32 ∧ layout.size g.checkee < 2 ^ 32) {i j k : Nat}
    (hi : i ∈ occurrences binary g.address.toNat) (hj : j ∈ occurrences binary g.length.toNat)
    (hk : k ∈ occurrences binary g.expectedHash.toNat)
    (hsame : ∀ w ∈ [i, j, k], readAt file w 4 = readAt patched w 4) :
    guardMe (loadedAt loader file) (constantAt file i) (constantAt file j) (constantAt file k) =
      decide (xorBytes (readAt file (layout.start g.checkee) (layout.size g.checkee)) ≠
        xorBytes (readAt patched (layout.start g.checkee) (layout.size g.checkee))) := by
  have hconstant : ∀ field ∈ layout.fieldsIn patched g, field.2 < 2 ^ 32 → ∀ w ∈ [i, j, k],
      w ∈ occurrences binary field.1 → constantAt file w = .ofNat field.2 := by
    intro field hfield hlt w hw hocc
    exact constantAt_of_readAt hlt ((hsame w hw).trans (hsealed.fields g hg field hfield w hocc))
  have hbyte := (xorBytes (readAt patched (layout.start g.checkee)
    (layout.size g.checkee))).toNat_lt
  have hback : ∀ b : UInt8, (UInt32.ofNat b.toNat).toUInt8 = b := fun b => UInt8.toNat.inj (by simp)
  rw [hconstant _ List.mem_cons_self hnum.1 i (by simp) hi,
    hconstant _ (List.mem_cons_of_mem _ List.mem_cons_self) hnum.2 j (by simp) hj,
    hconstant _ (List.mem_cons_of_mem _ (List.mem_cons_of_mem _ List.mem_cons_self)) (by omega) k
      (by simp) hk,
    SelfChecksumming.guardMe_eq, UInt32.toNat_ofNat_of_lt' hnum.1, UInt32.toNat_ofNat_of_lt' hnum.2,
    hlayout.bytesFrom_eq hcheckee hlen, hback]

/-! ## The script finds it -/

/-- Later fields decide about their values. -/
theorem lastTarget_append (fields : List (Int × Nat)) {more : List (Int × Nat)} {v : Int}
    (h : v ∈ more.map Prod.fst) : lastTarget (fields ++ more) v = lastTarget more v := by
  obtain ⟨field, hfield, hv⟩ := List.mem_map.mp h
  have hsome : (more.reverse.find? fun field => field.1 = v).isSome :=
    List.find?_isSome.mpr ⟨field, List.mem_reverse.mpr hfield, by simp [hv]⟩
  rw [lastTarget, lastTarget, List.reverse_append, List.find?_append,
    Option.or_of_isSome hsome]

theorem guidePatches_real {guide : List GuideLine} {infos : List (FuncInfo × Bool)}
    (h : ∀ info ∈ infos, info.2 = false) : ∀ p ∈ guidePatches guide infos, p.dummy = false := by
  intro p hp
  obtain ⟨line, info, -, hinfo, rfl⟩ := mem_guidePatches hp
  exact h info hinfo

section Patched

variable {guards : List (Guard Fn)} {functions : List Fn} {loader : Nat → Nat} {r2 : Radare}
  {order : DictOrder} {stale patches : List Patch} {st : PatchState}

/-- The fields of the record of a guard. -/
theorem Layout.Fits.fields {g : Guard Fn} {r : Patch} (h : layout.Fits g r)
    (hreal : r.dummy = false) : r.fields = [((g.address.toNat : Int), layout.offset g.checkee),
      ((g.length.toNat : Int), layout.size g.checkee),
      ((g.expectedHash.toNat : Int), r.hashTarget)] := by
  obtain ⟨hadd, hsize, hhash⟩ := h.values
  obtain ⟨haddTarget, hsizeTarget⟩ := h.checkee hreal
  simp [Patch.fields, Patch.writtenSize, hreal, hadd, hsize, hhash, haddTarget, hsizeTarget]

/-- The lines in front may be any, as long as they bring no placeholders of their own:
what they write is overwritten, and no later hash is taken before that. -/
theorem Patched.sealed (hp : Patched r2 order binary (stale ++ patches) st)
    (hlayout : layout.Describes functions binary loader r2)
    (hsolv : layout.Solvable functions binary guards)
    (hfits : List.Forall₂ layout.Fits guards patches) (hreal : ∀ p ∈ patches, p.dummy = false)
    (hstale : ∀ v ∈ allPlaceholders stale, v ∈ guards.flatMap Guard.placeholders) :
    Sealed layout binary guards st.mm.bytes := by
  have hvalues : ∀ v, v ∈ allPlaceholders (stale ++ patches) ↔
      v ∈ guards.flatMap Guard.placeholders := by
    intro v
    rw [allPlaceholders, List.flatMap_append, List.mem_append]
    rw [← fits_placeholders hfits] at hstale ⊢
    exact ⟨fun h => h.elim (hstale v) id, .inr⟩
  have hapart : WindowsApart binary (stale ++ patches) := fun v hv w hw =>
    hsolv.apart v ((hvalues v).mp hv) w ((hvalues w).mp hw)
  obtain ⟨-, hrecords⟩ := forall₂_split hp.records
  have hnew : List.Forall₂ layout.Fits guards (st.dumpPatch.drop stale.length) :=
    fits_records hfits hrecords
  have hnd : (((st.dumpPatch.drop stale.length).flatMap Patch.fields).map Prod.fst).Nodup := by
    rw [fields_fst, fits_placeholders hnew]
    exact hsolv.nodup
  refine ⟨hp.length, fun k hk => hp.outside fun v hv => ?_, fun g hg field hfield i hi => ?_⟩
  · obtain ⟨g, hg, hv⟩ := List.mem_flatMap.mp ((hvalues v).mp hv)
    exact hk g hg v hv
  · obtain ⟨n, hn, rfl⟩ := List.getElem_of_mem hg
    have hn' : n < (st.dumpPatch.drop stale.length).length := by rwa [← hnew.length_eq]
    have hfit : layout.Fits guards[n] (st.dumpPatch.drop stale.length)[n] := hnew.get hn hn'
    have hdummy : (st.dumpPatch.drop stale.length)[n].dummy = false := by
      have hn'' : n < patches.length := by rwa [← hfits.length_eq]
      have hsame : Patch.SameBut patches[n] (st.dumpPatch.drop stale.length)[n] :=
        hrecords.get hn'' hn'
      rw [hsame]
      exact hreal patches[n] (List.getElem_mem hn'')
    -- the bytes that the hash is taken of are those in the end
    have hat : st.dumpPatch[stale.length + n]? = some (st.dumpPatch.drop stale.length)[n] := by
      rw [← List.getElem?_drop, List.getElem?_eq_getElem hn']
    have hhash : (st.dumpPatch.drop stale.length)[n].hashTarget = (xorBytes (readAt st.mm.bytes
        (layout.start guards[n].checkee) (layout.size guards[n].checkee))).toNat := by
      obtain ⟨hadd, hsize⟩ := hfit.checkee hdummy
      have hout : ∀ v ∈ (st.dumpPatch.drop stale.length)[n].hashPlaceholder ::
          allPlaceholders (st.dumpPatch.drop (stale.length + n + 1)), ∀ a ∈ occurrences binary v,
          ∀ b, layout.start guards[n].checkee ≤ b →
            b < layout.start guards[n].checkee + layout.size guards[n].checkee →
              b < a ∨ a + 4 ≤ b := by
        intro v hv a ha b hb hb'
        rw [Nat.add_assoc, ← List.drop_drop] at hv
        exact hsolv.outside hnew hn hn' hv ha ⟨hb, hb'⟩
      have hsettled := hp.settled hat hout
      have hlen := length_writeAll rfl (writesBeforeHash_fits order binary (stale ++ patches)
        (st.dumpPatch.take (stale.length + n)) (st.dumpPatch.drop stale.length)[n])
      have hhashed := hlayout.reads _ (hsolv.mem _ hg) _ hlen
      rw [hp.hashTarget_eq hat hdummy hadd hsize hhashed, hsettled]
    have hmem : field ∈ (st.dumpPatch.drop stale.length).flatMap Patch.fields := by
      refine List.mem_flatMap.mpr ⟨_, List.getElem_mem hn', ?_⟩
      rw [hfit.fields hdummy, hhash]
      exact hfield
    have hfst : field.1 ∈ ((st.dumpPatch.drop stale.length).flatMap Patch.fields).map Prod.fst :=
      List.mem_map_of_mem hmem
    have hall : field.1 ∈ allPlaceholders (stale ++ patches) := by
      rw [fields_fst, fits_placeholders hnew] at hfst
      exact (hvalues _).mpr hfst
    obtain ⟨t, hlast, hread⟩ := hp.window hapart hall hi
    rw [← List.take_append_drop stale.length st.dumpPatch, List.flatMap_append,
      lastTarget_append _ hfst, lastTarget_of_nodup hnd (t := field.2) hmem] at hlast
    rw [hread, Option.some.inj hlast]

/-- A run of the script on such lines. -/
theorem dumpPipe_solvable {guide : List Char} (order : DictOrder) (dumpMode : Bool)
    (hlayout : layout.Describes functions binary loader r2)
    (hsolv : layout.Solvable functions binary guards)
    (hread : readGuide r2 guide = .ok (stale ++ patches))
    (hfits : List.Forall₂ layout.Fits guards patches) (hreal : ∀ p ∈ patches, p.dummy = false)
    (hstale : ∀ v ∈ allPlaceholders stale, v ∈ guards.flatMap Guard.placeholders)
    (htargets : ∀ p ∈ stale, p.addTarget < 2 ^ 32 ∧ p.sizeTarget < 2 ^ 32) :
    ∃ result, dumpPipe r2 order dumpMode binary (some guide) = .ok result ∧
      Sealed layout binary guards result.binary ∧
      (result.succeeded ↔ stale = [] ∧ ∀ v ∈ guards.flatMap Guard.placeholders,
        ∃! i, i ∈ occurrences binary v) := by
  have hsplit : allPlaceholders (stale ++ patches) =
      allPlaceholders stale ++ guards.flatMap Guard.placeholders := by
    rw [← fits_placeholders hfits]
    exact List.flatMap_append
  have hmem : ∀ v ∈ allPlaceholders (stale ++ patches), v ∈ guards.flatMap Guard.placeholders := by
    intro v hv
    rw [hsplit] at hv
    exact (List.mem_append.mp hv).elim (hstale v) id
  obtain ⟨st, hst⟩ : ∃ st, patchBinary r2 order binary (stale ++ patches) = .ok st := by
    refine patchBinary_total r2 order hlayout.nonempty (fun v hv => ?_)
      (fun v hv => hsolv.found v (hmem v hv))
      (fun p hp => (List.mem_append.mp hp).elim (htargets p) (fits_targets hfits p))
      fun file hfile p _ => hlayout.answers file hfile _ _
    obtain ⟨g, -, hv⟩ := List.mem_flatMap.mp (hmem v hv)
    exact Guard.placeholders_range hv
  have hp := patchBinary_ok hst
  refine ⟨_, dumpPipe_ok.mpr ⟨_, st, hread, hst, rfl⟩, hp.sealed hlayout hsolv hfits hreal hstale, ?_⟩
  refine patchReport_succeeds.trans (hp.total_iff.trans ⟨fun h => ⟨?_, fun v hv => ?_⟩,
    fun h => ⟨?_, fun v hv => h.2 v (hmem v hv)⟩⟩)
  · -- a value of a line in front is also one of the guards
    refine List.eq_nil_iff_forall_not_mem.mpr fun p hp => ?_
    have hv : p.addPlaceholder ∈ allPlaceholders stale :=
      List.mem_flatMap.mpr ⟨p, hp, List.mem_cons_self⟩
    rw [hsplit] at h
    exact (List.nodup_append.mp h.1).2.2 _ hv _ (hstale _ hv) rfl
  · exact h.2 v (by rw [hsplit]; exact List.mem_append_right _ hv)
  · rw [hsplit, h.1]
    exact hsolv.nodup

/-- Where every placeholder stands once, the script reports success when there are no lines in
front. -/
theorem dumpPipe_sealed {guide : List Char} (order : DictOrder) (dumpMode : Bool)
    (hlayout : layout.Describes functions binary loader r2)
    (hsched : layout.Schedules functions binary guards)
    (hread : readGuide r2 guide = .ok (stale ++ patches))
    (hfits : List.Forall₂ layout.Fits guards patches) (hreal : ∀ p ∈ patches, p.dummy = false)
    (hstale : ∀ v ∈ allPlaceholders stale, v ∈ guards.flatMap Guard.placeholders)
    (htargets : ∀ p ∈ stale, p.addTarget < 2 ^ 32 ∧ p.sizeTarget < 2 ^ 32) :
    ∃ result, dumpPipe r2 order dumpMode binary (some guide) = .ok result ∧
      Sealed layout binary guards result.binary ∧ (result.succeeded ↔ stale = []) := by
  obtain ⟨result, hrun, hsealed, hsuccess⟩ := dumpPipe_solvable order dumpMode hlayout
    (hsched.solvable hlayout) hread hfits hreal hstale htargets
  refine ⟨result, hrun, hsealed, hsuccess.trans (and_iff_left fun v hv => ?_)⟩
  obtain ⟨g, hg, hv⟩ := List.mem_flatMap.mp hv
  obtain ⟨i, hi, -⟩ := hsched.holds.once g hg v hv
  exact length_occurrences_eq_one.mp (by rw [hi]; rfl)

end Patched

section Guide

variable {guards : List (Guard Fn)} {functions : List Fn} {loader : Nat → Nat} {r2 : Radare}
  {guide : List GuideLine} {infos : List (FuncInfo × Bool)}

theorem dumpPipe_leaves_sealed (order : DictOrder) (dumpMode : Bool)
    (hlayout : layout.Describes functions binary loader r2)
    (hsched : layout.Schedules functions binary guards)
    (hplain : ∀ line ∈ guide, PlainName line.functionName.toList)
    (hresolve : resolveNames r2 [] (guide.map GuideLine.functionName) = .ok infos)
    (hfits : List.Forall₂ layout.Fits guards (guidePatches guide infos))
    (hreal : ∀ info ∈ infos, info.2 = false) :
    ∃ result, dumpPipe r2 order dumpMode binary (some (guideText guide)) = .ok result ∧
      Sealed layout binary guards result.binary ∧ result.succeeded := by
  have hread : readGuide r2 (guideText guide) = .ok ([] ++ guidePatches guide infos) :=
    (readGuide_guideText hplain hresolve).2
  obtain ⟨result, hrun, hsealed, hsucceeded⟩ := dumpPipe_sealed order dumpMode hlayout hsched hread
    hfits (guidePatches_real hreal) (fun v hv => absurd hv List.not_mem_nil)
    fun p hp => absurd hp List.not_mem_nil
  exact ⟨result, hrun, hsealed, hsucceeded.mpr rfl⟩

/-- The script solves the equations: on the guide of scheduled guards whose names are
resolved it leaves a sealed file, and there is no other one. -/
theorem dumpPipe_solves (order : DictOrder) (dumpMode : Bool)
    (hlayout : layout.Describes functions binary loader r2)
    (hsched : layout.Schedules functions binary guards)
    (hplain : ∀ line ∈ guide, PlainName line.functionName.toList)
    (hresolve : resolveNames r2 [] (guide.map GuideLine.functionName) = .ok infos)
    (hfits : List.Forall₂ layout.Fits guards (guidePatches guide infos))
    (hreal : ∀ info ∈ infos, info.2 = false) :
    ∃ result, dumpPipe r2 order dumpMode binary (some (guideText guide)) = .ok result ∧
      ∀ file, Sealed layout binary guards file ↔ file = result.binary := by
  obtain ⟨result, hrun, hsealed, -⟩ :=
    dumpPipe_leaves_sealed order dumpMode hlayout hsched hplain hresolve hfits hreal
  exact ⟨result, hrun, fun file => ⟨fun h => h.eq hsched hlayout hsealed, fun h => h ▸ hsealed⟩⟩

/-- The order of the lines does not change the file, as long as the hosts of what is
checked stay in front. -/
theorem guide_order_irrelevant {guards' : List (Guard Fn)} {guide' : List GuideLine}
    {infos' : List (FuncInfo × Bool)} (order order' : DictOrder) (dumpMode dumpMode' : Bool)
    (hlayout : layout.Describes functions binary loader r2)
    (hsched : layout.Schedules functions binary guards) (hperm : guards.Perm guards')
    (hlater : guards'.Pairwise fun g g' => g'.host ≠ g.checkee)
    (hplain : ∀ line ∈ guide ++ guide', PlainName line.functionName.toList)
    (hresolve : resolveNames r2 [] (guide.map GuideLine.functionName) = .ok infos)
    (hresolve' : resolveNames r2 [] (guide'.map GuideLine.functionName) = .ok infos')
    (hfits : List.Forall₂ layout.Fits guards (guidePatches guide infos))
    (hfits' : List.Forall₂ layout.Fits guards' (guidePatches guide' infos'))
    (hreal : ∀ info ∈ infos ++ infos', info.2 = false) :
    ∃ result result', dumpPipe r2 order dumpMode binary (some (guideText guide)) = .ok result ∧
      dumpPipe r2 order' dumpMode' binary (some (guideText guide')) = .ok result' ∧
      result.binary = result'.binary := by
  rw [List.forall_mem_append] at hplain hreal
  obtain ⟨result, hrun, hsealed, -⟩ :=
    dumpPipe_leaves_sealed order dumpMode hlayout hsched hplain.1 hresolve hfits hreal.1
  obtain ⟨result', hrun', hsealed', -⟩ := dumpPipe_leaves_sealed order' dumpMode' hlayout
    (hsched.perm hperm hlater) hplain.2 hresolve' hfits' hreal.2
  exact ⟨result, result', hrun, hrun',
    hsealed.eq hsched hlayout (hsealed'.of_mem_iff fun g => hperm.mem_iff)⟩

end Guide

/-! ## A small binary -/

theorem sample_scheduled : ∃ guards guide infos,
    guards = [⟨2, 1, 222222222, 555555555, 444444444⟩,
      ⟨3, 2, 222222223, 555555556, 444444445⟩] ∧
    sampleLayout.Schedules [1, 2, 2, 3] sampleBinary guards ∧
    (∀ line ∈ guide, PlainName line.functionName.toList) ∧
    resolveNames sampleRadare [] (guide.map GuideLine.functionName) = .ok infos ∧
    List.Forall₂ sampleLayout.Fits guards (guidePatches guide infos) ∧
    ∀ info ∈ infos, info.2 = false := by
  obtain ⟨st, infos, hst, hguards, hholds, hplain, hresolve, hinfos, hreal⟩ := sample_injected
  refine ⟨st.guards, st.guide, infos, hguards, ⟨hholds, ?_, ?_, ?_⟩, hplain, hresolve, ?_, hreal⟩
  · rw [hguards]
    decide
  · rw [hguards]
    decide
  · rw [hguards]
    decide
  · rw [(tally_of_injectGuards hst).guide]
    refine guidePatches_fits hinfos ?_
    rw [hguards]
    decide

theorem dumpPipe_solves_sample : ∃ guards guide result,
    dumpPipe sampleRadare sampleOrder false sampleBinary (some (guideText guide)) = .ok result ∧
    ∀ file, Sealed sampleLayout sampleBinary guards file ↔ file = result.binary := by
  obtain ⟨guards, guide, infos, -, hsched, hplain, hresolve, hfits, hreal⟩ := sample_scheduled
  obtain ⟨result, hrun, hsolves⟩ := dumpPipe_solves sampleOrder false sampleLayout_describes hsched
    hplain hresolve hfits hreal
  exact ⟨guards, guide, result, hrun, hsolves⟩

/-- With both guards on the first function, their lines are taken in either order. -/
theorem guide_order_irrelevant_sample : ∃ guide guide' result result', guide' = guide.reverse ∧
    guide ≠ guide' ∧
    dumpPipe sampleRadare sampleOrder false sampleBinary (some (guideText guide)) = .ok result ∧
    dumpPipe sampleRadare sampleOrder true sampleBinary (some (guideText guide')) = .ok result' ∧
    result.binary = result'.binary := by
  obtain ⟨_, -, -, rfl, hsched, -⟩ := sample_scheduled
  have hsched' : sampleLayout.Schedules [1, 2, 2, 3] sampleBinary
      [⟨2, 1, 222222222, 555555555, 444444444⟩, ⟨3, 1, 222222223, 555555556, 444444445⟩] := by
    refine ⟨⟨fun g hg => ?_, hsched.holds.apart⟩, by decide, by decide, by decide⟩
    rcases List.mem_cons.mp hg with rfl | hg
    · exact hsched.holds.once _ List.mem_cons_self
    · obtain rfl := List.mem_singleton.mp hg
      exact hsched.holds.once ⟨3, 2, 222222223, 555555556, 444444445⟩
        (List.mem_cons_of_mem _ List.mem_cons_self)
  have hfits : List.Forall₂ sampleLayout.Fits
      [⟨2, 1, 222222222, 555555555, 444444444⟩, ⟨3, 1, 222222223, 555555556, 444444445⟩]
      (guidePatches
        [⟨"f1", 222222222, 555555555, 444444444⟩, ⟨"f1", 222222223, 555555556, 444444445⟩]
        [(⟨"sym.f1", 4096, 2⟩, false), (⟨"sym.f1", 4096, 2⟩, false)]) :=
    .cons ⟨rfl, by decide, by decide, fun _ => ⟨rfl, rfl⟩⟩
      (.cons ⟨rfl, by decide, by decide, fun _ => ⟨rfl, rfl⟩⟩ .nil)
  have hfits' : List.Forall₂ sampleLayout.Fits
      [⟨3, 1, 222222223, 555555556, 444444445⟩, ⟨2, 1, 222222222, 555555555, 444444444⟩]
      (guidePatches
        [⟨"f1", 222222223, 555555556, 444444445⟩, ⟨"f1", 222222222, 555555555, 444444444⟩]
        [(⟨"sym.f1", 4096, 2⟩, false), (⟨"sym.f1", 4096, 2⟩, false)]) :=
    .cons ⟨rfl, by decide, by decide, fun _ => ⟨rfl, rfl⟩⟩
      (.cons ⟨rfl, by decide, by decide, fun _ => ⟨rfl, rfl⟩⟩ .nil)
  have hname : PlainName ['f', '1'] := ⟨by decide, by decide, fun c hc => by cases hc; rfl⟩
  obtain ⟨result, result', hrun, hrun', hsame⟩ := guide_order_irrelevant sampleOrder sampleOrder
    false true sampleLayout_describes hsched' (.swap _ _ []) (by decide)
    (by simpa using hname) rfl rfl hfits hfits' (by decide)
  exact ⟨_, _, result, result', rfl, by decide, hrun, hrun', hsame⟩

end SelfChecksumming
