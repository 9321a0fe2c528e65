import SelfChecksumming.Protected
import SelfChecksumming.Sealed

/-! # False alarms

A loaded network may have cycles, check a function from within or list its checkers in any
order. Then lines of the guide are left that write into a checkee whose hash has been
taken, and its guard passes when they happen to keep the checksum. -/
namespace SelfChecksumming
open Library

variable {Fn : Type}

/-! ## What is written too late -/

/-- The values in the order in which the script replaces them, with those of the guard
itself split where its hash is taken. -/
theorem placeholders_split (front later : List (Guard Fn)) (g : Guard Fn) :
    (front ++ g :: later).flatMap Guard.placeholders =
      (front.flatMap Guard.placeholders ++ [(g.address.toNat : Int), (g.length.toNat : Int)]) ++
        (g.expectedHash.toNat : Int) :: later.flatMap Guard.placeholders := by
  simp [Guard.placeholders]

section Late

variable [DecidableEq Fn]

/-- The placeholders in the checkee of `g` that are replaced once the hash of `g` has been
taken; `later` are the guards behind it. -/
def Guard.lateValues (g : Guard Fn) (later : List (Guard Fn)) : List Int :=
  (if g.host = g.checkee then [(g.expectedHash.toNat : Int)] else []) ++
    (later.filter fun g' => g'.host = g.checkee).flatMap Guard.placeholders

def Guard.lateWindows (g : Guard Fn) (binary : List UInt8) (later : List (Guard Fn)) : List Nat :=
  (g.lateValues later).flatMap (occurrences binary)

theorem Guard.mem_lateValues {g : Guard Fn} {later : List (Guard Fn)} {v : Int} :
    v ∈ g.lateValues later ↔ (g.host = g.checkee ∧ v = g.expectedHash.toNat) ∨
      ∃ g' ∈ later, g'.host = g.checkee ∧ v ∈ g'.placeholders := by
  rw [lateValues, List.mem_append, List.mem_flatMap]
  refine or_congr ?_ ?_
  · split <;> simp_all
  · simp only [List.mem_filter, decide_eq_true_eq, and_assoc]

theorem Guard.lateValues_sublist (g : Guard Fn) (later : List (Guard Fn)) :
    (g.lateValues later).Sublist
      ((g.expectedHash.toNat : Int) :: later.flatMap Guard.placeholders) := by
  have hhash : (if g.host = g.checkee then [(g.expectedHash.toNat : Int)] else []).Sublist
      [(g.expectedHash.toNat : Int)] := by
    split
    · exact .refl _
    · exact List.nil_sublist _
  exact hhash.append (List.filter_sublist.flatMap _)

theorem Guard.mem_lateWindows {g : Guard Fn} {binary : List UInt8} {later : List (Guard Fn)} {i : Nat}
    (hi : i ∈ g.lateWindows binary later) : ∃ g' ∈ g :: later, g'.host = g.checkee ∧
      ∃ v ∈ g'.placeholders, i ∈ occurrences binary v := by
  obtain ⟨v, hv, hi⟩ := List.mem_flatMap.mp hi
  rcases mem_lateValues.mp hv with ⟨hself, rfl⟩ | ⟨g', hg', hhost, hv⟩
  · exact ⟨g, List.mem_cons_self, hself, _, by simp [placeholders], hi⟩
  · exact ⟨g', List.mem_cons_of_mem _ hg', hhost, v, hv, hi⟩

variable {layout : Layout Fn} {binary : List UInt8} {front later : List (Guard Fn)} {g : Guard Fn}

theorem Layout.Holds.late_inside (h : layout.Holds binary (front ++ g :: later)) {i : Nat}
    (hi : i ∈ g.lateWindows binary later) :
    layout.start g.checkee ≤ i ∧ i + 4 ≤ layout.start g.checkee + layout.size g.checkee := by
  obtain ⟨g', hg', hhost, v, hv, hi⟩ := Guard.mem_lateWindows hi
  obtain ⟨a, ha, hin⟩ := h.once g' (List.mem_append_right _ hg') v hv
  rw [ha, List.mem_singleton] at hi
  rwa [hi, ← hhost]

theorem Layout.Holds.late_apart (h : layout.Holds binary (front ++ g :: later)) :
    (g.lateWindows binary later).Pairwise (Apart 4) := by
  have hapart := h.apart
  rw [placeholders_split] at hapart
  have hlate := (List.pairwise_append.mp hapart).2.1.sublist (g.lateValues_sublist later)
  refine List.pairwise_flatMap.mpr ⟨fun v hv => ?_, hlate⟩
  have hall : v ∈ (front ++ g :: later).flatMap Guard.placeholders := by
    rw [placeholders_split]
    exact List.mem_append_right _ ((g.lateValues_sublist later).subset hv)
  obtain ⟨g', hg', hv⟩ := List.mem_flatMap.mp hall
  obtain ⟨a, ha, -⟩ := h.once g' hg' v hv
  rw [ha]
  exact List.pairwise_singleton _ _

theorem Layout.Holds.early_apart (h : layout.Holds binary (front ++ g :: later)) {v : Int}
    (hv : v ∈ front.flatMap Guard.placeholders ++ [(g.address.toNat : Int), (g.length.toNat : Int)])
    {a i : Nat} (ha : a ∈ occurrences binary v) (hi : i ∈ g.lateWindows binary later) :
    Apart 4 a i := by
  have hapart := h.apart
  rw [placeholders_split] at hapart
  obtain ⟨w, hw, hi⟩ := List.mem_flatMap.mp hi
  exact (List.pairwise_append.mp hapart).2.2 v hv w ((g.lateValues_sublist later).subset hw) a ha i hi

end Late

/-! ## The exact condition -/

theorem mem_writesBeforeHash {addresses : Int → List Nat} {done : List Patch} {p : Patch}
    {w : Nat × List UInt8} (hw : w ∈ writesBeforeHash addresses done p) :
    ∃ v ∈ allPlaceholders done ++ [p.addPlaceholder, p.sizePlaceholder], w.1 ∈ addresses v := by
  rw [writesBeforeHash, List.mem_append, List.mem_append] at hw
  have hfield : ∀ field : Int × Nat, w ∈ fieldWrites addresses field → w.1 ∈ addresses field.1 := by
    intro field hw
    obtain ⟨a, ha, rfl⟩ := List.mem_map.mp hw
    exact ha
  rcases hw with (hw | hw) | hw
  · obtain ⟨field, hmem, hw⟩ := List.mem_flatMap.mp hw
    refine ⟨field.1, List.mem_append_left _ ?_, hfield field hw⟩
    rw [← fields_fst]
    exact List.mem_map_of_mem hmem
  · exact ⟨_, by simp, hfield _ hw⟩
  · exact ⟨_, by simp, hfield _ hw⟩

section Patched

variable [DecidableEq Fn] {layout : Layout Fn} {binary : List UInt8} {functions : List Fn}
  {loader : Nat → Nat} {r2 : Radare} {order : DictOrder} {pre post done rest : List Patch}
  {p r : Patch} {st : PatchState} {front later : List (Guard Fn)} {g : Guard Fn}

/-- When the hash is taken, the windows still hold their placeholders. -/
theorem Layout.Holds.late_untouched (h : layout.Holds binary (front ++ g :: later))
    (hdone : List.Forall₂ layout.Fits front done) (hgr : layout.Fits g r) (order : DictOrder)
    (patches : List Patch) {i : Nat} (hi : i ∈ g.lateWindows binary later) :
    readAt (writeAll binary (writesBeforeHash (foundAt order binary patches) done r)) i 4 =
      readAt binary i 4 := by
  refine readAt_congr fun b hb hb' => writeAll_getElem?_of_outside rfl
    (writesBeforeHash_fits order binary patches done r) fun w hw => ?_
  obtain ⟨v, hv, hw⟩ := mem_writesBeforeHash hw
  rw [fits_placeholders hdone, hgr.values.1, hgr.values.2.1] at hv
  rcases h.early_apart hv (mem_foundAt.mp hw).2 hi with hbefore | hbehind <;> omega

/-- Outside of these windows the checkee keeps the bytes that the hash was taken of. -/
theorem Patched.late_settled (hp : Patched r2 order binary (pre ++ p :: post) st)
    (hlayout : layout.Describes functions binary loader r2)
    (hholds : layout.Holds binary (front ++ g :: later))
    (hmem : ∀ g' ∈ front ++ g :: later, g'.host ∈ functions ∧ g'.checkee ∈ functions)
    (hrecords : st.dumpPatch = done ++ r :: rest) (hgr : layout.Fits g r)
    (hrest : List.Forall₂ layout.Fits later rest) {k : Nat} (hk : layout.Covers g.checkee k)
    (hout : ∀ i ∈ g.lateWindows binary later, k < i ∨ i + 4 ≤ k) :
    (writeAll binary (writesBeforeHash (foundAt order binary (pre ++ p :: post)) done r))[k]? =
      st.mm.bytes[k]? := by
  have hat : st.dumpPatch[done.length]? = some r := by simp [hrecords]
  have htake : st.dumpPatch.take done.length = done := by simp [hrecords]
  have hdrop : st.dumpPatch.drop (done.length + 1) = rest := by simp [hrecords]
  -- a window over the byte is one of those, or in another function
  have hwindow : ∀ v ∈ r.hashPlaceholder :: allPlaceholders rest, ∀ i ∈ occurrences binary v,
      k < i ∨ i + 4 ≤ k := by
    intro v hv i hi
    rw [hgr.values.2.2, fits_placeholders hrest] at hv
    obtain ⟨g', hg', hv', hlate⟩ : ∃ g' ∈ g :: later, v ∈ g'.placeholders ∧
        (g'.host = g.checkee → v ∈ g.lateValues later) := by
      rcases List.mem_cons.mp hv with rfl | hv
      · exact ⟨g, List.mem_cons_self, by simp [Guard.placeholders], fun hself =>
          Guard.mem_lateValues.mpr (.inl ⟨hself, rfl⟩)⟩
      · obtain ⟨g', hg', hv⟩ := List.mem_flatMap.mp hv
        exact ⟨g', List.mem_cons_of_mem _ hg', hv, fun hhost =>
          Guard.mem_lateValues.mpr (.inr ⟨g', hg', hhost, hv⟩)⟩
    have hall : g' ∈ front ++ g :: later := List.mem_append_right _ hg'
    by_cases hhost : g'.host = g.checkee
    · exact hout i (List.mem_flatMap.mpr ⟨v, hlate hhost, hi⟩)
    · exact hholds.outside hlayout hall (hmem g' hall).1 (hmem g (by simp)).2 hhost hv' hi hk
  have hread : readAt st.mm.bytes k 1 = readAt (writeAll binary (writesBeforeHash
      (foundAt order binary (pre ++ p :: post)) (st.dumpPatch.take done.length) r)) k 1 := by
    refine hp.settled hat fun v hv i hi j hj hj' => ?_
    obtain rfl : j = k := by omega
    rw [hdrop] at hv
    exact hwindow v hv i hi
  rw [htake] at hread
  have hfirst := congrArg (·[0]?) hread
  simpa [readAt_getElem?] using hfirst.symm

/-- The script leaves a guard that passes if and only if, in what it checks, the windows
that are written too late have the checksum in the end that they had at first. -/
theorem Patched.passes_iff (hp : Patched r2 order binary (pre ++ p :: post) st)
    (hlayout : layout.Describes functions binary loader r2)
    (hholds : layout.Holds binary (front ++ g :: later))
    (hmem : ∀ g' ∈ front ++ g :: later, g'.host ∈ functions ∧ g'.checkee ∈ functions)
    (hpre : List.Forall₂ layout.Fits front pre) (hgp : layout.Fits g p)
    (hpost : List.Forall₂ layout.Fits later post) :
    g.Passes loader binary st.mm.bytes ↔ p.dummy = true ∨
      xorBytes ((g.lateWindows binary later).flatMap (readAt st.mm.bytes · 4)) =
        xorBytes ((g.lateWindows binary later).flatMap (readAt binary · 4)) := by
  obtain ⟨done, r, rest, hrecords, hdone, hpr, hrest⟩ := forall₂_middle hp.records
  have hgr := hgp.sameBut hpr
  have hfits : List.Forall₂ layout.Fits (front ++ g :: later) (pre ++ p :: post) :=
    List.rel_append hpre (.cons hgp hpost)
  have hg : g ∈ front ++ g :: later := by simp
  have hdummy : r.dummy = p.dummy := by rw [hpr]
  have hat : st.dumpPatch[done.length]? = some r := by simp [hrecords]
  obtain ⟨i, hi, -⟩ := hholds.once g hg g.address.toNat (by simp [Guard.placeholders])
  obtain ⟨j, hj, -⟩ := hholds.once g hg g.length.toNat (by simp [Guard.placeholders])
  obtain ⟨k, hk, -⟩ := hholds.once g hg g.expectedHash.toNat (by simp [Guard.placeholders])
  obtain ⟨hadd, hsize, hhash⟩ := hgr.values
  have hpasses : g.Passes loader binary st.mm.bytes ↔
      guardMe (loadedAt loader st.mm.bytes) (constantAt st.mm.bytes i) (constantAt st.mm.bytes j)
        (constantAt st.mm.bytes k) = false := by
    simp [Guard.Passes, hi, hj, hk]
  rw [hpasses, hp.guardMe_eq (windowsApart_of_holds hholds hfits)
    (fits_placeholders hfits ▸ hholds.nodup) hat hgr.add hgr.size (by simp [hadd, hi])
    (by simp [hsize, hj]) (by simp [hhash, hk]), decide_eq_false_iff_not, not_not, ← hdummy]
  cases hd : r.dummy with
  | true =>
    rw [hp.hashTarget_dummy hat hd]
    simp [Patch.writtenSize, hd, bytesFrom, xorBytes]
  | false =>
    have htake : st.dumpPatch.take done.length = done := by simp [hrecords]
    have hcheckee := (hmem g hg).2
    obtain ⟨haddTarget, hsizeTarget⟩ := hgr.checkee hd
    have hlen := length_writeAll rfl
      (writesBeforeHash_fits order binary (pre ++ p :: post) (st.dumpPatch.take done.length) r)
    have hfirst : ∀ i ∈ g.lateWindows binary later, readAt (writeAll binary (writesBeforeHash
        (foundAt order binary (pre ++ p :: post)) (st.dumpPatch.take done.length) r)) i 4 =
          readAt binary i 4 := by
      intro i hi
      rw [htake]
      exact hholds.late_untouched (fits_records hpre hdone) hgr order _ hi
    have hhashed := hp.hashTarget_eq hat hd haddTarget hsizeTarget (hlayout.reads _ hcheckee _ hlen)
    rw [Patch.writtenSize, if_neg (by simp [hd]), haddTarget, hsizeTarget,
      hlayout.bytesFrom_eq hcheckee hp.length, hhashed, UInt8.ofNat_toNat, eq_comm,
      ← UInt8.xor_eq_zero_iff,
      xorBytes_windows (hlen.trans hp.length.symm) (hlen ▸ hlayout.inside _ hcheckee)
        (fun i hi => hholds.late_inside hi) hholds.late_apart fun b hb hb' hout => ?_]
    · rw [UInt8.xor_eq_zero_iff, List.flatMap_congr hfirst]
      simp [eq_comm]
    · rw [htake]
      exact hp.late_settled hlayout hholds hmem hrecords hgr (fits_records hpost hrest) ⟨hb, hb'⟩ hout

end Patched

/-! ## Whole runs -/

section Deployment

variable [LinearOrder Fn] [OrderBot Fn] {functions : List Fn} {layout : Layout Fn}
  {binary : List UInt8} {loader : Nat → Nat} {r2 : Radare} {infos : List (FuncInfo × Bool)}
  {opts : Options} {env : Environment Fn} {M : Module Fn} {r : PassResult Fn}

/-- The script completes, in whatever order the guards are. -/
theorem Deployment.patched (d : Deployment functions r.state layout binary loader r2 infos)
    (h : runOnModule opts env M = .ok r) (order : DictOrder) (dumpMode : Bool) :
    ∃ st result, patchBinary r2 order binary (guidePatches r.state.guide infos) = .ok st ∧
      dumpPipe r2 order dumpMode binary (some (guideText r.state.guide)) = .ok result ∧
      result.binary = st.mm.bytes := by
  have hfits := d.fits h
  have hvalues : ∀ v ∈ allPlaceholders (guidePatches r.state.guide infos),
      ∃ g ∈ r.state.guards, v ∈ g.placeholders := by
    intro v hv
    rw [fits_placeholders hfits] at hv
    exact List.mem_flatMap.mp hv
  obtain ⟨st, hst⟩ : ∃ st,
      patchBinary r2 order binary (guidePatches r.state.guide infos) = .ok st := by
    refine patchBinary_total r2 order d.describes.nonempty (fun v hv => ?_) (fun v hv => ?_)
      (fits_targets hfits) (fun file hlen p _ => d.describes.answers file hlen _ _)
    · obtain ⟨g, -, hv⟩ := hvalues v hv
      exact Guard.placeholders_range hv
    · obtain ⟨g, hg, hv⟩ := hvalues v hv
      obtain ⟨i, hi, -⟩ := d.holds.once g hg v hv
      rw [hi]
      exact List.cons_ne_nil i []
  have hread := (readGuide_guideText d.plain d.resolve).2
  exact ⟨st, _, hst, dumpPipe_ok.mpr ⟨_, st, hread, hst, rfl⟩, rfl⟩

/-- Whatever network a run has used, cyclic or in no good order: the script completes on
its guide, and a guard passes in the file if and only if its name is a mismatch, or what
is written too late into its checkee keeps the checksum. -/
theorem guard_passes_iff (h : runOnModule opts env M = .ok r) (order : DictOrder) (dumpMode : Bool)
    (d : Deployment functions r.state layout binary loader r2 infos) :
    ∃ result, dumpPipe r2 order dumpMode binary (some (guideText r.state.guide)) = .ok result ∧
      ∀ front g later, r.state.guards = front ++ g :: later →
        ∀ info, infos[front.length]? = some info →
          (g.Passes loader binary result.binary ↔ info.2 = true ∨
            xorBytes ((g.lateWindows binary later).flatMap (readAt result.binary · 4)) =
              xorBytes ((g.lateWindows binary later).flatMap (readAt binary · 4))) := by
  obtain ⟨st, result, hst, hrun, hbinary⟩ := d.patched h order dumpMode
  refine ⟨result, hrun, fun front g later hguards info hinfo => ?_⟩
  have hfits := d.fits h
  have hholds := d.holds
  have hmem := d.mem
  rw [hguards] at hfits hholds hmem
  obtain ⟨pre, p, post, hpatches, hpre, hgp, hpost⟩ := forall₂_middle hfits
  have hat : (guidePatches r.state.guide infos)[front.length]? = some p := by
    rw [hpatches, hpre.length_eq, List.getElem?_append_right (Nat.le_refl _), Nat.sub_self,
      List.getElem?_cons_zero]
  have hdummy : p.dummy = info.2 := by
    obtain ⟨line, info', hline, hinfo', rfl⟩ := List.getElem?_zipWith_eq_some.mp hat
    obtain rfl := Option.some.inj (hinfo.symm.trans hinfo')
    rfl
  rw [hbinary, ← hdummy]
  rw [hpatches] at hst
  exact (patchBinary_ok hst).passes_iff d.describes hholds hmem hpre hgp hpost

/-- `f2` and `f3` check each other. -/
def mutualNetwork : Json :=
  .obj [("allCheckees", .arr [.str "f2", .str "f3"]),
    ("map", .obj [("f2", .arr [.str "f3"]), ("f3", .arr [.str "f2"])]),
    ("topologicalsort", .arr [.str "f2", .str "f3"])]

theorem mutual_deployed : ∃ r infos,
    runOnModule { loadCheckersNetwork := "network.json" } (sampleEnvironment (.parsed mutualNetwork))
      sampleModule = .ok r ∧
    r.state.guards = [⟨2, 3, 222222222, 555555555, 444444444⟩,
      ⟨3, 2, 222222223, 555555556, 444444445⟩] ∧
    r.state.guide = [⟨"f3", 222222222, 555555555, 444444444⟩,
      ⟨"f2", 222222223, 555555556, 444444445⟩] ∧
    infos.map Prod.snd = [false, false] ∧
    Deployment [1, 2, 2, 3] r.state sampleLayout sampleBinary (fun address => address - 4096)
      sampleRadare infos := by
  obtain ⟨r, hr⟩ : ∃ r, runOnModule { loadCheckersNetwork := "network.json" }
      (sampleEnvironment (.parsed mutualNetwork)) sampleModule = .ok r := ⟨_, rfl⟩
  have hguards : r.state.guards = [⟨2, 3, 222222222, 555555555, 444444444⟩,
      ⟨3, 2, 222222223, 555555556, 444444445⟩] := by
    cases hr
    rfl
  have hguide : r.state.guide = [⟨"f3", 222222222, 555555555, 444444444⟩,
      ⟨"f2", 222222223, 555555556, 444444445⟩] := by
    cases hr
    rfl
  -- the hosts are those of the other run, and so are the placeholders
  obtain ⟨_, _, -, hsame, d, -⟩ := sample_deployed
  have hholds := d.holds
  rw [hsame] at hholds
  refine ⟨r, [(⟨"sym.f3", 4110, 12⟩, false), (⟨"sym.f2", 4098, 12⟩, false)], hr, hguards, hguide, rfl,
    ⟨?_, sampleLayout_describes, ⟨?_, ?_⟩, ?_, ?_, ?_⟩⟩
  · rw [hguards]
    decide
  · rw [hguards, List.forall_mem_cons, List.forall_mem_singleton]
    exact ⟨hholds.once ⟨2, 1, 222222222, 555555555, 444444444⟩ List.mem_cons_self,
      hholds.once ⟨3, 2, 222222223, 555555556, 444444445⟩ (List.mem_cons_of_mem _ List.mem_cons_self)⟩
  · rw [hguards]
    exact hholds.apart
  · rw [hguide, List.forall_mem_cons, List.forall_mem_singleton]
    exact ⟨⟨by decide, by decide, fun c hc => by cases hc; rfl⟩,
      ⟨by decide, by decide, fun c hc => by cases hc; rfl⟩⟩
  · rw [hguide]
    rfl
  · rw [hguards]
    exact .cons ⟨⟨by decide, by decide⟩, fun _ => ⟨rfl, rfl⟩⟩
      (.cons ⟨⟨by decide, by decide⟩, fun _ => ⟨rfl, rfl⟩⟩ .nil)

/-- The one whose hash is taken first raises a false alarm. -/
theorem guard_passes_iff_sample : ∃ r result,
    runOnModule { loadCheckersNetwork := "network.json" } (sampleEnvironment (.parsed mutualNetwork))
      sampleModule = .ok r ∧
    dumpPipe sampleRadare sampleOrder false sampleBinary (some (guideText r.state.guide)) =
      .ok result ∧
    r.state.guards = [⟨2, 3, 222222222, 555555555, 444444444⟩,
      ⟨3, 2, 222222223, 555555556, 444444445⟩] ∧
    ¬ Guard.Passes (⟨2, 3, 222222222, 555555555, 444444444⟩ : Guard Nat)
      (fun address => address - 4096) sampleBinary result.binary ∧
    Guard.Passes (⟨3, 2, 222222223, 555555556, 444444445⟩ : Guard Nat)
      (fun address => address - 4096) sampleBinary result.binary := by
  obtain ⟨r, infos, hr, hguards, hguide, hinfos, d⟩ := mutual_deployed
  obtain ⟨result, hrun, hpasses⟩ := guard_passes_iff hr sampleOrder false d
  have hbinary : result.binary =
      [1, 2, 14, 16, 0, 0, 12, 0, 0, 0, 124, 0, 0, 0, 2, 16, 0, 0, 12, 0, 0, 0, 110, 0, 0, 0] := by
    have heval : ((dumpPipe sampleRadare sampleOrder false sampleBinary (some (guideText
        [⟨"f3", 222222222, 555555555, 444444444⟩,
          ⟨"f2", 222222223, 555555556, 444444445⟩]))).toOption.map PatchResult.binary) =
            some [1, 2, 14, 16, 0, 0, 12, 0, 0, 0, 124, 0, 0, 0,
            2, 16, 0, 0, 12, 0, 0, 0, 110, 0, 0, 0] := by decide +kernel
    rw [← hguide, hrun] at heval
    exact Option.some.inj heval
  obtain ⟨first, second, rfl⟩ : ∃ first second, infos = [first, second] := by
    have hlen := congrArg List.length hinfos
    rw [List.length_map] at hlen
    exact List.length_eq_two.mp hlen
  simp only [List.map_cons, List.map_nil, List.cons.injEq, and_true] at hinfos
  refine ⟨r, result, hr, hrun, hguards, ?_, ?_⟩
  · rw [hpasses [] _ _ hguards first rfl, hinfos.1, hbinary]
    decide +kernel
  · rw [hpasses [_] _ [] hguards second rfl, hinfos.2, hbinary]
    decide +kernel

end Deployment

end SelfChecksumming
