import SelfChecksumming.Protected
import SelfChecksumming.Sealed
import Mathlib.Logic.Relation

/-! # Rewriting several functions

The guards on a function are in other functions, and these can be rewritten too. What has
to be rewritten then are the functions that check them, and so on. -/
namespace SelfChecksumming
open Library

variable {Fn : Type}

/-! ## The file -/

/-- `tampered` differs from `patched` inside the functions of `A` only. -/
structure Layout.RewritesAll (layout : Layout Fn) (A : Finset Fn) (patched tampered : List UInt8) :
    Prop where
  length : tampered.length = patched.length
  outside : ∀ k, (∀ T ∈ A, ¬ layout.Covers T k) → tampered[k]? = patched[k]?

section File

variable {layout : Layout Fn} {binary : List UInt8} {functions : List Fn} {guards : List (Guard Fn)}
  {loader : Nat → Nat} {r2 : Radare} {A : Finset Fn} {patched tampered : List UInt8}

/-- Other functions are not affected. -/
theorem Layout.RewritesAll.readAt_eq (h : layout.RewritesAll A patched tampered)
    (hlayout : layout.Describes functions binary loader r2) (hA : ∀ T ∈ A, T ∈ functions) {F : Fn}
    (hF : F ∈ functions) (hFA : F ∉ A) {start n : Nat}
    (hin : ∀ k, start ≤ k → k < start + n → layout.Covers F k) :
    readAt tampered start n = readAt patched start n := by
  refine readAt_congr fun k hk hk' => h.outside k fun T hT hcovers => ?_
  have hne : F ≠ T := fun he => hFA (he ▸ hT)
  exact hlayout.disjoint F hF T (hA T hT) hne k ⟨hin k hk hk', hcovers⟩

/-- A guard hosted elsewhere passes if and only if its checkee keeps its checksum. -/
theorem Sealed.passes_iff (hsealed : Sealed layout binary guards patched)
    (hlayout : layout.Describes functions binary loader r2)
    (hsched : layout.Schedules functions binary guards)
    (hnum : ∀ g ∈ guards, layout.offset g.checkee < 2 ^ 32 ∧ layout.size g.checkee < 2 ^ 32)
    (hA : ∀ T ∈ A, T ∈ functions) (htamper : layout.RewritesAll A patched tampered) {g : Guard Fn}
    (hg : g ∈ guards) (hhost : g.host ∉ A) : g.Passes loader binary tampered ↔
      xorBytes (readAt tampered (layout.start g.checkee) (layout.size g.checkee)) =
        xorBytes (readAt patched (layout.start g.checkee) (layout.size g.checkee)) := by
  obtain ⟨hmem, hcheckee⟩ := hsched.mem g hg
  have hwindow : ∀ v ∈ g.placeholders, ∃ i, occurrences binary v = [i] ∧
      readAt tampered i 4 = readAt patched i 4 := by
    intro v hv
    obtain ⟨i, hi, hfirst, hlast⟩ := hsched.holds.once g hg v hv
    exact ⟨i, hi, htamper.readAt_eq hlayout hA hmem hhost fun k hk hk' => ⟨by omega, by omega⟩⟩
  obtain ⟨i, hi, hsi⟩ := hwindow g.address.toNat (by simp [Guard.placeholders])
  obtain ⟨j, hj, hsj⟩ := hwindow g.length.toNat (by simp [Guard.placeholders])
  obtain ⟨k, hk, hsk⟩ := hwindow g.expectedHash.toNat (by simp [Guard.placeholders])
  have hpasses : g.Passes loader binary tampered ↔ guardMe (loadedAt loader tampered)
      (constantAt tampered i) (constantAt tampered j) (constantAt tampered k) = false := by
    simp [Guard.Passes, hi, hj, hk]
  rw [hpasses, hsealed.guardMe_eq hlayout (htamper.length.trans hsealed.length) hg hcheckee
    (hnum g hg) (by simp [hi]) (by simp [hj]) (by simp [hk]) (by simp [hsi, hsj, hsk]),
    decide_eq_false_iff_not, not_not]

end File

/-! ## Checking -/

/-- `F` hosts a guard on `G`, which is not empty. -/
def Layout.Checks (layout : Layout Fn) (guards : List (Guard Fn)) (F G : Fn) : Prop :=
  0 < layout.size G ∧ ∃ g ∈ guards, g.host = F ∧ g.checkee = G

/-- `A` holds whatever checks one of its functions, directly or through others. -/
def Layout.Closed (layout : Layout Fn) (guards : List (Guard Fn)) (A : Finset Fn) : Prop :=
  ∀ T ∈ A, ∀ F, Relation.ReflTransGen (layout.Checks guards) F T → F ∈ A

theorem Layout.closed_iff {layout : Layout Fn} {guards : List (Guard Fn)} {A : Finset Fn} :
    layout.Closed guards A ↔
      ∀ g ∈ guards, g.checkee ∈ A → 0 < layout.size g.checkee → g.host ∈ A := by
  constructor
  · intro h g hg hcheckee hsize
    exact h g.checkee hcheckee g.host (.single ⟨hsize, g, hg, rfl, rfl⟩)
  · intro h T hT F hF
    induction hF using Relation.ReflTransGen.head_induction_on with
    | refl => exact hT
    | head hstep _ ih =>
      obtain ⟨hsize, g, hg, rfl, rfl⟩ := hstep
      exact h g hg ih hsize

/-! ## The program -/

section Program

variable [LinearOrder Fn] [OrderBot Fn]

/-- Whatever the functions of `A` become, in the file and in the program, and whatever is
called, no guard that is called in any run finds anything. -/
def Layout.Unnoticed (layout : Layout Fn) (loader : Nat → Nat) (binary file : List UInt8)
    (guards : List (Guard Fn)) (q : Program Fn Instruction) (A : Finset Fn) : Prop :=
  ∀ tampered, layout.RewritesAll A file tampered → ∀ q' : Program Fn Instruction,
    (∀ F ∈ A, ∀ block ∈ q' F, ∀ x ∈ block, isInserted 0 x = false) →
    ∀ {σ ε : Type} (calls : Calls Fn σ ε) (sem : Semantics Fn Instruction σ ε) (F : Fn) (s : σ)
      (m : Machine) c,
      Program.Runs (A.piecewise q' (patchedProgram binary tampered q)) (beside calls sem)
        (Program.start (A.piecewise q' (patchedProgram binary tampered q)) F (s, m)) c →
      ∀ call, .inr call ∈ c.events →
        ∃ g ∈ guards, call = (g.patched binary tampered).call ∧ g.Passes loader binary tampered

variable {functions : List Fn} {layout : Layout Fn} {binary : List UInt8} {loader : Nat → Nat}
  {r2 : Radare} {infos : List (FuncInfo × Bool)} {opts : Options} {env : Environment Fn}
  {M : Module Fn} {r : PassResult Fn} {A : Finset Fn}

/-- Control always goes on. -/
def straight : Semantics Fn Instruction Unit Empty := fun _ _ s => ⟨s, .next, []⟩

def straightCalls : Calls Fn Unit Empty := fun _ _ s => ⟨s, .next, []⟩

/-- A host that keeps its code calls its guards when nothing diverts control. -/
theorem guard_reached (hM : Uninstrumented M) (h : runOnModule opts env M = .ok r) {g : Guard Fn}
    (hg : g ∈ r.state.guards) (hhost : g.host ∉ A) {q' : Program Fn Instruction}
    (hq' : ∀ F ∈ A, ∀ block ∈ q' F, ∀ x ∈ block, isInserted 0 x = false)
    (binary file : List UInt8) :
    ∃ c, Program.Runs (A.piecewise q' (r.patched M binary file)) (beside straightCalls straight)
        (Program.start (A.piecewise q' (r.patched M binary file)) g.host ((), .init)) c ∧
      .inr (g.patched binary file).call ∈ c.events := by
  obtain ⟨-, -, hst, -⟩ := runOnModule_ok h
  obtain ⟨k, hk⟩ := List.mem_iff_getElem?.mp hg
  obtain ⟨BB, others, hb, hcall⟩ := guard_in_entry hM hst hk (List.mem_of_getElem? (i := 9) rfl)
  have hq : Guarded M (fun k => (r.state.guards[k]?.map (Guard.patched binary file)).filter
      (·.host ∉ A)) (A.piecewise q' (r.patched M binary file)) :=
    ((guarded_of_injectGuards hM hst).patched binary file).piecewise hq'
  have hstart : Program.start (A.piecewise q' (r.patched M binary file)) g.host ((), Machine.init) =
      (⟨[⟨g.host, BB.map (Instruction.patched binary file) ++ []⟩], ((), .init), []⟩ :
        Config Fn Instruction (Unit × Machine) (Empty ⊕ GuardCall Fn)) := by
    rw [Program.start, Program.enter, A.piecewise_eq_of_notMem _ _ hhost, PassResult.patched,
      patchedProgram, PassResult.program, programOf, if_pos (runOnModule_host_mem h hg), hb,
      List.append_nil]
    rfl
  have hhonest := hq.start (ε := Empty) g.host ((), Machine.init)
  rw [hstart] at hhonest
  have hreturn : Return (fun k => (r.state.guards[k]?.map (Guard.patched binary file)).filter
      (·.host ∉ A)) straightCalls := fun _ _ _ _ => rfl
  obtain ⟨s', more, hrun, -, hcalls⟩ := Honest.front hq hreturn [] _ _ _
    (fun x _ _ s => show (straight g.host x s).control = .next from rfl) hhonest
  refine ⟨_, Program.runs_steps _ _ (BB.map (Instruction.patched binary file)).length _, ?_⟩
  rw [hstart, hrun]
  exact List.mem_append_right _ (hcalls k _ (Guard.patched_left hk (decide_eq_true hhost))
    ⟨_, List.mem_map_of_mem hcall, rfl⟩).1

/-- Some functions of the patched program can be rewritten at will without any guard
noticing if and only if they are all of the functions that check one of them, directly or
through others. -/
theorem unnoticed_iff_closed (hM : Uninstrumented M) (h : runOnModule opts env M = .ok r)
    (htrust : Trusted opts env M) (order : DictOrder) (dumpMode : Bool)
    (d : Deployment functions r.state layout binary loader r2 infos)
    (hreal : ∀ info ∈ infos, info.2 = false) (hA : ∀ T ∈ A, T ∈ functions) :
    ∃ result, dumpPipe r2 order dumpMode binary (some (guideText r.state.guide)) = .ok result ∧
      (layout.Unnoticed loader binary result.binary r.state.guards (r.program M) A ↔
        layout.Closed r.state.guards A) := by
  have hsched := d.schedules h htrust
  obtain ⟨result, hrun, hsealed, -⟩ := dumpPipe_leaves_sealed order dumpMode d.describes hsched
    d.plain d.resolve (d.fits h) hreal
  have hnum := resolved_lt d.resolves hreal
  refine ⟨result, hrun, ?_⟩
  rw [layout.closed_iff]
  constructor
  · intro hun g hg hcheckee hsize
    by_contra hhost
    -- one byte of the checkee is changed
    obtain ⟨b, hb⟩ : ∃ b, result.binary[layout.start g.checkee]? ≠ some b := by
      by_cases hzero : result.binary[layout.start g.checkee]? = some 0
      · exact ⟨1, by rw [hzero]; decide⟩
      · exact ⟨0, hzero⟩
    have hcovers : layout.Covers g.checkee (layout.start g.checkee) := ⟨Nat.le_refl _, by omega⟩
    have htamper : layout.RewritesAll A result.binary
        (result.binary.set (layout.start g.checkee) b) := by
      refine ⟨List.length_set, fun k hk => List.getElem?_set_ne ?_⟩
      rintro rfl
      exact hk g.checkee hcheckee hcovers
    have hin : layout.start g.checkee + layout.size g.checkee ≤ result.binary.length := by
      rw [hsealed.length]
      exact d.describes.inside _ (hsched.mem g hg).2
    have hfails : ¬ g.Passes loader binary (result.binary.set (layout.start g.checkee) b) := by
      rw [hsealed.passes_iff d.describes hsched hnum hA htamper hg hhost]
      intro hsame
      refine layout.difference_set_ne hcovers hin hb ?_
      rw [(layout.rewrites_set hcovers result.binary b).difference_eq, hsame, UInt8.xor_self]
    have hempty : ∀ F ∈ A, ∀ block ∈ ([] : List (List Instruction)), ∀ x ∈ block,
        isInserted 0 x = false := fun _ _ block hblock => absurd hblock List.not_mem_nil
    obtain ⟨c, hc, hcall⟩ := guard_reached hM h hg hhost hempty binary
      (result.binary.set (layout.start g.checkee) b)
    obtain ⟨g', -, he, hpass⟩ := hun _ htamper _ hempty straightCalls straight g.host () .init c hc
      _ hcall
    -- another guard may be called with the same numbers
    exact hfails (hsched.passes_of_finds hg ((Guard.finds_of_call he loader).trans hpass.finds))
  · intro hclosed tampered htamper q' hq' σ ε calls sem F s m c hc call hcall
    obtain ⟨-, -, hst, -⟩ := runOnModule_ok h
    obtain ⟨k, g', hk, he⟩ := (((guarded_of_injectGuards hM hst).patched binary
      tampered).piecewise hq').calls hc hcall
    obtain ⟨g, hg, rfl, hhost⟩ := Guard.exists_of_patched hk
    have hhost : g.host ∉ A := of_decide_eq_true hhost
    refine ⟨g, hg, he, (hsealed.passes_iff d.describes hsched hnum hA htamper hg hhost).mpr ?_⟩
    by_cases hcheckee : g.checkee ∈ A
    · have hsize : layout.size g.checkee = 0 := by
        by_contra hsize
        exact hhost (hclosed g hg hcheckee (Nat.pos_of_ne_zero hsize))
      rw [hsize, readAt, readAt, List.take_zero, List.take_zero]
    · rw [htamper.readAt_eq d.describes hA (hsched.mem g hg).2 hcheckee fun k hk hk' => ⟨hk, hk'⟩]

/-- The last function is checked by none, and the first one by the second. -/
theorem unnoticed_iff_closed_sample : ∃ r result,
    runOnModule { desiredConnectivity := 1 } (sampleEnvironment .unopened) sampleModule = .ok r ∧
    dumpPipe sampleRadare sampleOrder false sampleBinary (some (guideText r.state.guide)) =
      .ok result ∧
    sampleLayout.Unnoticed (fun address => address - 4096) sampleBinary result.binary
      r.state.guards (r.program sampleModule) {3} ∧
    ¬ sampleLayout.Unnoticed (fun address => address - 4096) sampleBinary result.binary
      r.state.guards (r.program sampleModule) {1} := by
  obtain ⟨r, infos, hr, hguards, d, hreal⟩ := sample_deployed
  obtain ⟨result, hrun, hlast⟩ := unnoticed_iff_closed (A := {3}) sampleModule_uninstrumented hr
    (.inl rfl) sampleOrder false d hreal (by decide)
  obtain ⟨result', hrun', hfirst⟩ := unnoticed_iff_closed (A := {1}) sampleModule_uninstrumented hr
    (.inl rfl) sampleOrder false d hreal (by decide)
  obtain rfl : result = result' := Except.ok.inj (hrun.symm.trans hrun')
  refine ⟨r, result, hr, hrun, hlast.mpr (Layout.closed_iff.mpr ?_), fun hun => ?_⟩
  · rw [hguards]
    decide
  · have hclosed := Layout.closed_iff.mp (hfirst.mp hun)
    rw [hguards] at hclosed
    exact absurd (hclosed _ List.mem_cons_self (by decide) (by decide)) (by decide)

end Program

end SelfChecksumming
