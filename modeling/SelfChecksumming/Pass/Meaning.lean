import SelfChecksumming.Pass.GuardCalls

/-! # What the instrumented program does

`guardMe` returns and touches nothing, and what else a guard does stays in its cells, so
that the program goes on as if it were not guarded, whatever its own instructions mean. -/
namespace SelfChecksumming
open Library

variable {Fn : Type} {σ ε : Type}

/-- The functions that are being executed, the state and the events of the program. -/
structure Alongside (a : Config Fn Instruction σ ε)
    (b : Config Fn Instruction (σ × Machine) (ε ⊕ GuardCall Fn)) : Prop where
  functions : b.frames.map Frame.function = a.frames.map Frame.function
  state : b.state.1 = a.state
  events : b.events.filterMap Sum.getLeft? = a.events

theorem alongside_of_woven {a : Config Fn Instruction σ ε}
    {b : Config Fn Instruction (σ × Machine) (ε ⊕ GuardCall Fn)}
    (h : Config.Woven (isInserted 0) Prod.fst Sum.getLeft? a b) : Alongside a b :=
  ⟨functions_of_woven h.frames, h.state, h.events⟩

/-- The guarded program `q` from `b` and the program `p` from `a` reach the same states by
the same events, and one ends when and where the other does. -/
structure SameRuns (p q : Program Fn Instruction) (sem : Semantics Fn Instruction σ ε)
    (calls : Calls Fn σ ε) (a : Config Fn Instruction σ ε)
    (b : Config Fn Instruction (σ × Machine) (ε ⊕ GuardCall Fn)) : Prop where
  forth : ∀ a', p.Runs sem a a' → ∃ b', q.Runs (beside calls sem) b b' ∧ Alongside a' b'
  back : ∀ b', q.Runs (beside calls sem) b b' → ∃ a', p.Runs sem a a' ∧ Alongside a' b'
  ends : ∀ a' ∈ p.result sem a, ∃ b' ∈ q.result (beside calls sem) b, Alongside a' b'
  dom : (q.result (beside calls sem) b).Dom ↔ (p.result sem a).Dom

section Programs

variable [LinearOrder Fn] [OrderBot Fn]

/-- Guards whose calls return at once, without a trace, are quiet in all runs. -/
theorem Guarded.weaves {M : Module Fn} {guards : Nat → Option (Guard Fn)}
    {q : Program Fn Instruction} (hq : Guarded M guards q) {calls : Calls Fn σ ε}
    (hcalls : ∀ k g, guards k = some g → ∀ s, calls "guardMe" g.args s = ⟨s, .next, []⟩)
    (sem : Semantics Fn Instruction σ ε) :
    Weaves (isInserted 0) Prod.fst Sum.getLeft? sem (beside calls sem) q (Honest M guards) where
  kept b b' hb h := hb.step hq h
  quiet F x rest frames t done hI hx := by
    obtain ⟨-, -, k, g, j, hg, -, heffect⟩ := (hI.frames _ List.mem_cons_self).guard hx calls sem
    have hcall : calls g.call.callee g.call.args t.1 = ⟨t.1, .next, []⟩ := hcalls k g hg t.1
    rw [heffect]
    split
    · rw [ofCall, hcall]
      exact ⟨rfl, rfl, rfl⟩
    · exact ⟨rfl, rfl, rfl⟩
  faithful F x s hx := by
    rw [beside_of_uninserted hx]
    refine ⟨rfl, rfl, ?_⟩
    rw [ofProgram, List.filterMap_map]
    exact List.filterMap_some

theorem Guarded.sameRuns {M : Module Fn} {guards : Nat → Option (Guard Fn)}
    {p q : Program Fn Instruction} (hq : Guarded M guards q) (hw : Woven (isInserted 0) p q)
    {calls : Calls Fn σ ε}
    (hcalls : ∀ k g, guards k = some g → ∀ s, calls "guardMe" g.args s = ⟨s, .next, []⟩)
    (sem : Semantics Fn Instruction σ ε) (F : Fn) (s : σ) (m : Machine) :
    SameRuns p q sem calls (p.start F s) (q.start F (s, m)) := by
  obtain ⟨hforth, hback, hends, hdom⟩ := (hq.weaves hcalls sem).simulates hw
    (hw.start F (s, m)) (hq.start F (s, m))
  refine ⟨fun a ha => ?_, fun b hb => ?_, fun a ha => ?_, hdom⟩
  · obtain ⟨b, hb, hab⟩ := hforth a ha
    exact ⟨b, hb, alongside_of_woven hab⟩
  · obtain ⟨a, ha, hab⟩ := hback b hb
    exact ⟨a, ha, alongside_of_woven hab⟩
  · obtain ⟨b, hb, hab⟩ := hends a ha
    exact ⟨b, hb, alongside_of_woven hab⟩

/-- Whatever the instructions of the program mean, the instrumented program and the
original one reach the same states by the same events, and one ends where the other does,
if `guardMe` hosts no guard and whatever it is called with returns and touches nothing. -/
theorem runOnModule_preserves_meaning {opts : Options} {env : Environment Fn} {M : Module Fn}
    {r : PassResult Fn} (hM : Uninstrumented M) (h : runOnModule opts env M = .ok r)
    (hspares : SparesGuardMe opts M r) {summary : Calls Fn σ ε}
    (hguardMe : ∀ args s, summary "guardMe" args s = ⟨s, .next, []⟩)
    (sem : Semantics Fn Instruction σ ε) (F : Fn) (s : σ) (m : Machine) :
    SameRuns M.program (r.program M) sem (linkage M r.hosts summary) (M.program.start F s)
      ((r.program M).start F (s, m)) := by
  obtain ⟨-, -, hst, -⟩ := runOnModule_ok h
  refine (guarded_of_injectGuards hM hst).sameRuns (runOnModule_woven hM h) (fun k g _ s => ?_)
    sem F s m
  rw [linkage_unchanged (hspares.notMem h)]
  exact hguardMe g.args s

theorem runOnModule_preserves_meaning_sample : ∃ r,
    runOnModule {} (sampleEnvironment .unopened) sampleModule = .ok r ∧
    ((r.program sampleModule).result
      (beside (linkage sampleModule r.hosts sampleCalls) sampleSemantics)
      ((r.program sampleModule).start 3 (0, .init))).Dom := by
  obtain ⟨r, hr⟩ : ∃ r, runOnModule {} (sampleEnvironment .unopened) sampleModule = .ok r :=
    ⟨_, rfl⟩
  have hreturn : ∀ args s, sampleCalls "guardMe" args s = ⟨s, .next, []⟩ := fun _ _ => rfl
  have hsame := runOnModule_preserves_meaning sampleModule_uninstrumented hr (absurd rfl) hreturn
    sampleSemantics 3 0 .init
  refine ⟨r, hr, hsame.dom.mpr ?_⟩
  have hend : sampleModule.program.steps sampleSemantics 2 (sampleModule.program.start 3 0) ∈
      sampleModule.program.result sampleSemantics (sampleModule.program.start 3 0) :=
    StateTransition.mem_eval.mpr ⟨sampleModule.program.runs_steps _ 2 _, rfl⟩
  exact Part.dom_iff_mem.mpr ⟨_, hend⟩

end Programs

end SelfChecksumming
