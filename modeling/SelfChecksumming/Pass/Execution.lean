import SelfChecksumming.Library.Weaving
import SelfChecksumming.Pass.Restored

/-! # Executing an instrumented module

The instructions that the module came with may mean anything. Those of a guard are
executed by a machine that has the cells of the guards; what a call out of a guard does is
up to the function that is called. -/
namespace SelfChecksumming
open Library

variable {Fn : Type} {σ ε : Type}

/-- A call made by a guard, and the function it was made in. -/
structure GuardCall (Fn : Type) where
  host : Fn
  callee : String
  args : List Value

/-- What a function that a guard calls does, given its arguments. -/
abbrev Calls (Fn σ ε : Type) := String → List Value → σ → Effect Fn σ ε

/-- The pointer is to a cell of the guards. -/
def Machine.owns (m : Machine) (pointer : Value) : Bool :=
  match m.eval pointer with
  | .result (.guard _ _) => true
  | _ => false

/-- An instruction that does to the program whatever it means there. -/
def ofProgram (sem : Semantics Fn Instruction σ ε) :
    Semantics Fn Instruction (σ × Machine) (ε ⊕ GuardCall Fn) := fun F x s =>
  let effect := sem F x s.1
  ⟨(effect.state, s.2), effect.control, effect.events.map .inl⟩

/-- An instruction that is about the cells of the guards only. -/
def ofMachine (x : Instruction) (s : σ × Machine) :
    Effect Fn (σ × Machine) (ε ⊕ GuardCall Fn) :=
  ⟨(s.1, s.2.step x), .next, []⟩

/-- A call is noted, and made. -/
def ofCall (calls : Calls Fn σ ε) (x : Instruction) (call : GuardCall Fn) (s : σ × Machine) :
    Effect Fn (σ × Machine) (ε ⊕ GuardCall Fn) :=
  let effect := calls call.callee call.args s.1
  ⟨(effect.state, s.2.step x), effect.control, .inr call :: effect.events.map .inl⟩

/-- The program beside its guards. An inserted instruction is told by its opcode: one that
is none of those of a guard, or whose pointer leads elsewhere, acts on the program. -/
def beside (calls : Calls Fn σ ε) (sem : Semantics Fn Instruction σ ε) :
    Semantics Fn Instruction (σ × Machine) (ε ⊕ GuardCall Fn) := fun F x s =>
  if isInserted 0 x then
    match x.op with
    | .alloca _ => ofMachine x s
    | .store _ pointer => if s.2.owns pointer then ofMachine x s else ofProgram sem F x s
    | .load pointer => if s.2.owns pointer then ofMachine x s else ofProgram sem F x s
    | .call callee args => ofCall calls x ⟨F, callee, args.map s.2.eval⟩ s
    | _ => ofProgram sem F x s
  else ofProgram sem F x s

theorem beside_of_uninserted {calls : Calls Fn σ ε} {sem : Semantics Fn Instruction σ ε} {F : Fn}
    {x : Instruction} (hx : isInserted 0 x = false) (s : σ × Machine) :
    beside calls sem F x s = ofProgram sem F x s := by
  rw [beside, if_neg (by simp [hx])]

/-! ## The two programs -/

section Programs

variable [LinearOrder Fn] [OrderBot Fn]

/-- What the functions of a module consist of. -/
def programOf (functions : List Fn) (deref : Fn → Function) : Program Fn Instruction := fun F =>
  if F ∈ functions then (deref F).blocks else []

def Module.program (M : Module Fn) : Program Fn Instruction := programOf M.functions M.deref

/-- The program that a run of the pass leaves. -/
def PassResult.program (M : Module Fn) (r : PassResult Fn) : Program Fn Instruction :=
  programOf M.functions r.state.deref

/-- What a guard consists of does not end a block. -/
theorem Planted.terminator {M : Module Fn} {st : PassState Fn} (hM : Uninstrumented M)
    (hp : Planted M st) {F : Fn} {x : Instruction} (hx : (st.deref F).Contains x)
    (hop : x.op = .terminator) : isInserted 0 x = false := by
  rcases (hp F x).mp hx with hx | ⟨k, g, -, -, hx⟩
  · exact hM F x hx
  · simp only [Guard.instructions, guardInstructions, Bool.false_eq_true, if_false, List.mem_cons,
      List.not_mem_nil, or_false] at hx
    rcases hx with rfl | rfl | rfl | rfl | rfl | rfl | rfl | rfl | rfl | rfl <;> cases hop

theorem Restorable.woven {M : Module Fn} {st : PassState Fn} (hM : Uninstrumented M)
    (hp : Planted M st) (hr : Restorable M st) :
    Woven (isInserted 0) M.program (programOf M.functions st.deref) where
  erase F := by
    unfold Module.program programOf
    split
    · exact hr.code F
    · rfl
  closed F block hblock x hx := by
    unfold programOf at hblock
    split at hblock
    · rename_i hF
      obtain ⟨body, t, rfl, ht⟩ := hr.terminated F hF block hblock
      rw [List.getLast?_concat] at hx
      obtain rfl := Option.some.inj hx
      exact hp.terminator hM ⟨_, hblock, by simp⟩ ht
    · cases hblock

theorem runOnModule_woven {opts : Options} {env : Environment Fn} {M : Module Fn}
    {r : PassResult Fn} (hM : Uninstrumented M) (h : runOnModule opts env M = .ok r) :
    Woven (isInserted 0) M.program (r.program M) := by
  obtain ⟨-, -, hst, -⟩ := runOnModule_ok h
  exact (runOnModule_restorable hM h).woven hM (planted_of_injectGuards hst)

/-- The functions that hold guards. -/
def PassResult.hosts (r : PassResult Fn) : Finset Fn := (r.state.guards.map Guard.host).toFinset

/-- Functions whose code has changed are entered; of all others `summary` says what comes
of calling them. -/
def linkage (M : Module Fn) (changed : Finset Fn) (summary : Calls Fn σ ε) : Calls Fn σ ε :=
  fun callee args s =>
    if M.getFunction callee ∈ changed then ⟨s, .call (M.getFunction callee), []⟩
    else summary callee args s

theorem linkage_unchanged {M : Module Fn} {changed : Finset Fn} {callee : String}
    (h : M.getFunction callee ∉ changed) (summary : Calls Fn σ ε) :
    linkage M changed summary callee = summary callee := by
  funext args s
  exact if_neg h

omit [OrderBot Fn] in
theorem PassResult.mem_hosts {r : PassResult Fn} {F : Fn} :
    F ∈ r.hosts ↔ ∃ g ∈ r.state.guards, g.host = F := by
  rw [hosts, List.mem_toFinset, List.mem_map]

/-- A constructed network leaves `guardMe` out; a loaded one must not make it a host. -/
def SparesGuardMe (opts : Options) (M : Module Fn) (r : PassResult Fn) : Prop :=
  opts.loadCheckersNetwork ≠ "" → M.getFunction "guardMe" ∉ r.hosts

theorem SparesGuardMe.notMem {opts : Options} {env : Environment Fn} {M : Module Fn}
    {r : PassResult Fn} (hs : SparesGuardMe opts M r) (h : runOnModule opts env M = .ok r) :
    M.getFunction "guardMe" ∉ r.hosts := by
  by_cases hload : opts.loadCheckersNetwork = ""
  · intro hmem
    obtain ⟨g, hg, hhost⟩ := PassResult.mem_hosts.mp hmem
    obtain ⟨r', hr', hc, -, ht⟩ := runOnModule_constructs env M hload
    obtain rfl : r = r' := Except.ok.inj (h.symm.trans hr')
    have heligible := eligible_of_checker (hc.edge (mem_injected.mp (ht.edge_mem hg)).2).1
    exact heligible.name (M.getFunction_mem hhost.symm (M.ne_bot heligible.mem)).2
  · exact hs hload

end Programs

end SelfChecksumming
