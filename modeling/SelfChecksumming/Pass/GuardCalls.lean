import SelfChecksumming.Pass.Execution
import Mathlib.Data.Finset.Piecewise

/-! # What the guards call

In a run of the instrumented program functions call each other and themselves, so the
guards of several activations may be half done at any time. They share their cells, but
a cell only ever gets the one value that its guard has for it. -/
namespace SelfChecksumming
open Library

variable {Fn σ ε : Type}

/-! ## The cells of a guard -/

/-- A result or a place in memory. -/
inductive Cell where
  | result (id : InstId)
  | memory (address : Value)
  deriving DecidableEq

def Machine.get (m : Machine) : Cell → Value
  | .result id => m.results id
  | .memory address => m.memory address

/-- The cell that the `j`-th instruction of the `k`-th guard writes, for `j < 9`. -/
def guardCell (k j : Nat) : Cell :=
  if 3 ≤ j ∧ j < 6 then .memory (.result (.guard k (j - 3))) else .result (.guard k j)

/-- The placeholders in the order in which `guardMe` takes them. -/
def Guard.slot (g : Guard Fn) : Nat → UInt32
  | 0 => g.address
  | 1 => g.length
  | _ => g.expectedHash

def Guard.args (g : Guard Fn) : List Value := [.i32 g.address, .i32 g.length, .i32 g.expectedHash]

/-- The call that it hands them to. -/
def Guard.call (g : Guard Fn) : GuardCall Fn := ⟨g.host, "guardMe", g.args⟩

/-- What the `j`-th instruction writes into its cell. -/
def Guard.value (g : Guard Fn) (k j : Nat) : Value :=
  if j < 3 then .result (.guard k j) else .i32 (g.slot (j % 3))

theorem guardCell_inj {k j k' j' : Nat} (hj : j < 9) (hj' : j' < 9)
    (h : guardCell k j = guardCell k' j') : k = k' ∧ j = j' := by
  unfold guardCell at h
  split at h <;> split at h <;>
    simp only [Cell.memory.injEq, Cell.result.injEq, Value.result.injEq, InstId.guard.injEq,
      reduceCtorEq] at h <;> omega

/-- What the instructions of the `k`-th guard do: three times `alloca`, `store` and `load`,
then the call. -/
inductive Guard.Role (g : Guard Fn) (k : Nat) : Nat → Opcode → Prop where
  | alloca (i : Nat) (name : String) (hi : i < 3) : Role g k i (.alloca name)
  | store (i : Nat) (hi : i < 3) :
    Role g k (3 + i) (.store (.i32 (g.slot i)) (.result (.guard k i)))
  | load (i : Nat) (hi : i < 3) : Role g k (6 + i) (.load (.result (.guard k i)))
  | call : Role g k 9 (.call "guardMe"
      [.result (.guard k 6), .result (.guard k 7), .result (.guard k 8)])

theorem Guard.role [LinearOrder Fn] [OrderBot Fn] {M : Module Fn} {g : Guard Fn} {k : Nat}
    {x : Instruction} (hx : x ∈ g.instructions M k) : ∃ j, x.id = .guard k j ∧ g.Role k j x.op := by
  simp only [Guard.instructions, guardInstructions, Bool.false_eq_true, if_false, List.mem_cons,
    List.not_mem_nil, or_false] at hx
  rcases hx with rfl | rfl | rfl | rfl | rfl | rfl | rfl | rfl | rfl | rfl
  · exact ⟨_, rfl, .alloca 0 "a" (by omega)⟩
  · exact ⟨_, rfl, .alloca 1 "b" (by omega)⟩
  · exact ⟨_, rfl, .alloca 2 "c" (by omega)⟩
  · exact ⟨_, rfl, .store 0 (by omega)⟩
  · exact ⟨_, rfl, .store 1 (by omega)⟩
  · exact ⟨_, rfl, .store 2 (by omega)⟩
  · exact ⟨_, rfl, .load 0 (by omega)⟩
  · exact ⟨_, rfl, .load 1 (by omega)⟩
  · exact ⟨_, rfl, .load 2 (by omega)⟩
  · exact ⟨_, rfl, .call⟩

/-! ## Done and ordered -/

/-- The instruction `id` has been executed, in this activation or in an earlier one. -/
def Done (guards : Nat → Option (Guard Fn)) (m : Machine) : InstId → Prop
  | .original _ => True
  | .guard k j => ∀ g, guards k = some g → j < 9 → m.get (guardCell k j) = g.value k j

section Done

variable {guards : Nat → Option (Guard Fn)} {g : Guard Fn} {k i : Nat} {m : Machine}

theorem Done.alloca (h : Done guards m (.guard k i)) (hg : guards k = some g) (hi : i < 3) :
    m.results (.guard k i) = .result (.guard k i) := by
  simpa [Machine.get, guardCell, Guard.value, hi, show ¬ 3 ≤ i by omega] using h g hg (by omega)

theorem Guard.value_store (g : Guard Fn) (k : Nat) (hi : i < 3) :
    g.value k (3 + i) = .i32 (g.slot i) := by
  rw [Guard.value, if_neg (by omega), show (3 + i) % 3 = i by omega]

theorem Guard.value_load (g : Guard Fn) (k : Nat) (hi : i < 3) :
    g.value k (6 + i) = .i32 (g.slot i) := by
  rw [Guard.value, if_neg (by omega), show (6 + i) % 3 = i by omega]

theorem guardCell_store (k : Nat) (hi : i < 3) :
    guardCell k (3 + i) = .memory (.result (.guard k i)) := by
  rw [guardCell, if_pos (by omega), Nat.add_sub_cancel_left]

theorem guardCell_load (k i : Nat) : guardCell k (6 + i) = .result (.guard k (6 + i)) :=
  if_neg (by omega)

theorem Done.store (h : Done guards m (.guard k (3 + i))) (hg : guards k = some g) (hi : i < 3) :
    m.memory (.result (.guard k i)) = .i32 (g.slot i) := by
  have hdone := h g hg (by omega)
  rwa [guardCell_store k hi, g.value_store k hi] at hdone

theorem Done.load (h : Done guards m (.guard k (6 + i))) (hg : guards k = some g) (hi : i < 3) :
    m.results (.guard k (6 + i)) = .i32 (g.slot i) := by
  have hdone := h g hg (by omega)
  rwa [guardCell_load, g.value_load k hi] at hdone

end Done

/-- An instruction whose guard has got that far writes its cell. -/
theorem Guard.Role.get_step {guards : Nat → Option (Guard Fn)} {g : Guard Fn} {k j : Nat}
    {m : Machine} {x : Instruction} (hx : g.Role k j x.op) (hid : x.id = .guard k j) (hg : guards k = some g)
    (hprev : ∀ i < j, Done guards m (.guard k i)) (c : Cell) :
    (m.step x).get c = if j < 9 ∧ c = guardCell k j then g.value k j else m.get c := by
  obtain ⟨id, op, md⟩ := x
  obtain rfl : id = .guard k j := hid
  cases hx with
  | alloca i name hi =>
    have hcell : guardCell k j = .result (.guard k j) := if_neg (by omega)
    have hvalue : g.value k j = .result (.guard k j) := if_pos hi
    rw [hcell, hvalue]
    cases c <;> simp [Machine.step, Machine.get, Function.update_apply, show j < 9 by omega]
  | store i hi =>
    have haddr := (hprev i (by omega)).alloca hg hi
    rw [guardCell_store k hi, g.value_store k hi]
    cases c <;> simp [Machine.step, Machine.eval, Machine.get, Function.update_apply, haddr,
      show 3 + i < 9 by omega]
  | load i hi =>
    have haddr := (hprev i (by omega)).alloca hg hi
    have hmem := (hprev (3 + i) (by omega)).store hg hi
    rw [guardCell_load, g.value_load k hi]
    cases c <;> simp [Machine.step, Machine.eval, Machine.get, Function.update_apply, haddr, hmem,
      show 6 + i < 9 by omega]
  | call =>
    rw [if_neg (by omega)]
    cases c <;> rfl

/-- It is done then, and nothing that was done is undone. -/
theorem Guard.Role.done {guards : Nat → Option (Guard Fn)} {g : Guard Fn} {k j : Nat} {m : Machine}
    {x : Instruction} (hx : g.Role k j x.op) (hid : x.id = .guard k j) (hg : guards k = some g)
    (hprev : ∀ i < j, Done guards m (.guard k i)) {id : InstId}
    (hold : Done guards m id ∨ id = x.id) : Done guards (m.step x) id := by
  cases id with
  | original n => trivial
  | guard k' j' =>
    intro g' hg' hj'
    rw [hx.get_step hid hg hprev]
    by_cases hcell : j < 9 ∧ guardCell k' j' = guardCell k j
    · obtain ⟨rfl, rfl⟩ := guardCell_inj hj' hcell.1 hcell.2
      obtain rfl : g = g' := Option.some.inj (hg.symm.trans hg')
      exact if_pos hcell
    · rw [if_neg hcell]
      rcases hold with hold | hold
      · exact hold g' hg' hj'
      · rw [hid] at hold
        obtain ⟨rfl, rfl⟩ := InstId.guard.inj hold
        exact absurd ⟨hj', rfl⟩ hcell

/-- The cells that a guard stores into and loads from are its own. -/
theorem owns_of_done {guards : Nat → Option (Guard Fn)} {g : Guard Fn} {k i : Nat} {m : Machine}
    (h : Done guards m (.guard k i)) (hg : guards k = some g) (hi : i < 3) :
    m.owns (.result (.guard k i)) = true := by
  have hcell : m.eval (.result (.guard k i)) = .result (.guard k i) := h.alloca hg hi
  rw [Machine.owns, hcell]

/-- The last instruction of a guard makes its call; the others are about its cells only. -/
theorem Guard.Role.effect {guards : Nat → Option (Guard Fn)} {g : Guard Fn} {k j : Nat}
    {s : σ × Machine} {x : Instruction} (hx : g.Role k j x.op) (hid : x.id = .guard k j)
    (hg : guards k = some g) (hprev : ∀ i < j, Done guards s.2 (.guard k i)) (calls : Calls Fn σ ε)
    (sem : Semantics Fn Instruction σ ε) :
    beside calls sem g.host x s = if j = 9 then ofCall calls x g.call s else ofMachine x s := by
  have hins : isInserted 0 x = true := by simp [isInserted, hid]
  obtain ⟨id, op, md⟩ := x
  rw [beside, if_pos hins]
  cases hx with
  | alloca i name hi => exact (if_neg (by omega)).symm
  | store i hi =>
    rw [if_neg (by omega)]
    exact if_pos (owns_of_done (hprev i (by omega)) hg hi)
  | load i hi =>
    rw [if_neg (by omega)]
    exact if_pos (owns_of_done (hprev i (by omega)) hg hi)
  | call =>
    have hload : ∀ i < 3, s.2.results (.guard k (6 + i)) = .i32 (g.slot i) := fun i hi =>
      (hprev (6 + i) (by omega)).load hg hi
    have hargs : [Value.result (.guard k 6), .result (.guard k 7), .result (.guard k 8)].map
        s.2.eval = g.args :=
      congrArg₂ List.cons (hload 0 (by omega)) (congrArg₂ List.cons (hload 1 (by omega))
        (congrArg₂ List.cons (hload 2 (by omega)) rfl))
    rw [if_pos rfl, Guard.call, ← hargs]

/-- Before an instruction of a guard stand the earlier ones, unless they have been seen. -/
def InOrder (seen : InstId → Prop) : List Instruction → Prop
  | [] => True
  | x :: rest => (∀ k j, x.id = .guard k j → ∀ i < j, seen (.guard k i)) ∧
    InOrder (fun id => seen id ∨ id = x.id) rest

theorem InOrder.mono {seen seen' : InstId → Prop} {l : List Instruction}
    (hsub : ∀ id, seen id → seen' id) (h : InOrder seen l) : InOrder seen' l := by
  induction l generalizing seen seen' with
  | nil => trivial
  | cons x l ih =>
    exact ⟨fun k j hid i hi => hsub _ (h.1 k j hid i hi),
      ih (fun id hid => hid.imp_left (hsub id)) h.2⟩

theorem inOrder_append {l more : List Instruction} {seen : InstId → Prop} :
    InOrder seen (l ++ more) ↔
      InOrder seen l ∧ InOrder (fun id => seen id ∨ ∃ x ∈ l, id = x.id) more := by
  induction l generalizing seen with
  | nil => simp [InOrder]
  | cons x l ih =>
    rw [List.cons_append, InOrder, InOrder, ih, and_assoc]
    simp only [List.mem_cons, exists_eq_or_imp, or_assoc]

/-- Groups that are in order can be put anywhere. -/
theorem InOrder.insert {seen : InstId → Prop} {above below : List Instruction}
    {groups : List (List Instruction)} (h : InOrder seen (above ++ below))
    (hgroups : ∀ group ∈ groups, InOrder (fun _ => False) group) :
    InOrder seen (above ++ groups.flatten ++ below) := by
  obtain ⟨habove, hbelow⟩ := inOrder_append.mp h
  have hflat : InOrder (fun _ => False) groups.flatten := by
    clear h habove hbelow
    induction groups with
    | nil => trivial
    | cons group groups ih =>
      obtain ⟨hgroup, hrest⟩ := List.forall_mem_cons.mp hgroups
      exact inOrder_append.mpr ⟨hgroup, (ih hrest).mono fun _ => False.elim⟩
  refine inOrder_append.mpr ⟨inOrder_append.mpr ⟨habove, hflat.mono fun _ => False.elim⟩,
    hbelow.mono fun id hid => ?_⟩
  rcases hid with hid | ⟨x, hx, rfl⟩
  · exact .inl hid
  · exact .inr ⟨x, List.mem_append_left _ hx, rfl⟩

theorem inOrder_guardInstructions (k : Nat) (address length expectedHash : UInt32)
    (name : String) :
    InOrder (fun _ => False) (guardInstructions k address length expectedHash name false) := by
  simp only [guardInstructions, Bool.false_eq_true, if_false, InOrder, InstId.guard.injEq]
  refine ⟨?_, ?_, ?_, ?_, ?_, ?_, ?_, ?_, ?_, ?_, trivial⟩ <;>
    · rintro _ _ ⟨rfl, rfl⟩ i hi
      omega

theorem inOrder_of_uninserted {seen : InstId → Prop} {l : List Instruction}
    (h : ∀ x ∈ l, isInserted 0 x = false) : InOrder seen l := by
  induction l generalizing seen with
  | nil => trivial
  | cons x l ih =>
    obtain ⟨hx, hl⟩ := List.forall_mem_cons.mp h
    refine ⟨fun k j hid => ?_, ih hl⟩
    simp [isInserted, hid] at hx

/-! ## The instrumented blocks -/

section Blocks

variable [LinearOrder Fn] [OrderBot Fn]

/-- What is left of the module is in order, block by block. -/
def BlocksInOrder (st : PassState Fn) : Prop :=
  ∀ F, ∀ block ∈ (st.deref F).blocks, InOrder (fun _ => False) block

theorem inOrder_groupsFrom {M : Module Fn} {n : Nat} {guards : List (Guard Fn)}
    {group : List Instruction} (hgroup : group ∈ groupsFrom M n guards) :
    InOrder (fun _ => False) group := by
  obtain ⟨j, hj, rfl⟩ := List.mem_mapIdx.mp hgroup
  exact inOrder_guardInstructions _ _ _ _ _

theorem BlocksInOrder.guardHost {env : Environment Fn} {M : Module Fn} {sens : List Fn}
    {map : SortedMap Fn (List Fn)} {st st' : PassState Fn} {F : Fn}
    (hname : ∀ G, (st.deref G).name = M.getName G) (ho : BlocksInOrder st)
    (h : SelfChecksumming.guardHost env sens map st F = .ok st') : BlocksInOrder st' := by
  rcases guardHost_ok h with ⟨-, rfl⟩ | ⟨checkees, BB, rest, c, cs, -, hBB, hc, hrun, rfl⟩
  · exact ho
  obtain ⟨new, hplant⟩ := planting_of_checkees hname hrun
  obtain ⟨hblock, -⟩ := getFirstNonPHIOrDbg_spec hc
  intro G block hmem
  have hold := ho G
  by_cases hG : G = F
  · subst hG
    rw [cs.2.setEntryBlock_self, hplant.deref, hBB, List.tail_cons] at hmem
    rw [hBB] at hold
    rcases List.mem_cons.mp hmem with rfl | hmem
    · have hBBorder := hold BB List.mem_cons_self
      rw [← hblock, ← c.above_below] at hBBorder
      rw [hplant.cursor, Cursor.plant_block]
      refine hBBorder.insert fun group hgroup => ?_
      have hfrom : group ∈ groupsFrom M st.guards.length new := by
        unfold Cursor.arrange at hgroup
        split at hgroup
        · exact hgroup
        · exact List.mem_reverse.mp hgroup
      exact inOrder_groupsFrom hfrom
    · exact hold block (List.mem_cons_of_mem _ hmem)
  · rw [cs.2.setEntryBlock_ne _ hG, hplant.deref] at hmem
    exact hold block hmem

theorem blocksInOrder_of_injectGuards {env : Environment Fn} {M : Module Fn} {sens : List Fn}
    {net : Network Fn} {st : PassState Fn} (hM : Uninstrumented M)
    (h : injectGuards env M sens net = .ok st) : BlocksInOrder st := by
  have hinv := foldlM_invariant
    (fun done st => Tally env M sens (done.flatMap (hostEdges net.checkerFuncMap)) st ∧
      BlocksInOrder st)
    (fun done F st st' hb hF => ⟨by simpa using hb.1.guardHost hF, hb.2.guardHost hb.1.name hF⟩)
    net.topologicalSortFuncs [] ⟨Tally.start env M sens, fun F block hblock =>
      inOrder_of_uninserted fun x hx => hM F x ⟨block, hblock, hx⟩⟩ h
  exact hinv.2

/-- A program with the guards of a run in it: what is inserted is part of a guard of the
function, and comes after the earlier parts of this guard. -/
structure Guarded (M : Module Fn) (guards : Nat → Option (Guard Fn))
    (q : Program Fn Instruction) : Prop where
  planted : ∀ F, ∀ block ∈ q F, ∀ x ∈ block, isInserted 0 x = true →
    ∃ (k : Nat) (g : Guard Fn), guards k = some g ∧ g.host = F ∧ x ∈ g.instructions M k
  ordered : ∀ F, ∀ block ∈ q F, InOrder (fun _ => False) block

theorem guarded_of_injectGuards {env : Environment Fn} {M : Module Fn} {sens : List Fn}
    {net : Network Fn} {st : PassState Fn} (hM : Uninstrumented M)
    (h : injectGuards env M sens net = .ok st) :
    Guarded M (st.guards[·]?) (programOf M.functions st.deref) where
  planted F block hblock x hx hins := by
    unfold programOf at hblock
    split at hblock
    · rcases (planted_of_injectGuards h F x).mp ⟨block, hblock, hx⟩ with hold | hnew
      · rw [hM F x hold] at hins
        cases hins
      · exact hnew
    · cases hblock
  ordered F block hblock := by
    unfold programOf at hblock
    split at hblock
    · exact blocksInOrder_of_injectGuards hM h F block hblock
    · cases hblock

/-- Functions whose code is replaced by code without guards host none any more. -/
theorem Guarded.piecewise {M : Module Fn} {guards : Nat → Option (Guard Fn)}
    {q q' : Program Fn Instruction} (hq : Guarded M guards q) {A : Finset Fn}
    (hb : ∀ F ∈ A, ∀ block ∈ q' F, ∀ x ∈ block, isInserted 0 x = false) :
    Guarded M (fun k => (guards k).filter (·.host ∉ A)) (A.piecewise q' q) where
  planted F block hblock x hx hins := by
    by_cases hF : F ∈ A
    · rw [A.piecewise_eq_of_mem _ _ hF] at hblock
      rw [hb F hF block hblock x hx] at hins
      cases hins
    · rw [A.piecewise_eq_of_notMem _ _ hF] at hblock
      obtain ⟨k, g, hg, rfl, hx⟩ := hq.planted F block hblock x hx hins
      exact ⟨k, g, by simp [hg, hF], rfl, hx⟩
  ordered F block hblock := by
    by_cases hF : F ∈ A
    · rw [A.piecewise_eq_of_mem _ _ hF] at hblock
      exact inOrder_of_uninserted (hb F hF block hblock)
    · rw [A.piecewise_eq_of_notMem _ _ hF] at hblock
      exact hq.ordered F block hblock

theorem Guarded.update {M : Module Fn} {guards : Nat → Option (Guard Fn)}
    {q : Program Fn Instruction} (hq : Guarded M guards q) (T : Fn)
    {blocks : List (List Instruction)}
    (hb : ∀ block ∈ blocks, ∀ x ∈ block, isInserted 0 x = false) :
    Guarded M (fun k => (guards k).filter (·.host ≠ T)) (Function.update q T blocks) := by
  have hsingle : Guarded M (fun k => (guards k).filter (·.host ∉ ({T} : Finset Fn)))
      (({T} : Finset Fn).piecewise (fun _ => blocks) q) := hq.piecewise fun _ _ => hb
  simpa only [Finset.piecewise_singleton, Finset.mem_singleton] using hsingle

/-- What is left of a function can be executed: the guards in it know what has been done. -/
structure Frame.Sound (M : Module Fn) (guards : Nat → Option (Guard Fn)) (m : Machine)
    (f : Frame Fn Instruction) : Prop where
  planted : ∀ x ∈ f.rest, isInserted 0 x = true →
    ∃ (k : Nat) (g : Guard Fn), guards k = some g ∧ g.host = f.function ∧ x ∈ g.instructions M k
  ordered : InOrder (Done guards m) f.rest

theorem Frame.Sound.mono {M : Module Fn} {guards : Nat → Option (Guard Fn)} {m m' : Machine}
    {f : Frame Fn Instruction} (hf : Frame.Sound M guards m f)
    (hdone : ∀ id, Done guards m id → Done guards m' id) : Frame.Sound M guards m' f :=
  ⟨hf.planted, hf.ordered.mono hdone⟩

theorem Guarded.enter {M : Module Fn} {guards : Nat → Option (Guard Fn)} {q : Program Fn Instruction}
    (hq : Guarded M guards q) (m : Machine) (F : Fn) (block : Nat) :
    Frame.Sound M guards m (q.enter F block) := by
  simp only [Program.enter]
  cases hb : (q F)[block]? with
  | none =>
    refine ⟨fun x hx => ?_, trivial⟩
    cases hx
  | some l =>
    have hl := List.mem_of_getElem? hb
    exact ⟨hq.planted F l hl, (hq.ordered F l hl).mono fun _ => False.elim⟩

/-- All frames can be executed, and all calls so far are those of guards. -/
structure Honest (M : Module Fn) (guards : Nat → Option (Guard Fn))
    (c : Config Fn Instruction (σ × Machine) (ε ⊕ GuardCall Fn)) : Prop where
  frames : ∀ f ∈ c.frames, Frame.Sound M guards c.state.2 f
  calls : ∀ call, .inr call ∈ c.events → ∃ k g, guards k = some g ∧ call = g.call

theorem Guarded.start {M : Module Fn} {guards : Nat → Option (Guard Fn)} {q : Program Fn Instruction}
    (hq : Guarded M guards q) (F : Fn) (s : σ × Machine) :
    Honest (ε := ε) M guards (q.start F s) :=
  ⟨List.forall_mem_singleton.mpr (hq.enter s.2 F 0), nofun⟩

/-- The step of a guard. -/
theorem Frame.Sound.guard {M : Module Fn} {guards : Nat → Option (Guard Fn)} {s : σ × Machine}
    {F : Fn} {x : Instruction} {rest : List Instruction}
    (hf : Frame.Sound M guards s.2 ⟨F, x :: rest⟩) (hins : isInserted 0 x = true)
    (calls : Calls Fn σ ε) (sem : Semantics Fn Instruction σ ε) :
    Frame.Sound M guards (s.2.step x) ⟨F, rest⟩ ∧
      (∀ id, Done guards s.2 id → Done guards (s.2.step x) id) ∧
      ∃ k g j, guards k = some g ∧ x.id = .guard k j ∧
        beside calls sem F x s = if j = 9 then ofCall calls x g.call s else ofMachine x s := by
  obtain ⟨k, g, hg, rfl, hx⟩ := hf.planted x List.mem_cons_self hins
  obtain ⟨j, hid, hrole⟩ := Guard.role hx
  have hprev : ∀ i < j, Done guards s.2 (.guard k i) := hf.ordered.1 k j hid
  refine ⟨⟨fun y hy => hf.planted y (List.mem_cons_of_mem _ hy), hf.ordered.2.mono fun id hold =>
    hrole.done hid hg hprev hold⟩, fun id hold => hrole.done hid hg hprev (.inl hold), ?_⟩
  exact ⟨k, g, j, hg, hid, hrole.effect hid hg hprev calls sem⟩

theorem Honest.step {M : Module Fn} {guards : Nat → Option (Guard Fn)} {q : Program Fn Instruction}
    (hq : Guarded M guards q) {calls : Calls Fn σ ε} {sem : Semantics Fn Instruction σ ε}
    {c c' : Config Fn Instruction (σ × Machine) (ε ⊕ GuardCall Fn)} (hc : Honest M guards c)
    (h : q.step (beside calls sem) c = some c') : Honest M guards c' := by
  obtain ⟨F, x, rest, frames, hframes, rfl⟩ := Program.step_ok h
  have hsound := hc.frames
  rw [hframes] at hsound
  obtain ⟨htop, hbelow⟩ := List.forall_mem_cons.mp hsound
  by_cases hins : isInserted 0 x = true
  · obtain ⟨htop', hmono, k, g, j, hg, -, heffect⟩ := htop.guard hins calls sem
    have hmachine : (beside calls sem F x c.state).state.2 = c.state.2.step x := by
      rw [heffect]
      split <;> rfl
    refine ⟨?_, fun call hcall => ?_⟩
    · rw [hmachine]
      exact q.proceed_forall (fun G block => hq.enter _ G block) htop'
        (fun f hf => (hbelow f hf).mono hmono) _
    · rcases List.mem_append.mp hcall with hcall | hcall
      · exact hc.calls call hcall
      · rw [heffect] at hcall
        split at hcall
        · rcases List.mem_cons.mp hcall with he | hcall
          · exact ⟨k, g, hg, Sum.inr.inj he⟩
          · obtain ⟨_, -, he⟩ := List.mem_map.mp hcall
            cases he
        · cases hcall
  · rw [beside_of_uninserted (Bool.not_eq_true _ ▸ hins)]
    refine ⟨q.proceed_forall (fun G block => hq.enter c.state.2 G block) ?_ hbelow _, ?_⟩
    · refine ⟨fun y hy => htop.planted y (List.mem_cons_of_mem _ hy), htop.ordered.2.mono ?_⟩
      intro id hold
      rcases hold with hold | rfl
      · exact hold
      · cases hid : x.id with
        | original n => trivial
        | guard k j => simp [isInserted, hid] at hins
    · intro call hcall
      rcases List.mem_append.mp hcall with hcall | hcall
      · exact hc.calls call hcall
      · obtain ⟨_, -, he⟩ := List.mem_map.mp hcall
        cases he

/-- It holds throughout the runs of a guarded program. -/
theorem Guarded.honest {M : Module Fn} {guards : Nat → Option (Guard Fn)}
    {q : Program Fn Instruction} (hq : Guarded M guards q) {calls : Calls Fn σ ε}
    {sem : Semantics Fn Instruction σ ε} {F : Fn} {s : σ × Machine}
    {c : Config Fn Instruction (σ × Machine) (ε ⊕ GuardCall Fn)}
    (h : q.Runs (beside calls sem) (q.start F s) c) : Honest M guards c :=
  Program.Runs.invariant (P := Honest M guards) (fun _ _ hb hs => hb.step hq hs) (hq.start F s) h

/-- A guarded program calls nothing but what its guards stand for. -/
theorem Guarded.calls {M : Module Fn} {guards : Nat → Option (Guard Fn)} {q : Program Fn Instruction}
    (hq : Guarded M guards q) {calls : Calls Fn σ ε} {sem : Semantics Fn Instruction σ ε} {F : Fn}
    {s : σ × Machine} {c : Config Fn Instruction (σ × Machine) (ε ⊕ GuardCall Fn)}
    (h : q.Runs (beside calls sem) (q.start F s) c) {call : GuardCall Fn}
    (hcall : .inr call ∈ c.events) : ∃ k g, guards k = some g ∧ call = g.call :=
  (hq.honest h).calls call hcall

/-- In every run of the instrumented program, from any function and whatever its
instructions and the functions called mean, the guards call nothing but `guardMe`, each of
them out of its host and with its own three placeholders. -/
theorem runOnModule_guard_calls {opts : Options} {env : Environment Fn} {M : Module Fn}
    {r : PassResult Fn} (hM : Uninstrumented M) (h : runOnModule opts env M = .ok r)
    (calls : Calls Fn σ ε) (sem : Semantics Fn Instruction σ ε) (F : Fn) (s : σ) (m : Machine)
    {c : Config Fn Instruction (σ × Machine) (ε ⊕ GuardCall Fn)}
    (hc : (r.program M).Runs (beside calls sem) ((r.program M).start F (s, m)) c) :
    ∀ call, .inr call ∈ c.events → ∃ g ∈ r.state.guards, call = g.call := by
  obtain ⟨-, -, hst, -⟩ := runOnModule_ok h
  intro call hcall
  obtain ⟨k, g, hg, he⟩ := (guarded_of_injectGuards hM hst).calls hc hcall
  exact ⟨g, List.mem_of_getElem? hg, he⟩

/-- Every instruction counts, and the terminators return. -/
def sampleSemantics : Semantics Nat Instruction Nat InstId := fun _ x n =>
  ⟨n + 1, if x.op = .terminator then .ret else .next, [x.id]⟩

/-- Functions that return at once. -/
def sampleCalls : Calls Nat Nat InstId := fun _ _ n => ⟨n, .next, []⟩

/-- Nothing is done so far. -/
def Machine.init : Machine := ⟨.result, fun address => address, []⟩

omit [LinearOrder Fn] [OrderBot Fn] in
theorem sampleModule_uninstrumented : Uninstrumented sampleModule := by
  intro F x hx
  obtain ⟨block, hblock, hx⟩ := hx
  rw [List.mem_singleton.mp hblock] at hx
  simp only [List.mem_cons, List.not_mem_nil, or_false] at hx
  rcases hx with rfl | rfl <;> rfl

/-- The first guard of the last function is called. -/
theorem runOnModule_guard_calls_sample : ∃ r call,
    runOnModule {} (sampleEnvironment .unopened) sampleModule = .ok r ∧
    call.args = [.i32 222222224, .i32 555555557, .i32 444444446] ∧
    ∃ g ∈ r.state.guards, call = g.call := by
  obtain ⟨r, hr⟩ : ∃ r, runOnModule {} (sampleEnvironment .unopened) sampleModule = .ok r :=
    ⟨_, rfl⟩
  have hcall : .inr ⟨3, "guardMe", [.i32 222222224, .i32 555555557, .i32 444444446]⟩ ∈
      ((r.program sampleModule).steps (beside sampleCalls sampleSemantics) 11
        ((r.program sampleModule).start 3 (0, .init))).events := by
    cases hr
    exact List.mem_of_getElem? (i := 1) rfl
  exact ⟨r, _, hr, rfl, runOnModule_guard_calls sampleModule_uninstrumented hr sampleCalls
    sampleSemantics 3 0 .init ((r.program sampleModule).runs_steps _ 11 _) _ hcall⟩

end Blocks

end SelfChecksumming
