import SelfChecksumming.Pass.Injection

/-! # The instrumented module

What the injection loop puts into the blocks: for every guard its ten instructions, in
the entry block of its host. -/
namespace SelfChecksumming
open Library

/-! ## One entry block -/

/-- The groups inserted one after the other, all at the saved instruction. -/
def Cursor.plant (c : Cursor) (groups : List (List Instruction)) : Cursor :=
  groups.foldl Cursor.insertAt c

theorem Cursor.plant_append (c : Cursor) (groups : List (List Instruction))
    (group : List Instruction) : c.plant (groups ++ [group]) = (c.plant groups).insertAt group :=
  List.foldl_append

theorem Cursor.mem_insertAt {c : Cursor} {insts : List Instruction} {x : Instruction} :
    x ∈ (c.insertAt insts).block ↔ x ∈ c.block ∨ x ∈ insts := by
  unfold insertAt block
  split <;> simp only [List.mem_append, List.mem_cons] <;> tauto

theorem Cursor.mem_plant {x : Instruction} : ∀ {groups : List (List Instruction)} {c : Cursor},
    x ∈ (c.plant groups).block ↔ x ∈ c.block ∨ ∃ group ∈ groups, x ∈ group := by
  intro groups
  induction groups with
  | nil => intro c; simp [plant]
  | cons group groups ih =>
    intro c
    have hstep : c.plant (group :: groups) = (c.insertAt group).plant groups := rfl
    rw [hstep, ih, mem_insertAt]
    simp only [List.mem_cons, exists_eq_or_imp, or_assoc]

variable {Fn : Type} [LinearOrder Fn] [OrderBot Fn]

/-- What `injectGuard` inserts for the `k`-th guard of the run. -/
def Guard.instructions (M : Module Fn) (k : Nat) (g : Guard Fn) : List Instruction :=
  guardInstructions k g.address g.length g.expectedHash (M.getName g.checkee) false

/-- The groups of some guards, the first of them the `n`-th of the run. -/
def groupsFrom (M : Module Fn) (n : Nat) (guards : List (Guard Fn)) : List (List Instruction) :=
  guards.mapIdx fun j g => g.instructions M (n + j)

theorem groupsFrom_append (M : Module Fn) (n : Nat) (guards : List (Guard Fn)) (g : Guard Fn) :
    groupsFrom M n (guards ++ [g]) =
      groupsFrom M n guards ++ [g.instructions M (n + guards.length)] := by
  simp [groupsFrom, List.mapIdx_append]

/-- The guards of one host, all planted at the instruction saved before them. -/
structure Planting (M : Module Fn) (F : Fn) (c : Cursor) (st : PassState Fn)
    (cs : Cursor × PassState Fn) (new : List (Guard Fn)) : Prop where
  deref : cs.2.deref = st.deref
  guards : cs.2.guards = st.guards ++ new
  hosts : ∀ g ∈ new, g.host = F
  cursor : cs.1 = c.plant (groupsFrom M st.guards.length new)

theorem Planting.guardCheckee {env : Environment Fn} {M : Module Fn} {sens : List Fn}
    {F Checkee : Fn} {c : Cursor} {st : PassState Fn} {cs cs' : Cursor × PassState Fn}
    {new : List (Guard Fn)} (hname : ∀ G, (st.deref G).name = M.getName G)
    (hp : Planting M F c st cs new)
    (h : SelfChecksumming.guardCheckee env sens F cs Checkee = .ok cs') :
    ∃ g, Planting M F c st cs' (new ++ [g]) := by
  obtain ⟨-, rfl⟩ := guardCheckee_ok h
  refine ⟨⟨F, Checkee, cs.2.addressBegin, cs.2.sizeBegin, cs.2.expectedHashBegin⟩, hp.deref, ?_,
    ?_, ?_⟩
  · show cs.2.guards ++ _ = _
    rw [hp.guards, List.append_assoc]
  · intro g hg
    rcases List.mem_append.mp hg with hg | hg
    · exact hp.hosts g hg
    · rw [List.mem_singleton.mp hg]
  · rw [groupsFrom_append, Cursor.plant_append, ← hp.cursor, hp.deref, hname, hp.guards,
      List.length_append]
    rfl

theorem planting_of_checkees {env : Environment Fn} {M : Module Fn} {sens : List Fn} {F : Fn}
    {checkees : List Fn} {c : Cursor} {st : PassState Fn} {cs : Cursor × PassState Fn}
    (hname : ∀ G, (st.deref G).name = M.getName G)
    (h : checkees.foldlM (guardCheckee env sens F) (c, st) = .ok cs) :
    ∃ new, Planting M F c st cs new := by
  refine foldlM_invariant (fun _ cs => ∃ new, Planting M F c st cs new)
    (fun done v b b' hb hv => ?_) checkees [] ⟨[], ?_⟩ h
  · obtain ⟨new, hb⟩ := hb
    obtain ⟨g, hg⟩ := hb.guardCheckee hname hv
    exact ⟨_, hg⟩
  · exact ⟨rfl, (List.append_nil _).symm, by simp, rfl⟩

/-! ## The module -/

/-- The module holds the instructions it came with and those of the guards, each group in
the host of its guard. -/
def Planted (M : Module Fn) (st : PassState Fn) : Prop :=
  ∀ F x, (st.deref F).Contains x ↔ (M.deref F).Contains x ∨
    ∃ (k : Nat) (g : Guard Fn), st.guards[k]? = some g ∧ g.host = F ∧ x ∈ g.instructions M k

theorem mem_groupsFrom {M : Module Fn} {guards new : List (Guard Fn)} {x : Instruction} :
    (∃ group ∈ groupsFrom M guards.length new, x ∈ group) ↔
      ∃ k g, guards.length ≤ k ∧ (guards ++ new)[k]? = some g ∧ x ∈ g.instructions M k := by
  simp only [groupsFrom, List.mem_mapIdx]
  constructor
  · intro h
    obtain ⟨_, ⟨j, hj, rfl⟩, hx⟩ := h
    refine ⟨guards.length + j, new[j], Nat.le_add_right _ _, ?_, hx⟩
    rw [List.getElem?_append_right (Nat.le_add_right _ _), Nat.add_sub_cancel_left,
      List.getElem?_eq_getElem hj]
  · intro h
    obtain ⟨k, g, hk, hg, hx⟩ := h
    rw [List.getElem?_append_right hk] at hg
    obtain ⟨hj, rfl⟩ := List.getElem?_eq_some_iff.mp hg
    exact ⟨_, ⟨k - guards.length, hj, rfl⟩, by rwa [Nat.add_sub_cancel' hk]⟩

/-- A guard is an old one, or a new one, and then its host is this one. -/
theorem Planting.mem_instructions {M : Module Fn} {F : Fn} {c : Cursor} {st : PassState Fn}
    {cs : Cursor × PassState Fn} {new : List (Guard Fn)} (hp : Planting M F c st cs new) {G : Fn}
    {x : Instruction} :
    (∃ (k : Nat) (g : Guard Fn), cs.2.guards[k]? = some g ∧ g.host = G ∧
        x ∈ g.instructions M k) ↔
      (∃ (k : Nat) (g : Guard Fn), st.guards[k]? = some g ∧ g.host = G ∧
        x ∈ g.instructions M k) ∨
      G = F ∧ ∃ group ∈ groupsFrom M st.guards.length new, x ∈ group := by
  rw [hp.guards, mem_groupsFrom]
  have hnew : ∀ (k : Nat) (g : Guard Fn), st.guards.length ≤ k →
      (st.guards ++ new)[k]? = some g → g.host = F := by
    intro k g hk hg
    rw [List.getElem?_append_right hk] at hg
    exact hp.hosts g (List.mem_of_getElem? hg)
  constructor
  · intro h
    obtain ⟨k, g, hg, rfl, hx⟩ := h
    by_cases hk : k < st.guards.length
    · exact .inl ⟨k, g, by rwa [List.getElem?_append_left hk] at hg, rfl, hx⟩
    · have hk := Nat.not_lt.mp hk
      exact .inr ⟨hnew k g hk hg, k, g, hk, hg, hx⟩
  · intro h
    rcases h with ⟨k, g, hg, hG, hx⟩ | ⟨rfl, k, g, hk, hg, hx⟩
    · have hlt := (List.getElem?_eq_some_iff.mp hg).1
      exact ⟨k, g, by rwa [List.getElem?_append_left hlt], hG, hx⟩
    · exact ⟨k, g, hg, hnew k g hk hg, hx⟩

theorem Planted.guardHost {env : Environment Fn} {M : Module Fn} {sens : List Fn}
    {map : SortedMap Fn (List Fn)} {st st' : PassState Fn} {F : Fn}
    (hname : ∀ G, (st.deref G).name = M.getName G) (hp : Planted M st)
    (h : SelfChecksumming.guardHost env sens map st F = .ok st') : Planted M st' := by
  rcases guardHost_ok h with ⟨-, rfl⟩ | ⟨checkees, BB, rest, I, cs, -, hBB, hI, hrun, rfl⟩
  · exact hp
  obtain ⟨new, hplant⟩ := planting_of_checkees hname hrun
  obtain ⟨hblock, -⟩ := getFirstNonPHIOrDbg_spec hI
  intro G x
  show ((cs.2.setEntryBlock F cs.1.block).deref G).Contains x ↔ _ ∨ ∃ k g, cs.2.guards[k]? = _ ∧ _
  rw [hplant.mem_instructions, ← or_assoc, ← hp G x]
  by_cases hG : G = F
  · subst hG
    rw [cs.2.setEntryBlock_self, hplant.deref]
    simp only [Function.Contains, hBB, List.tail_cons, List.mem_cons, exists_eq_or_imp, true_and]
    rw [hplant.cursor, Cursor.mem_plant, hblock]
    exact or_right_comm
  · rw [cs.2.setEntryBlock_ne _ hG, hplant.deref]
    simp only [hG, false_and, or_false]

/-- The loop leaves the module with its guards planted. -/
theorem planted_of_injectGuards {env : Environment Fn} {M : Module Fn} {sens : List Fn}
    {net : Network Fn} {st : PassState Fn} (h : injectGuards env M sens net = .ok st) :
    Planted M st := by
  have hinv := foldlM_invariant
    (fun done st => Tally env M sens (done.flatMap (hostEdges net.checkerFuncMap)) st ∧
      Planted M st)
    (fun done F st st' hb hF => ⟨by simpa using hb.1.guardHost hF, hb.2.guardHost hb.1.name hF⟩)
    net.topologicalSortFuncs [] ⟨Tally.start env M sens, fun F x => by
      simp [PassState.start]⟩ h
  exact hinv.2

end SelfChecksumming
