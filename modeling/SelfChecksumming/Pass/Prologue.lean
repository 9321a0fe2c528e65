import SelfChecksumming.Pass.GuardCalls
import SelfChecksumming.Pass.Loaded

/-! # The guards come first

Behind a saved instruction that is no call nothing of the program can keep control from
the guards: whenever their host is entered, all of them are called, and the program goes
on from there. -/
namespace SelfChecksumming
open Library

variable {Fn σ ε : Type}

/-! ## Where the guards stand -/

/-- The instruction that guards are put behind is no call. -/
def FallsThrough (f : Function) : Prop :=
  ∀ BB rest c, f.blocks = BB :: rest → getFirstNonPHIOrDbg BB = some c →
    ∀ callee args, c.I.op ≠ .call callee args

/-- What stands behind an instruction of the program that may leave is no guard. -/
def GuardsFirst (block : List Instruction) : Prop :=
  block.Pairwise fun x y => isInserted 0 x = false → canLeave x = true → isInserted 0 y = false

/-- The first instruction that counts, among those that are kept. -/
theorem getFirstNonPHIOrDbg_filter {p : Instruction → Bool} {BB : List Instruction} {c : Cursor}
    (h : getFirstNonPHIOrDbg BB = some c) (hI : p c.I = true) :
    ∃ d, getFirstNonPHIOrDbg (BB.filter p) = some d ∧ d.I = c.I := by
  induction BB generalizing c with
  | nil => cases h
  | cons I rest ih =>
    rw [getFirstNonPHIOrDbg] at h
    by_cases hop : I.op = .phi ∨ I.op = .dbgInfo
    · rw [if_pos hop] at h
      obtain ⟨e, he, rfl⟩ := Option.map_eq_some_iff.mp h
      obtain ⟨d, hd, hdI⟩ := ih he hI
      by_cases hkeep : p I = true
      · refine ⟨{ d with before := I :: d.before }, ?_, hdI⟩
        rw [List.filter_cons_of_pos hkeep, getFirstNonPHIOrDbg, if_pos hop, hd]
        rfl
      · rw [List.filter_cons_of_neg hkeep]
        exact ⟨d, hd, hdI⟩
    · rw [if_neg hop] at h
      cases h
      refine ⟨⟨[], I, rest.filter p⟩, ?_, rfl⟩
      rw [List.filter_cons_of_pos hI, getFirstNonPHIOrDbg, if_neg hop]

/-- Guards can be put behind an instruction that is no call. -/
theorem GuardsFirst.plant {BB : List Instruction} (h : GuardsFirst BB) {c : Cursor}
    (hc : getFirstNonPHIOrDbg BB = some c)
    (hI : isInserted 0 c.I = false → ∀ callee args, c.I.op ≠ .call callee args)
    {groups : List (List Instruction)}
    (hgroups : ∀ group ∈ groups, ∀ x ∈ group, isInserted 0 x = true) :
    GuardsFirst (c.plant groups).block := by
  obtain ⟨hblock, -⟩ := getFirstNonPHIOrDbg_spec hc
  have hins : ∀ x ∈ (c.arrange groups).flatten, isInserted 0 x = true := by
    intro x hx
    obtain ⟨group, hgroup, hx⟩ := List.mem_flatten.mp (mem_arrange.mp hx)
    exact hgroups group hgroup x hx
  have habove : ∀ x ∈ c.above, isInserted 0 x = false → canLeave x = false := by
    intro x hx hold
    unfold Cursor.above at hx
    split at hx
    · exact getFirstNonPHIOrDbg_before hc x hx
    · rename_i hterm
      rcases List.mem_append.mp hx with hx | hx
      · exact getFirstNonPHIOrDbg_before hc x hx
      · obtain rfl := List.mem_singleton.mp hx
        unfold canLeave
        split
        · rename_i hop
          exact absurd hop (hI hold _ _)
        · exact absurd ‹_› hterm
        · rfl
  rw [← hblock, ← c.above_below] at h
  obtain ⟨hup, hdown, hacross⟩ := List.pairwise_append.mp h
  rw [GuardsFirst, c.plant_block, List.append_assoc]
  refine List.pairwise_append.mpr ⟨hup, List.pairwise_append.mpr ⟨?_, hdown, ?_⟩, ?_⟩
  · refine List.pairwise_of_forall_mem_list fun x hx _ _ hold => ?_
    rw [hins x hx] at hold
    cases hold
  · intro x hx _ _ hold
    rw [hins x hx] at hold
    cases hold
  · intro x hx y hy hold hleave
    rw [habove x hx hold] at hleave
    cases hleave

/-- In front of the rest of the block stand all guards, and nothing that may leave. -/
theorem GuardsFirst.split {block : List Instruction} (h : GuardsFirst block) :
    ∃ front rest, block = front ++ rest ∧
      (∀ x ∈ front, isInserted 0 x = false → canLeave x = false) ∧
      ∀ x ∈ rest, isInserted 0 x = false := by
  induction block with
  | nil => exact ⟨[], [], rfl, fun x hx => absurd hx List.not_mem_nil,
      fun x hx => absurd hx List.not_mem_nil⟩
  | cons x block ih =>
    obtain ⟨hx, hblock⟩ := List.pairwise_cons.mp h
    by_cases hleave : isInserted 0 x = false ∧ canLeave x = true
    · refine ⟨[], x :: block, rfl, fun y hy => absurd hy List.not_mem_nil, ?_⟩
      exact List.forall_mem_cons.mpr ⟨hleave.1, fun y hy => hx y hy hleave.1 hleave.2⟩
    · obtain ⟨front, rest, rfl, hfront, hrest⟩ := ih hblock
      refine ⟨x :: front, rest, rfl, List.forall_mem_cons.mpr ⟨fun hold => ?_, hfront⟩, hrest⟩
      exact Bool.not_eq_true _ ▸ fun hcan => hleave ⟨hold, hcan⟩

/-! ## What goes on -/

/-- What is neither a call nor a terminator goes on to the next instruction. -/
def Sequential (sem : Semantics Fn Instruction σ ε) : Prop :=
  ∀ F x s, canLeave x = false → (sem F x s).control = .next

/-- The calls that some guards make return. -/
def Return (guards : Nat → Option (Guard Fn)) (calls : Calls Fn σ ε) : Prop :=
  ∀ k g, guards k = some g → ∀ s, (calls "guardMe" g.args s).control = .next

/-! ## The entry blocks of a run -/

section Blocks

variable [LinearOrder Fn] [OrderBot Fn]

/-- Guards are put into the entry block. -/
theorem guardHost_tail {env : Environment Fn} {M : Module Fn} {sens : List Fn}
    {map : SortedMap Fn (List Fn)} {st st' : PassState Fn} {G : Fn}
    (hname : ∀ G, (st.deref G).name = M.getName G)
    (h : SelfChecksumming.guardHost env sens map st G = .ok st') (F : Fn) :
    (st'.deref F).blocks.tail = (st.deref F).blocks.tail := by
  rcases guardHost_ok h with ⟨-, rfl⟩ | ⟨checkees, BB, rest, c, cs, -, hBB, hc, hrun, rfl⟩
  · rfl
  obtain ⟨new, hplant⟩ := planting_of_checkees hname hrun
  by_cases hFG : F = G
  · subst hFG
    rw [cs.2.setEntryBlock_self, hplant.deref, List.tail_cons]
  · rw [cs.2.setEntryBlock_ne _ hFG, hplant.deref]

theorem tail_of_injectGuards {env : Environment Fn} {M : Module Fn} {sens : List Fn}
    {net : Network Fn} {st : PassState Fn} (h : injectGuards env M sens net = .ok st) (F : Fn) :
    (st.deref F).blocks.tail = (M.deref F).blocks.tail := by
  have hinv := foldlM_invariant
    (fun done st => Tally env M sens (done.flatMap (hostEdges net.checkerFuncMap)) st ∧
      (st.deref F).blocks.tail = (M.deref F).blocks.tail)
    (fun done G st st' hb hG => ⟨by simpa using hb.1.guardHost hG,
      (guardHost_tail hb.1.name hG F).trans hb.2⟩)
    net.topologicalSortFuncs [] ⟨Tally.start env M sens, rfl⟩ h
  exact hinv.2

/-- A guard is in the entry block of its host. -/
theorem guard_in_entry {env : Environment Fn} {M : Module Fn} {sens : List Fn} {net : Network Fn}
    {st : PassState Fn} (hM : Uninstrumented M) (h : injectGuards env M sens net = .ok st) {k : Nat}
    {g : Guard Fn} (hg : st.guards[k]? = some g) {x : Instruction} (hx : x ∈ g.instructions M k) :
    ∃ BB rest, (st.deref g.host).blocks = BB :: rest ∧ x ∈ BB := by
  obtain ⟨block, hblock, hxb⟩ := (planted_of_injectGuards h g.host x).mpr (.inr ⟨k, g, hg, rfl, hx⟩)
  cases hb : (st.deref g.host).blocks with
  | nil =>
    rw [hb] at hblock
    cases hblock
  | cons BB rest =>
    refine ⟨BB, rest, rfl, ?_⟩
    rw [hb] at hblock
    rcases List.mem_cons.mp hblock with rfl | hblock
    · exact hxb
    · have htail := tail_of_injectGuards h g.host
      rw [hb, List.tail_cons] at htail
      have hold := hM g.host x ⟨block, List.mem_of_mem_tail (htail ▸ hblock), hxb⟩
      rw [isInserted_guardInstructions (Nat.zero_le _) hx] at hold
      cases hold

/-- The entry block of `F` has its guards first. -/
def EntryGuarded (st : PassState Fn) (F : Fn) : Prop :=
  ∀ BB rest, (st.deref F).blocks = BB :: rest → GuardsFirst BB

theorem EntryGuarded.start {M : Module Fn} (hM : Uninstrumented M) (sens : List Fn) (F : Fn) :
    EntryGuarded (.start M sens) F := by
  intro BB rest hb
  refine List.pairwise_of_forall_mem_list fun _ _ y hy _ _ => hM F y ⟨BB, ?_, hy⟩
  rw [show (M.deref F).blocks = BB :: rest from hb]
  exact List.mem_cons_self

theorem EntryGuarded.guardHost {env : Environment Fn} {M : Module Fn} {sens : List Fn}
    {map : SortedMap Fn (List Fn)} {st st' : PassState Fn} {G F : Fn}
    (hname : ∀ G, (st.deref G).name = M.getName G) (hr : Restorable M st)
    (hF : FallsThrough (M.deref F)) (he : EntryGuarded st F)
    (h : SelfChecksumming.guardHost env sens map st G = .ok st') : EntryGuarded st' F := by
  rcases guardHost_ok h with ⟨-, rfl⟩ | ⟨checkees, BB, rest, c, cs, -, hBB, hc, hrun, rfl⟩
  · exact he
  obtain ⟨new, hplant⟩ := planting_of_checkees hname hrun
  intro BB' rest' hb
  by_cases hFG : F = G
  · subst hFG
    have hself : ((cs.2.setEntryBlock F cs.1.block).deref F).blocks =
        (c.plant (groupsFrom M st.guards.length new)).block :: rest := by
      rw [cs.2.setEntryBlock_self, hplant.cursor, hplant.deref, hBB, List.tail_cons]
    rw [hself] at hb
    rw [← (List.cons.inj hb).1]
    refine (he BB rest hBB).plant hc (fun hold => ?_) fun group hgroup x hx =>
      isInserted_groupsFrom hgroup hx
    -- the saved instruction came with the module
    obtain ⟨d, hd, hdI⟩ := getFirstNonPHIOrDbg_filter (p := fun x => !isInserted 0 x) hc
      (by simp [hold])
    have hcode := hr.code F
    rw [hBB, List.map_cons] at hcode
    rw [← hdI]
    exact hF _ _ d hcode.symm hd
  · refine he BB' rest' ?_
    rwa [cs.2.setEntryBlock_ne _ hFG, hplant.deref] at hb

theorem entryGuarded_of_injectGuards {env : Environment Fn} {M : Module Fn} {sens : List Fn}
    {net : Network Fn} {st : PassState Fn} (hM : Uninstrumented M)
    (h : injectGuards env M sens net = .ok st) {F : Fn} (hF : FallsThrough (M.deref F)) :
    EntryGuarded st F := by
  have hinv := foldlM_invariant
    (fun done st => (Tally env M sens (done.flatMap (hostEdges net.checkerFuncMap)) st ∧
      Restorable M st) ∧ EntryGuarded st F)
    (fun done G st st' hb hG => ⟨⟨by simpa using hb.1.1.guardHost hG,
      hb.1.2.guardHost hb.1.1.name hG⟩, hb.2.guardHost hb.1.1.name hb.1.2 hF hG⟩)
    net.topologicalSortFuncs [] ⟨⟨Tally.start env M sens, Restorable.start hM sens⟩,
      EntryGuarded.start hM sens F⟩ h
  exact hinv.2

/-- In the program `q` the guards of `F` stand first. -/
def Fronted (M : Module Fn) (guards : Nat → Option (Guard Fn)) (q : Program Fn Instruction)
    (F : Fn) : Prop :=
  ∃ front rest others, q F = (front ++ rest) :: others ∧
    (∀ x ∈ front, isInserted 0 x = false → canLeave x = false) ∧
    (∀ x ∈ rest, isInserted 0 x = false) ∧
    ∀ (k : Nat) g, guards k = some g → g.host = F → ∀ x ∈ g.instructions M k, x ∈ front

theorem fronted_of_injectGuards {env : Environment Fn} {M : Module Fn} {sens : List Fn}
    {net : Network Fn} {st : PassState Fn} (hM : Uninstrumented M)
    (h : injectGuards env M sens net = .ok st) {F : Fn} (hF : FallsThrough (M.deref F))
    (hmem : F ∈ M.functions) (hhost : ∃ g ∈ st.guards, g.host = F) :
    Fronted M (st.guards[·]?) (programOf M.functions st.deref) F := by
  have he := entryGuarded_of_injectGuards hM h hF
  obtain ⟨g, hg, rfl⟩ := hhost
  obtain ⟨k, hk⟩ := List.mem_iff_getElem?.mp hg
  obtain ⟨BB, others, hb, -⟩ := guard_in_entry hM h hk List.mem_cons_self
  obtain ⟨front, rest, rfl, hfront, hrest⟩ := (he BB others hb).split
  refine ⟨front, rest, others, ?_, hfront, hrest, fun k g hg hgF x hx => ?_⟩
  · rw [programOf, if_pos hmem, hb]
  · obtain ⟨BB', others', hb', hxb⟩ := guard_in_entry hM h hg hx
    rw [hgF, hb] at hb'
    rw [← (List.cons.inj hb').1] at hxb
    rcases List.mem_append.mp hxb with hxb | hxb
    · exact hxb
    · have hold := hrest x hxb
      rw [isInserted_guardInstructions (Nat.zero_le _) hx] at hold
      cases hold

/-! ## Entering a host -/

/-- An instruction that goes on, or one of a guard whose call returns. -/
theorem Frame.Sound.next {M : Module Fn} {guards : Nat → Option (Guard Fn)} {s : σ × Machine}
    {F : Fn} {x : Instruction} {rest : List Instruction}
    (hf : Frame.Sound M guards s.2 ⟨F, x :: rest⟩) {calls : Calls Fn σ ε}
    (hcalls : Return guards calls) {sem : Semantics Fn Instruction σ ε}
    (hx : isInserted 0 x = false → ∀ s, (sem F x s).control = .next) :
    (beside calls sem F x s).control = .next := by
  by_cases hins : isInserted 0 x = true
  · obtain ⟨-, -, k, g, j, hg, -, heffect⟩ := hf.guard hins calls sem
    rw [heffect]
    split
    · exact hcalls k g hg s.1
    · rfl
  · have hins : isInserted 0 x = false := Bool.not_eq_true _ ▸ hins
    rw [beside_of_uninserted hins]
    exact hx hins s.1

/-- The front of a block is executed to its end, with the calls of all guards in it. -/
theorem Honest.front {M : Module Fn} {guards : Nat → Option (Guard Fn)} {q : Program Fn Instruction}
    (hq : Guarded M guards q) {calls : Calls Fn σ ε} (hreturn : Return guards calls)
    {sem : Semantics Fn Instruction σ ε} {F : Fn} {frames : List (Frame Fn Instruction)}
    (rest : List Instruction) : ∀ (front : List Instruction) (s : σ × Machine)
    (events : List (ε ⊕ GuardCall Fn)),
      (∀ x ∈ front, isInserted 0 x = false → ∀ s, (sem F x s).control = .next) →
      Honest M guards ⟨⟨F, front ++ rest⟩ :: frames, s, events⟩ →
      ∃ s' more, q.steps (beside calls sem) front.length
          ⟨⟨F, front ++ rest⟩ :: frames, s, events⟩ = ⟨⟨F, rest⟩ :: frames, s', events ++ more⟩ ∧
        (∀ i ≤ front.length, ∃ left,
          (q.steps (beside calls sem) i ⟨⟨F, front ++ rest⟩ :: frames, s, events⟩).frames =
            ⟨F, left⟩ :: frames) ∧
        ∀ (k : Nat) g, guards k = some g → (∃ x ∈ front, x.id = .guard k 9) →
          .inr g.call ∈ more ∧ ∃ t, ∀ e ∈ (calls "guardMe" g.args t).events, .inl e ∈ more := by
  intro front
  induction front with
  | nil =>
    intro s events _ _
    refine ⟨s, [], by simp [Program.steps], fun i hi => ?_, fun k g _ hx => ?_⟩
    · obtain rfl : i = 0 := Nat.le_zero.mp hi
      exact ⟨rest, rfl⟩
    · obtain ⟨x, hx, -⟩ := hx
      cases hx
  | cons x front ih =>
    intro s events hfront hc
    obtain ⟨hx, hfront⟩ := List.forall_mem_cons.mp hfront
    have hsound := hc.frames _ List.mem_cons_self
    have hnext : (beside calls sem F x s).control = .next := hsound.next hreturn hx
    have hstep := q.step_cons (beside calls sem) F x (front ++ rest) frames s events
    rw [hnext] at hstep
    obtain ⟨s', more, hrun, hstay, hcalls⟩ := ih _ _ hfront (hc.step hq hstep)
    refine ⟨s', (beside calls sem F x s).events ++ more, ?_, fun i hi => ?_, fun k g hg hid => ?_⟩
    · rw [List.length_cons, List.cons_append, Program.steps_next hnext, hrun, List.append_assoc]
    · cases i with
      | zero => exact ⟨_, rfl⟩
      | succ i =>
        rw [List.cons_append, Program.steps_next hnext]
        exact hstay i (Nat.le_of_succ_le_succ hi)
    · obtain ⟨y, hy, hid⟩ := hid
      rcases List.mem_cons.mp hy with rfl | hy
      · have hins : isInserted 0 y = true := by simp [isInserted, hid]
        obtain ⟨-, -, k', g', j, hg', hid', heffect⟩ := hsound.guard hins calls sem
        obtain ⟨rfl, rfl⟩ := InstId.guard.inj (hid.symm.trans hid')
        obtain rfl := Option.some.inj (hg.symm.trans hg')
        rw [if_pos rfl] at heffect
        rw [heffect]
        exact ⟨List.mem_append_left _ List.mem_cons_self, s.1, fun e he =>
          List.mem_append_left _ (List.mem_cons_of_mem _ (List.mem_map_of_mem he))⟩
      · obtain ⟨hcall, t, hevents⟩ := hcalls k g hg ⟨y, hy, hid⟩
        exact ⟨List.mem_append_right _ hcall, t, fun e he => List.mem_append_right _ (hevents e he)⟩

theorem Fronted.update {M : Module Fn} {guards : Nat → Option (Guard Fn)}
    {q : Program Fn Instruction} {F T : Fn} (h : Fronted M guards q F) (hF : F ≠ T)
    (blocks : List (List Instruction)) :
    Fronted M (fun k => (guards k).filter (·.host ≠ T)) (Function.update q T blocks) F := by
  obtain ⟨front, rest, others, hb, hfront, hrest, hguards⟩ := h
  exact ⟨front, rest, others, by rw [Function.update_of_ne hF, hb], hfront, hrest,
    fun k g hg => hguards k g (Option.filter_eq_some_iff.mp hg).1⟩

/-- Whenever a run of the guarded program enters a host whose guards stand first, it calls
all of them before it leaves this activation or enters another one. -/
theorem Fronted.calls {M : Module Fn} {guards : Nat → Option (Guard Fn)}
    {q : Program Fn Instruction} (hq : Guarded M guards q) {F : Fn} (hF : Fronted M guards q F)
    {calls : Calls Fn σ ε} (hreturn : Return guards calls)
    {sem : Semantics Fn Instruction σ ε} (hseq : Sequential sem) {G : Fn} {s : σ × Machine}
    {c : Config Fn Instruction (σ × Machine) (ε ⊕ GuardCall Fn)}
    (hc : q.Runs (beside calls sem) (q.start G s) c) {frames : List (Frame Fn Instruction)}
    (hentry : c.frames = q.enter F 0 :: frames) :
    ∃ n s' rest more,
      q.steps (beside calls sem) n c = ⟨⟨F, rest⟩ :: frames, s', c.events ++ more⟩ ∧
      (∀ x ∈ rest, isInserted 0 x = false) ∧
      (∀ i ≤ n, ∃ left, (q.steps (beside calls sem) i c).frames = ⟨F, left⟩ :: frames) ∧
      ∀ k g, guards k = some g → g.host = F →
        .inr g.call ∈ more ∧ ∃ t, ∀ e ∈ (calls "guardMe" g.args t).events, .inl e ∈ more := by
  obtain ⟨front, rest, others, hb, hfront, hrest, hguards⟩ := hF
  have henter : q.enter F 0 = ⟨F, front ++ rest⟩ := by
    rw [Program.enter, hb]
    rfl
  have hhonest := hq.honest hc
  obtain ⟨cframes, t, events⟩ := c
  obtain rfl : cframes = ⟨F, front ++ rest⟩ :: frames := hentry.trans (by rw [henter])
  obtain ⟨s', more, hrun, hstay, hcalls⟩ := Honest.front hq hreturn rest front t events
    (fun x hx hold s => hseq F x s (hfront x hx hold)) hhonest
  refine ⟨front.length, s', rest, more, hrun, hrest, hstay, fun k g hg hgF => hcalls k g hg ?_⟩
  exact ⟨_, hguards k g hg hgF _ (List.mem_of_getElem? (i := 9) rfl), rfl⟩

/-- Whenever a run enters a function whose saved instruction is no call, it calls all guards
that the function hosts, before it leaves this activation or enters another one. For that
`guardMe` has to return, and to host no guard itself. -/
theorem entered_host_calls_guards {opts : Options} {env : Environment Fn} {M : Module Fn}
    {r : PassResult Fn} (hM : Uninstrumented M) (h : runOnModule opts env M = .ok r)
    (hspares : SparesGuardMe opts M r) {F : Fn} (hF : FallsThrough (M.deref F))
    {summary : Calls Fn σ ε} (hguardMe : ∀ args s, (summary "guardMe" args s).control = .next)
    {sem : Semantics Fn Instruction σ ε} (hseq : Sequential sem) (G : Fn) (s : σ) (m : Machine)
    {c : Config Fn Instruction (σ × Machine) (ε ⊕ GuardCall Fn)}
    (hc : (r.program M).Runs (beside (linkage M r.hosts summary) sem)
      ((r.program M).start G (s, m)) c)
    {frames : List (Frame Fn Instruction)} (hentry : c.frames = (r.program M).enter F 0 :: frames) :
    ∃ n s' rest more, (r.program M).steps (beside (linkage M r.hosts summary) sem) n c =
        ⟨⟨F, rest⟩ :: frames, s', c.events ++ more⟩ ∧
      (∀ x ∈ rest, isInserted 0 x = false) ∧
      (∀ i ≤ n, ∃ left, ((r.program M).steps (beside (linkage M r.hosts summary) sem) i c).frames =
        ⟨F, left⟩ :: frames) ∧
      ∀ g ∈ r.state.guards, g.host = F → .inr g.call ∈ more := by
  obtain ⟨-, -, hst, -⟩ := runOnModule_ok h
  have hq := guarded_of_injectGuards hM hst
  have hreturn : Return (r.state.guards[·]?) (linkage M r.hosts summary) := by
    intro k g _ s
    rw [linkage_unchanged (hspares.notMem h)]
    exact hguardMe g.args s
  by_cases hhost : ∃ g ∈ r.state.guards, g.host = F
  · obtain ⟨g, hg, rfl⟩ := hhost
    have hfront := fronted_of_injectGuards hM hst hF (runOnModule_host_mem h hg) ⟨g, hg, rfl⟩
    obtain ⟨n, s', rest, more, hrun, hrest, hstay, hcalls⟩ := hfront.calls hq hreturn hseq hc hentry
    refine ⟨n, s', rest, more, hrun, hrest, hstay, fun g' hg' hhost => ?_⟩
    obtain ⟨k, hk⟩ := List.mem_iff_getElem?.mp hg'
    exact (hcalls k g' hk hhost).1
  · obtain ⟨cframes, t, events⟩ := c
    obtain rfl : cframes = _ := hentry
    refine ⟨0, t, _, [], by rw [List.append_nil]; rfl, fun x hx => ?_, fun i hi => ?_,
      fun g hg hgF => absurd ⟨g, hg, hgF⟩ hhost⟩
    · by_contra hins
      obtain ⟨k, g, hg, hgF, -⟩ := (hq.enter t.2 F 0).planted x hx (Bool.not_eq_false _ ▸ hins)
      exact hhost ⟨g, List.mem_of_getElem? hg, hgF⟩
    · obtain rfl : i = 0 := Nat.le_zero.mp hi
      exact ⟨_, rfl⟩

omit [LinearOrder Fn] [OrderBot Fn] in
theorem sampleSemantics_sequential : Sequential sampleSemantics := by
  intro F x s hx
  have hop : x.op ≠ .terminator := by
    intro hop
    simp [canLeave, hop] at hx
  exact if_neg hop

/-- The last function calls its guards when it is entered. -/
theorem entered_host_calls_guards_sample : ∃ r n,
    runOnModule {} (sampleEnvironment .unopened) sampleModule = .ok r ∧
    ∀ g ∈ r.state.guards, g.host = 3 → .inr g.call ∈
      ((r.program sampleModule).steps
        (beside (linkage sampleModule r.hosts sampleCalls) sampleSemantics) n
        ((r.program sampleModule).start 3 (0, .init))).events := by
  obtain ⟨r, hr⟩ : ∃ r, runOnModule {} (sampleEnvironment .unopened) sampleModule = .ok r :=
    ⟨_, rfl⟩
  have hF : FallsThrough (sampleModule.deref 3) := by
    intro BB rest c hb hc callee args
    cases hb
    cases hc
    exact nofun
  have hreturn : ∀ args s, (sampleCalls "guardMe" args s).control = .next := fun _ _ => rfl
  obtain ⟨n, s', rest, more, hrun, -, -, hcalls⟩ := entered_host_calls_guards
    sampleModule_uninstrumented hr (absurd rfl) hF hreturn sampleSemantics_sequential 3 0 .init
    .refl rfl
  refine ⟨r, n, hr, fun g hg hhost => ?_⟩
  rw [hrun]
  exact List.mem_append_right _ (hcalls g hg hhost)

end Blocks

end SelfChecksumming
