import SelfChecksumming.Pass.EntryBlock
import SelfChecksumming.Pass.RunSoundness

/-! # The module without its guards

A whole run, not one host: deleting the instructions of all guards gives back the module
that the pass was started on, and every block still ends with its terminator. -/
namespace SelfChecksumming
open Library

variable {Fn : Type} [LinearOrder Fn] [OrderBot Fn]

/-- No guard has been injected so far. -/
def Uninstrumented (M : Module Fn) : Prop :=
  ∀ F x, (M.deref F).Contains x → isInserted 0 x = false

/-- The module that the pass was started on can be had back. -/
structure Restorable (M : Module Fn) (st : PassState Fn) : Prop where
  code : ∀ F, (st.deref F).blocks.map (List.filter (!isInserted 0 ·)) = (M.deref F).blocks
  terminated : ∀ F ∈ M.functions, ∀ block ∈ (st.deref F).blocks,
    ∃ body t, block = body ++ [t] ∧ t.op = .terminator

theorem Restorable.start {M : Module Fn} (hM : Uninstrumented M) (sens : List Fn) :
    Restorable M (.start M sens) where
  code F := by
    have hself : ∀ block ∈ (M.deref F).blocks, block.filter (!isInserted 0 ·) = block :=
      fun block hblock =>
        List.filter_eq_self.mpr fun x hx => by simp [hM F x ⟨block, hblock, hx⟩]
    exact (List.map_congr_left hself).trans (List.map_id _)
  terminated := M.terminated

theorem isInserted_groupsFrom {M : Module Fn} {n : Nat} {guards : List (Guard Fn)}
    {group : List Instruction} (hgroup : group ∈ groupsFrom M n guards) {x : Instruction}
    (hx : x ∈ group) : isInserted 0 x = true := by
  obtain ⟨j, hj, rfl⟩ := List.mem_mapIdx.mp hgroup
  exact isInserted_guardInstructions (Nat.zero_le _) hx

/-- A host that is no function of the module has blocks that nobody asks about. -/
theorem Restorable.guardHost {env : Environment Fn} {M : Module Fn} {sens : List Fn}
    {map : SortedMap Fn (List Fn)} {st st' : PassState Fn} {F : Fn}
    (hname : ∀ G, (st.deref G).name = M.getName G) (hr : Restorable M st)
    (h : SelfChecksumming.guardHost env sens map st F = .ok st') : Restorable M st' := by
  rcases guardHost_ok h with ⟨-, rfl⟩ | ⟨checkees, BB, rest, c, cs, -, hBB, hc, hrun, rfl⟩
  · exact hr
  obtain ⟨new, hplant⟩ := planting_of_checkees hname hrun
  obtain ⟨hblock, -⟩ := getFirstNonPHIOrDbg_spec hc
  have hne : ∀ G, G ≠ F → (cs.2.setEntryBlock F cs.1.block).deref G = st.deref G := by
    intro G hG
    rw [cs.2.setEntryBlock_ne _ hG, hplant.deref]
  have hself : ((cs.2.setEntryBlock F cs.1.block).deref F).blocks =
      (c.plant (groupsFrom M st.guards.length new)).block :: rest := by
    rw [cs.2.setEntryBlock_self, hplant.cursor, hplant.deref, hBB, List.tail_cons]
  refine ⟨fun G => ?_, fun G hG block hmem => ?_⟩
  · by_cases hGF : G = F
    · subst hGF
      rw [← hr.code G, hself, hBB, List.map_cons, List.map_cons, ← hblock,
        c.filter_plant fun _ hgroup _ hx => isInserted_groupsFrom hgroup hx]
    · rw [hne G hGF]
      exact hr.code G
  · by_cases hGF : G = F
    · subst hGF
      have hold := hr.terminated G hG
      rw [hBB] at hold
      rw [hself] at hmem
      rcases List.mem_cons.mp hmem with rfl | hmem
      · obtain ⟨body, t, hbody, ht⟩ := hold BB List.mem_cons_self
        have hlast := Cursor.plant_getLast? (hblock.trans hbody) ht
          (groupsFrom M st.guards.length new)
        obtain ⟨above, habove⟩ := List.getLast?_eq_some_iff.mp hlast
        exact ⟨above, t, habove, ht⟩
      · exact hold block (List.mem_cons_of_mem _ hmem)
    · rw [hne G hGF] at hmem
      exact hr.terminated G hG block hmem

/-- The injection loop only ever adds guards. -/
theorem restorable_of_injectGuards {env : Environment Fn} {M : Module Fn} {sens : List Fn}
    {net : Network Fn} {st : PassState Fn} (hM : Uninstrumented M)
    (h : injectGuards env M sens net = .ok st) : Restorable M st := by
  have hinv := foldlM_invariant
    (fun done st => Tally env M sens (done.flatMap (hostEdges net.checkerFuncMap)) st ∧
      Restorable M st)
    (fun done F st st' hb hF => ⟨by simpa using hb.1.guardHost hF, hb.2.guardHost hb.1.name hF⟩)
    net.topologicalSortFuncs [] ⟨Tally.start env M sens, Restorable.start hM sens⟩ h
  exact hinv.2

/-- Whatever the options, a run on a module without guards can be undone by deleting them. -/
theorem runOnModule_restorable {opts : Options} {env : Environment Fn} {M : Module Fn}
    {r : PassResult Fn} (hM : Uninstrumented M) (h : runOnModule opts env M = .ok r) :
    Restorable M r.state := by
  obtain ⟨-, -, hst, -⟩ := runOnModule_ok h
  exact restorable_of_injectGuards hM hst

/-- The guards that a run has injected are not those to come: between two hosts no block
holds an instruction of a later guard. -/
theorem Planted.fresh {M : Module Fn} {st : PassState Fn} (hM : Uninstrumented M)
    (hp : Planted M st) {F : Fn} {x : Instruction} (hx : (st.deref F).Contains x) :
    isInserted st.guards.length x = false := by
  rcases (hp F x).mp hx with hx | ⟨k, g, hg, -, hx⟩
  · have hzero := hM F x hx
    unfold isInserted at hzero ⊢
    split
    · rename_i k j hid
      rw [hid] at hzero
      simp at hzero
    · rfl
  · obtain ⟨j, hid⟩ := guardInstructions_id hx
    have hk := (List.getElem?_eq_some_iff.mp hg).1
    simp [isInserted, hid, hk]

end SelfChecksumming
