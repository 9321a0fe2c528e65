import SelfChecksumming.Pass.Instrument

/-! # The entry block of a host

All guards of a host go to the instruction saved before the first of them: in front of
it when it is the terminator, behind it otherwise. Behind it, every guard pushes the
earlier ones down, so the groups stand in the opposite order. -/
namespace SelfChecksumming
open Library

/-! ## Where the groups end up -/

/-- What stays above the guards. -/
def Cursor.above (c : Cursor) : List Instruction :=
  if c.I.op = .terminator then c.before else c.before ++ [c.I]

/-- What stays below them. -/
def Cursor.below (c : Cursor) : List Instruction :=
  if c.I.op = .terminator then c.I :: c.after else c.after

/-- The groups as they stand in the block. -/
def Cursor.arrange (c : Cursor) (groups : List (List Instruction)) : List (List Instruction) :=
  if c.I.op = .terminator then groups else groups.reverse

theorem Cursor.above_below (c : Cursor) : c.above ++ c.below = c.block := by
  unfold above below block
  split <;> simp

theorem Cursor.plant_block (groups : List (List Instruction)) :
    ∀ c : Cursor, (c.plant groups).block = c.above ++ (c.arrange groups).flatten ++ c.below := by
  induction groups with
  | nil =>
    intro c
    have hnil : c.arrange [] = [] := by
      unfold arrange
      split <;> rfl
    rw [hnil, List.flatten_nil, List.append_nil, c.above_below]
    rfl
  | cons group groups ih =>
    intro c
    have hstep : c.plant (group :: groups) = (c.insertAt group).plant groups := rfl
    rw [hstep, ih]
    by_cases h : c.I.op = .terminator
    · simp [insertAt, above, below, arrange, h]
    · simp [insertAt, above, below, arrange, h]

/-- Below the guards stands the terminator. -/
theorem Cursor.below_getLast? {c : Cursor} {body : List Instruction} {t : Instruction}
    (h : c.block = body ++ [t]) (ht : t.op = .terminator) : c.below.getLast? = some t := by
  have hlast : (c.above ++ c.below).getLast? = some t := by simp [c.above_below, h]
  have hne : c.below ≠ [] := by
    intro hnil
    -- then the saved instruction is the last one, and it is no terminator
    unfold above below at *
    split at hnil
    · cases hnil
    · rename_i hI
      rw [if_neg hI, if_neg hI, hnil] at hlast
      simp only [List.append_nil, List.getLast?_append, List.getLast?_singleton,
        Option.some_or, Option.some.injEq] at hlast
      exact hI (hlast ▸ ht)
  rw [List.getLast?_append_of_ne_nil _ hne] at hlast
  exact hlast

/-- The terminator stays the last instruction. -/
theorem Cursor.plant_getLast? {c : Cursor} {body : List Instruction} {t : Instruction}
    (h : c.block = body ++ [t]) (ht : t.op = .terminator) (groups : List (List Instruction)) :
    (c.plant groups).block.getLast? = some t := by
  rw [plant_block, List.getLast?_append, below_getLast? h ht]
  rfl

/-! ## The guards of one host -/

variable {Fn : Type} [LinearOrder Fn] [OrderBot Fn]

namespace PassState

/-- The line of guide.txt for the `j`-th of the guards to come. -/
def nextLine (env : Environment Fn) (st : PassState Fn) (j : Nat) (Checkee : Fn) : GuideLine where
  functionName := demangleName env.cxaDemangle (st.deref Checkee).name
  address := st.addressBegin + .ofNat j
  length := st.sizeBegin + .ofNat j
  expectedHash := st.expectedHashBegin + .ofNat j

/-- Its instructions. -/
def nextGroup (st : PassState Fn) (j : Nat) (Checkee : Fn) : List Instruction :=
  guardInstructions (st.guards.length + j) (st.addressBegin + .ofNat j) (st.sizeBegin + .ofNat j)
    (st.expectedHashBegin + .ofNat j) (st.deref Checkee).name false

end PassState

/-- The checkees in `done` are guarded, all of them from the cursor `c`. -/
structure Hosting (env : Environment Fn) (c : Cursor) (st : PassState Fn) (done : List Fn)
    (cs : Cursor × PassState Fn) : Prop where
  deref : cs.2.deref = st.deref
  guards : cs.2.guards.length = st.guards.length + done.length
  addressBegin : cs.2.addressBegin = st.addressBegin + .ofNat done.length
  sizeBegin : cs.2.sizeBegin = st.sizeBegin + .ofNat done.length
  expectedHashBegin : cs.2.expectedHashBegin = st.expectedHashBegin + .ofNat done.length
  guide : cs.2.guide = st.guide ++ done.mapIdx (st.nextLine env)
  cursor : cs.1 = c.plant (done.mapIdx st.nextGroup)

theorem Hosting.guardCheckee {env : Environment Fn} {sens : List Fn} {F Checkee : Fn} {c : Cursor}
    {st : PassState Fn} {done : List Fn} {cs cs' : Cursor × PassState Fn}
    (hh : Hosting env c st done cs)
    (h : SelfChecksumming.guardCheckee env sens F cs Checkee = .ok cs') :
    Hosting env c st (done ++ [Checkee]) cs' := by
  obtain ⟨-, rfl⟩ := guardCheckee_ok h
  refine ⟨hh.deref, ?_, ?_, ?_, ?_, ?_, ?_⟩
  · show (cs.2.guards ++ _).length = _
    rw [List.length_append, hh.guards, List.length_append, Nat.add_assoc]
    rfl
  · exact (congrArg (· + 1) hh.addressBegin).trans (placeholder_next _ _ _)
  · exact (congrArg (· + 1) hh.sizeBegin).trans (placeholder_next _ _ _)
  · exact (congrArg (· + 1) hh.expectedHashBegin).trans (placeholder_next _ _ _)
  · show cs.2.guide ++ _ = _
    rw [hh.guide, List.mapIdx_append, ← List.append_assoc, hh.addressBegin, hh.sizeBegin,
      hh.expectedHashBegin, hh.deref]
    simp [PassState.nextLine]
  · rw [List.mapIdx_append, List.mapIdx_singleton, Cursor.plant_append, ← hh.cursor,
      hh.addressBegin, hh.sizeBegin, hh.expectedHashBegin, hh.deref, hh.guards]
    simp [PassState.nextGroup]

/-- What `guardHost` does to a block that has a place for guards. -/
theorem guardHost_spec (env : Environment Fn) (sens : List Fn) {map : SortedMap Fn (List Fn)}
    {st : PassState Fn} {F : Fn} {checkees : List Fn} {BB : List Instruction}
    {rest : List (List Instruction)} {c : Cursor} (hF : F ≠ ⊥) (hfind : map.find? F = some checkees)
    (hnull : ⊥ ∉ checkees) (hb : (st.deref F).blocks = BB :: rest)
    (hc : getFirstNonPHIOrDbg BB = some c) :
    ∃ st', guardHost env sens map st F = .ok st' ∧
      st'.deref = Function.update st.deref F { st.deref F with
        blocks := (c.plant (checkees.mapIdx st.nextGroup)).block :: rest } ∧
      st'.guards.length = st.guards.length + checkees.length ∧
      st'.guide = st.guide ++ checkees.mapIdx (st.nextLine env) := by
  obtain ⟨cs, hrun, -⟩ := foldlM_total (fun _ : Cursor × PassState Fn => True) checkees
    (fun v hv cs _ => by
      obtain ⟨cs', h, -, -⟩ := guardCheckee_total env sens F (fun he => hnull (he ▸ hv)) cs
      exact ⟨cs', h, trivial⟩)
    (c, st) trivial
  have hh := foldlM_invariant (Hosting env c st) (fun done v b b' hb hv => hb.guardCheckee hv)
    checkees [] (b := (c, st)) ⟨rfl, rfl, by simp, by simp, by simp, by simp, rfl⟩ hrun
  rw [List.nil_append] at hh
  refine ⟨cs.2.setEntryBlock F cs.1.block, ?_, ?_, hh.guards, hh.guide⟩
  · simp only [guardHost, hfind, if_neg hF, hb, hc, hrun]
  · simp only [PassState.setEntryBlock, hh.deref, hh.cursor, hb, List.tail_cons]

/-! ## What a group hands over -/

/-- A symbolic machine: an address is named after its alloca, and only calls are recorded. -/
structure Machine where
  results : InstId → Value
  memory : Value → Value
  calls : List (String × List Value)

namespace Machine

def eval (m : Machine) : Value → Value
  | .result id => m.results id
  | v => v

def step (m : Machine) (x : Instruction) : Machine :=
  match x.op with
  | .alloca _ => { m with results := Function.update m.results x.id (.result x.id) }
  | .store value pointer =>
    { m with memory := Function.update m.memory (m.eval pointer) (m.eval value) }
  | .load pointer => { m with results := Function.update m.results x.id (m.memory (m.eval pointer)) }
  | .call callee args => { m with calls := m.calls ++ [(callee, args.map m.eval)] }
  | _ => m

def run (m : Machine) (insts : List Instruction) : Machine := insts.foldl step m

end Machine

/-- What is loaded was stored before. -/
def LoadsFollowStores (insts : List Instruction) : Prop :=
  ∀ (j : Nat) x pointer, insts[j]? = some x → x.op = .load pointer →
    ∃ i y value, i < j ∧ insts[i]? = some y ∧ y.op = .store value pointer

/-- Whatever happened before, the group makes one call, and it is the one that the
line of the guide is about. -/
structure Guards (group : List Instruction) (line : GuideLine) : Prop where
  loads : LoadsFollowStores group
  calls : ∀ m : Machine, (m.run group).calls = m.calls ++
    [("guardMe", [.i32 line.address, .i32 line.length, .i32 line.expectedHash])]

theorem guardInstructions_loads (k : Nat) (address length expectedHash : UInt32)
    (name : String) :
    LoadsFollowStores (guardInstructions k address length expectedHash name false) := by
  intro j x pointer hx hop
  have hj : j < 10 := (List.getElem?_eq_some_iff.mp hx).1
  have hload : j = 6 ∨ j = 7 ∨ j = 8 := by
    by_contra hno
    have hcases : j = 0 ∨ j = 1 ∨ j = 2 ∨ j = 3 ∨ j = 4 ∨ j = 5 ∨ j = 9 := by omega
    rcases hcases with rfl | rfl | rfl | rfl | rfl | rfl | rfl <;> cases hx <;> cases hop
  rcases hload with rfl | rfl | rfl
  · cases hx
    cases hop
    exact ⟨3, _, _, by omega, rfl, rfl⟩
  · cases hx
    cases hop
    exact ⟨4, _, _, by omega, rfl, rfl⟩
  · cases hx
    cases hop
    exact ⟨5, _, _, by omega, rfl, rfl⟩

omit [OrderBot Fn] in
theorem guards_nextGroup (env : Environment Fn) (st : PassState Fn) (j : Nat) (Checkee : Fn) :
    Guards (st.nextGroup j Checkee) (st.nextLine env j Checkee) where
  loads := guardInstructions_loads _ _ _ _ _
  calls m := by
    simp [PassState.nextGroup, PassState.nextLine, guardInstructions, Machine.run, Machine.step,
      Machine.eval, Function.update_apply]

/-! ## Deleting the guards -/

/-- An instruction of a guard that comes after the first `n` ones. -/
def isInserted (n : Nat) (x : Instruction) : Bool :=
  match x.id with
  | .guard k _ => n ≤ k
  | .original _ => false

theorem guardInstructions_id {k : Nat} {address length expectedHash : UInt32} {name : String}
    {x : Instruction} (hx : x ∈ guardInstructions k address length expectedHash name false) :
    ∃ j, x.id = .guard k j := by
  simp only [guardInstructions, Bool.false_eq_true, if_false, List.mem_cons, List.not_mem_nil,
    or_false] at hx
  rcases hx with rfl | rfl | rfl | rfl | rfl | rfl | rfl | rfl | rfl | rfl <;> exact ⟨_, rfl⟩

theorem isInserted_guardInstructions {n k : Nat} (hk : n ≤ k)
    {address length expectedHash : UInt32} {name : String} {x : Instruction}
    (hx : x ∈ guardInstructions k address length expectedHash name false) :
    isInserted n x = true := by
  obtain ⟨j, hid⟩ := guardInstructions_id hx
  simp [isInserted, hid, hk]

theorem mem_arrange {c : Cursor} {groups : List (List Instruction)} {x : Instruction} :
    x ∈ (c.arrange groups).flatten ↔ x ∈ groups.flatten := by
  unfold Cursor.arrange
  split
  · rfl
  · simp only [List.mem_flatten, List.mem_reverse]

/-- Groups of inserted instructions can be deleted again. -/
theorem Cursor.filter_plant {n : Nat} {groups : List (List Instruction)}
    (h : ∀ group ∈ groups, ∀ x ∈ group, isInserted n x = true) (c : Cursor) :
    (c.plant groups).block.filter (!isInserted n ·) = c.block.filter (!isInserted n ·) := by
  have hdrop : (c.arrange groups).flatten.filter (!isInserted n ·) = [] := by
    refine List.filter_eq_nil_iff.mpr fun x hx => ?_
    obtain ⟨group, hgroup, hx⟩ := List.mem_flatten.mp (mem_arrange.mp hx)
    simp [h group hgroup x hx]
  rw [plant_block, List.filter_append, List.filter_append, hdrop, List.append_nil,
    ← List.filter_append, c.above_below]

omit [OrderBot Fn] in
theorem isInserted_nextGroup {st : PassState Fn} {checkees : List Fn} {group : List Instruction}
    (hgroup : group ∈ checkees.mapIdx st.nextGroup) {x : Instruction} (hx : x ∈ group) :
    isInserted st.guards.length x = true := by
  obtain ⟨j, hj, rfl⟩ := List.mem_mapIdx.mp hgroup
  exact isInserted_guardInstructions (Nat.le_add_right _ j) hx

/-- The checkees of a host are guarded in one stretch of its entry block, which is
otherwise the block it was; nothing else in the module changes but the guide grows by one
line for each checkee, and each group hands the numbers of its line to `guardMe`. -/
theorem guardHost_keeps_code (env : Environment Fn) (sens : List Fn)
    {checkerFuncMap : SortedMap Fn (List Fn)} {st : PassState Fn} {F : Fn} {checkees : List Fn}
    {body : List Instruction} {t : Instruction} {rest : List (List Instruction)} (hF : F ≠ ⊥)
    (hfind : checkerFuncMap.find? F = some checkees) (hnull : ⊥ ∉ checkees)
    (hb : (st.deref F).blocks = (body ++ [t]) :: rest) (ht : t.op = .terminator)
    (hfresh : ∀ x ∈ body ++ [t], isInserted st.guards.length x = false) :
    ∃ st' BB lines groups above below, guardHost env sens checkerFuncMap st F = .ok st' ∧
      st'.deref = Function.update st.deref F { st.deref F with blocks := BB :: rest } ∧
      BB.filter (!isInserted st.guards.length ·) = body ++ [t] ∧
      BB.getLast? = some t ∧
      (BB = above ++ groups.flatten ++ below ∨ BB = above ++ groups.reverse.flatten ++ below) ∧
      above ++ below = body ++ [t] ∧
      st'.guide = st.guide ++ lines ∧
      lines.map GuideLine.functionName =
        checkees.map (fun v => demangleName env.cxaDemangle (st.deref v).name) ∧
      List.Forall₂ Guards groups lines := by
  obtain ⟨c, hc⟩ := Option.isSome_iff_exists.mp (getFirstNonPHIOrDbg_terminated body ht)
  obtain ⟨hblock, -⟩ := getFirstNonPHIOrDbg_spec hc
  obtain ⟨st', hrun, hderef, -, hguide⟩ := guardHost_spec env sens hF hfind hnull hb hc
  refine ⟨st', _, _, checkees.mapIdx st.nextGroup, c.above, c.below, hrun, hderef, ?_, ?_, ?_,
    ?_, hguide, ?_, ?_⟩
  · rw [c.filter_plant fun _ hgroup _ hx => isInserted_nextGroup hgroup hx, hblock]
    exact List.filter_eq_self.mpr fun x hx => by simp [hfresh x hx]
  · exact Cursor.plant_getLast? hblock ht _
  · rw [Cursor.plant_block, Cursor.arrange]
    split
    · exact .inl rfl
    · exact .inr rfl
  · rw [c.above_below, hblock]
  · apply List.ext_getElem
    · simp
    · intro i h₁ h₂
      simp [PassState.nextLine]
  · rw [List.forall₂_iff_get]
    refine ⟨by simp, fun i h₁ h₂ => ?_⟩
    simpa using guards_nextGroup env st i _

/-- The witness block has an instruction in front of its terminator, the other one has not. -/
theorem guardHost_keeps_code_sample : ∃ st' BB, guardHost (sampleEnvironment .unopened) [1, 2]
      sampleNetwork.checkerFuncMap (.start sampleModule [1, 2]) 2 = .ok st' ∧
    (st'.deref 2).blocks = [BB] ∧ BB.filter (!isInserted 0 ·) =
      [⟨.original 2, .other, []⟩, ⟨.original 5, .terminator, []⟩] := by
  have hb : ((PassState.start sampleModule [1, 2]).deref 2).blocks =
      ([⟨.original 2, .other, []⟩] ++ [⟨.original 5, .terminator, []⟩]) :: [] := rfl
  have hfind : sampleNetwork.checkerFuncMap.find? 2 = some [1] := rfl
  obtain ⟨st', BB, -, -, -, -, hrun, hderef, hfilter, -⟩ :=
    guardHost_keeps_code (sampleEnvironment .unopened) [1, 2] (by decide) hfind (by decide) hb rfl
      (by decide)
  exact ⟨st', BB, hrun, by rw [hderef]; rfl, hfilter⟩

/-! ## When the guards run -/

/-- Control can leave through a call that does not return, and it leaves through the
terminator. -/
def canLeave (x : Instruction) : Bool :=
  match x.op with
  | .call _ _ => true
  | .terminator => true
  | _ => false

/-- It does leave when `returns` is what decides about the calls. -/
def leaves (returns : Instruction → Bool) (x : Instruction) : Bool :=
  match x.op with
  | .call _ _ => !returns x
  | .terminator => true
  | _ => false

/-- What is executed of a block that is entered. -/
def executed (returns : Instruction → Bool) : List Instruction → List Instruction
  | [] => []
  | x :: rest => if leaves returns x then [x] else x :: executed returns rest

def isGuardCall (n : Nat) (x : Instruction) : Prop :=
  isInserted n x = true ∧ ∃ args, x.op = .call "guardMe" args

/-- Whatever returns and whatever does not: no original instruction through which control
can leave is executed unless all guards have been called before, and if these return, all
of them are called. -/
structure GuardsRun (n : Nat) (BB : List Instruction) : Prop where
  before : ∀ returns done x more, executed returns BB = done ++ x :: more → canLeave x = true →
    isInserted n x = false → ∀ g ∈ BB, isGuardCall n g → g ∈ done
  called : ∀ returns, (∀ g, isGuardCall n g → returns g = true) →
    ∀ g ∈ BB, isGuardCall n g → g ∈ executed returns BB

theorem leaves_eq_false {returns : Instruction → Bool} {x : Instruction}
    (h : canLeave x = false) : leaves returns x = false := by
  unfold canLeave at h
  unfold leaves
  split <;> simp_all

theorem executed_prefix (returns : Instruction → Bool) (BB : List Instruction) :
    executed returns BB <+: BB := by
  induction BB with
  | nil => exact List.prefix_rfl
  | cons x rest ih =>
    rw [executed]
    split
    · exact ⟨rest, rfl⟩
    · exact List.cons_prefix_cons.mpr ⟨rfl, ih⟩

theorem executed_append {returns : Instruction → Bool} {l : List Instruction}
    (h : ∀ x ∈ l, leaves returns x = false) (more : List Instruction) :
    executed returns (l ++ more) = l ++ executed returns more := by
  induction l with
  | nil => rfl
  | cons x l ih =>
    rw [List.cons_append, executed, h x List.mem_cons_self, if_neg Bool.false_ne_true,
      ih fun y hy => h y (List.mem_cons_of_mem _ hy)]
    rfl

theorem getFirstNonPHIOrDbg_before {BB : List Instruction} {c : Cursor}
    (h : getFirstNonPHIOrDbg BB = some c) : ∀ x ∈ c.before, canLeave x = false := by
  induction BB generalizing c with
  | nil => cases h
  | cons I rest ih =>
    rw [getFirstNonPHIOrDbg] at h
    by_cases hI : I.op = .phi ∨ I.op = .dbgInfo
    · rw [if_pos hI] at h
      obtain ⟨d, hd, rfl⟩ := Option.map_eq_some_iff.mp h
      intro x hx
      rcases List.mem_cons.mp hx with rfl | hx
      · rcases hI with hI | hI <;> simp [canLeave, hI]
      · exact ih hd x hx
    · rw [if_neg hI] at h
      cases h
      exact fun x hx => by cases hx

theorem mem_inserted {n : Nat} {above inserted below : List Instruction}
    (hfresh : ∀ x ∈ above ++ below, isInserted n x = false) {g : Instruction}
    (hg : g ∈ above ++ inserted ++ below) (hins : isInserted n g = true) : g ∈ inserted := by
  by_contra hno
  have hold : g ∈ above ++ below := by
    simp only [List.mem_append] at hg ⊢
    tauto
  rw [hfresh g hold] at hins
  cases hins

theorem leaves_guardCall {n : Nat} {returns : Instruction → Bool}
    (hret : ∀ g, isGuardCall n g → returns g = true) {g : Instruction} (hg : isGuardCall n g) :
    leaves returns g = false := by
  obtain ⟨-, args, hop⟩ := id hg
  simp [leaves, hop, hret g hg]

/-- Guards run where nothing that stands above them can leave. -/
theorem guardsRun_of_above {n : Nat} {above inserted below : List Instruction}
    (habove : ∀ x ∈ above, canLeave x = false)
    (hfresh : ∀ x ∈ above ++ below, isInserted n x = false)
    (hins : ∀ x ∈ inserted, isInserted n x = true)
    (hcalls : ∀ x ∈ inserted, canLeave x = true → isGuardCall n x) :
    GuardsRun n (above ++ inserted ++ below) where
  before returns done x more hexec hx hx' g hg hcall := by
    have hnot : x ∉ above ++ inserted := by
      intro hmem
      rcases List.mem_append.mp hmem with hmem | hmem
      · rw [habove x hmem] at hx
        cases hx
      · rw [hins x hmem] at hx'
        cases hx'
    obtain ⟨tail, htail⟩ := executed_prefix returns (above ++ inserted ++ below)
    rw [hexec, List.append_assoc] at htail
    have hdone : above ++ inserted <+: done := by
      rcases List.append_eq_append_iff.mp htail with ⟨mid, hmid, hrest⟩ | ⟨mid, hmid, -⟩
      · cases mid with
        | nil => exact ⟨[], by rw [hmid, List.append_nil, List.append_nil]⟩
        | cons y mid =>
          obtain rfl : x = y := (List.cons.inj hrest).1
          exact absurd (hmid ▸ List.mem_append_right _ List.mem_cons_self) hnot
      · exact ⟨mid, hmid.symm⟩
    exact hdone.subset (List.mem_append_right _ (mem_inserted hfresh hg hcall.1))
  called returns hret g hg hcall := by
    have hstay : ∀ x ∈ above ++ inserted, leaves returns x = false := by
      intro x hx
      by_cases hleave : canLeave x = true
      · rcases List.mem_append.mp hx with hx | hx
        · rw [habove x hx] at hleave
          cases hleave
        · exact leaves_guardCall hret (hcalls x hx hleave)
      · exact leaves_eq_false (Bool.not_eq_true _ ▸ hleave)
    rw [executed_append hstay]
    exact List.mem_append_left _ (List.mem_append_right _ (mem_inserted hfresh hg hcall.1))

/-- They do not where an original instruction above them can leave, whatever it does. -/
theorem not_guardsRun_of_above {n : Nat} {before inserted below : List Instruction}
    {I : Instruction} (hbefore : ∀ x ∈ before, canLeave x = false) (hI : canLeave I = true)
    (hfresh : ∀ x ∈ before ++ [I] ++ below, isInserted n x = false)
    (hcall : ∃ g ∈ inserted, isGuardCall n g) :
    ¬ GuardsRun n (before ++ [I] ++ inserted ++ below) := by
  intro h
  obtain ⟨g, hg, hguard⟩ := hcall
  obtain ⟨more, hmore⟩ : ∃ more, executed (fun _ => true) (before ++ [I] ++ inserted ++ below) =
      before ++ I :: more := by
    rw [List.append_assoc, List.append_assoc,
      executed_append fun x hx => leaves_eq_false (hbefore x hx), List.singleton_append, executed]
    split
    · exact ⟨_, rfl⟩
    · exact ⟨_, rfl⟩
  have hmem := h.before _ _ _ _ hmore hI (hfresh I (by simp)) g (by simp [hg]) hguard
  have hold := hfresh g (by simp [hmem])
  rw [hguard.1] at hold
  cases hold

omit [OrderBot Fn] in
theorem nextGroup_calls (st : PassState Fn) (j : Nat) (Checkee : Fn) :
    (∀ x ∈ st.nextGroup j Checkee, canLeave x = true → ∃ args, x.op = .call "guardMe" args) ∧
      ∃ x ∈ st.nextGroup j Checkee, ∃ args, x.op = .call "guardMe" args := by
  simp only [PassState.nextGroup, guardInstructions, Bool.false_eq_true, if_false, List.mem_cons,
    List.not_mem_nil, or_false, exists_eq_or_imp, exists_eq_left, forall_eq_or_imp, forall_eq]
  simp [canLeave]

omit [OrderBot Fn] in
theorem isInserted_arrange {c : Cursor} {st : PassState Fn} {checkees : List Fn} {x : Instruction}
    (hx : x ∈ (c.arrange (checkees.mapIdx st.nextGroup)).flatten) :
    isInserted st.guards.length x = true := by
  obtain ⟨group, hgroup, hx⟩ := List.mem_flatten.mp (mem_arrange.mp hx)
  exact isInserted_nextGroup hgroup hx

omit [OrderBot Fn] in
theorem arrange_calls {c : Cursor} {st : PassState Fn} {checkees : List Fn} {x : Instruction}
    (hx : x ∈ (c.arrange (checkees.mapIdx st.nextGroup)).flatten) (hleave : canLeave x = true) :
    isGuardCall st.guards.length x := by
  refine ⟨isInserted_arrange hx, ?_⟩
  obtain ⟨group, hgroup, hx⟩ := List.mem_flatten.mp (mem_arrange.mp hx)
  obtain ⟨j, hj, rfl⟩ := List.mem_mapIdx.mp hgroup
  exact (nextGroup_calls st j _).1 x hx hleave

omit [OrderBot Fn] in
theorem exists_guardCall (c : Cursor) (st : PassState Fn) {checkees : List Fn}
    (hne : checkees ≠ []) : ∃ g ∈ (c.arrange (checkees.mapIdx st.nextGroup)).flatten,
      isGuardCall st.guards.length g := by
  obtain ⟨v, vs, rfl⟩ := List.exists_cons_of_ne_nil hne
  obtain ⟨x, hx, hop⟩ := (nextGroup_calls st 0 v).2
  have hmem : x ∈ (c.arrange ((v :: vs).mapIdx st.nextGroup)).flatten :=
    mem_arrange.mpr (List.mem_flatten.mpr ⟨_, List.mem_mapIdx.mpr ⟨0, by simp, rfl⟩, hx⟩)
  exact ⟨x, hmem, isInserted_arrange hmem, hop⟩

omit [OrderBot Fn] in
/-- The guards run unless the instruction they are put behind is a call. -/
theorem guardsRun_plant_iff {BB : List Instruction} {c : Cursor}
    (hc : getFirstNonPHIOrDbg BB = some c) {st : PassState Fn} {checkees : List Fn}
    (hne : checkees ≠ []) (hfresh : ∀ x ∈ c.block, isInserted st.guards.length x = false) :
    GuardsRun st.guards.length (c.plant (checkees.mapIdx st.nextGroup)).block ↔
      ∀ callee args, c.I.op ≠ .call callee args := by
  have hbefore := getFirstNonPHIOrDbg_before hc
  have hsplit := c.above_below
  rw [c.plant_block]
  by_cases hcall : ∃ callee args, c.I.op = .call callee args
  · obtain ⟨callee, args, hop⟩ := hcall
    have hterm : c.I.op ≠ .terminator := by rw [hop]; exact nofun
    have hno : ¬ ∀ callee args, c.I.op ≠ .call callee args := fun h => h callee args hop
    rw [← hsplit] at hfresh
    simp only [Cursor.above, if_neg hterm] at hfresh ⊢
    refine iff_of_false ?_ hno
    exact not_guardsRun_of_above hbefore (by simp [canLeave, hop]) hfresh
      (exists_guardCall c st hne)
  · have hyes : ∀ callee args, c.I.op ≠ .call callee args :=
      fun callee args hop => hcall ⟨callee, args, hop⟩
    have habove : ∀ x ∈ c.above, canLeave x = false := by
      unfold Cursor.above
      split
      · exact hbefore
      · rename_i hterm
        intro x hx
        rcases List.mem_append.mp hx with hx | hx
        · exact hbefore x hx
        · rw [List.mem_singleton.mp hx, canLeave]
          split
          · rename_i hop
            exact absurd hop (hyes _ _)
          · exact absurd ‹_› hterm
          · rfl
    exact iff_of_true (guardsRun_of_above habove (hsplit.symm ▸ hfresh)
      (fun x hx => isInserted_arrange hx) fun x hx => arrange_calls hx) hyes

/-- The guards of a host run exactly where the saved instruction, the first one that is
neither PHI nor debug information, is no call: they are put behind it, and it may not
return. -/
theorem guardHost_guardsRun_iff (env : Environment Fn) (sens : List Fn)
    {checkerFuncMap : SortedMap Fn (List Fn)} {st : PassState Fn} {F : Fn} {checkees : List Fn}
    {body : List Instruction} {t : Instruction} {rest : List (List Instruction)} (hF : F ≠ ⊥)
    (hfind : checkerFuncMap.find? F = some checkees) (hnull : ⊥ ∉ checkees) (hne : checkees ≠ [])
    (hb : (st.deref F).blocks = (body ++ [t]) :: rest) (ht : t.op = .terminator)
    (hfresh : ∀ x ∈ body ++ [t], isInserted st.guards.length x = false) :
    ∃ st' BB c, guardHost env sens checkerFuncMap st F = .ok st' ∧
      (st'.deref F).blocks = BB :: rest ∧ getFirstNonPHIOrDbg (body ++ [t]) = some c ∧
      (GuardsRun st.guards.length BB ↔ ∀ callee args, c.I.op ≠ .call callee args) := by
  obtain ⟨c, hc⟩ := Option.isSome_iff_exists.mp (getFirstNonPHIOrDbg_terminated body ht)
  obtain ⟨hblock, -⟩ := getFirstNonPHIOrDbg_spec hc
  obtain ⟨st', hrun, hderef, -⟩ := guardHost_spec env sens hF hfind hnull hb hc
  exact ⟨st', _, c, hrun, by rw [hderef, Function.update_self], hc,
    guardsRun_plant_iff hc hne (hblock ▸ hfresh)⟩

/-- Two definitions that start with a call of `exit`. -/
def exitModule : Module Nat where
  functions := [21, 22]
  deref F :=
    { name := if F = 21 then "f1" else "f2"
      blocks := [[⟨.original F, .call "exit" [.i32 1], []⟩, ⟨.original (F + 2), .terminator, []⟩]] }
  nodup := by decide
  nonnull := by decide
  unique := by decide
  terminated F _ block hblock := by
    rw [List.mem_singleton.mp hblock]
    exact ⟨[_], _, rfl, rfl⟩

/-- The second function checks the first one. -/
def exitNetwork : SortedMap Nat (List Nat) := ⟨[(22, [21])], by decide⟩

theorem guardHost_guardsRun_iff_sample : ∃ st' BB, guardHost (sampleEnvironment .unopened) [1, 2]
      sampleNetwork.checkerFuncMap (.start sampleModule [1, 2]) 2 = .ok st' ∧
    (st'.deref 2).blocks = [BB] ∧ GuardsRun 0 BB := by
  have hb : ((PassState.start sampleModule [1, 2]).deref 2).blocks =
      ([⟨.original 2, .other, []⟩] ++ [⟨.original 5, .terminator, []⟩]) :: [] := rfl
  have hfind : sampleNetwork.checkerFuncMap.find? 2 = some [1] := rfl
  obtain ⟨st', BB, c, hrun, hblocks, hc, hiff⟩ :=
    guardHost_guardsRun_iff (sampleEnvironment .unopened) [1, 2] (by decide) hfind (by decide)
      (by decide) hb rfl (by decide)
  refine ⟨st', BB, hrun, hblocks, hiff.mpr fun callee args => ?_⟩
  cases hc
  exact nofun

/-- The host exits before its guard is called. -/
theorem guards_behind_exit : ∃ st' BB, guardHost (sampleEnvironment .unopened) [21, 22] exitNetwork
      (.start exitModule [21, 22]) 22 = .ok st' ∧
    (st'.deref 22).blocks = [BB] ∧ ¬ GuardsRun 0 BB := by
  have hnot : ¬ GuardsRun 0 ([] ++ [⟨.original 22, .call "exit" [.i32 1], []⟩] ++
      guardInstructions 0 222222222 555555555 444444444 "f1" false ++
      [⟨.original 24, .terminator, []⟩]) :=
    not_guardsRun_of_above (fun x hx => by cases hx) rfl (by decide)
      ⟨_, List.mem_of_getElem? (i := 9) rfl, rfl, _, rfl⟩
  exact ⟨_, _, rfl, rfl, hnot⟩

end SelfChecksumming
