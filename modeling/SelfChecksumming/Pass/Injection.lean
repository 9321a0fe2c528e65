import SelfChecksumming.Library.Loop
import SelfChecksumming.Pass.Run

/-! # What the injection loop leaves behind

Every tally of the loop is a function of the edges guarded so far. -/
namespace SelfChecksumming
open Library

variable {Fn : Type}

/-- The guard injected for the `k`-th edge. -/
def guardAt (k : Nat) (edge : Fn × Fn) : Guard Fn where
  host := edge.1
  checkee := edge.2
  address := 222222222 + .ofNat k
  length := 555555555 + .ofNat k
  expectedHash := 444444444 + .ofNat k

def guardsOf (edges : List (Fn × Fn)) : List (Guard Fn) := edges.mapIdx guardAt

theorem guardsOf_append (edges : List (Fn × Fn)) (edge : Fn × Fn) :
    guardsOf (edges ++ [edge]) = guardsOf edges ++ [guardAt edges.length edge] := by
  simp [guardsOf, List.mapIdx_append]

theorem guardsOf_length (edges : List (Fn × Fn)) : (guardsOf edges).length = edges.length := by
  simp [guardsOf]

/-- Who checks whom, without the placeholders. -/
def Guard.edge (g : Guard Fn) : Fn × Fn := (g.host, g.checkee)

theorem guardsOf_edge (edges : List (Fn × Fn)) : (guardsOf edges).map Guard.edge = edges := by
  unfold guardsOf
  apply List.ext_getElem
  · simp
  · intro i h₁ h₂
    simp [guardAt, Guard.edge]

/-- The placeholder behind those of `done`. -/
theorem placeholder_next {α : Type} (base : UInt32) (done : List α) (a : α) :
    base + .ofNat done.length + 1 = base + .ofNat (done ++ [a]).length := by
  rw [List.length_append, List.length_singleton, UInt32.ofNat_add, UInt32.add_assoc]
  rfl

variable [LinearOrder Fn] [OrderBot Fn]

def Guard.line (cxaDemangle : String → Option String) (M : Module Fn) (g : Guard Fn) : GuideLine :=
  ⟨demangleName cxaDemangle (M.getName g.checkee), g.address, g.length, g.expectedHash⟩

/-- The state once `edges` are guarded, from the start of the loop. -/
structure Tally (env : Environment Fn) (M : Module Fn) (sens : List Fn) (edges : List (Fn × Fn))
    (st : PassState Fn) : Prop where
  name : ∀ F, (st.deref F).name = M.getName F
  guards : st.guards = guardsOf edges
  guide : st.guide = st.guards.map (Guard.line env.cxaDemangle M)
  sizeBegin : st.sizeBegin = 555555555 + .ofNat edges.length
  addressBegin : st.addressBegin = 222222222 + .ofNat edges.length
  expectedHashBegin : st.expectedHashBegin = 444444444 + .ofNat edges.length
  numberOfGuards : st.numberOfGuards = edges.length
  markedFunctionCount : st.markedFunctionCount = edges.length
  marked : ∀ F, F ∈ st.functionInfo.functions ↔ ∃ e ∈ edges, e.2 = F
  protectedFuncs : ∀ F, st.protectedFuncs.find? F =
    if F ∈ sens then some (edges.countP fun e => e.2 = F) else none

theorem Tally.start (env : Environment Fn) (M : Module Fn) (sens : List Fn) :
    Tally env M sens [] (.start M sens) where
  name _ := rfl
  guards := rfl
  guide := rfl
  sizeBegin := rfl
  addressBegin := rfl
  expectedHashBegin := rfl
  numberOfGuards := rfl
  markedFunctionCount := rfl
  marked F := by simp [PassState.start, FunctionInformation.init]
  protectedFuncs F := by
    have hfind : (PassState.start M sens).protectedFuncs.find? F =
        ((sens.find? fun G => G = F).map fun _ => 0).or none :=
      SortedMap.find?_foldl_insert F sens .empty fun _ _ _ _ h => h
    rw [hfind, Option.or_none]
    cases hF : sens.find? fun G => G = F with
    | none =>
      have hmem : F ∉ sens := fun hmem => by simpa using List.find?_eq_none.mp hF F hmem
      rw [if_neg hmem]
      rfl
    | some G =>
      obtain rfl : G = F := by simpa using List.find?_some hF
      rw [if_pos (List.mem_of_find?_eq_some hF)]
      rfl

/-- What one guard does. -/
theorem guardCheckee_ok {env : Environment Fn} {sens : List Fn} {host Checkee : Fn}
    {cs cs' : Cursor × PassState Fn}
    (h : guardCheckee env sens host cs Checkee = .ok cs') :
    Checkee ≠ ⊥ ∧ cs' = (cs.1.insertAt (guardInstructions cs.2.guards.length cs.2.addressBegin
        cs.2.sizeBegin cs.2.expectedHashBegin (cs.2.deref Checkee).name false), { cs.2 with
      protectedFuncs :=
        if Checkee ∈ sens then cs.2.protectedFuncs.upsert Checkee fun n => n.getD 0 + 1
        else cs.2.protectedFuncs
      functionInfo := cs.2.functionInfo.addFunction Checkee
      markedFunctionCount := cs.2.markedFunctionCount + 1
      numberOfGuards := cs.2.numberOfGuards + 1
      sizeBegin := cs.2.sizeBegin + 1
      addressBegin := cs.2.addressBegin + 1
      expectedHashBegin := cs.2.expectedHashBegin + 1
      guide := cs.2.guide ++ [⟨demangleName env.cxaDemangle (cs.2.deref Checkee).name,
        cs.2.addressBegin, cs.2.sizeBegin, cs.2.expectedHashBegin⟩]
      numberOfGuardInstructions := cs.2.numberOfGuardInstructions + 9
      guards := cs.2.guards ++ [⟨host, Checkee, cs.2.addressBegin, cs.2.sizeBegin,
        cs.2.expectedHashBegin⟩]
      didModify := true }) := by
  unfold guardCheckee at h
  by_cases hne : Checkee = ⊥
  · rw [if_pos hne] at h
    cases h
  · rw [if_neg hne] at h
    refine ⟨hne, (Except.ok.inj h).symm.trans ?_⟩
    by_cases hmem : Checkee ∈ sens
    · simp only [if_pos hmem]; rfl
    · simp only [if_neg hmem]; rfl

theorem Tally.guardCheckee {env : Environment Fn} {M : Module Fn} {sens : List Fn}
    {edges : List (Fn × Fn)} {host Checkee : Fn} {cs cs' : Cursor × PassState Fn}
    (ht : Tally env M sens edges cs.2)
    (h : SelfChecksumming.guardCheckee env sens host cs Checkee = .ok cs') :
    Tally env M sens (edges ++ [(host, Checkee)]) cs'.2 := by
  obtain ⟨-, rfl⟩ := guardCheckee_ok h
  have hlen : (edges ++ [(host, Checkee)]).length = edges.length + 1 := by simp
  have hguard : cs.2.guards ++ [⟨host, Checkee, cs.2.addressBegin, cs.2.sizeBegin,
      cs.2.expectedHashBegin⟩] = guardsOf (edges ++ [(host, Checkee)]) := by
    rw [guardsOf_append, ht.guards, ht.addressBegin, ht.sizeBegin, ht.expectedHashBegin]
    rfl
  refine ⟨ht.name, hguard, ?_, ?_, ?_, ?_, ?_, ?_, ?_, ?_⟩
  · show cs.2.guide ++ _ = _
    rw [List.map_append, ht.guide, ht.name Checkee]
    rfl
  · exact (congrArg (· + 1) ht.sizeBegin).trans (placeholder_next _ _ _)
  · exact (congrArg (· + 1) ht.addressBegin).trans (placeholder_next _ _ _)
  · exact (congrArg (· + 1) ht.expectedHashBegin).trans (placeholder_next _ _ _)
  · rw [hlen, ← ht.numberOfGuards]
  · rw [hlen, ← ht.markedFunctionCount]
  · intro F
    show F ∈ insert Checkee cs.2.functionInfo.functions ↔ _
    rw [Finset.mem_insert, ht.marked]
    simp only [List.mem_append, List.mem_singleton, or_and_right, exists_or, exists_eq_left]
    rw [or_comm, eq_comm]
  · intro F
    rw [List.countP_append, List.countP_singleton]
    by_cases hmem : Checkee ∈ sens
    · simp only [if_pos hmem]
      by_cases hF : F = Checkee
      · subst hF
        rw [SortedMap.find?_upsert_self, ht.protectedFuncs, if_pos hmem, if_pos hmem]
        simp
      · rw [SortedMap.find?_upsert_ne _ _ hF, ht.protectedFuncs]
        simp [Ne.symm hF]
    · simp only [if_neg hmem, ht.protectedFuncs]
      by_cases hF : F ∈ sens
      · have hne : Checkee ≠ F := fun he => hmem (he ▸ hF)
        simp [hF, hne]
      · simp [hF]

/-! ## One host -/

/-- The edges that start at `F`. -/
def hostEdges (checkerFuncMap : SortedMap Fn (List Fn)) (F : Fn) : List (Fn × Fn) :=
  ((checkerFuncMap.find? F).getD []).map fun checkee => (F, checkee)

/-- What one host amounts to. -/
theorem guardHost_ok {env : Environment Fn} {sens : List Fn} {map : SortedMap Fn (List Fn)}
    {st st' : PassState Fn} {F : Fn} (h : guardHost env sens map st F = .ok st') :
    ((map.find? F).getD [] = [] ∧ st' = st) ∨
      ∃ checkees BB rest I cs, map.find? F = some checkees ∧ (st.deref F).blocks = BB :: rest ∧
        getFirstNonPHIOrDbg BB = some I ∧
        checkees.foldlM (guardCheckee env sens F) (I, st) = .ok cs ∧
        st' = cs.2.setEntryBlock F cs.1.block := by
  unfold guardHost at h
  cases hF : map.find? F with
  | none => rw [hF] at h; exact .inl ⟨rfl, (Except.ok.inj h).symm⟩
  | some checkees =>
    simp only [hF] at h
    by_cases hne : F = ⊥
    · rw [if_pos hne] at h; cases h
    rw [if_neg hne] at h
    cases hb : (st.deref F).blocks with
    | nil => rw [hb] at h; cases h
    | cons BB rest =>
      simp only [hb] at h
      cases hI : getFirstNonPHIOrDbg BB with
      | none =>
        simp only [hI] at h
        by_cases hc : checkees = []
        · rw [if_pos hc] at h
          exact .inl ⟨hc, (Except.ok.inj h).symm⟩
        · rw [if_neg hc] at h; cases h
      | some I =>
        simp only [hI] at h
        cases hrun : checkees.foldlM (guardCheckee env sens F) (I, st) with
        | error fault => rw [hrun] at h; cases h
        | ok cs =>
          rw [hrun] at h
          exact .inr ⟨checkees, BB, rest, I, cs, rfl, rfl, hI, hrun, (Except.ok.inj h).symm⟩

theorem Tally.setEntryBlock {env : Environment Fn} {M : Module Fn} {sens : List Fn}
    {edges : List (Fn × Fn)} {st : PassState Fn} (ht : Tally env M sens edges st) (F : Fn)
    (BB : List Instruction) : Tally env M sens edges (st.setEntryBlock F BB) where
  name G := by
    rw [← ht.name G]
    by_cases hG : G = F
    · subst hG; rw [st.setEntryBlock_self]
    · rw [st.setEntryBlock_ne BB hG]
  guards := ht.guards
  guide := ht.guide
  sizeBegin := ht.sizeBegin
  addressBegin := ht.addressBegin
  expectedHashBegin := ht.expectedHashBegin
  numberOfGuards := ht.numberOfGuards
  markedFunctionCount := ht.markedFunctionCount
  marked := ht.marked
  protectedFuncs := ht.protectedFuncs

theorem Tally.guardHost {env : Environment Fn} {M : Module Fn} {sens : List Fn}
    {map : SortedMap Fn (List Fn)} {edges : List (Fn × Fn)} {st st' : PassState Fn} {F : Fn}
    (ht : Tally env M sens edges st) (h : SelfChecksumming.guardHost env sens map st F = .ok st') :
    Tally env M sens (edges ++ hostEdges map F) st' := by
  rcases guardHost_ok h with ⟨hnil, rfl⟩ | ⟨checkees, BB, rest, I, cs, hF, -, -, hrun, rfl⟩
  · simpa [hostEdges, hnil] using ht
  · have hinv := foldlM_invariant
      (fun done (cs : Cursor × PassState Fn) =>
        Tally env M sens (edges ++ done.map fun v => (F, v)) cs.2)
      (fun done v b b' hb hv => by simpa using hb.guardCheckee hv)
      checkees [] (b := (I, st)) (by simpa using ht) hrun
    simpa [hostEdges, hF] using hinv.setEntryBlock F cs.1.block

/-! ## The loop -/

/-- The edges in the order of injection. -/
def Network.injected (net : Network Fn) : List (Fn × Fn) :=
  net.topologicalSortFuncs.flatMap (hostEdges net.checkerFuncMap)

/-- A loop that completes has guarded the edges of its hosts in turn. -/
theorem tally_of_injectGuards {env : Environment Fn} {M : Module Fn} {sens : List Fn}
    {net : Network Fn} {st : PassState Fn} (h : injectGuards env M sens net = .ok st) :
    Tally env M sens net.injected st := by
  have hinv := foldlM_invariant
    (fun done st => Tally env M sens (done.flatMap (hostEdges net.checkerFuncMap)) st)
    (fun done F st st' ht hF => by simpa using ht.guardHost hF)
    net.topologicalSortFuncs [] (Tally.start env M sens) h
  rwa [List.nil_append] at hinv

omit [OrderBot Fn] in
theorem mem_hostEdges {map : SortedMap Fn (List Fn)} {F : Fn} {e : Fn × Fn} :
    e ∈ hostEdges map F ↔ e.1 = F ∧ Edge map.find? F e.2 := by
  rw [hostEdges, List.mem_map]
  constructor
  · intro h
    obtain ⟨v, hv, rfl⟩ := h
    cases hfind : map.find? F with
    | none => rw [hfind] at hv; cases hv
    | some vs => exact ⟨rfl, vs, hfind, by rwa [hfind] at hv⟩
  · intro h
    obtain ⟨u, v⟩ := e
    obtain ⟨rfl, vs, hvs, hv⟩ := h
    exact ⟨v, by rwa [hvs], rfl⟩

omit [OrderBot Fn] in
theorem mem_injected {net : Network Fn} {k F : Fn} : (k, F) ∈ net.injected ↔
    k ∈ net.topologicalSortFuncs ∧ Edge net.checkerFuncMap.find? k F := by
  simp only [Network.injected, List.mem_flatMap, mem_hostEdges]
  exact ⟨fun ⟨_, hu, hk, he⟩ => hk ▸ ⟨hu, he⟩, fun ⟨hk, he⟩ => ⟨k, hk, rfl, he⟩⟩

omit [OrderBot Fn] in
/-- From a guard on, its checkee hosts no guard: on an acyclic network the sort keeps
the hosts of what is checked in front. -/
theorem injected_pairwise {net : Network Fn} (hnd : net.topologicalSortFuncs.Nodup)
    (hmem : ∀ F ∈ net.topologicalSortFuncs, F ∈ net.checkerFuncMap.keys)
    (hord : Ordered net.checkerFuncMap.find? net.topologicalSortFuncs)
    (ha : Acyclic net.checkerFuncMap.find?) :
    net.injected.Pairwise fun e e' => e'.1 ≠ e.2 := by
  rw [Network.injected, List.pairwise_flatMap]
  constructor
  · intro F _
    refine List.pairwise_of_forall_mem_list fun e he e' he' heq => ?_
    obtain ⟨-, hedge⟩ := mem_hostEdges.mp he
    rw [← heq, (mem_hostEdges.mp he').1] at hedge
    exact ha F (.single hedge)
  · have hpair := hord.pairwise ha hnd fun F hF =>
      Option.isSome_iff_exists.mpr (SortedMap.mem_keys.mp (hmem F hF))
    refine hpair.imp fun hno e he e' he' heq => hno ?_
    obtain ⟨-, hedge⟩ := mem_hostEdges.mp he
    rwa [← heq, (mem_hostEdges.mp he').1] at hedge

theorem Tally.edge_mem {env : Environment Fn} {M : Module Fn} {sens : List Fn}
    {edges : List (Fn × Fn)} {st : PassState Fn} (ht : Tally env M sens edges st) {g : Guard Fn}
    (hg : g ∈ st.guards) : (g.host, g.checkee) ∈ edges := by
  rw [← guardsOf_edge edges, ← ht.guards]
  exact List.mem_map_of_mem hg

theorem Tally.exists_guard {env : Environment Fn} {M : Module Fn} {sens : List Fn}
    {edges : List (Fn × Fn)} {st : PassState Fn} (ht : Tally env M sens edges st) {k F : Fn}
    (he : (k, F) ∈ edges) : ∃ g ∈ st.guards, g.host = k ∧ g.checkee = F := by
  rw [← guardsOf_edge edges, ← ht.guards] at he
  obtain ⟨g, hg, hedge⟩ := List.mem_map.mp he
  exact ⟨g, hg, Prod.mk.inj hedge⟩

/-- Hosts that have checkees are not null. -/
theorem host_ne_bot {env : Environment Fn} {M : Module Fn} {sens : List Fn} {net : Network Fn}
    {st : PassState Fn} (h : injectGuards env M sens net = .ok st) :
    ∀ F ∈ net.topologicalSortFuncs, (net.checkerFuncMap.find? F).isSome → F ≠ ⊥ := by
  refine foldlM_invariant
    (fun done (_ : PassState Fn) => ∀ F ∈ done, (net.checkerFuncMap.find? F).isSome → F ≠ ⊥)
    (fun done x b b' hb hx => ?_) net.topologicalSortFuncs [] (by simp) h
  intro F hF hsome
  rcases List.mem_append.mp hF with hF | hF
  · exact hb F hF hsome
  · obtain rfl := List.mem_singleton.mp hF
    obtain ⟨checkees, hfind⟩ := Option.isSome_iff_exists.mp hsome
    intro hbot
    rw [guardHost, hfind] at hx
    simp only [if_pos hbot] at hx
    cases hx

/-! ## Completion -/

theorem getFirstNonPHIOrDbg_isSome {BB : List Instruction} :
    (getFirstNonPHIOrDbg BB).isSome ↔ ∃ I ∈ BB, I.op ≠ .phi ∧ I.op ≠ .dbgInfo := by
  induction BB with
  | nil => simp [getFirstNonPHIOrDbg]
  | cons I rest ih =>
    rw [getFirstNonPHIOrDbg]
    by_cases hI : I.op = .phi ∨ I.op = .dbgInfo
    · rw [if_pos hI, Option.isSome_map, ih]
      simp only [List.mem_cons, exists_eq_or_imp]
      exact ⟨.inr, fun h => h.resolve_left fun hn => hI.elim hn.1 hn.2⟩
    · rw [if_neg hI]
      simpa using .inl (not_or.mp hI)

theorem getFirstNonPHIOrDbg_terminated (body : List Instruction) {t : Instruction}
    (ht : t.op = .terminator) : (getFirstNonPHIOrDbg (body ++ [t])).isSome := by
  refine getFirstNonPHIOrDbg_isSome.mpr ⟨t, List.mem_append_right body List.mem_cons_self, ?_⟩
  rw [ht]
  exact ⟨nofun, nofun⟩

theorem getFirstNonPHIOrDbg_spec {BB : List Instruction} {c : Cursor}
    (h : getFirstNonPHIOrDbg BB = some c) :
    c.block = BB ∧ c.I.op ≠ .phi ∧ c.I.op ≠ .dbgInfo := by
  induction BB generalizing c with
  | nil => cases h
  | cons I rest ih =>
    rw [getFirstNonPHIOrDbg] at h
    by_cases hI : I.op = .phi ∨ I.op = .dbgInfo
    · rw [if_pos hI] at h
      obtain ⟨d, hd, rfl⟩ := Option.map_eq_some_iff.mp h
      obtain ⟨hblock, hop⟩ := ih hd
      exact ⟨congrArg (I :: ·) hblock, hop⟩
    · rw [if_neg hI] at h
      cases h
      exact ⟨rfl, not_or.mp hI⟩

@[simp] theorem Cursor.insertAt_I (c : Cursor) (insts : List Instruction) :
    (c.insertAt insts).I = c.I := by
  unfold insertAt
  split <;> rfl

/-- There is an entry block with a place for guards. -/
def Function.Guardable (F : Function) : Prop :=
  ∃ BB rest, F.blocks = BB :: rest ∧ (getFirstNonPHIOrDbg BB).isSome

theorem Module.guardable (M : Module Fn) {F : Fn} (hF : F ∈ M.functions)
    (hdef : (M.deref F).isDeclaration = false) : (M.deref F).Guardable := by
  cases hb : (M.deref F).blocks with
  | nil => rw [Function.isDeclaration, hb] at hdef; cases hdef
  | cons BB rest =>
    obtain ⟨body, t, rfl, ht⟩ := M.terminated F hF BB (by rw [hb]; exact List.mem_cons_self)
    exact ⟨_, rest, hb, getFirstNonPHIOrDbg_terminated body ht⟩

/-- Guards of a non-null function can always be injected; the module and the saved
instruction stay what they are until the block is put back. -/
theorem guardCheckee_total (env : Environment Fn) (sens : List Fn) (host : Fn) {Checkee : Fn}
    (hne : Checkee ≠ ⊥) (cs : Cursor × PassState Fn) :
    ∃ cs', guardCheckee env sens host cs Checkee = .ok cs' ∧ cs'.2.deref = cs.2.deref ∧
      cs'.1.I = cs.1.I := by
  cases h : guardCheckee env sens host cs Checkee with
  | error fault => rw [guardCheckee, if_neg hne] at h; cases h
  | ok cs' =>
    obtain ⟨-, rfl⟩ := guardCheckee_ok h
    exact ⟨_, rfl, rfl, Cursor.insertAt_I _ _⟩

theorem guardHost_total (env : Environment Fn) (sens : List Fn) {map : SortedMap Fn (List Fn)}
    {st : PassState Fn} {F : Fn} (hF : F ≠ ⊥) (hcheckees : ∀ v, Edge map.find? F v → v ≠ ⊥)
    (hg : (st.deref F).Guardable) :
    ∃ st', guardHost env sens map st F = .ok st' ∧
      ∀ G, (st.deref G).Guardable → (st'.deref G).Guardable := by
  obtain ⟨BB, rest, hb, hsome⟩ := hg
  obtain ⟨I, hI⟩ := Option.isSome_iff_exists.mp hsome
  cases hfind : map.find? F with
  | none => exact ⟨st, by rw [guardHost, hfind], fun _ h => h⟩
  | some checkees =>
    obtain ⟨cs, hrun, hderef, hcursor⟩ := foldlM_total
      (fun cs : Cursor × PassState Fn => cs.2.deref = st.deref ∧ cs.1.I = I.I) checkees
      (fun v hv cs hcs => by
        obtain ⟨cs', h, hd, hc⟩ := guardCheckee_total env sens F
          (hcheckees v ⟨checkees, hfind, hv⟩) cs
        exact ⟨cs', h, hd.trans hcs.1, hc.trans hcs.2⟩)
      (I, st) ⟨rfl, rfl⟩
    refine ⟨cs.2.setEntryBlock F cs.1.block, ?_, ?_⟩
    · simp only [guardHost, hfind, if_neg hF, hb, hI, hrun]
    · intro G hG
      by_cases hGF : G = F
      · subst hGF
        rw [cs.2.setEntryBlock_self]
        obtain ⟨-, hop⟩ := getFirstNonPHIOrDbg_spec hI
        refine ⟨_, _, rfl, getFirstNonPHIOrDbg_isSome.mpr ⟨cs.1.I, ?_, hcursor ▸ hop⟩⟩
        exact List.mem_append_right _ List.mem_cons_self
      · rw [cs.2.setEntryBlock_ne _ hGF, hderef]
        exact hG

/-- The loop completes on a network of functions of the module whose hosts are
definitions. -/
theorem injectGuards_total (env : Environment Fn) {M : Module Fn} (sens : List Fn)
    (net : Network Fn)
    (hhosts : ∀ F ∈ net.topologicalSortFuncs,
      F ∈ M.functions ∧ (M.deref F).isDeclaration = false)
    (hcheckees : ∀ F v, Edge net.checkerFuncMap.find? F v → v ∈ M.functions) :
    ∃ st, injectGuards env M sens net = .ok st := by
  obtain ⟨st, hrun, -⟩ := foldlM_total
    (fun st : PassState Fn => ∀ F ∈ net.topologicalSortFuncs, (st.deref F).Guardable)
    net.topologicalSortFuncs
    (fun F hF st hg => by
      obtain ⟨st', h, hkeep⟩ := guardHost_total env sens
        (M.ne_bot (hhosts F hF).1) (fun v he => M.ne_bot (hcheckees F v he)) (hg F hF)
      exact ⟨st', h, fun G hG => hkeep G (hg G hG)⟩)
    (PassState.start M sens) (fun F hF => M.guardable (hhosts F hF).1 (hhosts F hF).2)
  exact ⟨st, hrun⟩

end SelfChecksumming
