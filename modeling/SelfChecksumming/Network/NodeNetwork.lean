import SelfChecksumming.Network.AcyclicGraph
import SelfChecksumming.Network.Sort
import Mathlib.Order.BoundedOrder.Basic

/-! # The network of numbers

The rest of `CheckersNetwork`: its sort works on the nodes themselves, with an array of as
many bits as there are functions, and only in the end nodes are replaced by functions. An
object can be asked to construct a network more than once; it then adds to what it has. -/
namespace SelfChecksumming
open Library

namespace CheckersNetwork

/-! ## The sort -/

/-- One iteration of either loop. -/
def visitNode (util : Nat → SortState Nat → Except Fault (SortState Nat)) (st : SortState Nat)
    (i : Nat) : Except Fault (SortState Nat) :=
  match st.visited[i]? with
  | none => .error visitedOutOfRange
  | some true => .ok st
  | some false => util i st

def topologicalSortUtil (network : CheckersNetwork) :
    Nat → Nat → SortState Nat → Except Fault (SortState Nat)
  | 0, _, _ => .error .outOfFuel
  | fuel + 1, v, st =>
    if v < st.visited.length then
      let st := { st with visited := st.visited.set v true }
      match network.checkerCheckeeMap.find? v with
      | none => .ok st
      | some checkees =>
        match checkees.foldlM (visitNode (network.topologicalSortUtil fuel)) st with
        | .error fault => .error fault
        | .ok st => .ok { st with list := st.list ++ [v] }
    else .error visitedOutOfRange

def getReverseTopologicalSort (network : CheckersNetwork) (AllFunctions : Nat) :
    Except Fault (List Nat) :=
  match (List.range AllFunctions).foldlM (visitNode (network.topologicalSortUtil AllFunctions))
      ⟨List.replicate AllFunctions false, []⟩ with
  | .error fault => .error fault
  | .ok st => .ok st.list

/-! ## The functions -/

variable {Fn : Type} [LinearOrder Fn] [OrderBot Fn]

/-- `internalMap[node]`, which is null for a node that is no index. -/
def internalMap (allFunctions : List Fn) (node : Nat) : Fn := allFunctions[node]?.getD ⊥

/-- `dump_map`, entry by entry. -/
def dumpMap (network : CheckersNetwork) (allFunctions : List Fn) : SortedMap Fn (List Fn) :=
  network.checkerCheckeeMap.entries.foldl (fun map checker =>
    map.insert (internalMap allFunctions checker.1) (checker.2.map (internalMap allFunctions)))
    .empty

def mapCheckersOnFunctions (network : CheckersNetwork) (allFunctions : List Fn)
    (reverseTopologicalSort : List Fn) : Except Fault (SortedMap Fn (List Fn) × List Fn) :=
  match network.getReverseTopologicalSort allFunctions.length with
  | .error fault => .error fault
  | .ok revTopSort =>
    .ok (network.dumpMap allFunctions,
      reverseTopologicalSort ++ revTopSort.map (internalMap allFunctions))

end CheckersNetwork

/-! ## The walk -/

/-- The marks as a set of nodes. -/
def SortState.nodeWalk (st : SortState Nat) : Walk Nat := ⟨{x | st.visited[x]? = some true}, st.list⟩

theorem nodeWalk_set {st : SortState Nat} {v : Nat} (hv : v < st.visited.length) :
    SortState.nodeWalk { st with visited := st.visited.set v true } = st.nodeWalk.mark v := by
  simp only [SortState.nodeWalk, Walk.mark, Walk.mk.injEq, and_true]
  ext x
  by_cases hx : x = v
  · subst hx
    simp [hv]
  · simp [List.getElem?_set_ne (Ne.symm hx), hx]

namespace CheckersNetwork

variable {network : CheckersNetwork}

/-- What a call of the recursion does when it returns. -/
def Visited (network : CheckersNetwork) (vs : List Nat) (st st' : SortState Nat) : Prop :=
  st'.visited.length = st.visited.length ∧
    Visits network.checkerCheckeeMap.find? vs st.nodeWalk st'.nodeWalk

theorem Visited.cons {v : Nat} {vs : List Nat} {st st₁ st₂ : SortState Nat}
    (h : network.Visited [v] st st₁) (h' : network.Visited vs st₁ st₂) :
    network.Visited (v :: vs) st st₂ :=
  ⟨h'.1.trans h.1, h.2.append h'.2⟩

theorem visitNode_ok {util : Nat → SortState Nat → Except Fault (SortState Nat)}
    (hutil : ∀ v st st', st.visited[v]? = some false → util v st = .ok st' →
      network.Visited [v] st st') : ∀ (vs : List Nat) (st st' : SortState Nat),
    vs.foldlM (visitNode util) st = .ok st' → network.Visited vs st st' := by
  intro vs
  induction vs with
  | nil =>
    intro st st' h
    cases h
    exact ⟨rfl, .nil⟩
  | cons v vs ih =>
    intro st st' h
    rw [List.foldlM_cons] at h
    obtain ⟨st₁, hfirst, hrest⟩ := bind_eq_ok.mp h
    refine Visited.cons ?_ (ih st₁ st' hrest)
    unfold visitNode at hfirst
    split at hfirst
    · cases hfirst
    · rename_i hseen
      cases hfirst
      exact ⟨rfl, .skip hseen .nil⟩
    · rename_i hfresh
      exact hutil v st st₁ hfresh hfirst

/-- The recursion refines the walk as far as it gets. -/
theorem topologicalSortUtil_ok : ∀ (fuel v : Nat) (st st' : SortState Nat),
    st.visited[v]? = some false → network.topologicalSortUtil fuel v st = .ok st' →
      network.Visited [v] st st' := by
  intro fuel
  induction fuel with
  | zero =>
    intro v st st' _ h
    cases h
  | succ fuel ih =>
    intro v st st' hv h
    have hfresh : v ∉ st.nodeWalk.marked := by
      intro hseen
      rw [SortState.nodeWalk, Set.mem_ofPred_eq, hv] at hseen
      cases hseen
    have hlt : v < st.visited.length := (List.getElem?_eq_some_iff.mp hv).1
    have hset := nodeWalk_set hlt
    rw [topologicalSortUtil, if_pos hlt] at h
    cases hm : network.checkerCheckeeMap.find? v with
    | none =>
      simp only [hm] at h
      cases h
      refine ⟨List.length_set, ?_⟩
      rw [hset]
      exact .leaf hfresh hm .nil
    | some checkees =>
      simp only [hm] at h
      split at h
      · cases h
      · rename_i st₁ hrun
        cases h
        obtain ⟨hlen, hinner⟩ := visitNode_ok ih checkees _ _ hrun
        rw [hset] at hinner
        exact ⟨hlen.trans List.length_set, .node hfresh hm hinner .nil⟩

/-- As many bits as functions, and fuel for every bit that is still unset. -/
structure Ready (V fuel : Nat) (st : SortState Nat) : Prop where
  size : st.visited.length = V
  unset : st.visited.count false ≤ fuel

theorem visitNode_returns {V fuel : Nat}
    {util : Nat → SortState Nat → Except Fault (SortState Nat)}
    (hutil : ∀ v st, Ready V fuel st → st.visited[v]? = some false →
      ∃ st', util v st = .ok st' ∧ Ready V fuel st') {vs : List Nat} (hvs : ∀ v ∈ vs, v < V)
    {st : SortState Nat} (hst : Ready V fuel st) :
    ∃ st', vs.foldlM (visitNode util) st = .ok st' ∧ Ready V fuel st' := by
  refine foldlM_total (Ready V fuel) vs (fun v hv st hst => ?_) st hst
  have hlt : v < st.visited.length := hst.size ▸ hvs v hv
  rw [visitNode, List.getElem?_eq_getElem hlt]
  cases hseen : st.visited[v] with
  | true => exact ⟨st, rfl, hst⟩
  | false => exact hutil v st hst (by rw [List.getElem?_eq_getElem hlt, hseen])

/-- The recursion gets to its end unless it has to leave the array. -/
theorem topologicalSortUtil_returns {V : Nat}
    (hin : ∀ k m, k < V → Edge network.checkerCheckeeMap.find? k m → m < V) :
    ∀ (fuel v : Nat) (st : SortState Nat), Ready V fuel st → st.visited[v]? = some false →
      ∃ st', network.topologicalSortUtil fuel v st = .ok st' ∧ Ready V fuel st' := by
  intro fuel
  induction fuel with
  | zero =>
    intro v st hst hv
    have hpos : 0 < st.visited.count false := List.count_pos_iff.mpr (List.mem_of_getElem? hv)
    have hzero := hst.unset
    omega
  | succ fuel ih =>
    intro v st hst hv
    have hlt : v < st.visited.length := (List.getElem?_eq_some_iff.mp hv).1
    have hcount := count_false_set hv
    have hmarked : Ready V fuel { st with visited := st.visited.set v true } := by
      refine ⟨List.length_set.trans hst.size, ?_⟩
      have hunset := hst.unset
      simp only
      omega
    rw [topologicalSortUtil, if_pos hlt]
    cases hm : network.checkerCheckeeMap.find? v with
    | none => exact ⟨_, rfl, hmarked.size, Nat.le_succ_of_le hmarked.unset⟩
    | some checkees =>
      have hbound : ∀ w ∈ checkees, w < V := fun w hw =>
        hin v w (hst.size ▸ hlt) ⟨checkees, hm, hw⟩
      obtain ⟨st', hrun, hst'⟩ := visitNode_returns ih hbound hmarked
      simp only [hrun]
      exact ⟨_, rfl, hst'.size, Nat.le_succ_of_le hst'.unset⟩

/-- What the sort of `V` nodes gives, if anything. -/
theorem getReverseTopologicalSort_ok {V : Nat} {sorted : List Nat}
    (h : network.getReverseTopologicalSort V = .ok sorted) :
    sorted.Nodup ∧ (∀ k, k ∈ sorted ↔ k < V ∧ (network.checkerCheckeeMap.find? k).isSome) ∧
      Ordered network.checkerCheckeeMap.find? sorted ∧
      ∀ k m, k < V → Edge network.checkerCheckeeMap.find? k m → m < V := by
  unfold getReverseTopologicalSort at h
  split at h
  · cases h
  · rename_i st hrun
    cases h
    obtain ⟨hlen, hvisits⟩ := visitNode_ok (topologicalSortUtil_ok V) _ _ _ hrun
    rw [List.length_replicate] at hlen
    have hnone : SortState.nodeWalk ⟨List.replicate V false, []⟩ = ⟨∅, []⟩ := by
      simp [SortState.nodeWalk, List.getElem?_replicate]
    rw [hnone] at hvisits
    have hmarked : ∀ k, k ∈ st.nodeWalk.marked ↔ k < V := by
      refine fun k => ⟨fun hk => ?_, fun hk => hvisits.marks k (List.mem_range.mpr hk)⟩
      exact hlen ▸ (List.getElem?_eq_some_iff.mp hk).1
    have hclean := hvisits.clean ⟨List.nodup_nil, by simp, by simp⟩
    obtain ⟨hsettled, hordered⟩ := hvisits.ordered ∅
      (fun x hx => absurd hx (Set.notMem_empty x)) (by simp) (fun u w hu => by cases hu)
    refine ⟨hclean.nodup, fun k => ⟨fun hk => ⟨?_, hclean.inner k hk⟩, fun hk => ?_⟩, hordered, ?_⟩
    · exact (hmarked k).mp (hclean.marked k hk)
    · exact (hsettled k ((hmarked k).mpr hk.1) hk.2).resolve_right (Set.notMem_empty k)
    · intro k m hk he
      exact (hmarked m).mp (hvisits.marks_succ ((hmarked k).mpr hk) (Set.notMem_empty k) he)

/-- The sort of `V` nodes stays in its array if and only if no checker among them checks a
node that is not. -/
theorem getReverseTopologicalSort_returns {V : Nat} :
    (∃ sorted, network.getReverseTopologicalSort V = .ok sorted) ↔
      ∀ k m, k < V → Edge network.checkerCheckeeMap.find? k m → m < V := by
  constructor
  · intro h
    obtain ⟨sorted, hsorted⟩ := h
    exact (getReverseTopologicalSort_ok hsorted).2.2.2
  · intro hin
    have hstart : Ready V V ⟨List.replicate V false, []⟩ := ⟨by simp, by simp⟩
    have hrange : ∀ v ∈ List.range V, v < V := fun v => List.mem_range.mp
    obtain ⟨st, hrun, -⟩ := visitNode_returns (topologicalSortUtil_returns hin V) hrange hstart
    exact ⟨st.list, by simp only [getReverseTopologicalSort, hrun]⟩

/-! ## Networks that are constructed -/

/-- Edges lead from smaller nodes to greater ones below `V`, and there are no keys without. -/
structure Rising (V : Nat) (m : SortedMap Nat (List Nat)) : Prop where
  edges : ∀ j k, Edge m.find? j k → j < k ∧ k < V
  nonempty : ∀ j, m.find? j ≠ some []

theorem Rising.key_lt {V : Nat} {m : SortedMap Nat (List Nat)} (h : Rising V m) {j : Nat}
    {ws : List Nat} (hj : m.find? j = some ws) : j < V := by
  cases ws with
  | nil => exact absurd hj (h.nonempty j)
  | cons k ws =>
    obtain ⟨hlt, hk⟩ := h.edges j k ⟨_, hj, List.mem_cons_self⟩
    omega

theorem recordEdge_nonempty {m : SortedMap Nat (List Nat)} (h : ∀ j, m.find? j ≠ some [])
    (i k j : Nat) : (recordEdge m i k).find? j ≠ some [] := by
  unfold recordEdge
  by_cases hj : j = i
  · subst hj
    split <;> simp
  · split
    · rw [SortedMap.find?_insert_ne _ _ hj]
      exact h j
    · rw [SortedMap.find?_insert_ne _ _ hj]
      exact h j

theorem connectNode_nonempty (rand : Nat → Nat) (desiredConnectivity : Int) (nodes newNodes : Nat)
    {g : Graph} (h : ∀ j, g.checkerCheckeeMap.find? j ≠ some []) (i j : Nat) :
    (g.connectNode rand desiredConnectivity nodes newNodes i).checkerCheckeeMap.find? j ≠
      some [] := by
  have haim : ∀ (as : List Nat) (row : Row), (∀ j, row.checkerCheckeeMap.find? j ≠ some []) →
      ∀ j, (as.foldl (Row.aim desiredConnectivity nodes i) row).checkerCheckeeMap.find? j ≠
        some [] := by
    refine fun as row hrow => foldl_invariant (fun _ (row : Row) =>
      ∀ j, row.checkerCheckeeMap.find? j ≠ some []) (fun _ a row hrow => ?_) as [] hrow
    unfold Row.aim
    split
    · exact recordEdge_nonempty hrow i (a + nodes)
    · exact hrow
  have htoss : ∀ (ks : List Nat) (row : Row), (∀ j, row.checkerCheckeeMap.find? j ≠ some []) →
      ∀ j, (ks.foldl (Row.toss rand nodes i) row).checkerCheckeeMap.find? j ≠ some [] := by
    refine fun ks row hrow => foldl_invariant (fun _ (row : Row) =>
      ∀ j, row.checkerCheckeeMap.find? j ≠ some []) (fun _ k row hrow => ?_) ks [] hrow
    rcases row.toss_cases rand nodes i k with htoss | htoss
    · rw [htoss]
      exact recordEdge_nonempty hrow i (k + nodes)
    · rw [htoss]
      exact hrow
  exact haim _ _ (htoss _ _ h) j

section Rounds

variable (rand : Nat → Nat) {totalNodes V : Nat} (desiredConnectivity : Int)

theorem Rising.round {s : Generator} (hs : Rising V s.graph.checkerCheckeeMap)
    (hlt : s.nodes < totalNodes) (hV : totalNodes ≤ V) :
    Rising V (s.round rand totalNodes desiredConnectivity).graph.checkerCheckeeMap ∧
      s.nodes < (s.round rand totalNodes desiredConnectivity).nodes ∧
      (s.round rand totalNodes desiredConnectivity).nodes ≤ totalNodes := by
  obtain ⟨newNodes, hpos, hle, hround⟩ := Generator.round_eq rand desiredConnectivity hlt
  have hrows := connectNodes_spec rand desiredConnectivity s.nodes newNodes
    { s.graph with calls := s.graph.calls + 1 } (List.range s.nodes) List.nodup_range
  rw [hround]
  refine ⟨⟨fun j k he => ?_, ?_⟩, by simp only; omega, hle⟩
  · rw [edge_iff_checkeesAt] at he
    by_cases hj : j < s.nodes
    · rcases ((hrows j).1 (List.mem_range.mpr hj)).mem he with hold | hnew
      · exact hs.edges j k (edge_iff_checkeesAt.mpr hold)
      · omega
    · rw [(hrows j).2 (List.mem_range.not.mpr hj)] at he
      exact hs.edges j k (edge_iff_checkeesAt.mpr he)
  · exact foldl_invariant (fun _ (g : Graph) => ∀ j, g.checkerCheckeeMap.find? j ≠ some [])
      (fun _ i g hg => connectNode_nonempty rand desiredConnectivity _ _ hg i) _ [] hs.nonempty

theorem Rising.loop (hV : totalNodes ≤ V) : ∀ (fuel : Nat) {s : Generator},
    Rising V s.graph.checkerCheckeeMap → s.nodes ≤ totalNodes → totalNodes ≤ s.nodes + fuel →
      ∃ s', Generator.loop rand totalNodes desiredConnectivity fuel s = .ok s' ∧
        Rising V s'.graph.checkerCheckeeMap := by
  intro fuel
  induction fuel with
  | zero =>
    intro s hs hle hfuel
    have hdone : ¬ s.nodes < totalNodes := by omega
    exact ⟨s, by rw [Generator.loop, if_neg hdone], hs⟩
  | succ fuel ih =>
    intro s hs hle hfuel
    rw [Generator.loop]
    by_cases hlt : s.nodes < totalNodes
    · rw [if_pos hlt]
      obtain ⟨hround, hmore, hle'⟩ := hs.round rand desiredConnectivity hlt hV
      exact ih hround hle' (by omega)
    · rw [if_neg hlt]
      exact ⟨s, rfl, hs⟩

/-- A call returns, whatever the object holds. -/
theorem Rising.construct (h : Rising V network.checkerCheckeeMap) (hV : totalNodes ≤ V)
    (actualConnectivity : List Nat) : ∃ network' degrees,
      network.constructAcyclicCheckers rand totalNodes desiredConnectivity actualConnectivity =
        .ok (network', degrees) ∧ Rising V network'.checkerCheckeeMap := by
  have hstart : Rising V (Generator.graph
      { graph := { checkerCheckeeMap := network.checkerCheckeeMap, calls := 1 } }).checkerCheckeeMap :=
    h
  obtain ⟨s, hloop, hs⟩ :=
    hstart.loop rand desiredConnectivity hV totalNodes (Nat.zero_le _) (by simp)
  exact ⟨_, _, by rw [constructAcyclicCheckers, generate, hloop]; rfl, hs⟩

end Rounds

/-- What an object holds after any number of calls, each for at most `V` nodes. -/
inductive Generated (V : Nat) : CheckersNetwork → Prop
  | new : Generated V {}
  | call {network network' : CheckersNetwork} {rand : Nat → Nat} {totalNodes : Nat}
      {desiredConnectivity : Int} {actualConnectivity degrees : List Nat}
      (before : Generated V network) (hV : totalNodes ≤ V)
      (run : network.constructAcyclicCheckers rand totalNodes desiredConnectivity
        actualConnectivity = .ok (network', degrees)) : Generated V network'

theorem Generated.rising {V : Nat} (h : Generated V network) :
    Rising V network.checkerCheckeeMap := by
  induction h with
  | new =>
    refine ⟨fun j k he => ?_, fun j hj => ?_⟩
    · obtain ⟨vs, hvs, -⟩ := he
      cases hvs
    · cases hj
  | @call network network' rand totalNodes c acc degrees before hV run ih =>
    obtain ⟨_, _, hrun, hrising⟩ := ih.construct rand c hV acc
    cases hrun.symm.trans run
    exact hrising

/-! ## From nodes to functions -/

section Functions

variable {Fn : Type} [LinearOrder Fn] [OrderBot Fn] {allFunctions : List Fn}

theorem internalMap_eq {i : Nat} (hi : i < allFunctions.length) :
    internalMap allFunctions i = allFunctions[i] := by
  rw [internalMap, List.getElem?_eq_getElem hi, Option.getD_some]

theorem internalMap_inj (hnd : allFunctions.Nodup) {i j : Nat} (hi : i < allFunctions.length)
    (hj : j < allFunctions.length) (h : internalMap allFunctions i = internalMap allFunctions j) :
    i = j := by
  rw [internalMap_eq hi, internalMap_eq hj] at h
  exact hnd.getElem_inj_iff.mp h

/-- What the map of the functions holds. -/
theorem find?_dumpMap (hm : Rising allFunctions.length network.checkerCheckeeMap)
    (hnd : allFunctions.Nodup) {F : Fn} {vs : List Fn} :
    (network.dumpMap allFunctions).find? F = some vs ↔
      ∃ j ws, network.checkerCheckeeMap.find? j = some ws ∧ internalMap allFunctions j = F ∧
        vs = ws.map (internalMap allFunctions) := by
  have hinj : ∀ e ∈ network.checkerCheckeeMap.entries, ∀ e' ∈ network.checkerCheckeeMap.entries,
      internalMap allFunctions e.1 = internalMap allFunctions e'.1 → e = e' := by
    intro e he e' he' heq
    have hfind := SortedMap.find?_eq_some_iff.mpr he
    have hfind' := SortedMap.find?_eq_some_iff.mpr he'
    have hkey := internalMap_inj hnd (hm.key_lt hfind) (hm.key_lt hfind') heq
    rw [hkey] at hfind
    exact Prod.ext hkey (Option.some.inj (hfind.symm.trans hfind'))
  rw [dumpMap, SortedMap.find?_foldl_insert F _ .empty hinj, SortedMap.find?_empty, Option.or_none,
    Option.map_eq_some_iff]
  constructor
  · intro h
    obtain ⟨e, he, rfl⟩ := h
    have hF : internalMap allFunctions e.1 = F := by simpa using List.find?_some he
    exact ⟨e.1, e.2, SortedMap.find?_eq_some_iff.mpr (List.mem_of_find?_eq_some he), hF, rfl⟩
  · intro h
    obtain ⟨j, ws, hj, rfl, rfl⟩ := h
    have hmem := SortedMap.find?_eq_some_iff.mp hj
    cases he : network.checkerCheckeeMap.entries.find? fun e =>
        internalMap allFunctions e.1 = internalMap allFunctions j with
    | none =>
      have hno := List.find?_eq_none.mp he (j, ws) hmem
      simp at hno
    | some e =>
      have hkey : internalMap allFunctions e.1 = internalMap allFunctions j := by
        simpa using List.find?_some he
      exact ⟨e, rfl, by rw [hinj e (List.mem_of_find?_eq_some he) (j, ws) hmem hkey]⟩

/-- The mapping stays inside its array if and only if no checker that stands for a function
checks a node that stands for none. It then lists the checkers that stand for functions, each
once and behind what it checks unless that reaches it back. -/
theorem mapCheckersOnFunctions_returns (network : CheckersNetwork) (allFunctions before : List Fn) :
    ((∃ result, network.mapCheckersOnFunctions allFunctions before = .ok result) ↔
      ∀ k m, k < allFunctions.length → Edge network.checkerCheckeeMap.find? k m →
        m < allFunctions.length) ∧
    ∀ result, network.mapCheckersOnFunctions allFunctions before = .ok result →
      ∃ nodes,
        result = (network.dumpMap allFunctions, before ++ nodes.map (internalMap allFunctions)) ∧
        nodes.Nodup ∧ Ordered network.checkerCheckeeMap.find? nodes ∧
        ∀ k, k ∈ nodes ↔ k < allFunctions.length ∧ (network.checkerCheckeeMap.find? k).isSome := by
  constructor
  · rw [← getReverseTopologicalSort_returns]
    unfold mapCheckersOnFunctions
    cases network.getReverseTopologicalSort allFunctions.length <;> simp
  · intro result h
    unfold mapCheckersOnFunctions at h
    split at h
    · cases h
    · rename_i nodes hnodes
      cases h
      obtain ⟨hnd, hmem, hord, -⟩ := getReverseTopologicalSort_ok hnodes
      exact ⟨nodes, rfl, hnd, hord, hmem⟩

/-- A rising network is mapped on an acyclic one, in a topological sort. -/
theorem Rising.mapped (hm : Rising allFunctions.length network.checkerCheckeeMap)
    (hnd : allFunctions.Nodup) : ∃ sorted,
      (∀ before, network.mapCheckersOnFunctions allFunctions before =
        .ok (network.dumpMap allFunctions, before ++ sorted)) ∧
      TopologicalSort (network.dumpMap allFunctions).find? sorted ∧
      ∀ F G, Edge (network.dumpMap allFunctions).find? F G ↔ ∃ i j, i < j ∧
        allFunctions[i]? = some F ∧ allFunctions[j]? = some G ∧
          Edge network.checkerCheckeeMap.find? i j := by
  obtain ⟨sorted, hsorted⟩ := getReverseTopologicalSort_returns.mpr fun k m hk he =>
    (hm.edges k m he).2
  obtain ⟨hsnd, hsmem, hord, -⟩ := getReverseTopologicalSort_ok hsorted
  have hacyclic : Acyclic network.checkerCheckeeMap.find? := by
    apply acyclic_of_measure fun j => allFunctions.length - j
    intro j k he
    have := hm.edges j k he
    omega
  have hlt : ∀ j ∈ sorted, j < allFunctions.length := fun j hj => ((hsmem j).mp hj).1
  have hkey : ∀ F, ((network.dumpMap allFunctions).find? F).isSome ↔
      ∃ j ∈ sorted, internalMap allFunctions j = F := by
    intro F
    simp only [Option.isSome_iff_exists, find?_dumpMap hm hnd]
    constructor
    · intro h
      obtain ⟨_, j, ws, hj, rfl, -⟩ := h
      exact ⟨j, (hsmem j).mpr ⟨hm.key_lt hj, by rw [hj]; rfl⟩, rfl⟩
    · intro h
      obtain ⟨j, hj, rfl⟩ := h
      obtain ⟨ws, hws⟩ := Option.isSome_iff_exists.mp ((hsmem j).mp hj).2
      exact ⟨_, j, ws, hws, rfl, rfl⟩
  have hedge : ∀ F G, Edge (network.dumpMap allFunctions).find? F G ↔ ∃ i j,
      internalMap allFunctions i = F ∧ internalMap allFunctions j = G ∧
        Edge network.checkerCheckeeMap.find? i j := by
    intro F G
    constructor
    · intro h
      obtain ⟨vs, hvs, hG⟩ := h
      obtain ⟨i, ws, hi, rfl, rfl⟩ := (find?_dumpMap hm hnd).mp hvs
      obtain ⟨j, hj, rfl⟩ := List.mem_map.mp hG
      exact ⟨i, j, rfl, rfl, ws, hi, hj⟩
    · intro h
      obtain ⟨i, j, rfl, rfl, ws, hi, hj⟩ := h
      exact ⟨_, (find?_dumpMap hm hnd).mpr ⟨i, ws, hi, rfl, rfl⟩, List.mem_map_of_mem hj⟩
  refine ⟨sorted.map (internalMap allFunctions),
    fun before => by rw [mapCheckersOnFunctions, hsorted],
    ⟨?_, fun F => ?_, fun F G he hG => ?_⟩, fun F G => ?_⟩
  · exact hsnd.map_on fun i hi j hj heq => internalMap_inj hnd (hlt i hi) (hlt j hj) heq
  · rw [List.mem_map, hkey]
  · obtain ⟨i, j, rfl, rfl, hij⟩ := (hedge F G).mp he
    obtain ⟨k, hk, heq⟩ := (hkey _).mp hG
    obtain rfl : k = j := internalMap_inj hnd (hlt k hk) (hm.edges i j hij).2 heq
    have hi : i ∈ sorted := by
      obtain ⟨ws, hws, -⟩ := id hij
      exact (hsmem i).mpr ⟨hm.key_lt hws, by rw [hws]; rfl⟩
    exact (hord.of_acyclic hacyclic hi hij ((hsmem k).mp hk).2).map _
  · rw [hedge]
    refine exists_congr fun i => exists_congr fun j => ?_
    constructor
    · rintro ⟨rfl, rfl, he⟩
      obtain ⟨hij, hj⟩ := hm.edges i j he
      rw [internalMap_eq (hij.trans hj), internalMap_eq hj]
      exact ⟨hij, List.getElem?_eq_getElem _, List.getElem?_eq_getElem _, he⟩
    · rintro ⟨-, hF, hG, he⟩
      rw [internalMap, internalMap, hF, hG]
      exact ⟨rfl, rfl, he⟩

/-- After any number of calls for at most as many nodes as there are functions, the mapping
returns an acyclic network of the functions, in a topological sort; its edges are those of
the nodes, and lead to later functions. -/
theorem generated_network_maps (hnd : allFunctions.Nodup)
    (h : Generated allFunctions.length network) (before : List Fn) :
    (∀ rand totalNodes desiredConnectivity actualConnectivity, totalNodes ≤ allFunctions.length →
      ∃ network' degrees, network.constructAcyclicCheckers rand totalNodes desiredConnectivity
        actualConnectivity = .ok (network', degrees)) ∧
    ∃ map sorted, network.mapCheckersOnFunctions allFunctions before = .ok (map, before ++ sorted) ∧
      TopologicalSort map.find? sorted ∧
      ∀ F G, Edge map.find? F G ↔ ∃ i j, i < j ∧ allFunctions[i]? = some F ∧
        allFunctions[j]? = some G ∧ Edge network.checkerCheckeeMap.find? i j := by
  have hm := h.rising
  refine ⟨fun rand totalNodes c acc hV => ?_, ?_⟩
  · obtain ⟨network', degrees, hrun, -⟩ := hm.construct rand c hV acc
    exact ⟨network', degrees, hrun⟩
  · obtain ⟨sorted, hmap, hsort, hedge⟩ := hm.mapped hnd
    exact ⟨_, sorted, hmap before, hsort, hedge⟩

/-- Four functions, after two calls. -/
theorem generated_network_maps_sample : ∃ network network' degrees degrees' map sorted,
    CheckersNetwork.constructAcyclicCheckers {} (fun n => n) 4 1 [] = .ok (network, degrees) ∧
    network.constructAcyclicCheckers (fun n => n + 1) 3 2 degrees = .ok (network', degrees') ∧
    network'.mapCheckersOnFunctions [11, 12, 13, 14] [] = .ok (map, sorted) ∧
    TopologicalSort map.find? sorted := by
  obtain ⟨network, degrees, hrun⟩ : ∃ network degrees,
    CheckersNetwork.constructAcyclicCheckers {} (fun n => n) 4 1 [] = .ok (network, degrees) :=
      ⟨_, _, rfl⟩
  have hgen : Generated [11, 12, 13, 14].length network := .call .new le_rfl hrun
  obtain ⟨hcalls, -⟩ := generated_network_maps (by decide) hgen []
  obtain ⟨network', degrees', hrun'⟩ := hcalls (fun n => n + 1) 3 2 degrees (by decide)
  obtain ⟨-, map, sorted, hmap, hsort, -⟩ :=
    generated_network_maps (by decide) (.call hgen (by decide) hrun') []
  exact ⟨network, network', degrees, degrees', map, sorted, hrun, hrun', hmap, hsort⟩

end Functions

end CheckersNetwork

end SelfChecksumming
