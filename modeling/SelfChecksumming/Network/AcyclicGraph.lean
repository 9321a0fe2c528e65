import SelfChecksumming.Library.DepthFirst
import SelfChecksumming.Library.Loop
import SelfChecksumming.Library.SortedMap
import SelfChecksumming.Outcome
import Mathlib.Data.List.Nodup
import Mathlib.Data.List.Range
import Mathlib.Order.Nat

/-! # The random generator of acyclic networks

`constructAcyclicCheckers` stands in the repository twice, with the same loops: once by
itself, and once as a member of `CheckersNetwork`, which also collects the degrees. Nodes
are created in rounds; in every round each older node gets edges to the new ones, some by
chance and more where its degree is still too low. `rand` is the sequence of values that
`rand()` returns. -/
namespace SelfChecksumming
open Library

/-- Chance of having an edge, in percent. -/
def percent : Nat := 30

/-! ## The loops -/

/-- The vector under `j`, one longer. -/
def recordEdge (checkerCheckeeMap : SortedMap Nat (List Nat)) (j m : Nat) :
    SortedMap Nat (List Nat) :=
  match checkerCheckeeMap.find? j with
  | some checkeeVector => checkerCheckeeMap.insert j (checkeeVector ++ [m])
  | none => checkerCheckeeMap.insert j [m]

/-- The variables of the loop over the new nodes, for one old node. -/
structure Row where
  checkerCheckeeMap : SortedMap Nat (List Nat)
  connectivity : Int
  availableNodes : List Nat
  calls : Nat

def Row.connect (row : Row) (nodes j k : Nat) : Row :=
  { row with
    connectivity := row.connectivity + 1
    checkerCheckeeMap := recordEdge row.checkerCheckeeMap j (k + nodes) }

/-- An edge by chance, else the new node stays available. -/
def Row.toss (rand : Nat → Nat) (nodes j : Nat) (row : Row) (k : Nat) : Row :=
  let chance := rand row.calls % 100
  let row := { row with calls := row.calls + 1 }
  if chance < percent then row.connect nodes j k
  else { row with availableNodes := row.availableNodes ++ [k] }

/-- Aim for getting desired connectivity. -/
def Row.aim (desiredConnectivity : Int) (nodes j : Nat) (row : Row) (a : Nat) : Row :=
  if row.connectivity < desiredConnectivity then row.connect nodes j a else row

/-- The map and the number of calls of `rand()` so far. -/
structure Graph where
  checkerCheckeeMap : SortedMap Nat (List Nat) := .empty
  calls : Nat := 0

/-- One old node. -/
def Graph.connectNode (rand : Nat → Nat) (desiredConnectivity : Int) (nodes newNodes : Nat)
    (g : Graph) (j : Nat) : Graph :=
  let connectivity : Int :=
    match g.checkerCheckeeMap.find? j with
    | some checker => checker.length
    | none => 0
  let row := (List.range newNodes).foldl (Row.toss rand nodes j)
    ⟨g.checkerCheckeeMap, connectivity, [], g.calls⟩
  let row := row.availableNodes.foldl (Row.aim desiredConnectivity nodes j) row
  ⟨row.checkerCheckeeMap, row.calls⟩

/-- `rounds` says of every round which nodes it found and how many it left. -/
structure Generator where
  graph : Graph
  nodes : Nat := 0
  rounds : List (Nat × Nat) := []

/-- One round. -/
def Generator.round (rand : Nat → Nat) (totalNodes : Nat) (desiredConnectivity : Int)
    (s : Generator) : Generator :=
  let newNodes := rand s.graph.calls % totalNodes / 2 + 1
  let remainingNodes := totalNodes - s.nodes
  let newNodes := if newNodes > remainingNodes then remainingNodes else newNodes
  let graph := { s.graph with calls := s.graph.calls + 1 }
  { graph := (List.range s.nodes).foldl
      (Graph.connectNode rand desiredConnectivity s.nodes newNodes) graph
    nodes := s.nodes + newNodes
    rounds := s.rounds ++ [(s.nodes, s.nodes + newNodes)] }

/-- The outer loop, for at most `fuel` rounds. -/
def Generator.loop (rand : Nat → Nat) (totalNodes : Nat) (desiredConnectivity : Int) :
    Nat → Generator → Except Fault Generator
  | 0, s => if s.nodes < totalNodes then .error .outOfFuel else .ok s
  | fuel + 1, s =>
    if s.nodes < totalNodes then
      loop rand totalNodes desiredConnectivity fuel (s.round rand totalNodes desiredConnectivity)
    else .ok s

/-- The loop on a map. The first call of `rand()` decides about `ranks`, which nothing reads;
no run needs more rounds than there are nodes. -/
def generate (rand : Nat → Nat) (checkerCheckeeMap : SortedMap Nat (List Nat)) (totalNodes : Nat)
    (desiredConnectivity : Int) : Except Fault Generator :=
  Generator.loop rand totalNodes desiredConnectivity totalNodes
    { graph := { checkerCheckeeMap, calls := 1 } }

/-- The program by itself. -/
def constructAcyclicCheckers (rand : Nat → Nat) (totalNodes : Nat) (desiredConnectivity : Int) :
    Except Fault (SortedMap Nat (List Nat)) :=
  (generate rand .empty totalNodes desiredConnectivity).map fun s => s.graph.checkerCheckeeMap

/-- The class does not compile as it stands, and is not built: both headers have this member
commented out, though all its functions use it. It is restored here. -/
structure CheckersNetwork where
  checkerCheckeeMap : SortedMap Nat (List Nat) := .empty

/-- The member, with the degrees it appends to `actualConnectivity`. -/
def CheckersNetwork.constructAcyclicCheckers (network : CheckersNetwork) (rand : Nat → Nat)
    (totalNodes : Nat) (desiredConnectivity : Int) (actualConnectivity : List Nat) :
    Except Fault (CheckersNetwork × List Nat) :=
  (generate rand network.checkerCheckeeMap totalNodes desiredConnectivity).map fun s =>
    (⟨s.graph.checkerCheckeeMap⟩,
      actualConnectivity ++ s.graph.checkerCheckeeMap.entries.map fun entry => entry.2.length)

/-! ## One old node -/

/-- The checkees of `j`. -/
def checkeesAt (m : SortedMap Nat (List Nat)) (j : Nat) : List Nat := (m.find? j).getD []

theorem edge_iff_checkeesAt {m : SortedMap Nat (List Nat)} {j x : Nat} :
    Edge m.find? j x ↔ x ∈ checkeesAt m j := by
  unfold Edge checkeesAt
  cases m.find? j <;> simp

theorem checkeesAt_recordEdge_self (m : SortedMap Nat (List Nat)) (j x : Nat) :
    checkeesAt (recordEdge m j x) j = checkeesAt m j ++ [x] := by
  unfold checkeesAt recordEdge
  cases m.find? j <;> simp

theorem checkeesAt_recordEdge_ne (m : SortedMap Nat (List Nat)) {j k : Nat} (x : Nat)
    (h : k ≠ j) : checkeesAt (recordEdge m j x) k = checkeesAt m k := by
  unfold checkeesAt recordEdge
  cases m.find? j <;> simp [SortedMap.find?_insert_ne _ _ h]

/-- The row of `j` has grown by the new nodes in `added`, and no other row has. -/
structure Row.Grown (m : SortedMap Nat (List Nat)) (nodes j : Nat) (added : List Nat) (row : Row) :
    Prop where
  self : checkeesAt row.checkerCheckeeMap j = checkeesAt m j ++ added.map (· + nodes)
  frame : ∀ k, k ≠ j → checkeesAt row.checkerCheckeeMap k = checkeesAt m k
  connectivity : row.connectivity = (checkeesAt m j).length + added.length

theorem Row.Grown.connect {m : SortedMap Nat (List Nat)} {nodes j : Nat} {added : List Nat}
    {row : Row} (h : row.Grown m nodes j added) (k : Nat) :
    (row.connect nodes j k).Grown m nodes j (added ++ [k]) where
  self := by
    rw [Row.connect, checkeesAt_recordEdge_self, h.self]
    simp
  frame i hi := (checkeesAt_recordEdge_ne _ _ hi).trans (h.frame i hi)
  connectivity := by
    rw [Row.connect, h.connectivity]
    simp
    omega

theorem Row.toss_cases (rand : Nat → Nat) (nodes j : Nat) (row : Row) (k : Nat) :
    row.toss rand nodes j k = Row.connect { row with calls := row.calls + 1 } nodes j k ∨
      row.toss rand nodes j k =
        { row with calls := row.calls + 1, availableNodes := row.availableNodes ++ [k] } := by
  by_cases h : rand row.calls % 100 < percent
  · exact .inl (if_pos h)
  · exact .inr (if_neg h)

/-- The tosses share the new nodes out between the added and the available ones. -/
theorem Row.toss_foldl (rand : Nat → Nat) {m : SortedMap Nat (List Nat)} {nodes j : Nat}
    {row : Row} (h : row.Grown m nodes j []) (havail : row.availableNodes = []) (ks : List Nat) :
    ∃ added, (ks.foldl (Row.toss rand nodes j) row).Grown m nodes j added ∧
      (added ++ (ks.foldl (Row.toss rand nodes j) row).availableNodes).Perm ks := by
  refine foldl_invariant (fun done (row : Row) => ∃ added, row.Grown m nodes j added ∧
    (added ++ row.availableNodes).Perm done) (fun done k row hrow => ?_) ks []
    ⟨[], h, by simp [havail]⟩
  obtain ⟨added, hgrown, hperm⟩ := hrow
  have hcalls : Row.Grown m nodes j added { row with calls := row.calls + 1 } :=
    ⟨hgrown.self, hgrown.frame, hgrown.connectivity⟩
  rcases row.toss_cases rand nodes j k with htoss | htoss
  · refine ⟨added ++ [k], htoss ▸ hcalls.connect k, ?_⟩
    rw [htoss]
    have hswap :
        (added ++ [k] ++ row.availableNodes).Perm (added ++ row.availableNodes ++ [k]) := by
      rw [List.append_assoc, List.append_assoc]
      exact List.perm_append_comm.append_left added
    exact hswap.trans (hperm.append_right [k])
  · refine ⟨added, htoss ▸ ⟨hgrown.self, hgrown.frame, hgrown.connectivity⟩, ?_⟩
    rw [htoss, ← List.append_assoc]
    exact hperm.append_right [k]

/-- The second loop stops at the desired connectivity or takes all that is available. -/
theorem Row.aim_foldl (desiredConnectivity : Int) {m : SortedMap Nat (List Nat)} {nodes j : Nat}
    {added : List Nat} {row : Row} (h : row.Grown m nodes j added) (as : List Nat) :
    ∃ more, (as.foldl (Row.aim desiredConnectivity nodes j) row).Grown m nodes j (added ++ more) ∧
      more.Sublist as ∧ (more = as ∨ desiredConnectivity ≤
        (as.foldl (Row.aim desiredConnectivity nodes j) row).connectivity) := by
  refine foldl_invariant (fun done (row : Row) => ∃ more, row.Grown m nodes j (added ++ more) ∧
    more.Sublist done ∧ (more = done ∨ desiredConnectivity ≤ row.connectivity))
    (fun done a row hrow => ?_) as [] ⟨[], by simpa using h, List.Sublist.slnil, .inl rfl⟩
  obtain ⟨more, hgrown, hsub, hall⟩ := hrow
  by_cases hlow : row.connectivity < desiredConnectivity
  · have haim : row.aim desiredConnectivity nodes j a = row.connect nodes j a := if_pos hlow
    obtain rfl : more = done := hall.resolve_right (by omega)
    rw [haim]
    exact ⟨more ++ [a], by simpa using hgrown.connect a, List.Sublist.refl _, .inl rfl⟩
  · have haim : row.aim desiredConnectivity nodes j a = row := if_neg hlow
    rw [haim]
    exact ⟨more, hgrown, hsub.trans (List.sublist_append_left done [a]), .inr (by omega)⟩

/-- What a round makes of the checkees of one old node. -/
structure RowGrown (desiredConnectivity : Int) (nodes newNodes : Nat) (old new : List Nat) :
    Prop where
  added : ∃ added : List Nat, new = old ++ added.map (· + nodes) ∧ added.Nodup ∧
    ∀ a ∈ added, a < newNodes
  degree : min desiredConnectivity (old.length + newNodes) ≤ new.length

theorem RowGrown.mem {desiredConnectivity : Int} {nodes newNodes : Nat} {old new : List Nat}
    (h : RowGrown desiredConnectivity nodes newNodes old new) {m : Nat} (hm : m ∈ new) :
    m ∈ old ∨ nodes ≤ m ∧ m < nodes + newNodes := by
  obtain ⟨added, hadded, -, hbound⟩ := h.added
  rw [hadded] at hm
  rcases List.mem_append.mp hm with hm | hm
  · exact .inl hm
  · obtain ⟨a, ha, rfl⟩ := List.mem_map.mp hm
    have := hbound a ha
    exact .inr ⟨by omega, by omega⟩

/-- The new nodes are younger than what was there. -/
theorem RowGrown.nodup {desiredConnectivity : Int} {nodes newNodes : Nat} {old new : List Nat}
    (h : RowGrown desiredConnectivity nodes newNodes old new) (hold : old.Nodup)
    (hlt : ∀ m ∈ old, m < nodes) : new.Nodup := by
  obtain ⟨added, hadded, hnd, -⟩ := h.added
  rw [hadded, List.nodup_append]
  refine ⟨hold, hnd.map fun a b h => Nat.add_right_cancel h, fun m hm m' hm' he => ?_⟩
  obtain ⟨a, -, rfl⟩ := List.mem_map.mp hm'
  have := hlt m hm
  omega

theorem Graph.connectNode_spec (rand : Nat → Nat) (desiredConnectivity : Int)
    (nodes newNodes : Nat) (g : Graph) (j : Nat) :
    RowGrown desiredConnectivity nodes newNodes (checkeesAt g.checkerCheckeeMap j)
        (checkeesAt (g.connectNode rand desiredConnectivity nodes newNodes j).checkerCheckeeMap j) ∧
      ∀ k, k ≠ j → checkeesAt
        (g.connectNode rand desiredConnectivity nodes newNodes j).checkerCheckeeMap k =
          checkeesAt g.checkerCheckeeMap k := by
  have hstart : Row.Grown g.checkerCheckeeMap nodes j [] ⟨g.checkerCheckeeMap,
      (match g.checkerCheckeeMap.find? j with
        | some checker => checker.length
        | none => 0), [], g.calls⟩ := by
    refine ⟨by simp, fun _ _ => rfl, ?_⟩
    unfold checkeesAt
    cases g.checkerCheckeeMap.find? j <;> simp
  obtain ⟨added, hgrown, hperm⟩ := Row.toss_foldl rand hstart rfl (List.range newNodes)
  obtain ⟨more, hgrown', hsub, hall⟩ := Row.aim_foldl desiredConnectivity hgrown
    ((List.range newNodes).foldl (Row.toss rand nodes j) _).availableNodes
  have hshare := hsub.append_left added
  refine ⟨⟨⟨added ++ more, hgrown'.self, ?_, ?_⟩, ?_⟩, hgrown'.frame⟩
  · exact (hperm.nodup_iff.mpr List.nodup_range).sublist hshare
  · intro a ha
    exact List.mem_range.mp (hperm.mem_iff.mp (hshare.subset ha))
  · have hlen : (checkeesAt (g.connectNode rand desiredConnectivity nodes newNodes
        j).checkerCheckeeMap j).length =
        (checkeesAt g.checkerCheckeeMap j).length + (added ++ more).length :=
      (congrArg List.length hgrown'.self).trans (by rw [List.length_append, List.length_map])
    rcases hall with hall | hall
    · -- all new nodes are taken
      have htotal := hperm.length_eq
      rw [← hall, List.length_range] at htotal
      omega
    · have hconn := hgrown'.connectivity
      omega

/-! ## One round -/

/-- The old nodes of a round, one after the other; none touches the row of another. -/
theorem connectNodes_spec (rand : Nat → Nat) (desiredConnectivity : Int) (nodes newNodes : Nat)
    (g : Graph) : ∀ js : List Nat, js.Nodup → ∀ j,
      (j ∈ js → RowGrown desiredConnectivity nodes newNodes (checkeesAt g.checkerCheckeeMap j)
        (checkeesAt (js.foldl (Graph.connectNode rand desiredConnectivity nodes newNodes)
          g).checkerCheckeeMap j)) ∧
      (j ∉ js → checkeesAt (js.foldl (Graph.connectNode rand desiredConnectivity nodes newNodes)
        g).checkerCheckeeMap j = checkeesAt g.checkerCheckeeMap j) := by
  intro js
  induction js generalizing g with
  | nil => exact fun _ j => ⟨fun h => by simp at h, fun _ => rfl⟩
  | cons i js ih =>
    intro hnd j
    obtain ⟨hi, hnd⟩ := List.nodup_cons.mp hnd
    obtain ⟨hself, hframe⟩ := g.connectNode_spec rand desiredConnectivity nodes newNodes i
    have hrest := ih (g.connectNode rand desiredConnectivity nodes newNodes i) hnd j
    rw [List.foldl_cons]
    constructor
    · intro hj
      rcases List.mem_cons.mp hj with rfl | hj
      · rw [hrest.2 hi]
        exact hself
      · have hne : j ≠ i := fun he => hi (he ▸ hj)
        rw [← hframe j hne]
        exact hrest.1 hj
    · intro hj
      obtain ⟨hne, hj⟩ := not_or.mp (List.mem_cons.not.mp hj)
      rw [hrest.2 hj, hframe j hne]

/-- What holds between two rounds. -/
structure Generator.Valid (totalNodes : Nat) (desiredConnectivity : Int) (s : Generator) :
    Prop where
  nodes : s.nodes ≤ totalNodes
  rounds : s.rounds.length ≤ s.nodes
  edges : ∀ j, ∀ m ∈ checkeesAt s.graph.checkerCheckeeMap j, j < m ∧ m < s.nodes
  nodup : ∀ j, (checkeesAt s.graph.checkerCheckeeMap j).Nodup
  covered : ∀ j < s.nodes, ∃ r ∈ s.rounds, r.1 ≤ j ∧ j < r.2
  degree : ∀ r ∈ s.rounds, r.2 ≤ s.nodes ∧ ∀ j, j < r.2 →
    min desiredConnectivity (s.nodes - r.2 : Nat) ≤ (checkeesAt s.graph.checkerCheckeeMap j).length

theorem Generator.round_eq (rand : Nat → Nat) {totalNodes : Nat} (desiredConnectivity : Int)
    {s : Generator} (h : s.nodes < totalNodes) : ∃ newNodes, 1 ≤ newNodes ∧
      s.nodes + newNodes ≤ totalNodes ∧
      s.round rand totalNodes desiredConnectivity =
        { graph := (List.range s.nodes).foldl
            (Graph.connectNode rand desiredConnectivity s.nodes newNodes)
            { s.graph with calls := s.graph.calls + 1 }
          nodes := s.nodes + newNodes
          rounds := s.rounds ++ [(s.nodes, s.nodes + newNodes)] } := by
  refine ⟨_, ?_, ?_, rfl⟩
  · split <;> omega
  · split <;> omega

theorem Generator.Valid.round (rand : Nat → Nat) {totalNodes : Nat} {desiredConnectivity : Int}
    {s : Generator} (hs : s.Valid totalNodes desiredConnectivity) (hlt : s.nodes < totalNodes) :
    (s.round rand totalNodes desiredConnectivity).Valid totalNodes desiredConnectivity ∧
      s.nodes < (s.round rand totalNodes desiredConnectivity).nodes := by
  obtain ⟨newNodes, hpos, hle, hround⟩ := Generator.round_eq rand desiredConnectivity hlt
  have hrows := connectNodes_spec rand desiredConnectivity s.nodes newNodes
    { s.graph with calls := s.graph.calls + 1 } (List.range s.nodes) List.nodup_range
  simp only [List.mem_range] at hrows
  rw [hround]
  generalize (List.range s.nodes).foldl (Graph.connectNode rand desiredConnectivity s.nodes
    newNodes) { s.graph with calls := s.graph.calls + 1 } = graph at hrows ⊢
  have hnew : ∀ j, ∀ m ∈ checkeesAt graph.checkerCheckeeMap j,
      m ∈ checkeesAt s.graph.checkerCheckeeMap j ∨
        j < s.nodes ∧ s.nodes ≤ m ∧ m < s.nodes + newNodes := by
    intro j m hm
    by_cases hj : j < s.nodes
    · exact (((hrows j).1 hj).mem hm).imp_right fun h => ⟨hj, h⟩
    · rw [(hrows j).2 hj] at hm
      exact .inl hm
  refine ⟨⟨hle, ?_, ?_, ?_, ?_, ?_⟩, by simp only; omega⟩
  · have := hs.rounds
    simp only [List.length_append, List.length_singleton]
    omega
  · intro j m hm
    rcases hnew j m hm with hm | ⟨hj, hm, hm'⟩
    · obtain ⟨hlt, hbound⟩ := hs.edges j m hm
      exact ⟨hlt, Nat.lt_of_lt_of_le hbound (Nat.le_add_right _ _)⟩
    · exact ⟨by omega, hm'⟩
  · intro j
    by_cases hj : j < s.nodes
    · exact ((hrows j).1 hj).nodup (hs.nodup j) fun m hm => (hs.edges j m hm).2
    · rw [(hrows j).2 hj]
      exact hs.nodup j
  · intro j hj
    by_cases hold : j < s.nodes
    · obtain ⟨r, hr, hjr⟩ := hs.covered j hold
      exact ⟨r, List.mem_append_left _ hr, hjr⟩
    · exact ⟨_, List.mem_append_right _ List.mem_cons_self, by simp only; omega, hj⟩
  · intro r hr
    rcases List.mem_append.mp hr with hr | hr
    · obtain ⟨hr₂, hdegree⟩ := hs.degree r hr
      refine ⟨by simp only; omega, fun j hj => ?_⟩
      have hgrown := ((hrows j).1 (by omega)).degree
      have hold := hdegree j hj
      simp only
      omega
    · rw [List.mem_singleton.mp hr]
      exact ⟨le_rfl, fun j _ => by simp⟩

/-! ## All rounds -/

/-- A round leaves fewer nodes to be created, so as many rounds as nodes are enough. -/
theorem Generator.loop_total (rand : Nat → Nat) {totalNodes : Nat} {desiredConnectivity : Int} :
    ∀ (fuel : Nat) {s : Generator}, s.Valid totalNodes desiredConnectivity →
      totalNodes ≤ s.nodes + fuel →
      ∃ s', Generator.loop rand totalNodes desiredConnectivity fuel s = .ok s' ∧
        s'.Valid totalNodes desiredConnectivity ∧ s'.nodes = totalNodes := by
  intro fuel
  induction fuel with
  | zero =>
    intro s hs hfuel
    have hle := hs.nodes
    have hdone : ¬ s.nodes < totalNodes := by omega
    exact ⟨s, by rw [Generator.loop, if_neg hdone], hs, by omega⟩
  | succ fuel ih =>
    intro s hs hfuel
    rw [Generator.loop]
    by_cases hlt : s.nodes < totalNodes
    · rw [if_pos hlt]
      obtain ⟨hround, hmore⟩ := hs.round rand hlt
      exact ih hround (by omega)
    · have hle := hs.nodes
      rw [if_neg hlt]
      exact ⟨s, rfl, hs, by omega⟩

/-- Both programs end after at most `totalNodes` rounds with as many nodes, whatever `rand()`
returns: all edges lead to younger nodes, none is recorded twice, and a node gets as many
checkees as asked for, or as there are nodes younger than its round. -/
theorem constructAcyclicCheckers_network (rand : Nat → Nat) (totalNodes : Nat)
    (desiredConnectivity : Int) (actualConnectivity : List Nat) :
    ∃ s, generate rand .empty totalNodes desiredConnectivity = .ok s ∧
      constructAcyclicCheckers rand totalNodes desiredConnectivity =
        .ok s.graph.checkerCheckeeMap ∧
      CheckersNetwork.constructAcyclicCheckers {} rand totalNodes desiredConnectivity
        actualConnectivity = .ok (⟨s.graph.checkerCheckeeMap⟩, actualConnectivity ++
          s.graph.checkerCheckeeMap.entries.map fun entry => entry.2.length) ∧
      s.nodes = totalNodes ∧ s.rounds.length ≤ totalNodes ∧
      (∀ j m, Edge s.graph.checkerCheckeeMap.find? j m → j < m ∧ m < totalNodes) ∧
      Acyclic s.graph.checkerCheckeeMap.find? ∧
      (∀ j, (checkeesAt s.graph.checkerCheckeeMap j).Nodup) ∧
      (∀ j < totalNodes, ∃ r ∈ s.rounds, r.1 ≤ j ∧ j < r.2) ∧
      ∀ r ∈ s.rounds, ∀ j, r.1 ≤ j → j < r.2 → min desiredConnectivity (totalNodes - r.2 : Nat) ≤
        (checkeesAt s.graph.checkerCheckeeMap j).length := by
  have hstart : Generator.Valid totalNodes desiredConnectivity
      { graph := { checkerCheckeeMap := .empty, calls := 1 } } :=
    ⟨Nat.zero_le _, le_rfl, by simp [checkeesAt], by simp [checkeesAt], by simp, by simp⟩
  obtain ⟨s, hrun, hs, hnodes⟩ := Generator.loop_total rand totalNodes hstart (by simp)
  have hgen : generate rand .empty totalNodes desiredConnectivity = .ok s := hrun
  have hedges : ∀ j m, Edge s.graph.checkerCheckeeMap.find? j m → j < m ∧ m < totalNodes :=
    fun j m he => hnodes ▸ hs.edges j m (edge_iff_checkeesAt.mp he)
  refine ⟨s, hgen, ?_, ?_, hnodes, hnodes ▸ hs.rounds, hedges, ?_, hs.nodup, hnodes ▸ hs.covered,
    fun r hr j _ hj => ?_⟩
  · rw [constructAcyclicCheckers, hgen]
    rfl
  · rw [CheckersNetwork.constructAcyclicCheckers, hgen]
    rfl
  · apply acyclic_of_measure fun j => totalNodes - j
    intro j m he
    have := hedges j m he
    omega
  · have := (hs.degree r hr).2 j hj
    rwa [hnodes] at this

example : (generate (fun n => n) .empty 4 1).map (fun s => (s.graph.checkerCheckeeMap.entries,
    s.rounds)) = .ok ([(0, [1, 2, 3]), (1, [3]), (2, [3])], [(0, 1), (1, 3), (3, 4)]) := rfl

end SelfChecksumming
