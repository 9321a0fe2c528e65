import SelfChecksumming.Network.Connectivity
import SelfChecksumming.Network.Sort
import Mathlib.Data.List.Count

/-! # Two heaps

Every map of the construction and of the sort iterates in the order of the pointers.
In another run the same functions have other pointers; `move` takes the ones to the
others, and need not respect their order. What a function is given depends on the two
lists alone; the order only decides how the entries are inverted, so the lists of a
checker are permutations of each other, and a sort of one network is one of the
other. -/
namespace SelfChecksumming
open Library

variable {Fn Fn' : Type} [LinearOrder Fn] [LinearOrder Fn'] (move : Fn ≃ Fn')

/-! ## The first loop -/

theorem pool_map (sens checkers : List Fn) (i : Nat) :
    pool (sens.map move) (checkers.map move) i = (pool sens checkers i).map move := by
  have hmem : ∀ f, move f ∈ (sens.take (i + 1)).map move ↔ f ∈ sens.take (i + 1) :=
    fun f => List.mem_map_of_injective move.injective
  rw [pool, remaining, List.filter_map, ← List.map_take]
  congr 1
  exact List.filter_congr fun f _ => decide_eq_decide.mpr (not_congr (hmem f))

omit [LinearOrder Fn] [LinearOrder Fn'] in
theorem randomComb_map (shuffle : Shuffle Nat) (c : Int32) (fs : List Fn) :
    randomComb shuffle c (fs.map move) = (randomComb shuffle c fs).map move := by
  simp only [randomComb, List.length_map, List.getElem?_map, List.map_filterMap]

theorem lastTurn_map {sens checkers : List Fn} {F : Fn} {i : Nat} :
    LastTurn (sens.map move) (checkers.map move) (move F) i ↔ LastTurn sens checkers F i := by
  have hturn : ∀ j : Nat, (sens.map move)[j]? = some (move F) ↔ sens[j]? = some F := fun j => by simp
  have hpool : ∀ j, pool (sens.map move) (checkers.map move) j = [] ↔ pool sens checkers j = [] :=
    fun j => by rw [pool_map, List.map_eq_nil_iff]
  constructor
  · intro h
    exact ⟨(hturn i).mp h.turn, (hpool i).not.mp h.pool,
      fun j hj hF => (hpool j).mp (h.last j hj ((hturn j).mpr hF))⟩
  · intro h
    exact ⟨(hturn i).mpr h.turn, (hpool i).not.mpr h.pool,
      fun j hj hF => (hpool j).mpr (h.last j hj ((hturn j).mp hF))⟩

/-- What the first loop assigns to a function does not depend on the heap. -/
theorem checkersOfCheckee_map (shuffles : Nat → Shuffle Nat) (sens checkers : List Fn) (c : Int32)
    (F : Fn) :
    (checkersOfCheckee shuffles (sens.map move) (checkers.map move) c).find? (move F) =
      ((checkersOfCheckee shuffles sens checkers c).find? F).map (List.map move) := by
  ext cs
  simp only [Option.map_eq_some_iff, checkersOfCheckee_last, lastTurn_map, pool_map,
    randomComb_map]
  constructor
  · intro h
    obtain ⟨i, hlast, rfl⟩ := h
    exact ⟨_, ⟨i, hlast, rfl⟩, rfl⟩
  · intro h
    obtain ⟨_, ⟨i, hlast, rfl⟩, rfl⟩ := h
    exact ⟨i, hlast, rfl⟩

/-! ## The second loop -/

variable {move}

/-- The checkees of a checker come in the order of the heap, but they are the same. -/
theorem checkeesOf_moved {m : SortedMap Fn (List Fn)} {m' : SortedMap Fn' (List Fn')}
    (h : ∀ F, m'.find? (move F) = (m.find? F).map (List.map move)) (k : Fn) :
    ((checkeesOf m.entries k).map move).Perm (checkeesOf m'.entries (move k)) := by
  rw [List.perm_iff_count]
  intro F'
  obtain ⟨F, rfl⟩ := move.surjective F'
  have hcount : ∀ l : List Fn, ∀ x, (l.map move).count (move x) = l.count x :=
    fun l x => List.count_map_of_injective l move move.injective x
  rw [hcount, count_checkeesOf, count_checkeesOf, h]
  cases m.find? F with
  | none => rfl
  | some cs => exact (hcount cs k).symm

theorem inverted_moved {m : SortedMap Fn (List Fn)} {m' : SortedMap Fn' (List Fn')}
    (h : ∀ F, m'.find? (move F) = (m.find? F).map (List.map move)) :
    Moved move (inverted m.entries .empty).find? (inverted m'.entries .empty).find? := by
  intro k
  have hperm := checkeesOf_moved h k
  by_cases hnil : checkeesOf m.entries k = []
  · have hnil' : checkeesOf m'.entries (move k) = [] := by
      rw [hnil] at hperm
      exact hperm.symm.eq_nil
    rw [inverted_find?_eq_none hnil, inverted_find?_eq_none hnil']
    exact .none
  · have hnil' : checkeesOf m'.entries (move k) ≠ [] := by
      intro he
      rw [he] at hperm
      exact hnil (List.map_eq_nil_iff.mp hperm.eq_nil)
    rw [inverted_find?.mpr ⟨hnil, rfl⟩, inverted_find?.mpr ⟨hnil', rfl⟩]
    exact .some hperm

/-- The network of the other heap. -/
theorem constructed_moved (move : Fn ≃ Fn') (shuffles : Nat → Shuffle Nat)
    (sens checkers : List Fn) (c : Int32) :
    ∃ net net', accepting.constructProtectionNetwork shuffles sens checkers c = .ok net ∧
      accepting.constructProtectionNetwork shuffles (sens.map move) (checkers.map move) c =
        .ok net' ∧
      Moved move net.find? net'.find? :=
  ⟨_, _, accepting_ok _ _ _ _, accepting_ok _ _ _ _,
    inverted_moved (checkersOfCheckee_map move shuffles sens checkers c)⟩

/-! ## The sort -/

/-- The sort of a constructed network leaves no checker out and none before a checkee. -/
theorem sort_of_constructed {network : DAGCheckersNetwork} {shuffles : Nat → Shuffle Nat}
    {sens checkers : List Fn} {c : Int32} {net : SortedMap Fn (List Fn)}
    (h : network.constructProtectionNetwork shuffles sens checkers c = .ok net) :
    ∃ sorted, getReverseTopologicalSort net = .ok sorted ∧ TopologicalSort net.find? sorted := by
  obtain ⟨sorted, hrun, hnd, hmem, hord⟩ := getReverseTopologicalSort_ordered net
  refine ⟨sorted, hrun, hord.topologicalSort (acyclic_of_constructed h) hnd fun F => ?_⟩
  rw [hmem, SortedMap.mem_keys, Option.isSome_iff_exists]

/-- Two orders of the same pointers: the same edges, the same lists up to their order,
and each network is sorted by the other's sort. -/
theorem constructProtectionNetwork_layout {Fn : Type} (heap heap' : LinearOrder Fn)
    (shuffles : Nat → Shuffle Nat) (sensitiveFunctions checkerFunctions : List Fn)
    (connectivity : Int32) :
    ∃ net net' sorted sorted',
      @DAGCheckersNetwork.constructProtectionNetwork Fn heap accepting shuffles sensitiveFunctions
        checkerFunctions connectivity = .ok net ∧
      @DAGCheckersNetwork.constructProtectionNetwork Fn heap' accepting shuffles sensitiveFunctions
        checkerFunctions connectivity = .ok net' ∧
      (∀ k F, Edge (@SortedMap.find? Fn (List Fn) heap net) k F ↔
        Edge (@SortedMap.find? Fn (List Fn) heap' net') k F) ∧
      (∀ k, Option.Rel List.Perm (@SortedMap.find? Fn (List Fn) heap net k)
        (@SortedMap.find? Fn (List Fn) heap' net' k)) ∧
      @getReverseTopologicalSort Fn heap net = .ok sorted ∧
      @getReverseTopologicalSort Fn heap' net' = .ok sorted' ∧
      TopologicalSort (@SortedMap.find? Fn (List Fn) heap' net') sorted ∧
      TopologicalSort (@SortedMap.find? Fn (List Fn) heap net) sorted' := by
  obtain ⟨net, net', hnet, hnet', hmoved⟩ :=
    @constructed_moved Fn Fn heap heap' (Equiv.refl Fn) shuffles sensitiveFunctions
      checkerFunctions connectivity
  simp only [Equiv.coe_refl, List.map_id_fun, id_eq] at hnet'
  obtain ⟨sorted, hsorted, hsort⟩ := @sort_of_constructed Fn heap _ _ _ _ _ _ hnet
  obtain ⟨sorted', hsorted', hsort'⟩ := @sort_of_constructed Fn heap' _ _ _ _ _ _ hnet'
  refine ⟨net, net', sorted, sorted', hnet, hnet', fun k F => hmoved.edge.symm, fun k => ?_,
    hsorted, hsorted', ?_, ?_⟩
  · simpa using hmoved k
  · simpa using hsort.moved hmoved
  · simpa using hsort'.moved hmoved.symm

end SelfChecksumming
