import SelfChecksumming.Library.DepthFirst
import SelfChecksumming.Library.SortedMap
import SelfChecksumming.Outcome
import Mathlib.Data.List.Basic
import Mathlib.Data.List.Nodup

/-! # The reverse topological sort

`getAllFunctions` numbers the functions of the map; `topologicalSortUtil` is the
recursive walk over these numbers, with its bit array. Both accesses through an
index are checked here, so a result means that no index left the array. The walk
refines `Visits`, and its fuel never runs out. -/
namespace SelfChecksumming
open Library

variable {Fn : Type} [LinearOrder Fn]

def pushNew (functions : List Fn) (F : Fn) : List Fn :=
  if F ∈ functions then functions else functions ++ [F]

def getAllFunctions (checkerCheckeeMap : SortedMap Fn (List Fn)) : List Fn :=
  checkerCheckeeMap.entries.foldl (fun functions e => e.2.foldl pushNew (pushNew functions e.1)) []

structure SortState (Fn : Type) where
  visited : List Bool
  list : List Fn

def visitedOutOfRange : Fault := .undefined "visited[index]"

/-- One iteration of the loop over the checkees. -/
def visitCheckee (util : Nat → Fn → SortState Fn → Except Fault (SortState Fn))
    (allFunctions : List Fn) (st : SortState Fn) (i : Fn) : Except Fault (SortState Fn) :=
  let index := allFunctions.idxOf i
  match st.visited[index]? with
  | none => .error visitedOutOfRange
  | some true => .ok st
  | some false => util index i st

def topologicalSortUtil (checkerCheckeeMap : SortedMap Fn (List Fn)) (allFunctions : List Fn) :
    Nat → Nat → Fn → SortState Fn → Except Fault (SortState Fn)
  | 0, _, _, _ => .error .outOfFuel
  | fuel + 1, v, F, st =>
    if v < st.visited.length then
      let st := { st with visited := st.visited.set v true }
      match checkerCheckeeMap.find? F with
      | none => .ok st
      | some checkees =>
        match checkees.foldlM (visitCheckee (topologicalSortUtil checkerCheckeeMap allFunctions fuel)
          allFunctions) st with
        | .error fault => .error fault
        | .ok st =>
          match allFunctions[v]? with
          | none => .error (.undefined "allFunctions[v]")
          | some f => .ok { st with list := st.list ++ [f] }
    else .error visitedOutOfRange

/-- One iteration of the outer loop. -/
def visitRoot (checkerCheckeeMap : SortedMap Fn (List Fn)) (AllFunctions : List Fn)
    (st : SortState Fn) (i : Nat) : Except Fault (SortState Fn) :=
  match AllFunctions[i]?, st.visited[i]? with
  | some function, some false =>
    topologicalSortUtil checkerCheckeeMap AllFunctions AllFunctions.length i function st
  | some _, some true => .ok st
  | _, _ => .error visitedOutOfRange

def getReverseTopologicalSort (checkerCheckeeMap : SortedMap Fn (List Fn)) :
    Except Fault (List Fn) :=
  let AllFunctions := getAllFunctions checkerCheckeeMap
  let V := AllFunctions.length
  match (List.range V).foldlM (visitRoot checkerCheckeeMap AllFunctions)
      ⟨List.replicate V false, []⟩ with
  | .error fault => .error fault
  | .ok st => .ok st.list

/-! ## All functions -/

theorem mem_pushNew {fs : List Fn} {F x : Fn} : x ∈ pushNew fs F ↔ x ∈ fs ∨ x = F := by
  unfold pushNew
  split
  · exact ⟨Or.inl, fun h => h.elim id (· ▸ ‹F ∈ fs›)⟩
  · simp

theorem pushNew_nodup {fs : List Fn} (h : fs.Nodup) (F : Fn) : (pushNew fs F).Nodup := by
  unfold pushNew
  split
  · exact h
  · rename_i hF
    exact List.nodup_append.mpr ⟨h, List.nodup_singleton F, fun a ha b hb he =>
      hF (List.mem_singleton.mp hb ▸ he ▸ ha)⟩

theorem mem_pushAll {fs vs : List Fn} {x : Fn} : x ∈ vs.foldl pushNew fs ↔ x ∈ fs ∨ x ∈ vs := by
  induction vs generalizing fs with
  | nil => simp
  | cons v vs ih => rw [List.foldl_cons, ih, mem_pushNew, List.mem_cons, or_assoc]

theorem pushAll_nodup {fs : List Fn} (h : fs.Nodup) (vs : List Fn) :
    (vs.foldl pushNew fs).Nodup := by
  induction vs generalizing fs with
  | nil => exact h
  | cons v vs ih => exact ih (pushNew_nodup h v)

theorem getAllFunctions_nodup (m : SortedMap Fn (List Fn)) : (getAllFunctions m).Nodup := by
  have aux : ∀ (l : List (Fn × List Fn)) (fs : List Fn), fs.Nodup →
      (l.foldl (fun fs e => e.2.foldl pushNew (pushNew fs e.1)) fs).Nodup := by
    intro l
    induction l with
    | nil => exact fun _ h => h
    | cons e l ih => exact fun fs h => ih _ (pushAll_nodup (pushNew_nodup h e.1) e.2)
  exact aux m.entries [] List.nodup_nil

theorem mem_getAllFunctions {m : SortedMap Fn (List Fn)} {x : Fn} :
    x ∈ getAllFunctions m ↔ ∃ F vs, m.find? F = some vs ∧ (x = F ∨ x ∈ vs) := by
  have aux : ∀ (l : List (Fn × List Fn)) (fs : List Fn),
      x ∈ l.foldl (fun fs e => e.2.foldl pushNew (pushNew fs e.1)) fs ↔
        x ∈ fs ∨ ∃ e ∈ l, x = e.1 ∨ x ∈ e.2 := by
    intro l
    induction l with
    | nil => simp
    | cons e l ih =>
      intro fs
      rw [List.foldl_cons, ih, mem_pushAll, mem_pushNew]
      simp only [List.mem_cons, exists_eq_or_imp, or_assoc]
  simp only [SortedMap.find?_eq_some_iff]
  exact (aux m.entries []).trans (by simp)

/-! ## The walk -/

/-- The marks as a set of functions. -/
def SortState.toWalk (allFunctions : List Fn) (st : SortState Fn) : Walk Fn :=
  ⟨{x | x ∈ allFunctions ∧ st.visited[allFunctions.idxOf x]? = some true}, st.list⟩

/-- As many bits as functions, and fuel for every bit that is still unset. -/
structure SortState.Fueled (allFunctions : List Fn) (fuel : Nat) (st : SortState Fn) : Prop where
  size : st.visited.length = allFunctions.length
  unset : st.visited.count false ≤ fuel

/-- Every checkee is numbered. -/
def Numbered (m : SortedMap Fn (List Fn)) (allFunctions : List Fn) : Prop :=
  ∀ F vs, m.find? F = some vs → ∀ w ∈ vs, w ∈ allFunctions

theorem idxOf_of_getElem? {all : List Fn} (hnd : all.Nodup) {v : Nat} {F : Fn}
    (h : all[v]? = some F) : all.idxOf F = v := by
  obtain ⟨hv, rfl⟩ := List.getElem?_eq_some_iff.mp h
  exact hnd.idxOf_getElem v hv

theorem getElem?_idxOf {all : List Fn} {F : Fn} (h : F ∈ all) : all[all.idxOf F]? = some F := by
  have hlt := List.idxOf_lt_length_of_mem h
  rw [List.getElem?_eq_getElem hlt, List.getElem_idxOf hlt]

theorem toWalk_set {all : List Fn} (hnd : all.Nodup) {v : Nat} {F : Fn} (hF : all[v]? = some F)
    (st : SortState Fn) (hv : v < st.visited.length) :
    SortState.toWalk all { st with visited := st.visited.set v true } =
      (st.toWalk all).mark F := by
  have hset : ∀ x, (x ∈ all ∧ (st.visited.set v true)[all.idxOf x]? = some true) ↔
      x = F ∨ x ∈ all ∧ st.visited[all.idxOf x]? = some true := by
    intro x
    by_cases hx : x = F
    · subst hx
      simp [idxOf_of_getElem? hnd hF, hv, List.mem_of_getElem? hF]
    · have hne : x ∈ all → v ≠ all.idxOf x := by
        intro hmem he
        rw [he, getElem?_idxOf hmem] at hF
        exact hx (Option.some.inj hF)
      constructor
      · rintro ⟨hmem, h⟩
        rw [List.getElem?_set_ne (hne hmem)] at h
        exact .inr ⟨hmem, h⟩
      · rintro (h | ⟨hmem, h⟩)
        · exact absurd h hx
        · rw [List.getElem?_set_ne (hne hmem)]
          exact ⟨hmem, h⟩
  simp only [SortState.toWalk, Walk.mark, Walk.mk.injEq, and_true]
  exact Set.ext hset

theorem count_false_set {visited : List Bool} {v : Nat} (h : visited[v]? = some false) :
    (visited.set v true).count false + 1 = visited.count false := by
  obtain ⟨hv, hf⟩ := List.getElem?_eq_some_iff.mp h
  have hpos : 0 < visited.count false := List.count_pos_iff.mpr (List.mem_of_getElem? h)
  rw [List.count_set hv, hf]
  simp only [BEq.rfl, if_true, show (true == false) = false from rfl, Bool.false_eq_true, if_false]
  omega

/-- What the recursive calls are relied on for. -/
def Walks (m : SortedMap Fn (List Fn)) (all : List Fn) (fuel : Nat)
    (util : Nat → Fn → SortState Fn → Except Fault (SortState Fn)) : Prop :=
  ∀ v F st, st.Fueled all fuel → all[v]? = some F → st.visited[v]? = some false →
    ∃ st', util v F st = .ok st' ∧ st'.Fueled all fuel ∧
      Visits m.find? [F] (st.toWalk all) (st'.toWalk all)

theorem Walks.visitCheckees {m : SortedMap Fn (List Fn)} {all : List Fn} {fuel : Nat}
    {util : Nat → Fn → SortState Fn → Except Fault (SortState Fn)} (hu : Walks m all fuel util) :
    ∀ (ws : List Fn) (st : SortState Fn), (∀ w ∈ ws, w ∈ all) → st.Fueled all fuel →
      ∃ st', ws.foldlM (visitCheckee util all) st = .ok st' ∧ st'.Fueled all fuel ∧
        Visits m.find? ws (st.toWalk all) (st'.toWalk all) := by
  intro ws
  induction ws with
  | nil => exact fun st _ hf => ⟨st, rfl, hf, .nil⟩
  | cons w ws ih =>
    intro st hws hf
    have hw := hws w List.mem_cons_self
    have hlt : all.idxOf w < st.visited.length := hf.size ▸ List.idxOf_lt_length_of_mem hw
    rw [List.foldlM_cons, visitCheckee]
    cases hb : st.visited[all.idxOf w]? with
    | none => exact absurd (List.getElem?_eq_none_iff.mp hb) (not_le.mpr hlt)
    | some b =>
      cases b with
      | true =>
        obtain ⟨st', hrun, hf', hv⟩ := ih st (fun x hx => hws x (List.mem_cons_of_mem _ hx)) hf
        exact ⟨st', hrun, hf', .skip ⟨hw, hb⟩ hv⟩
      | false =>
        obtain ⟨st₁, hrun₁, hf₁, hv₁⟩ := hu (all.idxOf w) w st hf (getElem?_idxOf hw) hb
        obtain ⟨st₂, hrun₂, hf₂, hv₂⟩ := ih st₁ (fun x hx => hws x (List.mem_cons_of_mem _ hx)) hf₁
        refine ⟨st₂, ?_, hf₂, hv₁.append hv₂⟩
        simp only [hrun₁]
        exact hrun₂

/-- The recursion refines the walk: it stays inside the arrays, it needs no more
fuel than there are unset bits, and it marks and emits what the walk does. -/
theorem topologicalSortUtil_walks {m : SortedMap Fn (List Fn)} {all : List Fn} (hnd : all.Nodup)
    (hnum : Numbered m all) : ∀ fuel, Walks m all fuel (topologicalSortUtil m all fuel) := by
  intro fuel
  induction fuel with
  | zero =>
    intro v F st hf _ hv
    have : 0 < st.visited.count false := List.count_pos_iff.mpr (List.mem_of_getElem? hv)
    have := hf.unset
    omega
  | succ fuel ih =>
    intro v F st hf hF hv
    have hlt : v < st.visited.length := (List.getElem?_eq_some_iff.mp hv).1
    have hfresh : F ∉ (st.toWalk all).marked := by
      rintro ⟨_, h⟩
      rw [idxOf_of_getElem? hnd hF, hv] at h
      cases h
    have hcount := count_false_set hv
    have hset := toWalk_set hnd hF st hlt
    have hf₁ : SortState.Fueled all fuel { st with visited := st.visited.set v true } := by
      refine ⟨by simpa using hf.size, ?_⟩
      have := hf.unset
      simp only
      omega
    rw [topologicalSortUtil, if_pos hlt]
    cases hm : m.find? F with
    | none =>
      refine ⟨_, rfl, ⟨hf₁.size, Nat.le_succ_of_le hf₁.unset⟩, ?_⟩
      rw [hset]
      exact .leaf hfresh hm .nil
    | some ws =>
      obtain ⟨st', hrun, hf', hvis⟩ := ih.visitCheckees ws _ (hnum F ws hm) hf₁
      simp only [hrun, hF]
      refine ⟨_, rfl, ⟨hf'.size, Nat.le_succ_of_le hf'.unset⟩, ?_⟩
      rw [hset] at hvis
      exact .node hfresh hm hvis .nil

/-- The outer loop walks over all functions in their order. -/
theorem visitRoots {m : SortedMap Fn (List Fn)} {all : List Fn} (hnd : all.Nodup)
    (hnum : Numbered m all) : ∀ (is : List Nat) (vs : List Fn) (st : SortState Fn),
      List.Forall₂ (fun i F => all[i]? = some F) is vs → st.Fueled all all.length →
      ∃ st', is.foldlM (visitRoot m all) st = .ok st' ∧ st'.Fueled all all.length ∧
        Visits m.find? vs (st.toWalk all) (st'.toWalk all) := by
  intro is vs st his
  induction his generalizing st with
  | nil => exact fun hf => ⟨st, rfl, hf, .nil⟩
  | @cons i F is vs hF _ ih =>
    intro hf
    have hlt : i < st.visited.length := hf.size ▸ (List.getElem?_eq_some_iff.mp hF).1
    rw [List.foldlM_cons, visitRoot, hF]
    cases hb : st.visited[i]? with
    | none => exact absurd (List.getElem?_eq_none_iff.mp hb) (not_le.mpr hlt)
    | some b =>
      cases b with
      | true =>
        obtain ⟨st', hrun, hf', hv⟩ := ih st hf
        refine ⟨st', hrun, hf', .skip ⟨List.mem_of_getElem? hF, ?_⟩ hv⟩
        rw [idxOf_of_getElem? hnd hF, hb]
      | false =>
        obtain ⟨st₁, hrun₁, hf₁, hv₁⟩ :=
          topologicalSortUtil_walks hnd hnum all.length i F st hf hF hb
        obtain ⟨st₂, hrun₂, hf₂, hv₂⟩ := ih st₁ hf₁
        refine ⟨st₂, ?_, hf₂, hv₁.append hv₂⟩
        simp only [hrun₁]
        exact hrun₂

theorem numbered_getAllFunctions (m : SortedMap Fn (List Fn)) : Numbered m (getAllFunctions m) :=
  fun F vs hF _ hw => mem_getAllFunctions.mpr ⟨F, vs, hF, .inr hw⟩

omit [LinearOrder Fn] in
theorem forall₂_range_getElem? (all : List Fn) :
    List.Forall₂ (fun i F => all[i]? = some F) (List.range all.length) all := by
  rw [List.forall₂_iff_get]
  refine ⟨by simp, fun i h₁ h₂ => ?_⟩
  simp

/-- The sort is a walk over all functions, from nothing. -/
theorem getReverseTopologicalSort_walk (m : SortedMap Fn (List Fn)) :
    ∃ st : Walk Fn, getReverseTopologicalSort m = .ok st.emitted ∧
      Visits m.find? (getAllFunctions m) ⟨∅, []⟩ st := by
  have hnd := getAllFunctions_nodup m
  have hf : SortState.Fueled (getAllFunctions m) (getAllFunctions m).length
      ⟨List.replicate (getAllFunctions m).length false, []⟩ := ⟨by simp, by simp⟩
  obtain ⟨st, hrun, _, hv⟩ := visitRoots hnd (numbered_getAllFunctions m) _ _ _
    (forall₂_range_getElem? (getAllFunctions m)) hf
  refine ⟨st.toWalk (getAllFunctions m), ?_, ?_⟩
  · simp only [getReverseTopologicalSort, hrun]
    rfl
  · have hnone : SortState.toWalk (getAllFunctions m)
        ⟨List.replicate (getAllFunctions m).length false, []⟩ = ⟨∅, []⟩ := by
      simp [SortState.toWalk, List.getElem?_replicate]
    rwa [hnone] at hv

/-- The list returned has each key once, in an order that cycles alone can spoil. -/
theorem getReverseTopologicalSort_ordered (m : SortedMap Fn (List Fn)) :
    ∃ sorted, getReverseTopologicalSort m = .ok sorted ∧ sorted.Nodup ∧
      (∀ F, F ∈ sorted ↔ F ∈ m.keys) ∧ Ordered m.find? sorted := by
  obtain ⟨st, hrun, hv⟩ := getReverseTopologicalSort_walk m
  obtain ⟨hnd, hmem, hord⟩ := hv.postOrder fun F hF => by
    obtain ⟨vs, hvs⟩ := Option.isSome_iff_exists.mp hF
    exact mem_getAllFunctions.mpr ⟨F, vs, hvs, .inl rfl⟩
  refine ⟨st.emitted, hrun, hnd, fun F => ?_, hord⟩
  rw [hmem, SortedMap.mem_keys, Option.isSome_iff_exists]

/-- Any map, cyclic or not, in whatever order its keys are iterated: the sort
returns each key once and nothing else, and the end of an edge between keys stands
before its start or reaches it; on an acyclic map it always stands before. -/
theorem getReverseTopologicalSort_sorts (checkerCheckeeMap : SortedMap Fn (List Fn)) :
    ∃ sorted, getReverseTopologicalSort checkerCheckeeMap = .ok sorted ∧
      sorted.Nodup ∧ (∀ F, F ∈ sorted ↔ F ∈ checkerCheckeeMap.keys) ∧
      (∀ u w, Edge checkerCheckeeMap.find? u w → w ∈ checkerCheckeeMap.keys →
        Precedes sorted w u ∨ Reaches checkerCheckeeMap.find? w u) ∧
      (Acyclic checkerCheckeeMap.find? → ∀ u w, Edge checkerCheckeeMap.find? u w →
        w ∈ checkerCheckeeMap.keys → Precedes sorted w u) := by
  obtain ⟨sorted, hrun, hnd, hmem, hord⟩ := getReverseTopologicalSort_ordered checkerCheckeeMap
  have hstart : ∀ {u w}, Edge checkerCheckeeMap.find? u w → u ∈ sorted := by
    intro u w he
    obtain ⟨vs, hu, _⟩ := he
    exact (hmem u).mpr (SortedMap.mem_keys.mpr ⟨vs, hu⟩)
  have hkey : ∀ {w}, w ∈ checkerCheckeeMap.keys → (checkerCheckeeMap.find? w).isSome := fun hw =>
    Option.isSome_iff_exists.mpr (SortedMap.mem_keys.mp hw)
  refine ⟨sorted, hrun, hnd, hmem, ?_, ?_⟩
  · exact fun u w he hw => hord u w (hstart he) he (hkey hw)
  · exact fun ha u w he hw => hord.of_acyclic ha (hstart he) he (hkey hw)

example : getReverseTopologicalSort
    (⟨[(1, [2, 3, 1]), (2, [3, 2]), (4, [1, 5])], by decide⟩ : SortedMap Nat (List Nat)) =
      .ok [2, 1, 4] := rfl

end SelfChecksumming
