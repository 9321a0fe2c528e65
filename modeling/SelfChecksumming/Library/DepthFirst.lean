import Mathlib.Data.List.Nodup
import Mathlib.Data.Set.Insert
import Mathlib.Logic.Equiv.Defs
import Mathlib.Logic.Relation

/-! # Depth-first walks that emit on exit

A walk marks a vertex when it enters it and emits it when all its successors
are done. A vertex without a successor list is marked and never emitted. The
graph may be cyclic: an edge to an open vertex is skipped, so what the emitted
order guarantees is that the end of an edge stands before its start or can
reach it back. The relation has no visiting order of its own beyond the agenda
it is given, and says nothing about how marks are stored. -/
namespace Library

variable {α : Type*}

structure Walk (α : Type*) where
  marked : Set α
  emitted : List α

namespace Walk

def mark (s : Walk α) (v : α) : Walk α := { s with marked := insert v s.marked }

def emit (s : Walk α) (v : α) : Walk α := { s with emitted := s.emitted ++ [v] }

@[simp] theorem mark_marked (s : Walk α) (v : α) : (s.mark v).marked = insert v s.marked := rfl
@[simp] theorem mark_emitted (s : Walk α) (v : α) : (s.mark v).emitted = s.emitted := rfl
@[simp] theorem emit_marked (s : Walk α) (v : α) : (s.emit v).marked = s.marked := rfl
@[simp] theorem emit_emitted (s : Walk α) (v : α) : (s.emit v).emitted = s.emitted ++ [v] := rfl

end Walk

/-- The walk over an agenda, from one state to another. -/
inductive Visits (succ : α → Option (List α)) : List α → Walk α → Walk α → Prop
  | nil {s} : Visits succ [] s s
  | skip {v vs s t} (seen : v ∈ s.marked) (rest : Visits succ vs s t) : Visits succ (v :: vs) s t
  | leaf {v vs s t} (fresh : v ∉ s.marked) (hv : succ v = none)
      (rest : Visits succ vs (s.mark v) t) : Visits succ (v :: vs) s t
  | node {v ws vs s t u} (fresh : v ∉ s.marked) (hv : succ v = some ws)
      (inner : Visits succ ws (s.mark v) t) (rest : Visits succ vs (t.emit v) u) :
      Visits succ (v :: vs) s u

def Edge (succ : α → Option (List α)) (u w : α) : Prop := ∃ ws, succ u = some ws ∧ w ∈ ws

def Reaches (succ : α → Option (List α)) : α → α → Prop := Relation.TransGen (Edge succ)

def Acyclic (succ : α → Option (List α)) : Prop := ∀ x, ¬ Reaches succ x x

/-- `w` stands before `u`. -/
def Precedes (l : List α) (w u : α) : Prop := ∃ l₁ l₂, l = l₁ ++ u :: l₂ ∧ w ∈ l₁

theorem Precedes.append {l : List α} {w u : α} (h : Precedes l w u) (r : List α) :
    Precedes (l ++ r) w u := by
  obtain ⟨l₁, l₂, rfl, hw⟩ := h
  exact ⟨l₁, l₂ ++ r, by simp, hw⟩

/-- Emitted vertices are marked, have successors, and are emitted once. -/
structure Clean (succ : α → Option (List α)) (s : Walk α) : Prop where
  nodup : s.emitted.Nodup
  marked : ∀ x ∈ s.emitted, x ∈ s.marked
  inner : ∀ x ∈ s.emitted, (succ x).isSome

/-- The end of every edge stands before its start, or reaches it. -/
def Ordered (succ : α → Option (List α)) (l : List α) : Prop :=
  ∀ u w, u ∈ l → Edge succ u w → (succ w).isSome → Precedes l w u ∨ Reaches succ w u

/-- Marked vertices with successors are emitted, but for the open ones. -/
def Settled (succ : α → Option (List α)) (isOpen : Set α) (s : Walk α) : Prop :=
  ∀ x ∈ s.marked, (succ x).isSome → x ∈ s.emitted ∨ x ∈ isOpen

variable {succ : α → Option (List α)}

theorem Settled.leaf {isOpen : Set α} {s : Walk α} (h : Settled succ isOpen s) {v : α}
    (hv : succ v = none) : Settled succ isOpen (s.mark v) := by
  intro x hx hsome
  rcases Set.mem_insert_iff.mp hx with rfl | hx
  · simp [hv] at hsome
  · exact h x hx hsome

theorem Settled.enter {isOpen : Set α} {s : Walk α} (h : Settled succ isOpen s) (v : α) :
    Settled succ (insert v isOpen) (s.mark v) := by
  intro x hx hsome
  rcases Set.mem_insert_iff.mp hx with rfl | hx
  · exact .inr (Set.mem_insert _ _)
  · exact (h x hx hsome).imp_right (Set.mem_insert_of_mem _)

theorem Settled.leave {isOpen : Set α} {s : Walk α} {v : α}
    (h : Settled succ (insert v isOpen) s) : Settled succ isOpen (s.emit v) := by
  intro x hx hsome
  rcases h x hx hsome with h | h
  · exact .inl (List.mem_append_left _ h)
  · rcases Set.mem_insert_iff.mp h with rfl | h
    · exact .inl (by simp)
    · exact .inr h

/-- A vertex may be emitted once its successors are, or reach it. -/
theorem Ordered.emit {l : List α} (h : Ordered succ l) {v : α}
    (hv : ∀ w, Edge succ v w → (succ w).isSome → w ∈ l ∨ Reaches succ w v) :
    Ordered succ (l ++ [v]) := by
  intro x w hx he hsome
  rcases List.mem_append.mp hx with hx | hx
  · exact (h x w hx he hsome).imp_left fun h => h.append [v]
  · rw [List.mem_singleton.mp hx] at he ⊢
    exact (hv w he hsome).imp_left fun hw => ⟨l, [], rfl, hw⟩

namespace Visits

theorem append {vs ws : List α} {s t u : Walk α} (h : Visits succ vs s t)
    (h' : Visits succ ws t u) : Visits succ (vs ++ ws) s u := by
  induction h with
  | nil => exact h'
  | skip seen _ ih => exact .skip seen (ih h')
  | leaf fresh hv _ ih => exact .leaf fresh hv (ih h')
  | node fresh hv inner _ _ ih => exact .node fresh hv inner (ih h')

/-! ## What a walk marks and emits -/

theorem marked_mono {vs : List α} {s t : Walk α} (h : Visits succ vs s t) :
    s.marked ⊆ t.marked := by
  induction h with
  | nil => exact subset_rfl
  | skip _ _ ih => exact ih
  | leaf _ _ _ ih => exact (Set.subset_insert _ _).trans ih
  | node _ _ _ _ ih₁ ih₂ => exact ((Set.subset_insert _ _).trans ih₁).trans ih₂

/-- The whole agenda is marked at the end. -/
theorem marks {vs : List α} {s t : Walk α} (h : Visits succ vs s t) :
    ∀ v ∈ vs, v ∈ t.marked := by
  induction h with
  | nil => simp
  | skip seen rest ih =>
    intro x hx
    rcases List.mem_cons.mp hx with rfl | hx
    · exact rest.marked_mono seen
    · exact ih x hx
  | leaf _ _ rest ih =>
    intro x hx
    rcases List.mem_cons.mp hx with rfl | hx
    · exact rest.marked_mono (Set.mem_insert _ _)
    · exact ih x hx
  | node _ _ inner rest _ ih =>
    intro x hx
    rcases List.mem_cons.mp hx with rfl | hx
    · exact rest.marked_mono (inner.marked_mono (Set.mem_insert _ _))
    · exact ih x hx

/-- What it marks it has walked on from. -/
theorem marks_succ {vs : List α} {s t : Walk α} (h : Visits succ vs s t) {x y : α}
    (hx : x ∈ t.marked) (hnew : x ∉ s.marked) (he : Edge succ x y) : y ∈ t.marked := by
  induction h with
  | nil => exact absurd hx hnew
  | skip _ _ ih => exact ih hx hnew
  | @leaf v vs s t fresh hv rest ih =>
    by_cases hxv : x = v
    · obtain ⟨ws, hws, -⟩ := he
      rw [hxv, hv] at hws
      cases hws
    · exact ih hx fun hm => (Set.mem_insert_iff.mp hm).elim hxv hnew
  | @node v ws vs s t u fresh hv inner rest ih₁ ih₂ =>
    by_cases hxt : x ∈ t.marked
    · by_cases hxv : x = v
      · obtain ⟨ws', hws, hy⟩ := he
        obtain rfl : ws = ws' := Option.some.inj ((hxv ▸ hv).symm.trans hws)
        exact rest.marked_mono (inner.marks y hy)
      · exact rest.marked_mono (ih₁ hxt fun hm => (Set.mem_insert_iff.mp hm).elim hxv hnew)
    · exact ih₂ hx hxt

/-- Whatever a walk adds to the emitted list was not marked before. -/
theorem emitted_new {vs : List α} {s t : Walk α} (h : Visits succ vs s t) {x : α}
    (hx : x ∈ t.emitted) :
    x ∈ s.emitted ∨ x ∉ s.marked ∧ x ∈ t.marked ∧ (succ x).isSome := by
  induction h with
  | nil => exact .inl hx
  | skip _ _ ih => exact ih hx
  | leaf fresh hv _ ih =>
    rcases ih hx with h | ⟨h, h', h''⟩
    · exact .inl h
    · exact .inr ⟨fun hm => h (Set.mem_insert_of_mem _ hm), h', h''⟩
  | @node v ws vs s t u fresh hv inner rest ih₁ ih₂ =>
    rcases ih₂ hx with h | ⟨h, h', h''⟩
    · rcases List.mem_append.mp h with h | h
      · rcases ih₁ h with h | ⟨h, h', h''⟩
        · exact .inl h
        · exact .inr ⟨fun hm => h (Set.mem_insert_of_mem _ hm), rest.marked_mono h', h''⟩
      · -- the vertex itself, emitted after its successors
        rw [List.mem_singleton.mp h]
        exact .inr ⟨fresh, rest.marked_mono (inner.marked_mono (Set.mem_insert _ _)), by simp [hv]⟩
    · exact .inr ⟨fun hm => h (inner.marked_mono (Set.mem_insert_of_mem _ hm)), h', h''⟩

theorem clean {vs : List α} {s t : Walk α} (h : Visits succ vs s t) (hs : Clean succ s) :
    Clean succ t := by
  induction h with
  | nil => exact hs
  | skip _ _ ih => exact ih hs
  | leaf _ _ _ ih =>
    exact ih ⟨hs.nodup, fun x hx => Set.mem_insert_of_mem _ (hs.marked x hx), hs.inner⟩
  | @node v ws vs s t u fresh hv inner rest ih₁ ih₂ =>
    have ht := ih₁ ⟨hs.nodup, fun x hx => Set.mem_insert_of_mem _ (hs.marked x hx), hs.inner⟩
    have hnew : v ∉ t.emitted := by
      intro hx
      rcases inner.emitted_new hx with h | ⟨h, _⟩
      · exact fresh (hs.marked v h)
      · exact h (Set.mem_insert _ _)
    apply ih₂
    refine ⟨?_, ?_, ?_⟩
    · exact List.nodup_append.mpr ⟨ht.nodup, List.nodup_singleton v, fun a ha b hb he =>
        hnew (List.mem_singleton.mp hb ▸ he ▸ ha)⟩
    · intro x hx
      rcases List.mem_append.mp hx with hx | hx
      · exact ht.marked x hx
      · rw [List.mem_singleton.mp hx]; exact inner.marked_mono (Set.mem_insert _ _)
    · intro x hx
      rcases List.mem_append.mp hx with hx | hx
      · exact ht.inner x hx
      · rw [List.mem_singleton.mp hx, hv]; rfl

/-! ## The order of emission -/

/-- The invariant of the walk. The open vertices are those entered and not
yet left; each of them reaches whatever stands on the agenda. -/
theorem ordered {vs : List α} {s t : Walk α} (h : Visits succ vs s t) :
    ∀ isOpen : Set α, Settled succ isOpen s → (∀ o ∈ isOpen, ∀ v ∈ vs, Reaches succ o v) →
      Ordered succ s.emitted → Settled succ isOpen t ∧ Ordered succ t.emitted := by
  induction h with
  | nil => exact fun _ hs _ ho => ⟨hs, ho⟩
  | skip _ _ ih =>
    exact fun O hs hr ho => ih O hs (fun o h v hv => hr o h v (List.mem_cons_of_mem _ hv)) ho
  | leaf _ hv _ ih =>
    intro O hs hr ho
    exact ih O (hs.leaf hv) (fun o h w hw => hr o h w (List.mem_cons_of_mem _ hw)) ho
  | @node v ws vs s t u _ hv inner _ ih₁ ih₂ =>
    intro O hs hr ho
    -- while the successors are walked, `v` is open as well
    have hreach : ∀ o ∈ insert v O, ∀ w ∈ ws, Reaches succ o w := by
      intro o h w hw
      rcases Set.mem_insert_iff.mp h with rfl | h
      · exact .single ⟨ws, hv, hw⟩
      · exact .tail (hr o h v List.mem_cons_self) ⟨ws, hv, hw⟩
    obtain ⟨hset, hord⟩ := ih₁ (insert v O) (hs.enter v) hreach ho
    refine ih₂ O hset.leave (fun o h w hw => hr o h w (List.mem_cons_of_mem _ hw)) ?_
    refine hord.emit fun w he hsome => ?_
    obtain ⟨ws', hws', hw⟩ := he
    obtain rfl : ws = ws' := Option.some.inj (hv.symm.trans hws')
    refine (hset w (inner.marks w hw) hsome).imp_right fun h => ?_
    rcases Set.mem_insert_iff.mp h with rfl | h
    · exact .single ⟨ws, hv, hw⟩
    · exact hr w h v List.mem_cons_self

/-- A walk from nothing over all vertices with successors emits exactly these,
each once, in order. -/
theorem postOrder {vs : List α} {t : Walk α} (h : Visits succ vs ⟨∅, []⟩ t)
    (hall : ∀ x, (succ x).isSome → x ∈ vs) :
    t.emitted.Nodup ∧ (∀ x, x ∈ t.emitted ↔ (succ x).isSome) ∧ Ordered succ t.emitted := by
  have hc := h.clean ⟨List.nodup_nil, by simp, by simp⟩
  obtain ⟨hset, hord⟩ := h.ordered ∅ (fun x hx => absurd hx (Set.notMem_empty x)) (by simp)
    (fun u w hu => by cases hu)
  refine ⟨hc.nodup, fun x => ⟨hc.inner x, fun hx => ?_⟩, hord⟩
  exact (hset x (h.marks x (hall x hx)) hx).resolve_right (Set.notMem_empty x)

end Visits

theorem Ordered.of_acyclic {l : List α} (h : Ordered succ l) (ha : Acyclic succ) {u w : α}
    (hu : u ∈ l) (he : Edge succ u w) (hw : (succ w).isSome) : Precedes l w u :=
  (h u w hu he hw).resolve_right fun hr => ha w (hr.tail he)

/-- In such a list no edge leads to a later vertex. -/
theorem Ordered.pairwise {l : List α} (h : Ordered succ l) (ha : Acyclic succ) (hnd : l.Nodup)
    (hinner : ∀ x ∈ l, (succ x).isSome) : l.Pairwise fun u w => ¬ Edge succ u w := by
  rw [List.pairwise_iff_getElem]
  intro i j hi hj hij he
  obtain ⟨l₁, l₂, hl, hw⟩ :=
    h.of_acyclic ha (List.getElem_mem hi) he (hinner _ (List.getElem_mem hj))
  obtain ⟨k, hk, hkw⟩ := List.getElem_of_mem hw
  have hlen : l.length = l₁.length + (l₂.length + 1) := by simpa using congrArg List.length hl
  -- the edge's start stands at `i` only, its end at `j` only
  have hat : ∀ n : Nat, l[n]? = (l₁ ++ l[i] :: l₂)[n]? :=
    fun n => congrArg (fun t : List α => t[n]?) hl
  have hi' : l₁.length = i := by
    have hstart : l[l₁.length]? = some l[i] := by rw [hat]; simp
    obtain ⟨hlt, hstart⟩ := List.getElem?_eq_some_iff.mp hstart
    exact hnd.getElem_inj_iff.mp hstart
  have hj' : k = j := by
    have hend : l[k]? = some l[j] := by rw [hat, List.getElem?_append_left hk]; simp [hk, hkw]
    obtain ⟨hlt, hend⟩ := List.getElem?_eq_some_iff.mp hend
    exact hnd.getElem_inj_iff.mp hend
  omega

/-- A measure that drops along every edge rules out cycles. -/
theorem acyclic_of_measure (rank : α → Nat) (h : ∀ u w, Edge succ u w → rank w < rank u) :
    Acyclic succ := by
  have hlt : ∀ u w, Reaches succ u w → rank w < rank u := by
    intro u w hr
    induction hr with
    | single he => exact h _ _ he
    | tail _ he ih => exact (h _ _ he).trans ih
  exact fun x hx => absurd (hlt x x hx) (lt_irrefl _)

/-! ## Topological sorts -/

/-- Every vertex with successors once, behind the ends of its edges that have some. -/
structure TopologicalSort (succ : α → Option (List α)) (l : List α) : Prop where
  nodup : l.Nodup
  mem : ∀ u, u ∈ l ↔ (succ u).isSome
  before : ∀ u w, Edge succ u w → (succ w).isSome → Precedes l w u

theorem Ordered.topologicalSort {l : List α} (h : Ordered succ l) (ha : Acyclic succ)
    (hnd : l.Nodup) (hmem : ∀ u, u ∈ l ↔ (succ u).isSome) : TopologicalSort succ l where
  nodup := hnd
  mem := hmem
  before u w he hw := by
    obtain ⟨ws, hu, hw'⟩ := he
    exact h.of_acyclic ha ((hmem u).mpr (by rw [hu]; rfl)) ⟨ws, hu, hw'⟩ hw

theorem Precedes.idxOf_lt [DecidableEq α] {l : List α} (hnd : l.Nodup) {w u : α}
    (h : Precedes l w u) : l.idxOf w < l.idxOf u := by
  obtain ⟨l₁, l₂, rfl, hw⟩ := h
  have hu : u ∉ l₁ := fun hu => (List.nodup_append.mp hnd).2.2 u hu u List.mem_cons_self rfl
  rw [List.idxOf_append_of_mem hw, List.idxOf_append_of_notMem hu]
  have := List.idxOf_lt_length_of_mem hw
  omega

/-- What can be sorted has no cycle: a vertex without successors is on none, and the others
reach earlier ones only. -/
theorem TopologicalSort.acyclic {l : List α} (h : TopologicalSort succ l) : Acyclic succ := by
  classical
  apply acyclic_of_measure fun u => if (succ u).isSome then l.idxOf u + 1 else 0
  intro u w he
  have hu : (succ u).isSome = true := by
    obtain ⟨ws, hws, -⟩ := he
    rw [hws]
    rfl
  rw [if_pos hu]
  split
  · rename_i hw
    have := (h.before u w he hw).idxOf_lt h.nodup
    omega
  · omega

/-- Equal successors up to their order, with every vertex moved by `move`. -/
def Moved {β : Type*} (move : α ≃ β) (succ : α → Option (List α)) (succ' : β → Option (List β)) :
    Prop :=
  ∀ u, Option.Rel List.Perm ((succ u).map (List.map move)) (succ' (move u))

section Moved
variable {β : Type*} {move : α ≃ β} {succ' : β → Option (List β)}

theorem Moved.isSome (h : Moved move succ succ') (u : α) :
    (succ' (move u)).isSome = (succ u).isSome := by
  have hu := h u
  generalize succ' (move u) = s' at hu
  cases hs : succ u with
  | none => rw [hs] at hu; cases hu; rfl
  | some ws => rw [hs] at hu; cases hu; rfl

theorem Moved.edge (h : Moved move succ succ') {u w : α} :
    Edge succ' (move u) (move w) ↔ Edge succ u w := by
  have hu := h u
  unfold Edge
  generalize succ' (move u) = s' at hu
  cases hs : succ u with
  | none => rw [hs] at hu; cases hu; simp
  | some ws =>
    rw [hs] at hu
    cases hu with
    | some hws => simp [← hws.mem_iff]

theorem Moved.symm (h : Moved move succ succ') : Moved move.symm succ' succ := by
  intro u'
  obtain ⟨u, rfl⟩ := move.surjective u'
  have hu := h u
  rw [Equiv.symm_apply_apply]
  generalize succ' (move u) = s' at hu
  cases hs : succ u with
  | none => rw [hs] at hu; cases hu; exact .none
  | some ws =>
    rw [hs] at hu
    cases hu with
    | some hws => exact .some ((hws.symm.map move.symm).trans (by simp))

theorem Precedes.map {l : List α} {w u : α} (h : Precedes l w u) (f : α → β) :
    Precedes (l.map f) (f w) (f u) := by
  obtain ⟨l₁, l₂, rfl, hw⟩ := h
  exact ⟨l₁.map f, l₂.map f, by simp, List.mem_map_of_mem hw⟩

theorem Precedes.of_map {l : List α} {f : α → β} (hinj : ∀ x ∈ l, ∀ y ∈ l, f x = f y → x = y)
    {w u : α} (hw : w ∈ l) (hu : u ∈ l) (h : Precedes (l.map f) (f w) (f u)) : Precedes l w u := by
  obtain ⟨l₁, l₂, hl, hmem⟩ := h
  obtain ⟨m₁, m₂, rfl, rfl, hm₂⟩ := List.map_eq_append_iff.mp hl
  obtain ⟨y, m₃, rfl, hy, rfl⟩ := List.map_eq_cons_iff.mp hm₂
  obtain ⟨x, hx, hxw⟩ := List.mem_map.mp hmem
  obtain rfl := hinj y (by simp) u hu hy
  obtain rfl := hinj x (List.mem_append_left _ hx) w hw hxw
  exact ⟨m₁, m₃, rfl, hx⟩

/-- A sort stays one when the vertices are moved and the successors reordered. -/
theorem TopologicalSort.moved {l : List α} (h : TopologicalSort succ l)
    (hmoved : Moved move succ succ') : TopologicalSort succ' (l.map move) where
  nodup := h.nodup.map move.injective
  mem u' := by
    obtain ⟨u, rfl⟩ := move.surjective u'
    rw [List.mem_map_of_injective move.injective, h.mem, hmoved.isSome]
  before u' w' he hw := by
    obtain ⟨u, rfl⟩ := move.surjective u'
    obtain ⟨w, rfl⟩ := move.surjective w'
    exact (h.before u w (hmoved.edge.mp he) (hmoved.isSome w ▸ hw)).map move

end Moved

end Library
