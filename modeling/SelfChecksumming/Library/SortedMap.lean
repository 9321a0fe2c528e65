import Mathlib.Data.List.Pairwise
import Mathlib.Data.List.Perm.Basic
import Mathlib.Order.Lattice

/-! # Finite maps kept in key order

An ordered map is its list of entries in strictly increasing key order, so a
map is determined by its lookups and iteration is iteration over the list.
`upsert` covers both uses of an indexing operator that creates the entry it
does not find: plain assignment and updating the value in place. -/
namespace Library

/-- One way to decide membership, by comparing the elements. -/
instance decidableMem {α : Type} [DecidableEq α] (a : α) (l : List α) : Decidable (a ∈ l) :=
  inferInstance

/-- Entries in strictly increasing key order. -/
structure SortedMap (K V : Type) [LinearOrder K] where
  entries : List (K × V)
  sorted : entries.Pairwise fun a b => a.1 < b.1

namespace SortedMap

variable {K V : Type} [LinearOrder K]

/-- Replace the value of `k` by `f` of the old one, or add `f none`. -/
def upsertList (k : K) (f : Option V → V) : List (K × V) → List (K × V)
  | [] => [(k, f none)]
  | (a, v) :: rest =>
    if k < a then (k, f none) :: (a, v) :: rest
    else if a < k then (a, v) :: upsertList k f rest
    else (a, f (some v)) :: rest

theorem fst_mem_upsertList {k : K} {f : Option V → V} {l : List (K × V)} {e : K × V}
    (h : e ∈ upsertList k f l) : e.1 = k ∨ e ∈ l := by
  induction l with
  | nil => left; simp only [upsertList, List.mem_singleton] at h; rw [h]
  | cons hd rest ih =>
    obtain ⟨a, v⟩ := hd
    simp only [upsertList] at h
    split at h
    · rcases List.mem_cons.mp h with rfl | h
      · exact .inl rfl
      · exact .inr h
    · split at h
      · rcases List.mem_cons.mp h with rfl | h
        · exact .inr (by simp)
        · exact (ih h).imp_right (List.mem_cons_of_mem _)
      · rename_i hka hak
        have he : a = k := le_antisymm (not_lt.mp hka) (not_lt.mp hak)
        rcases List.mem_cons.mp h with rfl | h
        · exact .inl he
        · exact .inr (List.mem_cons_of_mem _ h)

theorem upsertList_sorted (k : K) (f : Option V → V) {l : List (K × V)}
    (h : l.Pairwise fun a b => a.1 < b.1) :
    (upsertList k f l).Pairwise fun a b => a.1 < b.1 := by
  induction l with
  | nil => simp [upsertList]
  | cons hd rest ih =>
    obtain ⟨a, v⟩ := hd
    obtain ⟨hhd, hrest⟩ := List.pairwise_cons.mp h
    simp only [upsertList]
    split
    · rename_i hka
      refine List.pairwise_cons.mpr ⟨?_, h⟩
      intro e he
      rcases List.mem_cons.mp he with rfl | he
      · exact hka
      · exact hka.trans (hhd e he)
    · split
      · rename_i hak
        refine List.pairwise_cons.mpr ⟨?_, ih hrest⟩
        intro e he
        rcases fst_mem_upsertList he with he | he
        · exact he ▸ hak
        · exact hhd e he
      · exact List.pairwise_cons.mpr ⟨hhd, hrest⟩

def empty : SortedMap K V := ⟨[], List.Pairwise.nil⟩

def keys (m : SortedMap K V) : List K := m.entries.map Prod.fst

def find? (m : SortedMap K V) (k : K) : Option V :=
  (m.entries.find? fun e => e.1 = k).map Prod.snd

def upsert (m : SortedMap K V) (k : K) (f : Option V → V) : SortedMap K V :=
  ⟨upsertList k f m.entries, upsertList_sorted k f m.sorted⟩

def insert (m : SortedMap K V) (k : K) (v : V) : SortedMap K V := m.upsert k fun _ => v

/-! ## Lookups and entries -/

theorem sorted_unique {l : List (K × V)} (h : l.Pairwise fun a b => a.1 < b.1) {k : K} {v w : V}
    (hv : (k, v) ∈ l) (hw : (k, w) ∈ l) : v = w := by
  induction l with
  | nil => cases hv
  | cons hd rest ih =>
    obtain ⟨hhd, hrest⟩ := List.pairwise_cons.mp h
    rcases List.mem_cons.mp hv with he | hv'
    · rcases List.mem_cons.mp hw with he' | hw'
      · exact (Prod.mk.inj (he.trans he'.symm)).2
      · exact absurd (hhd _ hw') (he ▸ lt_irrefl k)
    · rcases List.mem_cons.mp hw with he' | hw'
      · exact absurd (hhd _ hv') (he' ▸ lt_irrefl k)
      · exact ih hrest hv' hw'

theorem find?_eq_some_iff {m : SortedMap K V} {k : K} {v : V} :
    m.find? k = some v ↔ (k, v) ∈ m.entries := by
  unfold find?
  constructor
  · intro h
    obtain ⟨⟨a, w⟩, he, rfl⟩ := Option.map_eq_some_iff.mp h
    have ha : a = k := by simpa using List.find?_some he
    exact ha ▸ List.mem_of_find?_eq_some he
  · intro h
    cases hf : m.entries.find? fun e => e.1 = k with
    | none => simpa using List.find?_eq_none.mp hf _ h
    | some e =>
      obtain ⟨a, w⟩ := e
      have ha : a = k := by simpa using List.find?_some hf
      subst ha
      rw [sorted_unique m.sorted h (List.mem_of_find?_eq_some hf)]; rfl

theorem mem_keys {m : SortedMap K V} {k : K} : k ∈ m.keys ↔ ∃ v, m.find? k = some v := by
  simp only [keys, List.mem_map, find?_eq_some_iff]
  exact ⟨fun ⟨⟨_, v⟩, he, h⟩ => ⟨v, h ▸ he⟩, fun ⟨v, he⟩ => ⟨_, he, rfl⟩⟩

theorem find?_eq_none_iff {m : SortedMap K V} {k : K} : m.find? k = none ↔ k ∉ m.keys := by
  rw [mem_keys]
  cases m.find? k <;> simp

theorem nodup_keys (m : SortedMap K V) : m.keys.Nodup :=
  List.pairwise_map.mpr (m.sorted.imp fun h => ne_of_lt h)

/-- A map is determined by its lookups. -/
theorem ext_find? {m n : SortedMap K V} (h : ∀ k, m.find? k = n.find? k) : m = n := by
  have hmem : ∀ e, e ∈ m.entries ↔ e ∈ n.entries := by
    rintro ⟨k, v⟩
    rw [← find?_eq_some_iff, ← find?_eq_some_iff, h]
  have hnd : ∀ p : SortedMap K V, p.entries.Nodup := fun p =>
    p.sorted.imp fun hlt he => absurd (he ▸ hlt) (lt_irrefl _)
  have hp : m.entries.Perm n.entries := (List.perm_ext_iff_of_nodup (hnd m) (hnd n)).mpr hmem
  have he : m.entries = n.entries := hp.eq_of_pairwise
    (fun _ _ _ _ hab hba => absurd (hab.trans hba) (lt_irrefl _)) m.sorted n.sorted
  cases m; cases n; simp only at he; subst he; rfl

/-! ## Lookups after an update -/

@[simp] theorem find?_empty (k : K) : (empty : SortedMap K V).find? k = none := rfl

@[simp] theorem find?_upsert_self (m : SortedMap K V) (k : K) (f : Option V → V) :
    (m.upsert k f).find? k = some (f (m.find? k)) := by
  have aux : ∀ l : List (K × V), l.Pairwise (fun a b => a.1 < b.1) →
      ((upsertList k f l).find? fun e => e.1 = k).map Prod.snd =
        some (f ((l.find? fun e => e.1 = k).map Prod.snd)) := by
    intro l hl
    induction l with
    | nil => simp [upsertList]
    | cons hd rest ih =>
      obtain ⟨a, v⟩ := hd
      obtain ⟨hhd, hrest⟩ := List.pairwise_cons.mp hl
      simp only [upsertList]
      split
      · -- the key is smaller than every key present
        rename_i hka
        have hnone : ((a, v) :: rest).find? (fun e => decide (e.1 = k)) = none := by
          simp only [List.find?_eq_none, decide_eq_true_eq]
          intro e he hek
          rcases List.mem_cons.mp he with rfl | he
          · exact absurd hek (ne_of_gt hka)
          · exact absurd (hek ▸ hka.trans (hhd e he)) (lt_irrefl _)
        rw [hnone]; simp
      · split
        · rename_i hak
          simpa [ne_of_lt hak] using ih hrest
        · rename_i hka hak
          have he : a = k := le_antisymm (not_lt.mp hka) (not_lt.mp hak)
          simp [he]
  exact aux m.entries m.sorted

theorem find?_upsert_ne (m : SortedMap K V) {k k' : K} (f : Option V → V) (h : k' ≠ k) :
    (m.upsert k f).find? k' = m.find? k' := by
  have aux : ∀ l : List (K × V),
      (upsertList k f l).find? (fun e => e.1 = k') = l.find? fun e => e.1 = k' := by
    intro l
    induction l with
    | nil => simp [upsertList, h.symm]
    | cons hd rest ih =>
      obtain ⟨a, v⟩ := hd
      simp only [upsertList]
      split
      · simp [h.symm]
      · split
        · simp only [List.find?_cons, ih]
        · rename_i hka hak
          have he : a = k := le_antisymm (not_lt.mp hka) (not_lt.mp hak)
          simp [he, h.symm]
  exact congrArg (Option.map Prod.snd) (aux m.entries)

@[simp] theorem find?_insert_self (m : SortedMap K V) (k : K) (v : V) :
    (m.insert k v).find? k = some v := find?_upsert_self m k _

theorem find?_insert_ne (m : SortedMap K V) {k k' : K} (v : V) (h : k' ≠ k) :
    (m.insert k v).find? k' = m.find? k' := find?_upsert_ne m _ h

/-- Inserting under keys that differ. -/
theorem find?_foldl_insert {α : Type} {key : α → K} {value : α → V} (k : K) :
    ∀ (L : List α) (m : SortedMap K V), (∀ F ∈ L, ∀ G ∈ L, key F = key G → F = G) →
      (L.foldl (fun m F => m.insert (key F) (value F)) m).find? k =
        ((L.find? fun F => key F = k).map value).or (m.find? k) := by
  intro L
  induction L with
  | nil => intro m _; simp
  | cons F L ih =>
    intro m hinj
    rw [List.foldl_cons, ih _ fun G hG H hH => hinj G (List.mem_cons_of_mem _ hG) H
      (List.mem_cons_of_mem _ hH), List.find?_cons]
    by_cases hk : key F = k
    · subst hk
      simp only [decide_true, find?_insert_self]
      cases hG : L.find? fun G => key G = key F with
      | none => rfl
      | some G =>
        have hkey : key G = key F := by simpa using List.find?_some hG
        have hGl := List.mem_cons_of_mem F (List.mem_of_find?_eq_some hG)
        rw [hinj G hGl F List.mem_cons_self hkey]
        rfl
    · simp [hk, find?_insert_ne _ _ (Ne.symm hk)]

end SortedMap

end Library
