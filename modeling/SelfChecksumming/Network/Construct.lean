import SelfChecksumming.Library.DepthFirst
import SelfChecksumming.Library.SortedMap
import SelfChecksumming.Outcome
import Mathlib.Algebra.Group.Int.Defs
import Mathlib.Data.List.Basic
import Mathlib.Data.List.Nodup
import Mathlib.Data.List.NodupEquivFin

/-! # The network of checkers

`constructProtectionNetwork` first gives every sensitive function its checkers
from a shrinking pool, then turns checkee-to-checkers into
checker-to-checkees. `Fn` is the type of `Function *`; its order is the one
`std::map` iterates in. -/
namespace SelfChecksumming
open Library

/-- `std::shuffle` with some engine: any permutation of its argument. -/
structure Shuffle (α : Type) where
  order : List α → List α
  perm : ∀ l, (order l).Perm l

/-- The shuffle that leaves everything in place. -/
def Shuffle.refl {α : Type} : Shuffle α := ⟨id, List.Perm.refl⟩

/-- What an `int` becomes when it is compared with a `size_t`. -/
def toSize (i : Int32) : Nat := (i.toInt % 2 ^ 64).toNat

/-! ## Random choices -/

variable {Fn : Type}

def randomComb (shuffle : Shuffle Nat) (connectivity : Int32) (allFunctions : List Fn) : List Fn :=
  let indices := shuffle.order (List.range allFunctions.length)
  let connectivity :=
    if toSize connectivity > allFunctions.length then .ofNat allFunctions.length else connectivity
  (indices.take connectivity.toInt.toNat).filterMap fun i => allFunctions[i]?

/-- The functions in the order of the shuffled indices. -/
def shuffled (shuffle : Shuffle Nat) (fs : List Fn) : List Fn :=
  (shuffle.order (List.range fs.length)).filterMap fun i => fs[i]?

theorem filterMap_getElem?_range (fs : List Fn) :
    ((List.range fs.length).filterMap fun i => fs[i]?) = fs := by
  induction fs with
  | nil => rfl
  | cons f fs ih =>
    rw [List.length_cons, List.range_succ_eq_map]
    simpa [List.filterMap_map, Function.comp_def] using ih

theorem shuffled_perm (shuffle : Shuffle Nat) (fs : List Fn) : (shuffled shuffle fs).Perm fs := by
  have h := (shuffle.perm (List.range fs.length)).filterMap fun i => fs[i]?
  rwa [filterMap_getElem?_range] at h

theorem filterMap_take {α β : Type} {f : α → Option β} {l : List α} (n : Nat)
    (h : ∀ a ∈ l, (f a).isSome) : (l.take n).filterMap f = (l.filterMap f).take n := by
  induction l generalizing n with
  | nil => simp
  | cons a l ih =>
    obtain ⟨b, hb⟩ := Option.isSome_iff_exists.mp (h a List.mem_cons_self)
    cases n with
    | zero => rfl
    | succ n =>
      rw [List.take_succ_cons, List.filterMap_cons_some hb, List.filterMap_cons_some hb,
        List.take_succ_cons, ih n fun x hx => h x (List.mem_cons_of_mem _ hx)]

theorem toSize_of_nonneg {c : Int32} (h : 0 ≤ c.toInt) : toSize c = c.toInt.toNat := by
  have hlt : c.toInt < 2 ^ 31 := c.toInt_lt
  unfold toSize
  rw [Int.emod_eq_of_lt h (by omega)]

/-- The clamped loop bound of `randomComb`. -/
def clamp (c : Int32) (size : Nat) : Nat :=
  (if toSize c > size then .ofNat size else c : Int32).toInt.toNat

theorem clamp_of_nonneg {c : Int32} (h : 0 ≤ c.toInt) (size : Nat) :
    clamp c size = min c.toInt.toNat size := by
  have hlt : c.toInt < 2 ^ 31 := c.toInt_lt
  unfold clamp
  rw [toSize_of_nonneg h]
  by_cases hsize : c.toInt.toNat > size
  · rw [if_pos hsize, Int32.toInt_ofNat_of_lt (by omega)]
    omega
  · rw [if_neg hsize]
    omega

theorem randomComb_eq (shuffle : Shuffle Nat) (c : Int32) (fs : List Fn) :
    randomComb shuffle c fs = (shuffled shuffle fs).take (clamp c fs.length) := by
  refine filterMap_take _ fun i hi => ?_
  have hlt : i < fs.length := by simpa using (shuffle.perm _).mem_iff.mp hi
  simp [hlt]

theorem randomComb_subset {shuffle : Shuffle Nat} {c : Int32} {fs : List Fn} {f : Fn}
    (h : f ∈ randomComb shuffle c fs) : f ∈ fs := by
  rw [randomComb_eq] at h
  exact (shuffled_perm shuffle fs).mem_iff.mp (List.mem_of_mem_take h)

theorem randomComb_nodup {shuffle : Shuffle Nat} {c : Int32} {fs : List Fn} (h : fs.Nodup) :
    (randomComb shuffle c fs).Nodup := by
  rw [randomComb_eq]
  exact ((shuffled_perm shuffle fs).nodup_iff.mpr h).sublist (List.take_sublist _ _)

theorem randomComb_length (shuffle : Shuffle Nat) {c : Int32} (h : 0 ≤ c.toInt) (fs : List Fn) :
    (randomComb shuffle c fs).length = min c.toInt.toNat fs.length := by
  rw [randomComb_eq, List.length_take, (shuffled_perm shuffle fs).length_eq, clamp_of_nonneg h]
  omega

/-! ## The two loops -/

variable [LinearOrder Fn]

structure DAGCheckersNetwork where
  acceptLowerConnectivity : Bool := false

def DAGCheckersNetwork.setLowerConnectivityAcceptance (_ : DAGCheckersNetwork) (value : Bool) :
    DAGCheckersNetwork := ⟨value⟩

/-- The first loop. `i` counts the iterations, each with its own shuffle;
`availableCheckers` shrinks and is never refilled. -/
def assignCheckers (shuffles : Nat → Shuffle Nat) (sensitiveFunctions : List Fn)
    (connectivity : Int32) : Nat → List Fn → List Fn → SortedMap Fn (List Fn) →
    SortedMap Fn (List Fn)
  | _, [], _, checkeeChecker => checkeeChecker
  | i, F :: rest, availableCheckers, checkeeChecker =>
    let availableCheckers := availableCheckers.filter (· ≠ F)
    if availableCheckers.isEmpty then checkeeChecker
    else
      let c := if F ∉ sensitiveFunctions then 0 else connectivity
      assignCheckers shuffles sensitiveFunctions connectivity (i + 1) rest availableCheckers
        (checkeeChecker.insert F (randomComb (shuffles i) c availableCheckers))

def connectivityError : Fault :=
  .exit "DAGCheckersNetwork: connectivity level is not preserved for sensitive functions\n"

/-- `checkerCheckee[checker].push_back(checkee)` -/
def pushCheckee (checkerCheckee : SortedMap Fn (List Fn)) (checker checkee : Fn) :
    SortedMap Fn (List Fn) :=
  checkerCheckee.upsert checker fun checkees => checkees.getD [] ++ [checkee]

/-- The second loop, over the entries of `checkeeChecker`. -/
def invertNetwork (network : DAGCheckersNetwork) (sensitiveFunctions : List Fn)
    (connectivity : Int32) : List (Fn × List Fn) → SortedMap Fn (List Fn) →
    Except Fault (SortedMap Fn (List Fn))
  | [], checkerCheckee => .ok checkerCheckee
  | (checkee, checkers) :: rest, checkerCheckee =>
    if checkee ∈ sensitiveFunctions ∧ checkers.length ≠ toSize connectivity ∧
        network.acceptLowerConnectivity = false then
      .error connectivityError
    else
      invertNetwork network sensitiveFunctions connectivity rest
        (checkers.foldl (fun m checker => pushCheckee m checker checkee) checkerCheckee)

def DAGCheckersNetwork.constructProtectionNetwork (network : DAGCheckersNetwork)
    (shuffles : Nat → Shuffle Nat) (sensitiveFunctions checkerFunctions : List Fn)
    (connectivity : Int32) : Except Fault (SortedMap Fn (List Fn)) :=
  let checkeeChecker :=
    assignCheckers shuffles sensitiveFunctions connectivity 0 sensitiveFunctions checkerFunctions
      .empty
  invertNetwork network sensitiveFunctions connectivity checkeeChecker.entries .empty

/-! ## What the first loop assigns -/

/-- The checkers that are not among `removed`. -/
def remaining (checkerFunctions removed : List Fn) : List Fn :=
  checkerFunctions.filter (· ∉ removed)

/-- The checkers left once the first `i + 1` sensitive functions are removed. -/
def pool (sensitiveFunctions checkerFunctions : List Fn) (i : Nat) : List Fn :=
  remaining checkerFunctions (sensitiveFunctions.take (i + 1))

theorem mem_pool {sens checkers : List Fn} {i : Nat} {f : Fn} :
    f ∈ pool sens checkers i ↔ f ∈ checkers ∧ f ∉ sens.take (i + 1) := by
  simp [pool, remaining]

theorem pool_nodup {checkers : List Fn} (sens : List Fn) (h : checkers.Nodup) (i : Nat) :
    (pool sens checkers i).Nodup := h.filter _

theorem pool_eq_nil_of_le {sens checkers : List Fn} {i j : Nat} (hij : i ≤ j)
    (h : pool sens checkers i = []) : pool sens checkers j = [] := by
  rw [List.eq_nil_iff_forall_not_mem] at h ⊢
  intro f hf
  rw [mem_pool] at hf
  have hsub : (sens.take (i + 1)).Sublist (sens.take (j + 1)) :=
    List.take_sublist_take_left (by omega)
  exact h f (mem_pool.mpr ⟨hf.1, fun hi => hf.2 (hsub.subset hi)⟩)

theorem remaining_filter (checkers removed : List Fn) (F : Fn) :
    (remaining checkers removed).filter (· ≠ F) = remaining checkers (removed ++ [F]) := by
  rw [remaining, remaining, List.filter_filter]
  exact List.filter_congr fun x _ => by simp [and_comm]

theorem pool_length {sens done rest : List Fn} {F : Fn} (h : sens = done ++ F :: rest)
    (checkers : List Fn) : pool sens checkers done.length = remaining checkers (done ++ [F]) := by
  have ht : sens.take (done.length + 1) = done ++ [F] := by
    rw [h, List.take_append, List.take_of_length_le (by omega)]
    simp
  rw [pool, ht]

/-- One iteration, with the pool it sees. -/
theorem assignCheckers_cons {sens done rest : List Fn} {F : Fn} (h : sens = done ++ F :: rest)
    (shuffles : Nat → Shuffle Nat) (c : Int32) (checkers : List Fn) (m : SortedMap Fn (List Fn)) :
    assignCheckers shuffles sens c done.length (F :: rest) (remaining checkers done) m =
      if pool sens checkers done.length = [] then m
      else assignCheckers shuffles sens c (done ++ [F]).length rest
        (remaining checkers (done ++ [F]))
        (m.insert F (randomComb (shuffles done.length) c (pool sens checkers done.length))) := by
  have hF : F ∈ sens := by simp [h]
  rw [assignCheckers]
  simp only [remaining_filter, ← pool_length h, List.isEmpty_iff, hF, not_true_eq_false, if_false,
    List.length_append, List.length_singleton]

theorem assignCheckers_find?_of_notMem {shuffles : Nat → Shuffle Nat} {sens : List Fn} {c : Int32}
    {rest : List Fn} {F : Fn} (h : F ∉ rest) :
    ∀ (i : Nat) (avail : List Fn) (m : SortedMap Fn (List Fn)),
      (assignCheckers shuffles sens c i rest avail m).find? F = m.find? F := by
  induction rest with
  | nil => intros; rfl
  | cons G rest ih =>
    intro i avail m
    obtain ⟨hne, hrest⟩ := not_or.mp (List.mem_cons.not.mp h)
    simp only [assignCheckers]
    split
    · rfl
    · rw [ih hrest, SortedMap.find?_insert_ne _ _ hne]

/-- Whatever an entry holds was drawn from the pool at one of its positions. -/
theorem assignCheckers_sound (shuffles : Nat → Shuffle Nat) (c : Int32) {sens : List Fn}
    {checkers : List Fn} : ∀ (rest done : List Fn) (m : SortedMap Fn (List Fn)),
      sens = done ++ rest → ∀ F cs,
      (assignCheckers shuffles sens c done.length rest (remaining checkers done) m).find? F =
        some cs →
      m.find? F = some cs ∨ ∃ i, sens[i]? = some F ∧ pool sens checkers i ≠ [] ∧
        cs = randomComb (shuffles i) c (pool sens checkers i) := by
  intro rest
  induction rest with
  | nil => intro done m _ F cs h; exact .inl h
  | cons G rest ih =>
    intro done m hs F cs h
    rw [assignCheckers_cons hs] at h
    split at h
    · exact .inl h
    · rename_i hpool
      rcases ih (done ++ [G]) _ (by simp [hs]) F cs h with h | h
      · by_cases hF : F = G
        · subst hF
          rw [SortedMap.find?_insert_self] at h
          exact .inr ⟨done.length, by simp [hs], hpool, (Option.some.inj h).symm⟩
        · rw [SortedMap.find?_insert_ne _ _ hF] at h
          exact .inl h
      · exact .inr h

/-- Without duplicates, every function that finds a checker available is given its share. -/
theorem assignCheckers_complete (shuffles : Nat → Shuffle Nat) (c : Int32) {sens : List Fn}
    {checkers : List Fn} (hnd : sens.Nodup) :
    ∀ (rest done : List Fn) (m : SortedMap Fn (List Fn)), sens = done ++ rest →
      ∀ i F, done.length ≤ i → sens[i]? = some F → pool sens checkers i ≠ [] →
      (assignCheckers shuffles sens c done.length rest (remaining checkers done) m).find? F =
        some (randomComb (shuffles i) c (pool sens checkers i)) := by
  intro rest
  induction rest with
  | nil =>
    intro done m hs i F hi hF _
    rw [hs, List.append_nil, List.getElem?_eq_none hi] at hF
    cases hF
  | cons G rest ih =>
    intro done m hs i F hi hF hpool
    rw [assignCheckers_cons hs, if_neg fun he => hpool (pool_eq_nil_of_le hi he)]
    rcases Nat.eq_or_lt_of_le hi with he | hlt
    · -- the function's own turn; it does not come up again
      subst he
      obtain rfl : G = F := by simpa [hs] using hF
      have hG : G ∉ rest := by
        rw [hs] at hnd
        exact (List.nodup_cons.mp (List.nodup_append.mp hnd).2.1).1
      rw [assignCheckers_find?_of_notMem hG, SortedMap.find?_insert_self]
    · exact ih (done ++ [G]) _ (by simp [hs]) i F (by rw [List.length_append]; exact hlt) hF hpool

/-- The map the first loop ends with. -/
def checkersOfCheckee (shuffles : Nat → Shuffle Nat) (sensitiveFunctions checkerFunctions : List Fn)
    (connectivity : Int32) : SortedMap Fn (List Fn) :=
  assignCheckers shuffles sensitiveFunctions connectivity 0 sensitiveFunctions checkerFunctions
    .empty

theorem checkersOfCheckee_sound {shuffles : Nat → Shuffle Nat} {sens checkers : List Fn} {c : Int32}
    {F : Fn} {cs : List Fn} (h : (checkersOfCheckee shuffles sens checkers c).find? F = some cs) :
    ∃ i, sens[i]? = some F ∧ pool sens checkers i ≠ [] ∧
      cs = randomComb (shuffles i) c (pool sens checkers i) := by
  have hr : remaining checkers [] = checkers := by simp [remaining]
  have := assignCheckers_sound shuffles c sens [] .empty rfl F cs (by rw [hr]; exact h)
  simpa using this

theorem checkersOfCheckee_find? {shuffles : Nat → Shuffle Nat} {sens checkers : List Fn} {c : Int32}
    (hnd : sens.Nodup) {F : Fn} {cs : List Fn} :
    (checkersOfCheckee shuffles sens checkers c).find? F = some cs ↔
      ∃ i, sens[i]? = some F ∧ pool sens checkers i ≠ [] ∧
        cs = randomComb (shuffles i) c (pool sens checkers i) := by
  refine ⟨checkersOfCheckee_sound, ?_⟩
  rintro ⟨i, hF, hpool, rfl⟩
  have hr : remaining checkers [] = checkers := by simp [remaining]
  have := assignCheckers_complete shuffles c hnd sens [] .empty rfl i F
    (Nat.zero_le i) hF hpool
  rwa [hr] at this

/-! ## What the second loop returns -/

/-- An entry at which the strict mode gives up. -/
def Unmet (network : DAGCheckersNetwork) (sensitiveFunctions : List Fn) (connectivity : Int32)
    (e : Fn × List Fn) : Prop :=
  e.1 ∈ sensitiveFunctions ∧ e.2.length ≠ toSize connectivity ∧
    network.acceptLowerConnectivity = false

instance (network : DAGCheckersNetwork) (sens : List Fn) (c : Int32) (e : Fn × List Fn) :
    Decidable (Unmet network sens c e) := inferInstanceAs (Decidable (_ ∧ _ ∧ _))

/-- The second loop without its check. -/
def inverted (entries : List (Fn × List Fn)) (m : SortedMap Fn (List Fn)) :
    SortedMap Fn (List Fn) :=
  entries.foldl (fun m e => e.2.foldl (fun m checker => pushCheckee m checker e.1) m) m

theorem invertNetwork_eq (network : DAGCheckersNetwork) (sens : List Fn) (c : Int32)
    (entries : List (Fn × List Fn)) (m : SortedMap Fn (List Fn)) :
    invertNetwork network sens c entries m =
      if ∃ e ∈ entries, Unmet network sens c e then .error connectivityError
      else .ok (inverted entries m) := by
  induction entries generalizing m with
  | nil => simp [invertNetwork, inverted]
  | cons e rest ih =>
    obtain ⟨checkee, checkers⟩ := e
    rw [invertNetwork]
    by_cases hu : Unmet network sens c (checkee, checkers)
    · have hex : ∃ e ∈ (checkee, checkers) :: rest, Unmet network sens c e :=
        ⟨_, List.mem_cons_self, hu⟩
      rw [if_pos hex]
      exact if_pos hu
    · simp only [List.mem_cons, exists_eq_or_imp, hu, false_or]
      exact (if_neg hu).trans (ih _)

/-- The checkees that `k` is given, in the order of the entries. -/
def checkeesOf (entries : List (Fn × List Fn)) (k : Fn) : List Fn :=
  entries.flatMap fun e => List.replicate (e.2.count k) e.1

theorem mem_checkeesOf {entries : List (Fn × List Fn)} {k F : Fn} :
    F ∈ checkeesOf entries k ↔ ∃ cs, (F, cs) ∈ entries ∧ k ∈ cs := by
  simp only [checkeesOf, List.mem_flatMap, List.mem_replicate, ne_eq, List.count_eq_zero, not_not]
  exact ⟨fun ⟨⟨_, cs⟩, he, hk, hF⟩ => ⟨cs, hF ▸ he, hk⟩, fun ⟨cs, he, hk⟩ => ⟨_, he, hk, rfl⟩⟩

theorem pushCheckee_find? (m : SortedMap Fn (List Fn)) (checker checkee k : Fn) :
    ((pushCheckee m checker checkee).find? k).getD [] =
      (m.find? k).getD [] ++ if k = checker then [checkee] else [] := by
  unfold pushCheckee
  by_cases h : k = checker
  · subst h; simp
  · simp [SortedMap.find?_upsert_ne m _ h, h]

theorem pushAll_find? (checkee k : Fn) (checkers : List Fn) (m : SortedMap Fn (List Fn)) :
    ((checkers.foldl (fun m checker => pushCheckee m checker checkee) m).find? k).getD [] =
      (m.find? k).getD [] ++ List.replicate (checkers.count k) checkee := by
  induction checkers generalizing m with
  | nil => simp
  | cons c checkers ih =>
    rw [List.foldl_cons, ih, pushCheckee_find?, List.append_assoc]
    by_cases h : k = c
    · subst h; simp [List.replicate_succ]
    · simp [h, Ne.symm h]

theorem inverted_find?_getD (entries : List (Fn × List Fn)) (k : Fn) (m : SortedMap Fn (List Fn)) :
    ((inverted entries m).find? k).getD [] = (m.find? k).getD [] ++ checkeesOf entries k := by
  induction entries generalizing m with
  | nil => simp [inverted, checkeesOf]
  | cons e rest ih =>
    have hc : inverted (e :: rest) m =
        inverted rest (e.2.foldl (fun m checker => pushCheckee m checker e.1) m) := rfl
    rw [hc, ih, pushAll_find?, List.append_assoc]
    rfl

/-- Every key has something to check. -/
def NoEmptyList (m : SortedMap Fn (List Fn)) : Prop := ∀ k vs, m.find? k = some vs → vs ≠ []

theorem NoEmptyList.pushCheckee {m : SortedMap Fn (List Fn)} (h : NoEmptyList m)
    (checker checkee : Fn) : NoEmptyList (pushCheckee m checker checkee) := by
  intro k vs hk
  by_cases he : k = checker
  · subst he
    rw [SelfChecksumming.pushCheckee, SortedMap.find?_upsert_self] at hk
    rw [← Option.some.inj hk]
    simp
  · rw [SelfChecksumming.pushCheckee, SortedMap.find?_upsert_ne m _ he] at hk
    exact h k vs hk

theorem NoEmptyList.inverted {m : SortedMap Fn (List Fn)} (h : NoEmptyList m)
    (entries : List (Fn × List Fn)) : NoEmptyList (inverted entries m) := by
  have hpush : ∀ (checkers : List Fn) (checkee : Fn) (m : SortedMap Fn (List Fn)), NoEmptyList m →
      NoEmptyList
        (checkers.foldl (fun m checker => SelfChecksumming.pushCheckee m checker checkee) m) := by
    intro checkers checkee
    induction checkers with
    | nil => exact fun _ h => h
    | cons c checkers ih => exact fun m h => ih _ (h.pushCheckee c checkee)
  induction entries generalizing m with
  | nil => exact h
  | cons e rest ih => exact ih (hpush e.2 e.1 m h)

theorem noEmptyList_inverted (entries : List (Fn × List Fn)) :
    NoEmptyList (inverted entries .empty) :=
  NoEmptyList.inverted (fun k vs h => by simp at h) entries

/-- The list of `k`, when there is one. -/
theorem inverted_find? {entries : List (Fn × List Fn)} {k : Fn} {vs : List Fn} :
    (inverted entries .empty).find? k = some vs ↔ vs ≠ [] ∧ checkeesOf entries k = vs := by
  have hg := inverted_find?_getD entries k .empty
  rw [SortedMap.find?_empty, Option.getD_none, List.nil_append] at hg
  constructor
  · intro h
    rw [h] at hg
    exact ⟨noEmptyList_inverted entries k vs h, hg.symm⟩
  · rintro ⟨hne, hvs⟩
    cases h : (inverted entries .empty).find? k with
    | none => rw [h] at hg; exact absurd (hvs.symm.trans hg.symm) hne
    | some ws => rw [h] at hg; exact congrArg some (hg.trans hvs)

theorem inverted_find?_eq_none {entries : List (Fn × List Fn)} {k : Fn}
    (h : checkeesOf entries k = []) : (inverted entries .empty).find? k = none := by
  rw [Option.eq_none_iff_forall_ne_some]
  intro vs hvs
  obtain ⟨hne, rfl⟩ := inverted_find?.mp hvs
  exact hne h

/-- An edge of the returned network, from checker to checkee. -/
theorem edge_inverted {entries : List (Fn × List Fn)} {k F : Fn} :
    Edge (inverted entries .empty).find? k F ↔ ∃ cs, (F, cs) ∈ entries ∧ k ∈ cs := by
  rw [← mem_checkeesOf]
  constructor
  · rintro ⟨vs, hk, hF⟩
    rw [(inverted_find?.mp hk).2]
    exact hF
  · intro hF
    exact ⟨_, inverted_find?.mpr ⟨List.ne_nil_of_mem hF, rfl⟩, hF⟩

end SelfChecksumming
