import SelfChecksumming.Network.Construct

/-! # What a constructed network guarantees

Acyclicity rests on the pool alone: a function checks only functions that stand
before it in the sensitive list. The degrees are exact because each entry of the
first loop is inverted edge by edge. The strict mode checks the entries that the
first loop made, and only these. -/
namespace SelfChecksumming
open Library

variable {Fn : Type} [LinearOrder Fn]

theorem constructProtectionNetwork_eq (network : DAGCheckersNetwork) (shuffles : Nat → Shuffle Nat)
    (sens checkers : List Fn) (c : Int32) :
    network.constructProtectionNetwork shuffles sens checkers c =
      if ∃ e ∈ (checkersOfCheckee shuffles sens checkers c).entries, Unmet network sens c e then
        .error connectivityError
      else .ok (inverted (checkersOfCheckee shuffles sens checkers c).entries .empty) :=
  invertNetwork_eq _ _ _ _ _

theorem constructProtectionNetwork_ok {network : DAGCheckersNetwork} {shuffles : Nat → Shuffle Nat}
    {sens checkers : List Fn} {c : Int32} {net : SortedMap Fn (List Fn)}
    (h : network.constructProtectionNetwork shuffles sens checkers c = .ok net) :
    net = inverted (checkersOfCheckee shuffles sens checkers c).entries .empty := by
  rw [constructProtectionNetwork_eq] at h
  split at h
  · cases h
  · exact (Except.ok.inj h).symm

/-- Where the edges of a constructed network come from. -/
theorem edge_of_constructed {network : DAGCheckersNetwork} {shuffles : Nat → Shuffle Nat}
    {sens checkers : List Fn} {c : Int32} {net : SortedMap Fn (List Fn)}
    (h : network.constructProtectionNetwork shuffles sens checkers c = .ok net) {k F : Fn}
    (he : Edge net.find? k F) :
    ∃ i, sens[i]? = some F ∧ k ∈ randomComb (shuffles i) c (pool sens checkers i) := by
  rw [constructProtectionNetwork_ok h, edge_inverted] at he
  obtain ⟨cs, hF, hk⟩ := he
  obtain ⟨i, hi, _, rfl⟩ := checkersOfCheckee_sound (SortedMap.find?_eq_some_iff.mpr hF)
  exact ⟨i, hi, hk⟩

/-! ## No cycle -/

theorem idxOf_lt_of_pool {sens checkers : List Fn} {i : Nat} {k F : Fn} (hF : sens[i]? = some F)
    (hk : k ∈ pool sens checkers i) : sens.idxOf F < sens.idxOf k := by
  obtain ⟨hi, rfl⟩ := List.getElem?_eq_some_iff.mp hF
  have hFi : sens.idxOf sens[i] ≤ i := by
    by_contra hlt
    have := List.not_of_lt_findIdx (not_le.mp hlt)
    simp at this
  by_contra hlt
  have hik : sens.idxOf k < sens.length := by omega
  apply (mem_pool.mp hk).2
  rw [List.mem_take_iff_getElem]
  exact ⟨sens.idxOf k, by omega, List.getElem_idxOf hik⟩

theorem acyclic_of_constructed {network : DAGCheckersNetwork} {shuffles : Nat → Shuffle Nat}
    {sens checkers : List Fn} {c : Int32} {net : SortedMap Fn (List Fn)}
    (h : network.constructProtectionNetwork shuffles sens checkers c = .ok net) :
    Acyclic net.find? := by
  apply acyclic_of_measure sens.idxOf
  intro k F he
  obtain ⟨i, hF, hk⟩ := edge_of_constructed h he
  exact idxOf_lt_of_pool hF (randomComb_subset hk)

/-- Whatever the lists, the connectivity and the shuffles: the network returned
has no cycle of any length, and nobody checks himself. -/
theorem constructProtectionNetwork_acyclic (network : DAGCheckersNetwork)
    (shuffles : Nat → Shuffle Nat) (sensitiveFunctions checkerFunctions : List Fn)
    (connectivity : Int32) {net : SortedMap Fn (List Fn)}
    (h : network.constructProtectionNetwork shuffles sensitiveFunctions checkerFunctions
      connectivity = .ok net) :
    Acyclic net.find? ∧ ∀ F checkees, net.find? F = some checkees → F ∉ checkees := by
  have ha := acyclic_of_constructed h
  exact ⟨ha, fun F vs hF hmem => ha F (.single ⟨vs, hF, hmem⟩)⟩

theorem constructProtectionNetwork_acyclic_overlap :
    ∃ net, DAGCheckersNetwork.constructProtectionNetwork {} (fun _ => .refl) [1, 2, 1] [1, 2, 3] 1 =
      .ok net ∧ Acyclic net.find? ∧ ∀ F checkees, net.find? F = some checkees → F ∉ checkees :=
  ⟨_, rfl, constructProtectionNetwork_acyclic {} (fun _ => .refl) [1, 2, 1] [1, 2, 3] 1 rfl⟩

/-! ## How many checkers a function gets -/

/-- The functions that check `F`. -/
def checkersOf (net : SortedMap Fn (List Fn)) (F : Fn) : List Fn :=
  (net.entries.filter fun e => F ∈ e.2).map Prod.fst

theorem mem_checkersOf {net : SortedMap Fn (List Fn)} {k F : Fn} :
    k ∈ checkersOf net F ↔ Edge net.find? k F := by
  simp only [checkersOf, List.mem_map, List.mem_filter, decide_eq_true_eq, Edge,
    SortedMap.find?_eq_some_iff]
  exact ⟨fun ⟨⟨_, vs⟩, ⟨he, hF⟩, hk⟩ => ⟨vs, hk ▸ he, hF⟩, fun ⟨vs, he, hF⟩ => ⟨_, ⟨he, hF⟩, rfl⟩⟩

theorem checkersOf_nodup (net : SortedMap Fn (List Fn)) (F : Fn) : (checkersOf net F).Nodup :=
  net.nodup_keys.sublist (List.filter_sublist.map _)

/-- Inverting keeps the checkers of every function. -/
theorem checkersOf_inverted {m : SortedMap Fn (List Fn)} {F : Fn}
    (hnd : ((m.find? F).getD []).Nodup) :
    (checkersOf (inverted m.entries .empty) F).Perm ((m.find? F).getD []) := by
  rw [List.perm_ext_iff_of_nodup (checkersOf_nodup _ _) hnd]
  intro k
  rw [mem_checkersOf, edge_inverted]
  simp only [← SortedMap.find?_eq_some_iff]
  cases m.find? F with
  | none => simp
  | some cs => simp

/-- How often `F` stands in the list of `k` after the inversion. -/
theorem count_checkeesOf (m : SortedMap Fn (List Fn)) (k F : Fn) :
    (checkeesOf m.entries k).count F = ((m.find? F).getD []).count k := by
  have aux : ∀ l : List (Fn × List Fn), l.Pairwise (fun a b => a.1 < b.1) →
      (checkeesOf l k).count F = (((l.find? fun e => e.1 = F).map Prod.snd).getD []).count k := by
    intro l hl
    induction l with
    | nil => rfl
    | cons e rest ih =>
      obtain ⟨hhd, hrest⟩ := List.pairwise_cons.mp hl
      have hc : checkeesOf (e :: rest) k =
          List.replicate (e.2.count k) e.1 ++ checkeesOf rest k := rfl
      rw [hc, List.count_append, ih hrest, List.count_replicate]
      by_cases hF : e.1 = F
      · have hnone : rest.find? (fun e => decide (e.1 = F)) = none := by
          simp only [List.find?_eq_none, decide_eq_true_eq]
          exact fun x hx he => absurd (hF ▸ he ▸ hhd x hx) (lt_irrefl _)
        simp [hF, hnone]
      · simp [hF]
  exact aux m.entries m.sorted

theorem checkersOfCheckee_getD (shuffles : Nat → Shuffle Nat) {sens : List Fn} (checkers : List Fn)
    (c : Int32) (hnd : sens.Nodup) {i : Nat} {F : Fn} (hF : sens[i]? = some F) :
    ((checkersOfCheckee shuffles sens checkers c).find? F).getD [] =
      randomComb (shuffles i) c (pool sens checkers i) := by
  by_cases hp : pool sens checkers i = []
  · cases hf : (checkersOfCheckee shuffles sens checkers c).find? F with
    | none => simp [hp, randomComb_eq, shuffled]
    | some cs =>
      obtain ⟨j, hj, hpj, _⟩ := checkersOfCheckee_sound hf
      have hij : i = j := by
        refine (List.getElem?_inj ?_ hnd).mp (hF.trans hj.symm)
        exact (List.getElem?_eq_some_iff.mp hF).1
      exact absurd (hij ▸ hp) hpj
  · rw [(checkersOfCheckee_find? hnd).mpr ⟨i, hF, hp, rfl⟩]; rfl

/-- The inverted map gives a function as many checkers as were drawn for it. -/
theorem checkersOf_length (shuffles : Nat → Shuffle Nat) {sens checkers : List Fn} {c : Int32}
    (hs : sens.Nodup) (hc : checkers.Nodup) (hn : 0 ≤ c.toInt) {i : Nat} {F : Fn}
    (hF : sens[i]? = some F) :
    (checkersOf (inverted (checkersOfCheckee shuffles sens checkers c).entries .empty) F).length =
      min c.toInt.toNat (pool sens checkers i).length := by
  have hget := checkersOfCheckee_getD shuffles checkers c hs hF
  have hnd : (randomComb (shuffles i) c (pool sens checkers i)).Nodup :=
    randomComb_nodup (pool_nodup _ hc i)
  rw [(checkersOf_inverted (hget ▸ hnd)).length_eq, hget, randomComb_length _ hn]

/-- The network with lower connectivity accepted, as the pass sets it. -/
def accepting : DAGCheckersNetwork :=
  DAGCheckersNetwork.setLowerConnectivityAcceptance {} true

theorem accepting_ok (shuffles : Nat → Shuffle Nat) (sens checkers : List Fn) (c : Int32) :
    accepting.constructProtectionNetwork shuffles sens checkers c =
      .ok (inverted (checkersOfCheckee shuffles sens checkers c).entries .empty) := by
  rw [constructProtectionNetwork_eq, if_neg]
  rintro ⟨e, _, _, _, h⟩
  cases h

/-- The first loop as it would be without its `break`. -/
def assignCheckersFull (shuffles : Nat → Shuffle Nat) (connectivity : Int32) :
    Nat → List Fn → List Fn → SortedMap Fn (List Fn) → SortedMap Fn (List Fn)
  | _, [], _, checkeeChecker => checkeeChecker
  | i, F :: rest, availableCheckers, checkeeChecker =>
    let availableCheckers := availableCheckers.filter (· ≠ F)
    assignCheckersFull shuffles connectivity (i + 1) rest availableCheckers
      (checkeeChecker.insert F (randomComb (shuffles i) connectivity availableCheckers))

/-- Equal but for entries without a checker. -/
def SameEdges (m n : SortedMap Fn (List Fn)) : Prop :=
  ∀ F cs, cs ≠ [] → (m.find? F = some cs ↔ n.find? F = some cs)

theorem SameEdges.insert {m n : SortedMap Fn (List Fn)} (h : SameEdges m n) (G : Fn)
    (ds : List Fn) : SameEdges (m.insert G ds) (n.insert G ds) := by
  intro F cs hcs
  by_cases hF : F = G
  · subst hF; simp
  · rw [SortedMap.find?_insert_ne _ _ hF, SortedMap.find?_insert_ne _ _ hF]
    exact h F cs hcs

/-- From an empty pool on, the full loop only adds empty lists. -/
theorem assignCheckersFull_nil (shuffles : Nat → Shuffle Nat) (c : Int32) {rest : List Fn} :
    ∀ (i : Nat) (m : SortedMap Fn (List Fn)), (∀ F ∈ rest, m.find? F = none) → rest.Nodup →
      SameEdges m (assignCheckersFull shuffles c i rest [] m) := by
  induction rest with
  | nil => exact fun _ _ _ _ _ _ _ => Iff.rfl
  | cons G rest ih =>
    intro i m hnone hnd F cs hcs
    obtain ⟨hG, hrest⟩ := List.nodup_cons.mp hnd
    have hnew : randomComb (shuffles i) c ([] : List Fn) = [] := by simp [randomComb_eq, shuffled]
    rw [assignCheckersFull, List.filter_nil, hnew]
    have hne : ∀ x ∈ rest, x ≠ G := fun x hx he => hG (he ▸ hx)
    rw [← ih (i + 1) (m.insert G []) (fun x hx => by
      rw [SortedMap.find?_insert_ne _ _ (hne x hx)]
      exact hnone x (List.mem_cons_of_mem _ hx)) hrest F cs hcs]
    by_cases hF : F = G
    · subst hF; simp [hnone F List.mem_cons_self, Ne.symm hcs]
    · rw [SortedMap.find?_insert_ne _ _ hF]

/-- The `break` loses no edge. -/
theorem assignCheckers_full (shuffles : Nat → Shuffle Nat) (sens : List Fn) (c : Int32) :
    ∀ (rest : List Fn), rest ⊆ sens → rest.Nodup → ∀ (i : Nat) (avail : List Fn)
      (m n : SortedMap Fn (List Fn)), SameEdges m n → (∀ F ∈ rest, n.find? F = none) →
      SameEdges (assignCheckers shuffles sens c i rest avail m)
        (assignCheckersFull shuffles c i rest avail n) := by
  intro rest
  induction rest with
  | nil => exact fun _ _ _ _ _ _ h _ => h
  | cons G rest ih =>
    intro hsub hnd i avail m n hmn hnone
    obtain ⟨hG, hrest⟩ := List.nodup_cons.mp hnd
    obtain ⟨hGs, hsub⟩ := List.cons_subset.mp hsub
    simp only [assignCheckers, hGs, not_true_eq_false, if_false]
    split
    · rename_i hempty
      intro F cs hcs
      rw [hmn F cs hcs, assignCheckersFull_nil shuffles c i n hnone hnd F cs hcs]
      simp only [assignCheckersFull, List.filter_nil, List.isEmpty_iff.mp hempty]
    · refine ih hsub hrest (i + 1) _ _ _ (hmn.insert G _) fun x hx => ?_
      have hne : x ≠ G := fun he => hG (he ▸ hx)
      rw [SortedMap.find?_insert_ne _ _ hne]
      exact hnone x (List.mem_cons_of_mem _ hx)

theorem checkeesOf_congr {m n : SortedMap Fn (List Fn)} (h : SameEdges m n) (k : Fn) :
    checkeesOf m.entries k = checkeesOf n.entries k := by
  have hdrop : ∀ l : List (Fn × List Fn),
      checkeesOf l k = checkeesOf (l.filter fun e => e.2 ≠ []) k := by
    intro l
    induction l with
    | nil => rfl
    | cons e rest ih =>
      obtain ⟨F, cs⟩ := e
      have hc : ∀ r, checkeesOf ((F, cs) :: r) k =
          List.replicate (cs.count k) F ++ checkeesOf r k := fun _ => rfl
      by_cases he : cs = []
      · subst he
        rw [List.filter_cons_of_neg (by simp), ← ih, hc]
        simp
      · rw [List.filter_cons_of_pos (by simpa using he), hc, hc, ih]
  have hsorted : ∀ p : SortedMap Fn (List Fn),
      (p.entries.filter fun e => e.2 ≠ []).Pairwise fun a b => a.1 < b.1 := fun p =>
    p.sorted.sublist List.filter_sublist
  have hm : (⟨_, hsorted m⟩ : SortedMap Fn (List Fn)) = ⟨_, hsorted n⟩ := by
    apply SortedMap.ext_find?
    intro F
    ext cs
    rw [SortedMap.find?_eq_some_iff, SortedMap.find?_eq_some_iff, List.mem_filter, List.mem_filter,
      ← SortedMap.find?_eq_some_iff, ← SortedMap.find?_eq_some_iff]
    by_cases hcs : cs = []
    · simp [hcs]
    · rw [h F cs hcs]
  rw [hdrop m.entries, hdrop n.entries]
  exact congrArg (fun p => checkeesOf p.entries k) hm

theorem inverted_congr {m n : SortedMap Fn (List Fn)} (h : SameEdges m n) :
    inverted m.entries .empty = inverted n.entries .empty := by
  apply SortedMap.ext_find?
  intro k
  ext vs
  rw [inverted_find?, inverted_find?, checkeesOf_congr h]

/-- Each sensitive function gets as many checkers as the connectivity asks for
and the pool at its turn can give, all from that pool, each with one edge; a full
loop would have returned the same network. -/
theorem constructProtectionNetwork_degrees (shuffles : Nat → Shuffle Nat)
    (sensitiveFunctions checkerFunctions : List Fn) (connectivity : Int32)
    (hs : sensitiveFunctions.Nodup) (hc : checkerFunctions.Nodup) (hn : 0 ≤ connectivity.toInt) :
    ∃ net, accepting.constructProtectionNetwork shuffles sensitiveFunctions checkerFunctions
        connectivity = .ok net ∧
      (∀ i F, sensitiveFunctions[i]? = some F →
        (checkersOf net F).Nodup ∧
        (checkersOf net F).length =
          min connectivity.toInt.toNat (pool sensitiveFunctions checkerFunctions i).length ∧
        ∀ k checkees, net.find? k = some checkees → F ∈ checkees →
          k ∈ pool sensitiveFunctions checkerFunctions i ∧ checkees.count F = 1) ∧
      (∀ k checkees, net.find? k = some checkees →
        checkees ≠ [] ∧ ∀ F ∈ checkees, F ∈ sensitiveFunctions) ∧
      net = inverted (assignCheckersFull shuffles connectivity 0 sensitiveFunctions
        checkerFunctions .empty).entries .empty := by
  refine ⟨_, accepting_ok _ _ _ _, ?_, ?_, ?_⟩
  · intro i F hF
    refine ⟨checkersOf_nodup _ _, checkersOf_length shuffles hs hc hn hF, ?_⟩
    intro k vs hk hmem
    have hcount := count_checkeesOf (checkersOfCheckee shuffles sensitiveFunctions
      checkerFunctions connectivity) k F
    rw [(inverted_find?.mp hk).2,
      checkersOfCheckee_getD shuffles checkerFunctions connectivity hs hF] at hcount
    have hk : k ∈ randomComb (shuffles i) connectivity
        (pool sensitiveFunctions checkerFunctions i) := by
      rw [← List.count_pos_iff, ← hcount, List.count_pos_iff]
      exact hmem
    have hnd : (randomComb (shuffles i) connectivity
        (pool sensitiveFunctions checkerFunctions i)).Nodup := randomComb_nodup (pool_nodup _ hc i)
    exact ⟨randomComb_subset hk, hcount.trans (List.count_eq_one_of_mem hnd hk)⟩
  · intro k vs hk
    refine ⟨(inverted_find?.mp hk).1, fun F hF => ?_⟩
    obtain ⟨i, hi, _⟩ := edge_of_constructed
      (accepting_ok shuffles sensitiveFunctions checkerFunctions connectivity) ⟨vs, hk, hF⟩
    exact List.mem_of_getElem? hi
  · exact inverted_congr (assignCheckers_full shuffles sensitiveFunctions connectivity
      sensitiveFunctions (List.Subset.refl _) hs 0 checkerFunctions .empty .empty
      (fun _ _ _ => Iff.rfl) fun _ _ => rfl)

theorem constructProtectionNetwork_degrees_overlap :
    ∃ net, accepting.constructProtectionNetwork (fun _ => .refl) [1, 2] [1, 2, 3] 2 = .ok net ∧
      (checkersOf net 1).length = 2 ∧ (checkersOf net 2).length = 1 := by
  obtain ⟨net, hnet, h, _⟩ := constructProtectionNetwork_degrees (fun _ => .refl) [1, 2] [1, 2, 3] 2
    (by decide) (by decide) (by decide)
  exact ⟨net, hnet, (h 0 1 rfl).2.1, (h 1 2 rfl).2.1⟩

/-! ## The strict mode -/

/-- The connectivity error, or as many checkers as asked for everywhere. -/
def KeepsConnectivity (network : DAGCheckersNetwork) (shuffles : Nat → Shuffle Nat)
    (sensitiveFunctions checkerFunctions : List Fn) (connectivity : Int32) : Prop :=
  network.constructProtectionNetwork shuffles sensitiveFunctions checkerFunctions connectivity =
      .error connectivityError ∨
    ∃ net, network.constructProtectionNetwork shuffles sensitiveFunctions checkerFunctions
        connectivity = .ok net ∧
      ∀ F ∈ sensitiveFunctions, (checkersOf net F).Nodup ∧
        (checkersOf net F).length = connectivity.toInt.toNat

omit [LinearOrder Fn] in
theorem unmet_strict {sens : List Fn} {c : Int32} (hc : 0 ≤ c.toInt) {e : Fn × List Fn} :
    Unmet {} sens c e ↔ e.1 ∈ sens ∧ e.2.length ≠ c.toInt.toNat := by
  simp [Unmet, toSize_of_nonneg hc]

/-- Where the pool runs dry, the last nonempty pool holds the next function alone. -/
theorem pool_last {sens checkers : List Fn} (hc : checkers.Nodup) {i : Nat}
    (hi : pool sens checkers i ≠ []) (hi' : pool sens checkers (i + 1) = []) :
    (pool sens checkers i).length = 1 := by
  have hall : ∀ k ∈ pool sens checkers i, sens[i + 1]? = some k := by
    intro k hk
    obtain ⟨hkc, hkt⟩ := mem_pool.mp hk
    have hin : k ∈ sens.take (i + 1 + 1) := by
      by_contra hout
      have := mem_pool.mpr ⟨hkc, hout⟩
      rw [hi'] at this
      cases this
    rw [List.take_add_one] at hin
    rcases List.mem_append.mp hin with h | h
    · exact absurd h hkt
    · simpa using h
  have hle : (pool sens checkers i).length ≤ 1 := by
    by_contra hlt
    have h0 := hall _ (List.getElem_mem (show 0 < (pool sens checkers i).length by omega))
    have h1 := hall _ (List.getElem_mem (show 1 < (pool sens checkers i).length by omega))
    have := ((pool_nodup sens hc i).getElem_inj_iff).mp (Option.some.inj (h0.symm.trans h1))
    omega
  have := List.length_pos_iff.mpr hi
  omega

/-- A function that found a checker has an entry, and the strict mode checked it. -/
theorem strict_entry {shuffles : Nat → Shuffle Nat} {sens checkers : List Fn} {c : Int32}
    (hs : sens.Nodup) (hc : 0 ≤ c.toInt)
    (hmet : ¬ ∃ e ∈ (checkersOfCheckee shuffles sens checkers c).entries, Unmet {} sens c e)
    {i : Nat} {F : Fn} (hF : sens[i]? = some F) (hp : pool sens checkers i ≠ []) :
    min c.toInt.toNat (pool sens checkers i).length = c.toInt.toNat := by
  by_contra hne
  apply hmet
  refine ⟨(F, randomComb (shuffles i) c (pool sens checkers i)), ?_, ?_⟩
  · exact SortedMap.find?_eq_some_iff.mp ((checkersOfCheckee_find? hs).mpr ⟨i, hF, hp, rfl⟩)
  · rw [unmet_strict hc, randomComb_length _ hc]
    exact ⟨List.mem_of_getElem? hF, hne⟩

/-- Some pool is the last nonempty one before an empty one. -/
theorem exists_last_pool {sens checkers : List Fn} (h : pool sens checkers 0 ≠ []) :
    ∀ n, pool sens checkers n = [] →
      ∃ i, i < n ∧ pool sens checkers i ≠ [] ∧ pool sens checkers (i + 1) = [] := by
  intro n hn
  induction n with
  | zero => exact absurd hn h
  | succ n ih =>
    by_cases hp : pool sens checkers n = []
    · obtain ⟨i, hi, h⟩ := ih hp
      exact ⟨i, by omega, h⟩
    · exact ⟨n, by omega, hp, hn⟩

/-- When all checkers are sensitive, the last function finds none. -/
theorem pool_last_nil {sens checkers : List Fn} (hsub : ∀ k ∈ checkers, k ∈ sens) :
    pool sens checkers (sens.length - 1) = [] := by
  rw [List.eq_nil_iff_forall_not_mem]
  intro k hk
  obtain ⟨hkc, hkt⟩ := mem_pool.mp hk
  rw [List.take_of_length_le (by omega)] at hkt
  exact hkt (hsub k hkc)

/-- Every entry has the one checker that is asked for, or there is no entry at all
because the first function is the only checker. -/
theorem met_of_single {shuffles : Nat → Shuffle Nat} {sens checkers : List Fn} {c : Int32}
    (hn : 1 ≤ c.toInt) (hsingle : 2 ≤ c.toInt → ∀ k ∈ checkers, sens.head? = some k) :
    ¬ ∃ e ∈ (checkersOfCheckee shuffles sens checkers c).entries, Unmet {} sens c e := by
  intro hex
  obtain ⟨⟨G, cs⟩, he, hu⟩ := hex
  obtain ⟨i, hi, hp, rfl⟩ := checkersOfCheckee_sound (SortedMap.find?_eq_some_iff.mpr he)
  rw [unmet_strict (by omega), randomComb_length _ (by omega)] at hu
  obtain ⟨-, hne⟩ := hu
  have hpos := List.length_pos_iff.mpr hp
  have htwo : 2 ≤ c.toInt := by omega
  obtain ⟨k, hk⟩ := List.exists_mem_of_ne_nil _ hp
  obtain ⟨hkc, hkt⟩ := mem_pool.mp hk
  have hhead := hsingle htwo k hkc
  cases sens with
  | nil => cases hhead
  | cons a l =>
    obtain rfl : a = k := Option.some.inj hhead
    exact hkt (by rw [List.take_succ_cons]; exact List.mem_cons_self)

/-- With a checker to spare, a strict run without an error never ran out of checkers. -/
theorem pool_ne_nil_of_spare {shuffles : Nat → Shuffle Nat} {sens checkers : List Fn} {c : Int32}
    (hs : sens.Nodup) (hc : checkers.Nodup) (hn : 0 ≤ c.toInt)
    (hmet : ¬ ∃ e ∈ (checkersOfCheckee shuffles sens checkers c).entries, Unmet {} sens c e)
    (hspare : (∃ k ∈ checkers, k ∉ sens) ∨
      2 ≤ c.toInt ∧ ∃ k ∈ checkers, sens.head? ≠ some k)
    {i : Nat} (hi : i < sens.length) : pool sens checkers i ≠ [] := by
  rcases hspare with ⟨k, hkc, hks⟩ | ⟨htwo, k, hkc, hhead⟩
  · exact List.ne_nil_of_mem (mem_pool.mpr ⟨hkc, fun hk => hks (List.mem_of_mem_take hk)⟩)
  · intro hnil
    have h0 : pool sens checkers 0 ≠ [] := by
      refine List.ne_nil_of_mem (mem_pool.mpr ⟨hkc, ?_⟩)
      cases sens with
      | nil => cases hi
      | cons a l => simpa [eq_comm] using hhead
    -- the last function that found a checker found one, and two were asked for
    obtain ⟨j, hj, hpj, hpj'⟩ := exists_last_pool h0 i hnil
    have hjF : sens[j]? = some sens[j] := List.getElem?_eq_getElem (by omega)
    have hlen := strict_entry hs hn hmet hjF hpj
    rw [pool_last hc hpj hpj'] at hlen
    omega

/-- The strict mode keeps its promise exactly when there is nothing to protect,
when some checker is not sensitive itself, or when at least two checkers are asked
for and the first sensitive function is not the only checker. Otherwise the first
loop stops at a function that the second one then never sees. -/
theorem keepsConnectivity_iff (shuffles : Nat → Shuffle Nat)
    (sensitiveFunctions checkerFunctions : List Fn) (connectivity : Int32)
    (hs : sensitiveFunctions.Nodup) (hc : checkerFunctions.Nodup) (hn : 1 ≤ connectivity.toInt) :
    KeepsConnectivity {} shuffles sensitiveFunctions checkerFunctions connectivity ↔
      sensitiveFunctions = [] ∨ (∃ k ∈ checkerFunctions, k ∉ sensitiveFunctions) ∨
        2 ≤ connectivity.toInt ∧ ∃ k ∈ checkerFunctions, sensitiveFunctions.head? ≠ some k := by
  have hn0 : 0 ≤ connectivity.toInt := by omega
  rw [KeepsConnectivity, constructProtectionNetwork_eq]
  constructor
  · intro h
    by_contra hno
    simp only [not_or, not_exists, not_and, not_not] at hno
    obtain ⟨hne, hsub, hsingle⟩ := hno
    rw [if_neg (met_of_single hn hsingle)] at h
    obtain ⟨net, hnet, hall⟩ := h.resolve_left (by simp)
    -- the last function has no checker left
    have hpos := List.length_pos_iff.mpr hne
    have hlast : sensitiveFunctions[sensitiveFunctions.length - 1]? =
        some sensitiveFunctions[sensitiveFunctions.length - 1] :=
      List.getElem?_eq_getElem (by omega)
    have hlen := (hall _ (List.mem_of_getElem? hlast)).2
    rw [← Except.ok.inj hnet, checkersOf_length shuffles hs hc hn0 hlast, pool_last_nil hsub,
      List.length_nil] at hlen
    omega
  · intro h
    by_cases hu : ∃ e ∈ (checkersOfCheckee shuffles sensitiveFunctions checkerFunctions
        connectivity).entries, Unmet {} sensitiveFunctions connectivity e
    · rw [if_pos hu]
      exact .inl rfl
    · rw [if_neg hu]
      refine .inr ⟨_, rfl, fun F hF => ⟨checkersOf_nodup _ _, ?_⟩⟩
      obtain ⟨i, hlt, hi⟩ := List.getElem_of_mem hF
      have hiF : sensitiveFunctions[i]? = some F := by
        rw [← hi]
        exact List.getElem?_eq_getElem hlt
      have hspare := h.resolve_left (List.ne_nil_of_mem hF)
      rw [checkersOf_length shuffles hs hc hn0 hiF]
      exact strict_entry hs hn0 hu hiF (pool_ne_nil_of_spare hs hc hn0 hu hspare hlt)

theorem keepsConnectivity_iff_spare :
    KeepsConnectivity {} (fun _ => .refl) [1, 2] [1, 2, 3] 1 ∧
      ¬ KeepsConnectivity {} (fun _ => .refl) [1, 2] [2, 1] 1 := by
  rw [keepsConnectivity_iff (fun _ => .refl) [1, 2] [1, 2, 3] 1 (by decide) (by decide) (by decide),
    keepsConnectivity_iff (fun _ => .refl) [1, 2] [2, 1] 1 (by decide) (by decide) (by decide)]
  decide

/-- The second function is left without a checker, and no error is raised. -/
theorem strict_mode_misses_last : ([1, 2] : List Nat).Nodup ∧ 1 ≤ (1 : Int32).toInt ∧
    ¬ KeepsConnectivity {} (fun _ => .refl) [1, 2] [1, 2] 1 := by
  refine ⟨by decide, by decide, ?_⟩
  rintro (h | ⟨net, hnet, hall⟩)
  · cases h
  · cases hnet
    exact absurd (hall 2 (by decide)).2 (by decide)

end SelfChecksumming
