import SelfChecksumming.Network.JsonRoundtrip
import SelfChecksumming.Network.NodeNetwork
import SelfChecksumming.Pass.Run

/-! # The other dumper

`CheckersNetwork` dumps in its own way: it does not skip a checker that is null, and it
lists a function in "allCheckees" as often as it is checked. Either class loads the files
of the other, since `loadJson` reads neither. -/
namespace SelfChecksumming
open Library

variable {Fn : Type} [LinearOrder Fn] [OrderBot Fn]

namespace CheckersNetwork

/-! ## dumpJson, loadJson -/

/-- The members of `j` while the map is dumped. -/
structure Dump where
  allCheckees : List Json := []
  map : Option (SortedMap String (List Json)) := none

def dumpCheckee (M : Module Fn) (checker : Fn) (d : Dump) (checkee : Fn) : Except Fault Dump :=
  if checkee = ⊥ then .error nullName
  else
    let name := Json.str (M.getName checkee)
    let map := (d.map.getD .empty).upsert (M.getName checker) fun xs => xs.getD [] ++ [name]
    .ok ⟨d.allCheckees ++ [name], some map⟩

def dumpChecker (M : Module Fn) (d : Dump) (checker : Fn × List Fn) : Except Fault Dump :=
  if checker.1 = ⊥ then .error nullName
  else
    checker.2.foldlM (dumpCheckee M checker.1)
      { d with map := some ((d.map.getD .empty).insert (M.getName checker.1) []) }

def dumpJson (M : Module Fn) (checkerToCheckee : SortedMap Fn (List Fn))
    (reverseTopologicalSort : List Fn) : Except Fault Json :=
  match checkerToCheckee.entries.foldlM (dumpChecker M) {} with
  | .error fault => .error fault
  | .ok d =>
    match reverseTopologicalSort.foldlM (dumpSort M) [] with
    | .error fault => .error fault
    | .ok names =>
      .ok (.obj ([("allCheckees", .arr d.allCheckees)] ++
        (d.map.map fun map => ("map", .obj (arrays map))).toList ++
        [("topologicalsort", .arr names)]))

/-- The text is that of the other class. -/
def loadJson (M : Module Fn) (file : NetworkFile) :
    Except Fault (SortedMap Fn (List Fn) × List Fn) :=
  SelfChecksumming.loadJson M file

/-! ## What it needs -/

theorem dumpCheckee_returns (M : Module Fn) (checker : Fn) (d : Dump) (checkee : Fn) :
    (∃ d', dumpCheckee M checker d checkee = .ok d') ↔ checkee ≠ ⊥ := by
  unfold dumpCheckee
  by_cases h : checkee = ⊥ <;> simp [h]

theorem dumpChecker_returns (M : Module Fn) (d : Dump) (checker : Fn × List Fn) :
    (∃ d', dumpChecker M d checker = .ok d') ↔ checker.1 ≠ ⊥ ∧ ∀ F ∈ checker.2, F ≠ ⊥ := by
  unfold dumpChecker
  by_cases h : checker.1 = ⊥
  · simp [h]
  · rw [if_neg h, foldlM_returns_iff (dumpCheckee_returns M checker.1)]
    simp [h]

theorem dumpSort_returns (M : Module Fn) (names : List Json) (checker : Fn) :
    (∃ names', dumpSort M names checker = .ok names') ↔ checker ≠ ⊥ := by
  unfold dumpSort
  by_cases h : checker = ⊥ <;> simp [h]

/-! ## The dumps agree -/

/-- The two states after the checkees `Fs`. -/
structure Agree (M : Module Fn) (Fs : List Fn) (d : Dump) (d' : SelfChecksumming.Dump Fn) :
    Prop where
  map : d'.map = d.map
  all : d.allCheckees = Fs.map (shown M)
  synced : d'.Synced M
  unique : d'.uniqueCheckees = Fs.foldl pushNew []

theorem Agree.checkee {M : Module Fn} {checker F : Fn} {Fs : List Fn} {d d₁ : Dump}
    {d' : SelfChecksumming.Dump Fn} (h : Agree M Fs d d') (hd : dumpCheckee M checker d F = .ok d₁) :
    ∃ d₁', SelfChecksumming.dumpCheckee M checker d' F = .ok d₁' ∧ Agree M (Fs ++ [F]) d₁ d₁' := by
  have hF : F ≠ ⊥ := (dumpCheckee_returns M checker d F).mp ⟨d₁, hd⟩
  rw [dumpCheckee, if_neg hF] at hd
  cases hd
  have hall : ∀ Gs : List Fn, Gs.map (shown M) ++ [shown M F] = (Gs ++ [F]).map (shown M) := by simp
  have hfold : (Fs ++ [F]).foldl pushNew [] = pushNew d'.uniqueCheckees F := by
    rw [List.foldl_append, h.unique]
    rfl
  rw [SelfChecksumming.dumpCheckee, if_neg hF, h.map]
  by_cases hmem : F ∈ d'.uniqueCheckees
  · rw [if_pos hmem]
    refine ⟨_, rfl, rfl, ?_, h.synced, ?_⟩
    · exact h.all ▸ hall Fs
    · rw [hfold, pushNew, if_pos hmem]
  · rw [if_neg hmem]
    refine ⟨_, rfl, rfl, ?_, ?_, ?_⟩
    · exact h.all ▸ hall Fs
    · exact Eq.trans (congrArg (· ++ [shown M F]) h.synced) (hall _)
    · rw [hfold, pushNew, if_neg hmem]

theorem Agree.checker {M : Module Fn} {e : Fn × List Fn} {Fs : List Fn} {d d₁ : Dump}
    {d' : SelfChecksumming.Dump Fn} (h : Agree M Fs d d') (hd : dumpChecker M d e = .ok d₁) :
    ∃ d₁', SelfChecksumming.dumpChecker M d' e = .ok d₁' ∧ Agree M (Fs ++ e.2) d₁ d₁' := by
  have hk : e.1 ≠ ⊥ := ((dumpChecker_returns M d e).mp ⟨d₁, hd⟩).1
  rw [dumpChecker, if_neg hk] at hd
  rw [SelfChecksumming.dumpChecker, if_neg hk, h.map]
  have hstart : Agree M (Fs ++ [])
      { d with map := some ((d.map.getD .empty).insert (M.getName e.1) []) }
      { d' with map := some ((d.map.getD .empty).insert (M.getName e.1) []) } := by
    rw [List.append_nil]
    exact ⟨rfl, h.all, h.synced, h.unique⟩
  refine foldlM_lockstep (fun done => Agree M (Fs ++ done)) (fun done F d d₁ d' h hd => ?_) e.2 []
    hstart hd
  rw [← List.append_assoc]
  exact h.checkee hd

theorem Agree.checkers {M : Module Fn} {entries : List (Fn × List Fn)} {d : Dump}
    (hd : entries.foldlM (dumpChecker M) {} = .ok d) :
    ∃ d', entries.foldlM (SelfChecksumming.dumpChecker M) {} = .ok d' ∧
      Agree M (entries.flatMap Prod.snd) d d' := by
  refine foldlM_lockstep (fun done => Agree M (done.flatMap Prod.snd))
    (fun done e d d₁ d' h hd => ?_) entries [] ⟨rfl, rfl, rfl, rfl⟩ hd
  rw [List.flatMap_append, List.flatMap_singleton]
  exact h.checker hd

/-- A file is loaded from two of its members. -/
theorem loadJson_congr {j j' : Json} (M : Module Fn)
    (hsort : j.member "topologicalsort" = j'.member "topologicalsort")
    (hmap : j.member "map" = j'.member "map") :
    SelfChecksumming.loadJson M (.parsed j) = SelfChecksumming.loadJson M (.parsed j') := by
  have hload : loadChecker M j = loadChecker M j' := by
    funext loaded checker
    simp only [loadChecker, hmap]
  simp only [SelfChecksumming.loadJson, hsort, hload]

/-- This dump works if and only if no pointer is null. -/
theorem dumpJson_returns {M : Module Fn} {net : SortedMap Fn (List Fn)} {L : List Fn} :
    (∃ j, dumpJson M net L = .ok j) ↔
      (∀ e ∈ net.entries, e.1 ≠ ⊥ ∧ ∀ F ∈ e.2, F ≠ ⊥) ∧ ∀ F ∈ L, F ≠ ⊥ := by
  rw [← foldlM_returns_iff (dumpChecker_returns M) net.entries {},
    ← foldlM_returns_iff (dumpSort_returns M) L []]
  unfold dumpJson
  cases net.entries.foldlM (dumpChecker M) {} with
  | error fault => simp
  | ok d => cases L.foldlM (dumpSort M) [] <;> simp

/-- What it writes, and what the other dump writes of the same network. -/
theorem dumpJson_refines {M : Module Fn} {net : SortedMap Fn (List Fn)} {L : List Fn} {j : Json}
    (hj : dumpJson M net L = .ok j) : ∃ j', SelfChecksumming.dumpJson M net L = .ok j' ∧
      (∀ key, key ≠ "allCheckees" → j'.member key = j.member key) ∧
      j.member "allCheckees" = .ok (.arr ((net.entries.flatMap Prod.snd).map (shown M))) ∧
      j'.member "allCheckees" =
        .ok (.arr (((net.entries.flatMap Prod.snd).foldl pushNew []).map (shown M))) := by
  unfold dumpJson at hj
  split at hj
  · cases hj
  · rename_i d hd
    split at hj
    · cases hj
    · rename_i names hnames
      cases hj
      obtain ⟨d', hd', hagree⟩ := Agree.checkers hd
      refine ⟨d'.json names, by rw [SelfChecksumming.dumpJson, hd', hnames]; rfl,
        fun key hkey => ?_, ?_, ?_⟩
      · rw [Dump.json, Json.member, Json.member, hagree.map]
        simp [Ne.symm hkey]
      · rw [← hagree.all]
        exact Dump.member_allCheckees (⟨d.allCheckees, d.map, []⟩ : SelfChecksumming.Dump Fn) names
      · rw [Dump.member_allCheckees, hagree.synced, hagree.unique]

/-- Where this dump works, the other class dumps the same but for the repeats under
"allCheckees", and every module loads the same from both files. -/
theorem dumpJson_agrees (M : Module Fn) (net : SortedMap Fn (List Fn)) (L : List Fn) :
    ((∃ j, dumpJson M net L = .ok j) ↔
      (∀ e ∈ net.entries, e.1 ≠ ⊥ ∧ ∀ F ∈ e.2, F ≠ ⊥) ∧ ∀ F ∈ L, F ≠ ⊥) ∧
    ∀ j, dumpJson M net L = .ok j → ∃ j', SelfChecksumming.dumpJson M net L = .ok j' ∧
      (∀ key, key ≠ "allCheckees" → j'.member key = j.member key) ∧
      j.member "allCheckees" = .ok (.arr ((net.entries.flatMap Prod.snd).map (shown M))) ∧
      j'.member "allCheckees" =
        .ok (.arr (((net.entries.flatMap Prod.snd).foldl pushNew []).map (shown M))) ∧
      ∀ {Fn' : Type} [LinearOrder Fn'] [OrderBot Fn'] (M' : Module Fn'),
        SelfChecksumming.loadJson M' (.parsed j) = loadJson M' (.parsed j') := by
  refine ⟨dumpJson_returns, fun j hj => ?_⟩
  obtain ⟨j', hj', hmembers, hall, hall'⟩ := dumpJson_refines hj
  refine ⟨j', hj', hmembers, hall, hall', fun M' => ?_⟩
  exact loadJson_congr M' (hmembers _ (by decide)).symm (hmembers _ (by decide)).symm

/-- A function that two others check is listed twice. -/
example : (dumpJson sampleModule ⟨[(2, [1]), (3, [1])], by decide⟩ []).map
    (Json.member "allCheckees") = .ok (.ok (.arr [.str "f1", .str "f1"])) := rfl

/-! ## The round trip -/

section Functions

variable {network : CheckersNetwork} {allFunctions : List Fn}

theorem dumpMap_within {M : Module Fn} (hm : Rising allFunctions.length network.checkerCheckeeMap)
    (hnd : allFunctions.Nodup) (hM : ∀ F ∈ allFunctions, F ∈ M.functions) :
    Within M (network.dumpMap allFunctions) := by
  have hnode : ∀ i, i < allFunctions.length → internalMap allFunctions i ∈ M.functions := by
    intro i hi
    rw [internalMap_eq hi]
    exact hM _ (List.getElem_mem hi)
  intro k vs hk
  obtain ⟨j, ws, hj, rfl, rfl⟩ := (find?_dumpMap hm hnd).mp hk
  refine ⟨hnode j (hm.key_lt hj), fun F hF => ?_⟩
  obtain ⟨w, hw, rfl⟩ := List.mem_map.mp hF
  exact hnode w (hm.edges j w ⟨ws, hj, hw⟩).2

/-- Generate, map, dump, load: a module with the same functions reads back the same network
and the same list, whether or not its functions lie at the same pointers. -/
theorem generated_network_reloads (M : Module Fn) (hnd : allFunctions.Nodup)
    (hM : ∀ F ∈ allFunctions, F ∈ M.functions) (h : Generated allFunctions.length network) :
    ∃ map sorted j, network.mapCheckersOnFunctions allFunctions [] = .ok (map, sorted) ∧
      dumpJson M map sorted = .ok j ∧
      (∀ M' : Module Fn, Holds M M' id → loadJson M' (.parsed j) = .ok (map, sorted)) ∧
      ∀ {Fn' : Type} [LinearOrder Fn'] [OrderBot Fn'] {M' : Module Fn'} {φ : Fn → Fn'},
        Holds M M' φ → ∃ map', loadJson M' (.parsed j) = .ok (map', sorted.map φ) ∧
          Renamed M φ map map' := by
  obtain ⟨sorted, hmap, hsort, -⟩ := h.rising.mapped hnd
  have hwithin := dumpMap_within h.rising hnd hM
  have hkeys : ∀ F, F ∈ sorted ↔ F ∈ (network.dumpMap allFunctions).keys := fun F => by
    rw [hsort.mem, Option.isSome_iff_exists, SortedMap.mem_keys]
  -- no pointer is null, so that this dump works, and the other one's round trip is known
  have hnonnull : (∀ e ∈ (network.dumpMap allFunctions).entries, e.1 ≠ ⊥ ∧ ∀ F ∈ e.2, F ≠ ⊥) ∧
      ∀ F ∈ sorted, F ≠ ⊥ := by
    refine ⟨fun e he => ?_, fun F hF => ?_⟩
    · obtain ⟨hk, hvs⟩ := hwithin e.1 e.2 (SortedMap.find?_eq_some_iff.mpr he)
      exact ⟨M.ne_bot hk, fun F hF => M.ne_bot (hvs F hF)⟩
    · obtain ⟨vs, hvs⟩ := SortedMap.mem_keys.mp ((hkeys F).mp hF)
      exact M.ne_bot (hwithin F vs hvs).1
  obtain ⟨j, hj⟩ := dumpJson_returns.mpr hnonnull
  obtain ⟨j', hj', hmembers, -⟩ := dumpJson_refines hj
  obtain ⟨k, -, hk, -, -, -, hloads⟩ := loadJson_of_dumpJson hwithin hkeys
  obtain rfl : j' = k := Except.ok.inj (hj'.symm.trans hk)
  have hload : ∀ {Fn' : Type} [LinearOrder Fn'] [OrderBot Fn'] (M' : Module Fn'),
      loadJson M' (.parsed j) = SelfChecksumming.loadJson M' (.parsed j') := fun M' =>
    loadJson_congr M' (hmembers _ (by decide)).symm (hmembers _ (by decide)).symm
  refine ⟨network.dumpMap allFunctions, sorted, j, hmap [], hj, fun M' hM' => ?_, fun hM' => ?_⟩
  · obtain ⟨map', hmap', hren⟩ := hloads hM'
    rw [hload, hmap', hren.eq_self hwithin, List.map_id]
  · obtain ⟨map', hmap', hren⟩ := hloads hM'
    exact ⟨map', (hload _).trans hmap', hren⟩

/-- Three functions of a module, after one call. -/
theorem generated_network_reloads_sample : ∃ network degrees map sorted j,
    CheckersNetwork.constructAcyclicCheckers {} (fun n => n) 3 1 [] = .ok (network, degrees) ∧
    network.mapCheckersOnFunctions [1, 2, 3] [] = .ok (map, sorted) ∧
    dumpJson sampleModule map sorted = .ok j ∧
    loadJson sampleModule (.parsed j) = .ok (map, sorted) := by
  obtain ⟨network, degrees, hrun⟩ : ∃ network degrees,
    CheckersNetwork.constructAcyclicCheckers {} (fun n => n) 3 1 [] = .ok (network, degrees) :=
      ⟨_, _, rfl⟩
  have hgen : Generated [1, 2, 3].length network := .call .new le_rfl hrun
  obtain ⟨map, sorted, j, hmap, hj, hload, -⟩ :=
    generated_network_reloads sampleModule (by decide) (by decide) hgen
  exact ⟨network, degrees, map, sorted, j, hrun, hmap, hj,
    hload sampleModule ⟨fun _ h => h, fun _ _ => rfl⟩⟩

end Functions

end CheckersNetwork

end SelfChecksumming
