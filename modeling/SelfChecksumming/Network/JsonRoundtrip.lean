import SelfChecksumming.Network.Json
import SelfChecksumming.Network.Sort

/-! # A dumped network loads back

The round trip needs a list that enumerates the keys and pointers that are
functions of the module; it does not need to know where the map came from. -/
namespace SelfChecksumming
open Library

variable {Fn Fn' : Type} [LinearOrder Fn] [OrderBot Fn] [LinearOrder Fn'] [OrderBot Fn']

/-- A function as the dump shows it. -/
def shown (M : Module Fn) (F : Fn) : Json := .str (M.getName F)

/-- What has been dumped under a name. -/
def Dump.lookup (d : Dump Fn) (name : String) : Option (List Json) :=
  d.map.bind fun map => map.find? name

/-- The two lists of checkees agree. -/
def Dump.Synced (M : Module Fn) (d : Dump Fn) : Prop :=
  d.allCheckees = d.uniqueCheckees.map (shown M)

/-! ## The dump -/

theorem dumpCheckees (M : Module Fn) (checker : Fn) : ∀ (checkees : List Fn) (d : Dump Fn)
    (old : List Json), (∀ F ∈ checkees, F ≠ ⊥) → d.Synced M →
    d.lookup (M.getName checker) = some old →
    ∃ d', checkees.foldlM (dumpCheckee M checker) d = .ok d' ∧ d'.Synced M ∧
      d'.uniqueCheckees = checkees.foldl pushNew d.uniqueCheckees ∧
      d'.lookup (M.getName checker) = some (old ++ checkees.map (shown M)) ∧
      ∀ name, name ≠ M.getName checker → d'.lookup name = d.lookup name := by
  intro checkees
  induction checkees with
  | nil => exact fun d old _ hs hold => ⟨d, rfl, hs, rfl, by simpa using hold, fun _ _ => rfl⟩
  | cons F rest ih =>
    intro d old hne hs hold
    have hF : F ≠ ⊥ := hne F List.mem_cons_self
    obtain ⟨map, hmap, hfind⟩ := Option.bind_eq_some_iff.mp hold
    -- the state after the first checkee
    let map₁ := map.upsert (M.getName checker) fun xs => xs.getD [] ++ [shown M F]
    let d₁ : Dump Fn := ⟨(pushNew d.uniqueCheckees F).map (shown M), some map₁,
      pushNew d.uniqueCheckees F⟩
    have hstep : dumpCheckee M checker d F = .ok d₁ := by
      simp only [dumpCheckee, if_neg hF, hmap, Option.getD_some]
      by_cases hmem : F ∈ d.uniqueCheckees
      · simp only [if_pos hmem, d₁, pushNew]
        rw [← hs]; rfl
      · simp only [if_neg hmem, d₁, pushNew, List.map_append, List.map_singleton]
        rw [← hs]; rfl
    have hold₁ : d₁.lookup (M.getName checker) = some (old ++ [shown M F]) := by
      show map₁.find? _ = _
      rw [SortedMap.find?_upsert_self, hfind]; rfl
    obtain ⟨d', hrun, hs', huniq, hnew, hframe⟩ :=
      ih d₁ _ (fun G hG => hne G (List.mem_cons_of_mem _ hG)) rfl hold₁
    refine ⟨d', ?_, hs', huniq, ?_, ?_⟩
    · rw [List.foldlM_cons, hstep]; exact hrun
    · rw [hnew]; simp
    · intro name hname
      rw [hframe name hname]
      show map₁.find? name = _
      rw [SortedMap.find?_upsert_ne _ _ hname, Dump.lookup, hmap]; rfl

theorem dumpCheckers {M : Module Fn} : ∀ (entries : List (Fn × List Fn)) (d : Dump Fn),
    (∀ e ∈ entries, e.1 ≠ ⊥ ∧ ∀ F ∈ e.2, F ≠ ⊥) →
    (entries.map fun e => M.getName e.1).Nodup → d.Synced M →
    ∃ d', entries.foldlM (dumpChecker M) d = .ok d' ∧ d'.Synced M ∧
      d'.uniqueCheckees = entries.foldl (fun fs e => e.2.foldl pushNew fs) d.uniqueCheckees ∧
      (∀ e ∈ entries, d'.lookup (M.getName e.1) = some (e.2.map (shown M))) ∧
      ∀ name, name ∉ entries.map (fun e => M.getName e.1) → d'.lookup name = d.lookup name := by
  intro entries
  induction entries with
  | nil => exact fun d _ _ hs => ⟨d, rfl, hs, rfl, by simp, fun _ _ => rfl⟩
  | cons e rest ih =>
    intro d hne hnd hs
    obtain ⟨hhead, hrest⟩ := List.nodup_cons.mp hnd
    obtain ⟨hk, hvs⟩ := hne e List.mem_cons_self
    let map₀ := (d.map.getD .empty).insert (M.getName e.1) []
    obtain ⟨d₁, hrun₁, hs₁, huniq₁, hnew₁, hframe₁⟩ :=
      dumpCheckees M e.1 e.2 { d with map := some map₀ } [] hvs hs
        (SortedMap.find?_insert_self _ _ _)
    obtain ⟨d', hrun, hs', huniq, hnew, hframe⟩ :=
      ih d₁ (fun x hx => hne x (List.mem_cons_of_mem _ hx)) hrest hs₁
    refine ⟨d', ?_, hs', ?_, ?_, ?_⟩
    · rw [List.foldlM_cons, dumpChecker, if_neg hk, hrun₁]; exact hrun
    · rw [huniq, huniq₁, List.foldl_cons]
    · intro x hx
      rcases List.mem_cons.mp hx with rfl | hx
      · rw [hframe _ hhead, hnew₁, List.nil_append]
      · exact hnew x hx
    · intro name hname
      obtain ⟨hne', hname⟩ := not_or.mp (List.mem_cons.not.mp hname)
      rw [hframe name hname, hframe₁ name hne']
      show map₀.find? name = _
      rw [SortedMap.find?_insert_ne _ _ hne', Dump.lookup]
      cases d.map <;> rfl

theorem dumpSorted {M : Module Fn} : ∀ (L : List Fn) (names : List Json), (∀ F ∈ L, F ≠ ⊥) →
    L.foldlM (dumpSort M) names = .ok (names ++ L.map (shown M)) := by
  intro L
  induction L with
  | nil => intro names _; simp; rfl
  | cons F L ih =>
    intro names hne
    rw [List.foldlM_cons, dumpSort, if_neg (hne F List.mem_cons_self)]
    refine (ih _ fun G hG => hne G (List.mem_cons_of_mem _ hG)).trans ?_
    simp [shown]

/-! ## Reading a dump -/

theorem find?_arrays (map : SortedMap String (List Json)) (name : String) :
    ((arrays map).find? fun m => m.1 = name).map Prod.snd = (map.find? name).map .arr := by
  simp only [arrays, List.find?_map, SortedMap.find?, Option.map_map]
  rfl

/-- The JSON value of a finished dump. -/
def Dump.json (d : Dump Fn) (names : List Json) : Json :=
  .obj ([("allCheckees", .arr d.allCheckees)] ++
    (d.map.map fun map => ("map", Json.obj (arrays map))).toList ++
    [("topologicalsort", .arr names)])

omit [LinearOrder Fn] [OrderBot Fn] in
theorem Dump.member_sort (d : Dump Fn) (names : List Json) :
    (d.json names).member "topologicalsort" = .ok (.arr names) := by
  unfold Dump.json Json.member
  cases d.map <;> simp

omit [LinearOrder Fn] [OrderBot Fn] in
theorem Dump.member_allCheckees (d : Dump Fn) (names : List Json) :
    (d.json names).member "allCheckees" = .ok (.arr d.allCheckees) := by
  unfold Dump.json Json.member
  cases d.map <;> simp

omit [LinearOrder Fn] [OrderBot Fn] in
theorem Dump.member_map (d : Dump Fn) (names : List Json) :
    (d.json names).member "map" =
      .ok ((d.map.map fun map => Json.obj (arrays map)).getD .null) := by
  unfold Dump.json Json.member
  cases d.map <;> simp

theorem mapM_loadCheckee {M : Module Fn} {M' : Module Fn'} {φ : Fn → Fn'} : ∀ vs : List Fn,
    (∀ F ∈ vs, M'.getFunction (M.getName F) = φ F) →
    (vs.map (shown M)).mapM (loadCheckee M') = .ok (vs.map φ) := by
  intro vs
  induction vs with
  | nil => intro _; rfl
  | cons F vs ih =>
    intro h
    rw [List.map_cons, List.mapM_cons]
    have hF : loadCheckee M' (shown M F) = .ok (φ F) := by
      rw [← h F List.mem_cons_self]
      rfl
    rw [hF, ih fun G hG => h G (List.mem_cons_of_mem _ hG)]
    rfl

/-- The entry of a dumped checker. -/
theorem Dump.loadChecker {M : Module Fn} {M' : Module Fn'} {φ : Fn → Fn'} {d : Dump Fn} {F : Fn}
    {vs : List Fn} (hlook : d.lookup (M.getName F) = some (vs.map (shown M)))
    (hF : M'.getFunction (M.getName F) = φ F)
    (hvs : ∀ G ∈ vs, M'.getFunction (M.getName G) = φ G)
    (names : List Json) (loaded : SortedMap Fn' (List Fn') × List Fn') :
    SelfChecksumming.loadChecker M' (d.json names) loaded (shown M F) =
      .ok (loaded.1.insert (φ F) (vs.map φ), loaded.2 ++ [φ F]) := by
  obtain ⟨map, hmap, hfind⟩ := Option.bind_eq_some_iff.mp hlook
  have hmember : (Json.obj (arrays map)).member (M.getName F) = .ok (.arr (vs.map (shown M))) := by
    rw [Json.member, find?_arrays, hfind]; rfl
  have hname : (shown M F).getString = .ok (M.getName F) := rfl
  simp only [SelfChecksumming.loadChecker, hname, Dump.member_map, hmap, Option.map_some,
    Option.getD_some, bind, Except.bind, hmember, Json.elements, mapM_loadCheckee vs hvs, hF]
  rfl

theorem Dump.loadCheckers {M : Module Fn} {M' : Module Fn'} {φ : Fn → Fn'} {d : Dump Fn}
    {names : List Json} (value : Fn → List Fn) :
    ∀ (L : List Fn) (loaded : SortedMap Fn' (List Fn') × List Fn'),
    (∀ F ∈ L, d.lookup (M.getName F) = some ((value F).map (shown M)) ∧
      M'.getFunction (M.getName F) = φ F ∧ ∀ G ∈ value F, M'.getFunction (M.getName G) = φ G) →
    (L.map (shown M)).foldlM (SelfChecksumming.loadChecker M' (d.json names)) loaded =
      .ok (L.foldl (fun m F => m.insert (φ F) ((value F).map φ)) loaded.1,
        loaded.2 ++ L.map φ) := by
  intro L
  induction L with
  | nil => intro loaded _; simp; rfl
  | cons F L ih =>
    intro loaded h
    obtain ⟨hlook, hF, hvs⟩ := h F List.mem_cons_self
    rw [List.map_cons, List.foldlM_cons, Dump.loadChecker hlook hF hvs]
    refine (ih _ fun G hG => h G (List.mem_cons_of_mem _ hG)).trans ?_
    simp

/-! ## The round trip -/

/-- Every pointer of the map is a function of the module. -/
def Within (M : Module Fn) (net : SortedMap Fn (List Fn)) : Prop :=
  ∀ k vs, net.find? k = some vs → k ∈ M.functions ∧ ∀ F ∈ vs, F ∈ M.functions

/-- `M'` holds the functions of `M`, at the pointers that `φ` tells. -/
structure Holds (M : Module Fn) (M' : Module Fn') (φ : Fn → Fn') : Prop where
  mem : ∀ F ∈ M.functions, φ F ∈ M'.functions
  deref : ∀ F ∈ M.functions, M'.deref (φ F) = M.deref F

theorem Holds.getFunction {M : Module Fn} {M' : Module Fn'} {φ : Fn → Fn'} (h : Holds M M' φ)
    {F : Fn} (hF : F ∈ M.functions) : M'.getFunction (M.getName F) = φ F := by
  have hname : M.getName F = M'.getName (φ F) := congrArg Function.name (h.deref F hF).symm
  rw [hname, M'.getFunction_getName (h.mem F hF)]

theorem Holds.inj {M : Module Fn} {M' : Module Fn'} {φ : Fn → Fn'} (h : Holds M M' φ)
    {F G : Fn} (hF : F ∈ M.functions) (hG : G ∈ M.functions) (he : φ F = φ G) : F = G := by
  apply M.unique F hF G hG
  rw [← h.deref F hF, ← h.deref G hG, he]

/-- `net'` is `net` with its pointers replaced. -/
structure Renamed (M : Module Fn) (φ : Fn → Fn') (net : SortedMap Fn (List Fn))
    (net' : SortedMap Fn' (List Fn')) : Prop where
  find? : ∀ F ∈ M.functions, net'.find? (φ F) = (net.find? F).map (List.map φ)
  keys : ∀ k ∈ net'.keys, ∃ F ∈ net.keys, φ F = k

omit [OrderBot Fn] in
theorem mem_foldl_pushAll {x : Fn} : ∀ (l : List (Fn × List Fn)) (fs : List Fn),
    x ∈ l.foldl (fun fs e => e.2.foldl pushNew fs) fs ↔ x ∈ fs ∨ ∃ e ∈ l, x ∈ e.2 := by
  intro l
  induction l with
  | nil => simp
  | cons e l ih =>
    intro fs
    rw [List.foldl_cons, ih, mem_pushAll]
    simp only [List.mem_cons, exists_eq_or_imp, or_assoc]

omit [OrderBot Fn] in
theorem foldl_pushAll_nodup : ∀ (l : List (Fn × List Fn)) (fs : List Fn), fs.Nodup →
    (l.foldl (fun fs e => e.2.foldl pushNew fs) fs).Nodup := by
  intro l
  induction l with
  | nil => exact fun _ h => h
  | cons e l ih => exact fun fs h => ih _ (pushAll_nodup h e.2)

/-- What a dump holds: the entries of the map, and every checkee once. -/
theorem dumpCheckers_within {M : Module Fn} {net : SortedMap Fn (List Fn)} (hnet : Within M net) :
    ∃ d, net.entries.foldlM (dumpChecker M) {} = .ok d ∧ d.Synced M ∧
      (∀ k vs, net.find? k = some vs → d.lookup (M.getName k) = some (vs.map (shown M))) ∧
      d.uniqueCheckees.Nodup ∧ ∀ F, F ∈ d.uniqueCheckees ↔ ∃ k, Edge net.find? k F := by
  have hentry : ∀ e ∈ net.entries, e.1 ∈ M.functions ∧ ∀ F ∈ e.2, F ∈ M.functions :=
    fun e he => hnet e.1 e.2 (SortedMap.find?_eq_some_iff.mpr he)
  have hnames : (net.entries.map fun e => M.getName e.1).Nodup := by
    have := net.nodup_keys.map_on (f := M.getName) fun F hF G hG h => by
      obtain ⟨vs, hvs⟩ := SortedMap.mem_keys.mp hF
      obtain ⟨ws, hws⟩ := SortedMap.mem_keys.mp hG
      exact M.unique F (hnet F vs hvs).1 G (hnet G ws hws).1 h
    rwa [SortedMap.keys, List.map_map] at this
  obtain ⟨d, hrun, hsync, huniq, hlook, -⟩ := dumpCheckers (M := M) net.entries {}
    (fun e he => ⟨M.ne_bot (hentry e he).1, fun F hF => M.ne_bot ((hentry e he).2 F hF)⟩) hnames rfl
  refine ⟨d, hrun, hsync, ?_, huniq ▸ foldl_pushAll_nodup _ _ List.nodup_nil, fun F => ?_⟩
  · exact fun k vs hk => hlook (k, vs) (SortedMap.find?_eq_some_iff.mp hk)
  · rw [huniq, mem_foldl_pushAll]
    simp only [List.not_mem_nil, false_or, Edge, SortedMap.find?_eq_some_iff]
    constructor
    · rintro ⟨⟨k, vs⟩, he, hF⟩
      exact ⟨k, vs, he, hF⟩
    · rintro ⟨k, vs, he, hF⟩
      exact ⟨(k, vs), he, hF⟩

/-- A list of the keys is enough to rebuild the map under other pointers. -/
theorem renamed_insertAll {M : Module Fn} {M' : Module Fn'} {φ : Fn → Fn'} (hM' : Holds M M' φ)
    {net : SortedMap Fn (List Fn)} (hnet : Within M net) {L : List Fn}
    (hL : ∀ F, F ∈ L ↔ F ∈ net.keys) :
    Renamed M φ net
      (L.foldl (fun m F => m.insert (φ F) (((net.find? F).getD []).map φ)) .empty) := by
  have hLM : ∀ F ∈ L, F ∈ M.functions := fun F hF => by
    obtain ⟨vs, hvs⟩ := SortedMap.mem_keys.mp ((hL F).mp hF)
    exact (hnet F vs hvs).1
  have hkeys : ∀ F ∈ L, ∀ G ∈ L, φ F = φ G → F = G := fun F hF G hG =>
    hM'.inj (hLM F hF) (hLM G hG)
  refine ⟨fun F hF => ?_, fun k hk => ?_⟩
  · rw [SortedMap.find?_foldl_insert _ L _ hkeys, SortedMap.find?_empty, Option.or_none]
    cases hfind : L.find? fun G => φ G = φ F with
    | none =>
      have hFL : F ∉ L := fun hFL => by simpa using List.find?_eq_none.mp hfind F hFL
      rw [SortedMap.find?_eq_none_iff.mpr (mt (hL F).mpr hFL)]
      rfl
    | some G =>
      have hGL := List.mem_of_find?_eq_some hfind
      have hkey : φ G = φ F := by simpa using List.find?_some hfind
      obtain rfl := hM'.inj (hLM G hGL) hF hkey
      obtain ⟨vs, hvs⟩ := SortedMap.mem_keys.mp ((hL G).mp hGL)
      rw [Option.map_some, hvs]
      rfl
  · obtain ⟨vs, hvs⟩ := SortedMap.mem_keys.mp hk
    rw [SortedMap.find?_foldl_insert _ L _ hkeys, SortedMap.find?_empty, Option.or_none] at hvs
    obtain ⟨F, hfind, -⟩ := Option.map_eq_some_iff.mp hvs
    exact ⟨F, (hL F).mp (List.mem_of_find?_eq_some hfind), by simpa using List.find?_some hfind⟩

/-- Whoever holds the same functions loads the same map and the same list. -/
theorem loadJson_of_dumpJson {M : Module Fn} {net : SortedMap Fn (List Fn)} (hnet : Within M net)
    {L : List Fn} (hL : ∀ F, F ∈ L ↔ F ∈ net.keys) :
    ∃ (j : Json) (names : List String), dumpJson M net L = .ok j ∧
      j.member "allCheckees" = .ok (.arr (names.map .str)) ∧ names.Nodup ∧
      (∀ name, name ∈ names ↔ ∃ k F, Edge net.find? k F ∧ M.getName F = name) ∧
      ∀ {Fn' : Type} [LinearOrder Fn'] [OrderBot Fn'] {M' : Module Fn'} {φ : Fn → Fn'},
        Holds M M' φ → ∃ net', loadJson M' (.parsed j) = .ok (net', L.map φ) ∧
          Renamed M φ net net' := by
  obtain ⟨d, hrun, hsync, hlook, huniqnd, huniq⟩ := dumpCheckers_within hnet
  have hLmem : ∀ F ∈ L, ∃ vs, net.find? F = some vs := fun F hF =>
    SortedMap.mem_keys.mp ((hL F).mp hF)
  have hLM : ∀ F ∈ L, F ∈ M.functions := fun F hF => by
    obtain ⟨vs, hvs⟩ := hLmem F hF
    exact (hnet F vs hvs).1
  refine ⟨d.json (L.map (shown M)), d.uniqueCheckees.map M.getName, ?_, ?_, ?_, ?_, ?_⟩
  · rw [dumpJson, hrun]
    simp only [dumpSorted L [] fun F hF => M.ne_bot (hLM F hF), List.nil_append]
    rfl
  · rw [Dump.member_allCheckees, hsync, List.map_map]
    rfl
  · refine huniqnd.map_on fun F hF G hG h => ?_
    obtain ⟨k, vs, hk, hF⟩ := (huniq F).mp hF
    obtain ⟨l, ws, hl, hG⟩ := (huniq G).mp hG
    exact M.unique F ((hnet k vs hk).2 F hF) G ((hnet l ws hl).2 G hG) h
  · intro name
    simp only [List.mem_map, huniq]
    exact ⟨fun ⟨F, ⟨k, he⟩, hn⟩ => ⟨k, F, he, hn⟩, fun ⟨k, F, he, hn⟩ => ⟨F, ⟨k, he⟩, hn⟩⟩
  · intro Fn' _ _ M' φ hM'
    refine ⟨_, ?_, renamed_insertAll hM' hnet hL⟩
    simp only [loadJson, Dump.member_sort, bind, Except.bind, Json.elements]
    refine Dump.loadCheckers (fun F => (net.find? F).getD []) L _ fun F hF => ?_
    obtain ⟨vs, hvs⟩ := hLmem F hF
    obtain ⟨hFM, hvsM⟩ := hnet F vs hvs
    rw [hvs, Option.getD_some]
    exact ⟨hlook F vs hvs, hM'.getFunction hFM, fun G hG => hM'.getFunction (hvsM G hG)⟩

/-- Under the same pointers it is the same map. -/
theorem Renamed.eq_self {M : Module Fn} {net net' : SortedMap Fn (List Fn)} (hnet : Within M net)
    (h : Renamed M id net net') : net' = net := by
  apply SortedMap.ext_find?
  intro k
  by_cases hk : k ∈ M.functions
  · simpa using h.find? k hk
  · have hnone : ∀ m : SortedMap Fn (List Fn), (∀ F ∈ m.keys, F ∈ net.keys) → m.find? k = none := by
      intro m hm
      refine SortedMap.find?_eq_none_iff.mpr fun hkm => ?_
      obtain ⟨vs, hvs⟩ := SortedMap.mem_keys.mp (hm k hkm)
      exact hk (hnet k vs hvs).1
    rw [hnone net fun F hF => hF, hnone net' fun F hF => ?_]
    obtain ⟨G, hG, rfl⟩ := h.keys F hF
    exact hG

end SelfChecksumming
