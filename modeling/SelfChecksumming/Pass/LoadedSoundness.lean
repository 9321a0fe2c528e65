import SelfChecksumming.Pass.Loaded

/-! # A loaded network is as good as its file

`loadJson` looks every name up and checks nothing: a name that is gone becomes a null
pointer, a name listed twice is a host twice, and whatever order the file has is the order
of injection. So the network is well-formed when the file is, and only then. -/
namespace SelfChecksumming
open Library

variable {Fn : Type} [LinearOrder Fn] [OrderBot Fn]

/-- What the injection loop and the patcher rely on. -/
structure SoundNetwork (M : Module Fn) (loaded : SortedMap Fn (List Fn) × List Fn) : Prop where
  within : Within M loaded.1
  sort : TopologicalSort loaded.1.find? loaded.2
  acyclic : Acyclic loaded.1.find?

/-- The file names functions of the module only, each checker once and behind those of its
checkees that are listed as well. -/
structure WellListed (M : Module Fn) (j : Json) : Prop where
  nodup : (listedCheckers j).Nodup
  checkers : ∀ name, .str name ∈ listedCheckers j → M.getFunction name ≠ ⊥
  checkees : ∀ checker checkee, .str checker ∈ listedCheckers j →
    .str checkee ∈ listedCheckees j checker → M.getFunction checkee ≠ ⊥
  before : ∀ checker checkee, .str checker ∈ listedCheckers j → .str checkee ∈ listedCheckers j →
    .str checkee ∈ listedCheckees j checker →
    Precedes (listedCheckers j) (.str checkee) (.str checker)

/-- What a load leaves behind: the listed functions in their order, and for each of them
what the file lists under one of its names. -/
structure LoadedFrom (M : Module Fn) (j : Json) (names : List String)
    (loaded : SortedMap Fn (List Fn) × List Fn) : Prop where
  list : loaded.2 = names.map M.getFunction
  keys : ∀ F, (loaded.1.find? F).isSome ↔ F ∈ loaded.2
  checkees : ∀ F vs, loaded.1.find? F = some vs → ∃ name ∈ names, M.getFunction name = F ∧
    ∃ cs : List String, listedCheckees j name = cs.map .str ∧ vs = cs.map M.getFunction

theorem loadJson_loadedFrom {M : Module Fn} {j : Json} {loaded : SortedMap Fn (List Fn) × List Fn}
    (h : loadJson M (.parsed j) = .ok loaded) :
    ∃ names : List String, listedCheckers j = names.map .str ∧ LoadedFrom M j names loaded := by
  obtain ⟨sorted, hsorted, h⟩ := bind_eq_ok.mp h
  rw [listedCheckers, hsorted]
  have hinv := foldlM_invariant (fun done (loaded : SortedMap Fn (List Fn) × List Fn) =>
    ∃ names : List String, done = names.map .str ∧ LoadedFrom M j names loaded)
    (fun done x b b' hb hx => ?_) sorted.elements [] ⟨[], rfl, rfl, by simp, by simp⟩ h
  · simpa using hinv
  · obtain ⟨names, rfl, hb⟩ := hb
    obtain ⟨name, cs, rfl, hlisted, rfl⟩ := loadChecker_ok hx
    refine ⟨names ++ [name], by simp, by simp [hb.list], fun F => ?_, fun F vs hF => ?_⟩
    · by_cases hname : F = M.getFunction name
      · subst hname
        simp
      · rw [SortedMap.find?_insert_ne _ _ hname, hb.keys]
        simp [hname]
    · by_cases hname : F = M.getFunction name
      · subst hname
        rw [SortedMap.find?_insert_self] at hF
        exact ⟨name, by simp, rfl, cs, hlisted, (Option.some.inj hF).symm⟩
      · rw [SortedMap.find?_insert_ne _ _ hname] at hF
        obtain ⟨old, hold, hF⟩ := hb.checkees F vs hF
        exact ⟨old, List.mem_append_left _ hold, hF⟩

section
variable {M : Module Fn} {j : Json} {names : List String}
  {loaded : SortedMap Fn (List Fn) × List Fn}

theorem Module.getFunction_inj (M : Module Fn) {name name' : String} (hne : M.getFunction name ≠ ⊥)
    (h : M.getFunction name = M.getFunction name') : name = name' := by
  have hname := (M.getFunction_mem rfl hne).2
  rw [← hname, h]
  exact (M.getFunction_mem rfl (h ▸ hne)).2

omit [LinearOrder Fn] [OrderBot Fn] in
theorem str_mem (name : String) : .str name ∈ names.map Json.str ↔ name ∈ names :=
  List.mem_map_of_injective fun _ _ h => Json.str.inj h

/-- What a listed function other than null is given. -/
theorem LoadedFrom.find? (hl : LoadedFrom M j names loaded) {name : String} (hname : name ∈ names)
    (hne : M.getFunction name ≠ ⊥) : ∃ cs : List String, listedCheckees j name = cs.map .str ∧
      loaded.1.find? (M.getFunction name) = some (cs.map M.getFunction) := by
  have hmem : M.getFunction name ∈ loaded.2 := by
    rw [hl.list]
    exact List.mem_map_of_mem hname
  obtain ⟨vs, hvs⟩ := Option.isSome_iff_exists.mp ((hl.keys _).mpr hmem)
  obtain ⟨name', -, heq, cs, hcs, rfl⟩ := hl.checkees _ vs hvs
  obtain rfl := M.getFunction_inj hne heq.symm
  exact ⟨cs, hcs, hvs⟩

theorem LoadedFrom.wellListed (hl : LoadedFrom M j names loaded)
    (hnames : listedCheckers j = names.map .str) (h : SoundNetwork M loaded) : WellListed M j := by
  have hkey : ∀ name ∈ names, (loaded.1.find? (M.getFunction name)).isSome ∧
      M.getFunction name ≠ ⊥ := by
    intro name hname
    have hsome := (hl.keys (M.getFunction name)).mpr (hl.list ▸ List.mem_map_of_mem hname)
    obtain ⟨vs, hvs⟩ := Option.isSome_iff_exists.mp hsome
    exact ⟨hsome, M.ne_bot (h.within _ vs hvs).1⟩
  have hinj : ∀ x ∈ names, ∀ y ∈ names, M.getFunction x = M.getFunction y → x = y :=
    fun x hx y _ => M.getFunction_inj (hkey x hx).2
  have hedge : ∀ checker ∈ names, ∀ checkee, .str checkee ∈ listedCheckees j checker →
      Edge loaded.1.find? (M.getFunction checker) (M.getFunction checkee) := by
    intro checker hchecker checkee hcheckee
    obtain ⟨cs, hcs, hfind⟩ := hl.find? hchecker (hkey checker hchecker).2
    rw [hcs, str_mem] at hcheckee
    exact ⟨_, hfind, List.mem_map_of_mem hcheckee⟩
  refine ⟨?_, ?_, ?_, ?_⟩
  · rw [hnames]
    exact (List.Nodup.of_map M.getFunction (hl.list ▸ h.sort.nodup)).map fun _ _ h => Json.str.inj h
  · intro name hname
    rw [hnames, str_mem] at hname
    exact (hkey name hname).2
  · intro checker checkee hchecker hcheckee
    rw [hnames, str_mem] at hchecker
    obtain ⟨vs, hvs, hmem⟩ := hedge checker hchecker checkee hcheckee
    exact M.ne_bot ((h.within _ vs hvs).2 _ hmem)
  · intro checker checkee hchecker hcheckee hlisted
    rw [hnames, str_mem] at hchecker hcheckee
    have hbefore := h.sort.before _ _ (hedge checker hchecker checkee hlisted)
      (hkey checkee hcheckee).1
    rw [hl.list] at hbefore
    rw [hnames]
    exact (hbefore.of_map hinj hcheckee hchecker).map Json.str

theorem LoadedFrom.sound (hl : LoadedFrom M j names loaded)
    (hnames : listedCheckers j = names.map .str) (h : WellListed M j) : SoundNetwork M loaded := by
  have hne : ∀ name ∈ names, M.getFunction name ≠ ⊥ := fun name hname =>
    h.checkers name (hnames ▸ (str_mem name).mpr hname)
  have hinj : ∀ x ∈ names, ∀ y ∈ names, M.getFunction x = M.getFunction y → x = y :=
    fun x hx y _ => M.getFunction_inj (hne x hx)
  have hnd : names.Nodup := List.Nodup.of_map Json.str (hnames ▸ h.nodup)
  have hcheckees : ∀ name ∈ names, ∀ checkee, .str checkee ∈ listedCheckees j name →
      M.getFunction checkee ≠ ⊥ := fun name hname checkee =>
    h.checkees name checkee (hnames ▸ (str_mem name).mpr hname)
  have hsort : TopologicalSort loaded.1.find? loaded.2 := by
    refine ⟨?_, fun F => (hl.keys F).symm, ?_⟩
    · rw [hl.list]
      exact hnd.map_on hinj
    · intro F G he hG
      obtain ⟨vs, hvs, hmem⟩ := he
      obtain ⟨name, hname, rfl, cs, hcs, rfl⟩ := hl.checkees F vs hvs
      obtain ⟨checkee, hcheckee, rfl⟩ := List.mem_map.mp hmem
      have hlisted : .str checkee ∈ listedCheckees j name := hcs ▸ (str_mem checkee).mpr hcheckee
      -- the checkee is a checker under the same name
      obtain ⟨other, hother, heq⟩ := List.mem_map.mp (hl.list ▸ (hl.keys _).mp hG)
      obtain rfl := M.getFunction_inj (hne other hother) heq
      have hbefore := h.before name other (hnames ▸ (str_mem name).mpr hname)
        (hnames ▸ (str_mem other).mpr hother) hlisted
      rw [hnames] at hbefore
      rw [hl.list]
      exact (hbefore.of_map (fun _ _ _ _ h => Json.str.inj h) hother hname).map M.getFunction
  refine ⟨fun F vs hvs => ?_, hsort, hsort.acyclic⟩
  obtain ⟨name, hname, rfl, cs, hcs, rfl⟩ := hl.checkees F vs hvs
  refine ⟨(M.getFunction_mem rfl (hne name hname)).1, fun G hG => ?_⟩
  obtain ⟨checkee, hcheckee, rfl⟩ := List.mem_map.mp hG
  exact (M.getFunction_mem rfl
    (hcheckees name hname checkee (hcs ▸ (str_mem checkee).mpr hcheckee))).1

end

/-- Loading adds no defect and finds none: what it returns is well-formed exactly when
the file is. -/
theorem loadJson_sound_iff (M : Module Fn) (j : Json) {loaded : SortedMap Fn (List Fn) × List Fn}
    (h : loadJson M (.parsed j) = .ok loaded) : SoundNetwork M loaded ↔ WellListed M j := by
  obtain ⟨names, hnames, hl⟩ := loadJson_loadedFrom h
  exact ⟨hl.wellListed hnames, hl.sound hnames⟩

theorem loadJson_sound_iff_sample : ∃ loaded,
    loadJson sampleModule (.parsed dumpedElsewhere) = .ok loaded ∧
      SoundNetwork sampleModule loaded := by
  obtain ⟨loaded, hloaded⟩ :
      ∃ loaded, loadJson sampleModule (.parsed dumpedElsewhere) = .ok loaded := ⟨_, rfl⟩
  have hnames : listedCheckers dumpedElsewhere = [.str "f2"] := rfl
  have hcheckees : listedCheckees dumpedElsewhere "f2" = [.str "f1"] := rfl
  refine ⟨loaded, hloaded, (loadJson_sound_iff sampleModule dumpedElsewhere hloaded).mpr ?_⟩
  refine ⟨?_, ?_, ?_, ?_⟩
  · rw [hnames]
    exact List.nodup_singleton _
  · intro name hname
    rw [hnames, List.mem_singleton, Json.str.injEq] at hname
    subst hname
    decide
  · intro checker checkee hchecker hcheckee
    rw [hnames, List.mem_singleton, Json.str.injEq] at hchecker
    subst hchecker
    rw [hcheckees, List.mem_singleton, Json.str.injEq] at hcheckee
    subst hcheckee
    decide
  · intro checker checkee hchecker hlisted hcheckee
    rw [hnames, List.mem_singleton, Json.str.injEq] at hchecker hlisted
    subst hchecker hlisted
    simp [hcheckees] at hcheckee

/-- `f2` and `f1` check each other. -/
def cyclicNetwork : Json :=
  .obj [("allCheckees", .arr [.str "f1", .str "f2"]),
    ("map", .obj [("f1", .arr [.str "f2"]), ("f2", .arr [.str "f1"])]),
    ("topologicalsort", .arr [.str "f1", .str "f2"])]

/-- It is loaded without an error. -/
theorem cyclic_network_loads : ∃ loaded,
    loadJson sampleModule (.parsed cyclicNetwork) = .ok loaded ∧
      ¬ SoundNetwork sampleModule loaded := by
  refine ⟨_, rfl, fun h => h.acyclic 1 ?_⟩
  exact .tail (.single ⟨[2], rfl, List.mem_cons_self⟩) ⟨[1], rfl, List.mem_cons_self⟩

end SelfChecksumming
