import SelfChecksumming.Filter.Listing

/-! # AssertFunctionMarkPass

It reads its file as the filter does and looks the functions up by what stands in front of
their parameters. It does not count what it finds. A file is one with a text: on a directory,
which can be opened but not read, the loop goes on for ever. -/
namespace SelfChecksumming
open Library

structure AssertFunctionInformation (Fn : Type) where
  assertFunctions : Finset Fn := ∅

namespace AssertFunctionInformation
open FunctionFilterPass

/-- All of a name without `(`. -/
def extractFunctionName (fullName : String) : String :=
  match fullName.toList.findIdx? (· == '(') with
  | some nameEnd => .ofList (fullName.toList.take nameEnd)
  | none => fullName

variable {Fn : Type} [LinearOrder Fn] [OrderBot Fn]

def addAssertFunction (info : AssertFunctionInformation Fn) (F : Fn) :
    AssertFunctionInformation Fn :=
  ⟨insert F info.assertFunctions⟩

/-- The body of the loop over the functions of the module. -/
def markFunction (cxaDemangle : String → Option String) (M : Module Fn)
    (assertFunctionNames : Finset String) (info : AssertFunctionInformation Fn) (F : Fn) :
    AssertFunctionInformation Fn :=
  if extractFunctionName (demangledName cxaDemangle (M.getName F)) ∈ assertFunctionNames then
    info.addAssertFunction F
  else info

/-- `file` is what the file holds, `none` when it cannot be opened. -/
def collectAssertFunctions (cxaDemangle : String → Option String) (M : Module Fn)
    (info : AssertFunctionInformation Fn) :
    Option (List Char) → Except Fault (AssertFunctionInformation Fn)
  | none => .ok info
  | some text => do
    let assertFunctionNames ← readNames (text.length + 2) ⟨text, false⟩ [] ∅
    .ok (M.functions.foldl (markFunction cxaDemangle M assertFunctionNames) info)

/-! ## What a file marks -/

theorem toList_extractFunctionName (fullName : String) :
    (extractFunctionName fullName).toList = fullName.toList.takeWhile fun c => c != '(' := by
  have hend : fullName.toList.takeWhile (fun c => c != '(') =
      fullName.toList.take (fullName.toList.findIdx (· == '(')) := by
    rw [List.takeWhile_eq_take_findIdx_not]
    simp only [bne, Bool.not_not]
  unfold extractFunctionName
  cases h : fullName.toList.findIdx? (· == '(') with
  | some nameEnd =>
    obtain ⟨-, hidx⟩ := List.findIdx?_eq_some_iff_findIdx_eq.mp h
    rw [hend, hidx, String.toList_ofList]
  | none =>
    rw [hend, List.findIdx_eq_length_of_false (List.findIdx?_eq_none_iff.mp h), List.take_length]

/-- The name that a function is looked up by. -/
def baseName (cxaDemangle : String → Option String) (M : Module Fn) (F : Fn) : String :=
  extractFunctionName (nameOf cxaDemangle M F)

theorem baseName_ne_paren (cxaDemangle : String → Option String) (M : Module Fn) (F : Fn) :
    baseName cxaDemangle M F ≠ "(" := by
  intro he
  have hparen : '(' ∈ (baseName cxaDemangle M F).toList := by
    rw [he]
    exact List.mem_singleton_self _
  rw [baseName, toList_extractFunctionName] at hparen
  have hkept := List.all_eq_true.mp List.all_takeWhile _ hparen
  cases hkept

def marked (cxaDemangle : String → Option String) (M : Module Fn)
    (assertFunctionNames : Finset String) : Finset Fn :=
  M.functions.toFinset.filter fun F => baseName cxaDemangle M F ∈ assertFunctionNames

theorem mem_marked {cxaDemangle : String → Option String} {M : Module Fn}
    {assertFunctionNames : Finset String} {F : Fn} :
    F ∈ marked cxaDemangle M assertFunctionNames ↔
      F ∈ M.functions ∧ baseName cxaDemangle M F ∈ assertFunctionNames := by
  rw [marked, Finset.mem_filter, List.mem_toFinset]

theorem foldl_markFunction (cxaDemangle : String → Option String) (M : Module Fn)
    (assertFunctionNames : Finset String) :
    ∀ (functions : List Fn) (info : AssertFunctionInformation Fn),
      functions.foldl (markFunction cxaDemangle M assertFunctionNames) info =
        ⟨info.assertFunctions ∪ functions.toFinset.filter fun F =>
          baseName cxaDemangle M F ∈ assertFunctionNames⟩ := by
  intro functions
  induction functions with
  | nil => intro info; simp
  | cons F functions ih =>
    intro info
    have hmark : markFunction cxaDemangle M assertFunctionNames info F =
        if baseName cxaDemangle M F ∈ assertFunctionNames then info.addAssertFunction F
        else info := rfl
    rw [List.foldl_cons, ih, List.toFinset_cons, Finset.filter_insert, hmark]
    split
    · simp only [addAssertFunction, Finset.insert_union, Finset.union_insert]
    · rfl

theorem collectAssertFunctions_eq (cxaDemangle : String → Option String) (M : Module Fn)
    (info : AssertFunctionInformation Fn) (text : List Char) :
    collectAssertFunctions cxaDemangle M info (some text) =
      .ok ⟨info.assertFunctions ∪ marked cxaDemangle M (namesOf (words isSpace text))⟩ := by
  simp only [collectAssertFunctions, readNames_file, bind, Except.bind, foldl_markFunction, marked]

/-- The sets that a file can mark. -/
structure Markable (cxaDemangle : String → Option String) (M : Module Fn) (S : Finset Fn) : Prop where
  inside : ∀ F ∈ S, F ∈ M.functions
  overloads : ∀ F ∈ S, ∀ G ∈ M.functions,
    baseName cxaDemangle M G = baseName cxaDemangle M F → G ∈ S
  readable : (∀ F ∈ S, IsWord (baseName cxaDemangle M F)) ∨
    ∀ F ∈ S, baseName cxaDemangle M F = ""

theorem markable_marked (cxaDemangle : String → Option String) (M : Module Fn)
    (read : List (List Char)) (hread : ∀ w ∈ read, w ≠ [] ∧ ∀ c ∈ w, isSpace c = false) :
    Markable cxaDemangle M (marked cxaDemangle M (namesOf read)) := by
  refine ⟨fun F hF => (mem_marked.mp hF).1, fun F hF G hG he => ?_, ?_⟩
  · exact mem_marked.mpr ⟨hG, he ▸ (mem_marked.mp hF).2⟩
  · by_cases hnone : read = []
    · right
      intro F hF
      have hname := (mem_marked.mp hF).2
      rwa [namesOf, if_pos hnone, Finset.mem_singleton] at hname
    · left
      intro F hF
      obtain ⟨hne, hfree⟩ := hread _ ((mem_namesOf hnone).mp (mem_marked.mp hF).2)
      exact ⟨fun he => hne (by rw [he]; rfl), hfree⟩

/-- A word that is no base name, and then the base names of the set. -/
theorem Markable.listed {cxaDemangle : String → Option String} {M : Module Fn} {S : Finset Fn}
    (h : Markable cxaDemangle M S) (hwords : ∀ F ∈ S, IsWord (baseName cxaDemangle M F)) :
    marked cxaDemangle M (namesOf (words isSpace
      (listing true ("(" :: S.toList.map (baseName cxaDemangle M))))) = S := by
  have hparen : words isSpace "(".toList = [['(']] := rfl
  have hread : words isSpace (listing true ("(" :: S.toList.map (baseName cxaDemangle M))) =
      ['('] :: S.toList.map fun F => (baseName cxaDemangle M F).toList := by
    rw [words_listing, List.flatMap_cons, hparen, List.singleton_append, List.flatMap_map,
      List.map_eq_flatMap]
    congr 1
    exact List.flatMap_congr fun F hF => words_of_isWord (hwords F (Finset.mem_toList.mp hF))
  ext F
  rw [hread, mem_marked, mem_namesOf (List.cons_ne_nil _ _), List.mem_cons]
  constructor
  · rintro ⟨hF, hfirst | hlisted⟩
    · exact absurd (String.toList_inj.mp hfirst) (baseName_ne_paren cxaDemangle M F)
    · obtain ⟨G, hG, he⟩ := List.mem_map.mp hlisted
      exact h.overloads G (Finset.mem_toList.mp hG) F hF (String.toList_inj.mp he).symm
  · intro hF
    exact ⟨h.inside F hF, .inr (List.mem_map.mpr ⟨F, Finset.mem_toList.mpr hF, rfl⟩)⟩

/-- A file without words marks what has no base name. -/
theorem Markable.unnamed {cxaDemangle : String → Option String} {M : Module Fn} {S : Finset Fn}
    (h : Markable cxaDemangle M S) {F : Fn} (hF : F ∈ S)
    (hempty : ∀ F ∈ S, baseName cxaDemangle M F = "") :
    marked cxaDemangle M (namesOf []) = S := by
  ext G
  rw [mem_marked, namesOf, if_pos rfl, Finset.mem_singleton]
  constructor
  · intro hG
    exact h.overloads F hF G hG.1 (hG.2.trans (hempty F hF).symm)
  · exact fun hG => ⟨h.inside G hG, hempty G hG⟩

end AssertFunctionInformation

namespace AssertFunctionMarkPass
open AssertFunctionInformation FunctionFilterPass

variable {Fn : Type} [LinearOrder Fn] [OrderBot Fn]

/-- What the object has marked before stays marked. -/
def runOnModule (cxaDemangle : String → Option String) (M : Module Fn) (inputFilename : String)
    (files : String → Option (List Char)) (info : AssertFunctionInformation Fn) :
    Except Fault (AssertFunctionInformation Fn) :=
  if inputFilename ≠ "" then collectAssertFunctions cxaDemangle M info (files inputFilename)
  else .ok info

/-- The pass never stops, whatever the text of its file, and what it can add to the marks in a
module is exactly the sets that hold the overloads of each function they hold and consist of
functions whose base names are words, or of functions whose base name is empty. -/
theorem runOnModule_marks_iff (cxaDemangle : String → Option String) (M : Module Fn) :
    (∀ inputFilename files, ∃ S, ∀ info, runOnModule cxaDemangle M inputFilename files info =
      .ok ⟨info.assertFunctions ∪ S⟩) ∧
    ∀ S, (∃ inputFilename files, ∀ info, runOnModule cxaDemangle M inputFilename files info =
      .ok ⟨info.assertFunctions ∪ S⟩) ↔ Markable cxaDemangle M S := by
  have hrun : ∀ inputFilename files, ∃ S, Markable cxaDemangle M S ∧ ∀ info,
      runOnModule cxaDemangle M inputFilename files info = .ok ⟨info.assertFunctions ∪ S⟩ := by
    intro inputFilename files
    have hnone : Markable cxaDemangle M ∅ := ⟨by simp, by simp, .inl (by simp)⟩
    unfold runOnModule
    split
    · cases files inputFilename with
      | none => exact ⟨∅, hnone, fun info => by rw [collectAssertFunctions, Finset.union_empty]⟩
      | some text =>
        exact ⟨_, markable_marked cxaDemangle M _ fun w => mem_words, fun info =>
          collectAssertFunctions_eq cxaDemangle M info text⟩
    · exact ⟨∅, hnone, fun info => by rw [Finset.union_empty]⟩
  refine ⟨fun inputFilename files => ?_, fun S => ⟨fun h => ?_, fun h => ?_⟩⟩
  · obtain ⟨S, -, hS⟩ := hrun inputFilename files
    exact ⟨S, hS⟩
  · obtain ⟨inputFilename, files, hS⟩ := h
    obtain ⟨S', hmarkable, hS'⟩ := hrun inputFilename files
    have hsame := (hS {}).symm.trans (hS' {})
    simp only [Finset.empty_union, Except.ok.injEq, AssertFunctionInformation.mk.injEq] at hsame
    rwa [hsame]
  · have hfile : ∃ text, marked cxaDemangle M (namesOf (words isSpace text)) = S := by
      rcases h.readable with hwords | hempty
      · exact ⟨_, h.listed hwords⟩
      · rcases S.eq_empty_or_nonempty with rfl | ⟨F, hF⟩
        · exact ⟨_, h.listed (by simp)⟩
        · exact ⟨[], h.unnamed hF hempty⟩
    obtain ⟨text, htext⟩ := hfile
    refine ⟨"functions", fun _ => some text, fun info => ?_⟩
    rw [runOnModule, if_pos (by decide), collectAssertFunctions_eq, htext]

end AssertFunctionMarkPass

end SelfChecksumming
