import Mathlib.Order.Nat
import SelfChecksumming.Filter.FunctionFilter

/-! # Filter files with one name on each line

The usage asks for one name on each line, and the pass splits the lines into words. -/
namespace SelfChecksumming
open Library

namespace FunctionFilterPass

variable {Fn : Type} [LinearOrder Fn] [OrderBot Fn]

/-- A file with one name on each line; the last line is broken or not. -/
def listing (finalBreak : Bool) (names : List String) : List Char :=
  List.intercalate ['\n'] (names.map String.toList) ++ if finalBreak then ['\n'] else []

theorem words_listing (finalBreak : Bool) (names : List String) :
    words isSpace (listing finalBreak names) =
      names.flatMap fun n => words isSpace n.toList := by
  have hbreak : isSpace '\n' = true := rfl
  have hlines : words isSpace (List.intercalate ['\n'] (names.map String.toList)) =
      names.flatMap fun n => words isSpace n.toList := by
    rw [words_intercalate hbreak, List.flatMap_map]
  cases finalBreak with
  | false => rw [listing, if_neg Bool.false_ne_true, List.append_nil, hlines]
  | true => rw [listing, if_pos rfl, words_append_cons _ _ hbreak, words_nil, List.append_nil, hlines]

/-- The names that the pass gets from such a file. -/
def listedNames (names : List String) : Finset String :=
  namesOf (names.flatMap fun n => words isSpace n.toList)

/-- A name without white space. -/
def IsWord (name : String) : Prop := name ≠ "" ∧ ∀ c ∈ name.toList, isSpace c = false

theorem words_of_isWord {name : String} (h : IsWord name) :
    words isSpace name.toList = [name.toList] :=
  words_eq_singleton h.2 fun hnil => h.1 (String.toList_eq_nil_iff.mp hnil)

/-- When a listed set of functions is what the pass selects. -/
structure Listable (cxaDemangle : String → Option String) (M : Module Fn) (S : List Fn) : Prop where
  count : (listedNames (S.map (nameOf cxaDemangle M))).card = S.length
  inside : ∀ F ∈ S, IsWord (nameOf cxaDemangle M F) ∨
    M.getName F ∈ listedNames (S.map (nameOf cxaDemangle M))
  outside : ∀ G ∈ M.functions, G ∉ S →
    nameOf cxaDemangle M G ∉ listedNames (S.map (nameOf cxaDemangle M)) ∧
      M.getName G ∉ listedNames (S.map (nameOf cxaDemangle M))

/-- A listed function has its own name among the names that are read when it is a word. -/
theorem nameOf_listed {cxaDemangle : String → Option String} {M : Module Fn} {S : List Fn} {F : Fn}
    (hF : F ∈ S) (hword : IsWord (nameOf cxaDemangle M F)) :
    nameOf cxaDemangle M F ∈ listedNames (S.map (nameOf cxaDemangle M)) := by
  have hmem : (nameOf cxaDemangle M F).toList ∈
      (S.map (nameOf cxaDemangle M)).flatMap fun n => words isSpace n.toList :=
    List.mem_flatMap.mpr ⟨_, List.mem_map_of_mem hF, by simp [words_of_isWord hword]⟩
  exact (mem_namesOf (List.ne_nil_of_mem hmem)).mpr hmem

/-- A name among those that are read is a word, or the symbol of a function without one. -/
theorem isWord_of_listed {cxaDemangle : String → Option String} {M : Module Fn}
    {names : List String} {F : Fn} (h : nameOf cxaDemangle M F ∈ listedNames names) :
    IsWord (nameOf cxaDemangle M F) ∨ M.getName F ∈ listedNames names := by
  by_cases hnone : (names.flatMap fun n => words isSpace n.toList) = []
  · right
    have hempty : nameOf cxaDemangle M F = "" := by
      rw [listedNames, namesOf, if_pos hnone, Finset.mem_singleton] at h
      exact h
    have hsymbol : M.getName F = nameOf cxaDemangle M F := by
      unfold nameOf demangledName at hempty ⊢
      by_cases hd : demangle cxaDemangle (M.getName F) = ""
      · simp only [if_pos hd]
      · simp only [if_neg hd] at hempty
        exact absurd hempty hd
    rwa [hsymbol]
  · left
    obtain ⟨n, -, hn⟩ := List.mem_flatMap.mp ((mem_namesOf hnone).mp h)
    obtain ⟨hne, hspace⟩ := mem_words hn
    exact ⟨fun he => hne (by rw [he]; rfl), hspace⟩

/-- Exactly when a listed set of functions is loaded as it is: there are as many words in
the listed names as functions, those whose name is not a word are found by their symbol,
and no word names another function. -/
theorem loadFile_listing_iff (cxaDemangle : String → Option String) (M : Module Fn) {S : List Fn}
    (hS : ∀ F ∈ S, F ∈ M.functions) (hnd : S.Nodup) (finalBreak : Bool) :
    loadFile cxaDemangle M .init (some (listing finalBreak (S.map (nameOf cxaDemangle M)))) =
      .ok ⟨S.toFinset⟩ ↔ Listable cxaDemangle M S := by
  have hcard : S.toFinset.card = S.length := List.toFinset_card_of_nodup hnd
  rw [loadFile_ok, words_listing]
  show (selected cxaDemangle M (listedNames (S.map (nameOf cxaDemangle M)))).card =
    (listedNames (S.map (nameOf cxaDemangle M))).card ∧
      selected cxaDemangle M (listedNames (S.map (nameOf cxaDemangle M))) = S.toFinset ↔ _
  constructor
  · intro h
    obtain ⟨hcount, hsel⟩ := h
    have hmem : ∀ F, F ∈ S ↔ F ∈ M.functions ∧
        (nameOf cxaDemangle M F ∈ listedNames (S.map (nameOf cxaDemangle M)) ∨
          M.getName F ∈ listedNames (S.map (nameOf cxaDemangle M))) := by
      intro F
      rw [← List.mem_toFinset, ← hsel, mem_selected]
    refine ⟨?_, fun F hF => ?_, fun G hG hno => ?_⟩
    · rw [← hcount, hsel, hcard]
    · rcases ((hmem F).mp hF).2 with hname | hsymbol
      · exact isWord_of_listed hname
      · exact .inr hsymbol
    · rw [← not_or]
      exact fun hlisted => hno ((hmem G).mpr ⟨hG, hlisted⟩)
  · intro h
    have hsel : selected cxaDemangle M (listedNames (S.map (nameOf cxaDemangle M))) =
        S.toFinset := by
      ext F
      rw [mem_selected, List.mem_toFinset]
      constructor
      · intro hF
        by_contra hno
        exact not_or.mpr (h.outside F hF.1 hno) hF.2
      · intro hF
        refine ⟨hS F hF, ?_⟩
        rcases h.inside F hF with hword | hsymbol
        · exact .inl (nameOf_listed hF hword)
        · exact .inr hsymbol
    exact ⟨by rw [hsel, hcard, h.count], hsel⟩

/-- Names without white space are listable, when no other function has one of them for its
symbol. -/
theorem listable_of_words {cxaDemangle : String → Option String} {M : Module Fn} {S : List Fn}
    (hdistinct : ∀ F ∈ M.functions, ∀ G ∈ M.functions,
      nameOf cxaDemangle M F = nameOf cxaDemangle M G → F = G)
    (hS : ∀ F ∈ S, F ∈ M.functions) (hnd : S.Nodup) (hne : S ≠ [])
    (hwords : ∀ F ∈ S, IsWord (nameOf cxaDemangle M F))
    (hsymbols : ∀ G ∈ M.functions, G ∉ S → M.getName G ∉ S.map (nameOf cxaDemangle M)) :
    Listable cxaDemangle M S := by
  have hflat : (S.map (nameOf cxaDemangle M)).flatMap (fun n => words isSpace n.toList) =
      (S.map (nameOf cxaDemangle M)).map String.toList := by
    rw [List.flatMap_map, List.map_map, List.map_eq_flatMap]
    exact List.flatMap_congr fun F hF => words_of_isWord (hwords F hF)
  have hlisted : ∀ n, n ∈ listedNames (S.map (nameOf cxaDemangle M)) ↔
      n ∈ S.map (nameOf cxaDemangle M) := by
    intro n
    rw [listedNames, hflat, mem_namesOf (by simpa using hne)]
    exact List.mem_map_of_injective fun a b => String.toList_inj.mp
  refine ⟨?_, fun F hF => .inl (hwords F hF), fun G hG hno => ?_⟩
  · have hset : listedNames (S.map (nameOf cxaDemangle M)) =
        (S.map (nameOf cxaDemangle M)).toFinset :=
      Finset.ext fun n => (hlisted n).trans List.mem_toFinset.symm
    have hnames : (S.map (nameOf cxaDemangle M)).Nodup :=
      hnd.map_on fun F hF G hG => hdistinct F (hS F hF) G (hS G hG)
    rw [hset, List.toFinset_card_of_nodup hnames, List.length_map]
  · rw [hlisted, hlisted]
    refine ⟨fun hmem => ?_, hsymbols G hG hno⟩
    obtain ⟨F, hF, he⟩ := List.mem_map.mp hmem
    exact hno (hdistinct F (hS F hF) G hG he ▸ hF)

/-- A function with two parameters, and `main`. -/
def signatureModule : Module Nat where
  functions := [1, 2]
  deref F := { name := if F = 1 then "_Z1fic" else "main", blocks := [] }
  nodup := by decide
  nonnull := by decide
  unique := by decide
  terminated F _ block hblock := by cases hblock

def signatureDemangle (name : String) : Option String :=
  if name = "_Z1fic" then some "f(int, char)" else none

/-- `operator delete`, and functions whose names are words of its name and its symbol. -/
def deleteModule : Module Nat where
  functions := [1, 2, 3, 4]
  deref F :=
    { name := if F = 1 then "_ZdlPv" else if F = 2 then "operator"
        else if F = 3 then "_Z6_ZdlPv" else "main"
      blocks := [] }
  nodup := by decide
  nonnull := by decide
  unique := by decide
  terminated F _ block hblock := by cases hblock

def deleteDemangle (name : String) : Option String :=
  if name = "_ZdlPv" then some "operator delete(void*)"
  else if name = "_Z6_ZdlPv" then some "_ZdlPv" else none

theorem deleteModule_listed : listedNames ([1, 2, 3].map (nameOf deleteDemangle deleteModule)) =
    {"operator", "delete(void*)", "_ZdlPv"} := by decide +kernel

/-- `main` is listed and loaded. Of the others the first one is found by its symbol. -/
theorem loadFile_listing_iff_sample :
    loadFile signatureDemangle signatureModule .init (some "main\n".toList) = .ok ⟨{2}⟩ ∧
    loadFile deleteDemangle deleteModule .init
      (some "operator delete(void*)\noperator\n_ZdlPv\n".toList) = .ok ⟨{1, 2, 3}⟩ := by
  constructor
  · have hnames : ∀ F ∈ signatureModule.functions, ∀ G ∈ signatureModule.functions,
        nameOf signatureDemangle signatureModule F = nameOf signatureDemangle signatureModule G →
          F = G := by decide
    have hmain : IsWord "main" := by
      have hall : "main".toList.all (fun c => !isSpace c) = true := rfl
      exact ⟨by decide, fun c hc => by simpa using List.all_eq_true.mp hall c hc⟩
    have hlistable : Listable signatureDemangle signatureModule [2] :=
      listable_of_words hnames (by decide) (by decide) (by decide)
        (List.forall_mem_singleton.mpr hmain) (by decide)
    exact (loadFile_listing_iff signatureDemangle signatureModule (by decide) (by decide) true).mpr
      hlistable
  · have hword : ∀ name ∈ ["operator", "_ZdlPv"], IsWord name := by
      have hall : ["operator", "_ZdlPv"].all (fun name => name != "" &&
        name.toList.all fun c => !isSpace c) = true := by decide +kernel
      intro name hname
      have hone := List.all_eq_true.mp hall name hname
      simp only [Bool.and_eq_true, bne_iff_ne] at hone
      exact ⟨hone.1, fun c hc => by simpa using List.all_eq_true.mp hone.2 c hc⟩
    have hlistable : Listable deleteDemangle deleteModule [1, 2, 3] := by
      refine ⟨?_, ?_, ?_⟩
      · rw [deleteModule_listed]
        decide +kernel
      · rw [deleteModule_listed, List.forall_mem_cons, List.forall_mem_cons,
          List.forall_mem_singleton]
        exact ⟨.inr (by decide +kernel), .inl (hword _ (by decide +kernel)),
          .inl (hword _ (by decide +kernel))⟩
      · rw [deleteModule_listed]
        decide +kernel
    exact (loadFile_listing_iff deleteDemangle deleteModule (by decide) (by decide) true).mpr
      hlistable

/-- A name with a blank is read as two names, and no line is read as the empty name. -/
theorem signature_exits :
    loadFile signatureDemangle signatureModule .init
        (some (listing true [nameOf signatureDemangle signatureModule 1])) =
      .error (.exit (countError 2 0)) ∧
    loadFile signatureDemangle signatureModule .init (some (listing false [])) =
      .error (.exit (countError 1 0)) := ⟨rfl, rfl⟩

end FunctionFilterPass

end SelfChecksumming
