import Mathlib.Order.Nat
import SelfChecksumming.Filter.FunctionFilter
import SelfChecksumming.Library.Matching

/-! # Whether a loaded filter is complete

A name can select several functions and a function can have two names, so that as many
functions as names does not mean that every name selects one. -/
namespace SelfChecksumming
open Library

namespace FunctionFilterPass

variable {Fn : Type} [LinearOrder Fn] [OrderBot Fn]

/-! ## What is counted twice -/

/-- A name selects a function. -/
def Selects (cxaDemangle : String → Option String) (M : Module Fn) (F : Fn) (name : String) :
    Prop := name = nameOf cxaDemangle M F ∨ name = M.getName F

instance (cxaDemangle : String → Option String) (M : Module Fn) (F : Fn) (name : String) :
    Decidable (Selects cxaDemangle M F name) :=
  inferInstanceAs (Decidable (name = nameOf cxaDemangle M F ∨ name = M.getName F))

/-- The names that select no function. -/
def missing (cxaDemangle : String → Option String) (M : Module Fn)
    (functionNames : Finset String) : Finset String :=
  functionNames.filter fun name => ∀ F ∈ M.functions, ¬ Selects cxaDemangle M F name

/-- The functions that are named twice, by their symbol and by their demangled name. -/
def namedTwice (cxaDemangle : String → Option String) (M : Module Fn)
    (functionNames : Finset String) : Finset Fn :=
  M.functions.toFinset.filter fun F => nameOf cxaDemangle M F ∈ functionNames ∧
    M.getName F ∈ functionNames ∧ nameOf cxaDemangle M F ≠ M.getName F

/-- The functions that the names select, beyond the first of each name. -/
def furtherFunctions (cxaDemangle : String → Option String) (M : Module Fn)
    (functionNames : Finset String) : Nat :=
  surplus (fun name F => Selects cxaDemangle M F name) functionNames M.functions.toFinset

theorem matched_functions (cxaDemangle : String → Option String) (M : Module Fn)
    (functionNames : Finset String) :
    matched (fun F name => Selects cxaDemangle M F name) M.functions.toFinset functionNames =
      selected cxaDemangle M functionNames := by
  ext F
  rw [mem_matched, mem_selected, List.mem_toFinset]
  refine and_congr_right fun _ => ?_
  simp only [Selects, and_or_left, exists_or, exists_eq_right]

theorem surplus_functions (cxaDemangle : String → Option String) (M : Module Fn)
    (functionNames : Finset String) :
    surplus (fun F name => Selects cxaDemangle M F name) M.functions.toFinset functionNames =
      (namedTwice cxaDemangle M functionNames).card := by
  rw [surplus, namedTwice, Finset.card_filter]
  refine Finset.sum_congr rfl fun F _ => ?_
  have hcard := card_filter_eq_or functionNames (nameOf cxaDemangle M F) (M.getName F)
  have hfilter : functionNames.bipartiteAbove (fun F name => Selects cxaDemangle M F name) F =
      functionNames.filter fun x => x = nameOf cxaDemangle M F ∨ x = M.getName F := rfl
  rw [hfilter, hcard]
  split <;> split <;> first | rfl | tauto

theorem card_matched_names (cxaDemangle : String → Option String) (M : Module Fn)
    (functionNames : Finset String) :
    (matched (fun name F => Selects cxaDemangle M F name) functionNames
      M.functions.toFinset).card + (missing cxaDemangle M functionNames).card =
      functionNames.card := by
  have hmatched : matched (fun name F => Selects cxaDemangle M F name) functionNames
      M.functions.toFinset =
        functionNames.filter fun name => ¬ ∀ F ∈ M.functions, ¬ Selects cxaDemangle M F name := by
    ext name
    rw [mem_matched, Finset.mem_filter]
    simp
  rw [hmatched, missing, Nat.add_comm, Finset.card_filter_add_card_filter_not]

/-- The functions selected and the names in the file, with what each side counts twice. -/
theorem selection_balance (cxaDemangle : String → Option String) (M : Module Fn)
    (functionNames : Finset String) :
    (selected cxaDemangle M functionNames).card + (namedTwice cxaDemangle M functionNames).card +
        (missing cxaDemangle M functionNames).card =
      functionNames.card + furtherFunctions cxaDemangle M functionNames := by
  have hbalance := matched_balance (fun name F => Selects cxaDemangle M F name) functionNames
    M.functions.toFinset
  rw [matched_functions, surplus_functions] at hbalance
  have hnames := card_matched_names cxaDemangle M functionNames
  unfold furtherFunctions
  omega

/-- Exactly when a file of names is loaded if and only if each of them selects a function:
what the names select beyond the first function of each is as much as what is named twice
when no name is missing, and is not that and the missing names when some are. -/
theorem loadFile_complete_iff (cxaDemangle : String → Option String) (M : Module Fn)
    {text : List Char} (hne : words isSpace text ≠ []) :
    ((∃ info, loadFile cxaDemangle M .init (some text) = .ok info) ↔
      ∀ w ∈ words isSpace text, ∃ F ∈ M.functions, Selects cxaDemangle M F (.ofList w)) ↔
    (missing cxaDemangle M (namesOf (words isSpace text)) = ∅ →
      furtherFunctions cxaDemangle M (namesOf (words isSpace text)) =
        (namedTwice cxaDemangle M (namesOf (words isSpace text))).card) ∧
    (missing cxaDemangle M (namesOf (words isSpace text)) ≠ ∅ →
      furtherFunctions cxaDemangle M (namesOf (words isSpace text)) ≠
        (namedTwice cxaDemangle M (namesOf (words isSpace text))).card +
          (missing cxaDemangle M (namesOf (words isSpace text))).card) := by
  have hbalance := selection_balance cxaDemangle M (namesOf (words isSpace text))
  have hload : (∃ info, loadFile cxaDemangle M .init (some text) = .ok info) ↔
      (selected cxaDemangle M (namesOf (words isSpace text))).card =
        (namesOf (words isSpace text)).card := by
    simp only [loadFile_ok]
    exact ⟨fun ⟨_, hcount, _⟩ => hcount, fun hcount => ⟨⟨_⟩, hcount, rfl⟩⟩
  have hfound : (∀ w ∈ words isSpace text, ∃ F ∈ M.functions,
      Selects cxaDemangle M F (.ofList w)) ↔
        missing cxaDemangle M (namesOf (words isSpace text)) = ∅ := by
    rw [missing, Finset.filter_eq_empty_iff]
    constructor
    · intro h name hname hno
      obtain ⟨F, hF, hsel⟩ := h name.toList ((mem_namesOf hne).mp hname)
      rw [String.ofList_toList] at hsel
      exact hno F hF hsel
    · intro h w hw
      by_contra hno
      refine h ((mem_namesOf hne).mpr (by rwa [String.toList_ofList])) fun F hF hsel => hno ?_
      exact ⟨F, hF, hsel⟩
  rw [hload, hfound]
  by_cases hmissing : missing cxaDemangle M (namesOf (words isSpace text)) = ∅
  · rw [hmissing, Finset.card_empty] at hbalance
    simp only [hmissing, iff_true, forall_const, ne_eq, not_true_eq_false, false_imp_iff, and_true]
    omega
  · simp only [hmissing, iff_false, false_imp_iff, true_and, ne_eq, not_false_eq_true,
      forall_const]
    omega

/-- The two constructors of a class, and `main`. -/
def constructorModule : Module Nat where
  functions := [11, 12, 13]
  deref F :=
    { name := if F = 11 then "_ZN1AC1Ev" else if F = 12 then "_ZN1AC2Ev" else "main", blocks := [] }
  nodup := by decide
  nonnull := by decide
  unique := by decide
  terminated F _ block hblock := by cases hblock

def constructorDemangle (name : String) : Option String :=
  if name = "_ZN1AC1Ev" ∨ name = "_ZN1AC2Ev" then some "A::A()" else none

/-- Names of one function each are loaded because each of them selects one. -/
theorem loadFile_complete_iff_sample :
    (∃ info, loadFile constructorDemangle constructorModule .init
      (some "main _ZN1AC1Ev\n".toList) = .ok info) ↔
    ∀ w ∈ words isSpace "main _ZN1AC1Ev\n".toList, ∃ F ∈ constructorModule.functions,
      Selects constructorDemangle constructorModule F (.ofList w) :=
  (loadFile_complete_iff constructorDemangle constructorModule (by decide)).mpr
    ⟨fun _ => by decide, fun hmissing => absurd (by decide) hmissing⟩

/-- The name of both constructors stops the pass, and hides a name that is missing. -/
theorem constructor_name_miscounted :
    loadFile constructorDemangle constructorModule .init (some "A::A()\n".toList) =
      .error (.exit (countError 1 2)) ∧
    (∀ w ∈ words isSpace "A::A()\n".toList, ∃ F ∈ constructorModule.functions,
      Selects constructorDemangle constructorModule F (.ofList w)) ∧
    loadFile constructorDemangle constructorModule .init (some "A::A()\nB::B()\n".toList) =
      .ok ⟨{12, 11}⟩ ∧
    ¬ ∃ F ∈ constructorModule.functions, Selects constructorDemangle constructorModule F "B::B()" :=
  ⟨rfl, by decide, rfl, by decide⟩

end FunctionFilterPass

end SelfChecksumming
