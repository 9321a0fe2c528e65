import SelfChecksumming.Library.Loop
import SelfChecksumming.Library.Words
import SelfChecksumming.Module
import SelfChecksumming.Outcome
import SelfChecksumming.Patcher.Python
import Mathlib.Data.Finset.Card

/-! # FunctionFilterPass

The names of a filter file are its words; the functions that one of them names are
filtered, and their number has to be that of the names. -/
namespace SelfChecksumming
open Library

namespace FunctionFilterPass

/-! ## The file -/

/-- A `std::ifstream`: what is left to read, and `eof()`. -/
structure IfStream where
  rest : List Char
  eof : Bool := false

/-- `strm >> name`; when only white space is left, `name` stays what it was. The stream
takes the same characters for white space as Python does. -/
def IfStream.extract (strm : IfStream) (name : List Char) : List Char × IfStream :=
  match strm.rest.dropWhile isSpace with
  | [] => (name, ⟨[], true⟩)
  | c :: rest =>
    let left := (c :: rest).dropWhile fun c => !isSpace c
    ((c :: rest).takeWhile fun c => !isSpace c, ⟨left, left.isEmpty⟩)

/-- The loop that reads the names, from the state of the stream and of `name`. -/
def readNames : Nat → IfStream → List Char → Finset String → Except Fault (Finset String)
  | 0, _, _, _ => .error .outOfFuel
  | fuel + 1, strm, name, functionNames =>
    if strm.eof then .ok functionNames
    else
      let read := strm.extract name
      readNames fuel read.2 read.1 (insert (.ofList read.1) functionNames)

/-! ## The functions -/

/-- Empty when `__cxa_demangle` fails. -/
def demangle (cxaDemangle : String → Option String) (mangledName : String) : String :=
  (cxaDemangle mangledName).getD ""

/-- `demangled_name` of a function. -/
def demangledName (cxaDemangle : String → Option String) (name : String) : String :=
  let demangledName := demangle cxaDemangle name
  if demangledName = "" then name else demangledName

variable {Fn : Type} [LinearOrder Fn] [OrderBot Fn]

/-- The body of the loop over the functions of the module. -/
def filterFunction (cxaDemangle : String → Option String) (M : Module Fn)
    (functionNames : Finset String) (info : FunctionInformation Fn) (F : Fn) :
    FunctionInformation Fn :=
  if demangledName cxaDemangle (M.getName F) ∈ functionNames ∨ M.getName F ∈ functionNames then
    info.addFunction F
  else info

def countError (names functions : Nat) : String :=
  "ERR. filter functions count:" ++ toString names ++ "!=" ++
    "detected functions in binary is:" ++ toString functions ++ "\n"

/-- `file` is what the file holds, `none` when it cannot be opened. -/
def loadFile (cxaDemangle : String → Option String) (M : Module Fn)
    (info : FunctionInformation Fn) : Option (List Char) → Except Fault (FunctionInformation Fn)
  | none => .ok info
  | some text => do
    let functionNames ← readNames (text.length + 2) ⟨text, false⟩ [] ∅
    let info := M.functions.foldl (filterFunction cxaDemangle M functionNames) info
    if info.functions.card ≠ functionNames.card then
      .error (.exit (countError functionNames.card info.functions.card))
    else .ok info

def runOnModule (cxaDemangle : String → Option String) (M : Module Fn) (filterFile : String)
    (files : String → Option (List Char)) : Except Fault (FunctionInformation Fn) :=
  if filterFile ≠ "" then loadFile cxaDemangle M .init (files filterFile)
  else .ok .init

/-! ## The names of a file -/

/-- The names that the loop collects: the words of the file, or the empty name when there
is no word. -/
def namesOf (read : List (List Char)) : Finset String :=
  if read = [] then {""} else (read.map String.ofList).toFinset

/-- At the end of the file the loop is over. -/
theorem readNames_eof (fuel : Nat) (rest name : List Char) (functionNames : Finset String) :
    readNames (fuel + 1) ⟨rest, true⟩ name functionNames = .ok functionNames := rfl

theorem IfStream.extract_nil {rest : List Char} (h : rest.dropWhile isSpace = [])
    (name : List Char) : (IfStream.mk rest false).extract name = (name, ⟨[], true⟩) := by
  simp only [extract, h]

theorem IfStream.extract_cons {rest left : List Char} {c : Char}
    (h : rest.dropWhile isSpace = c :: left) (name : List Char) :
    (IfStream.mk rest false).extract name = ((c :: left).takeWhile fun c => !isSpace c,
      ⟨(c :: left).dropWhile fun c => !isSpace c,
        ((c :: left).dropWhile fun c => !isSpace c).isEmpty⟩) := by
  simp only [extract, h]

/-- What the loop collects: the words that are left, or `name` once more when there is
none. -/
theorem readNames_eq : ∀ (fuel : Nat) (rest name : List Char) (functionNames : Finset String),
    rest.length < fuel → readNames (fuel + 1) ⟨rest, false⟩ name functionNames = .ok
      (if words isSpace rest = [] then insert (String.ofList name) functionNames
        else functionNames ∪ ((words isSpace rest).map String.ofList).toFinset) := by
  intro fuel
  induction fuel with
  | zero => exact fun _ _ _ h => absurd h (Nat.not_lt_zero _)
  | succ fuel ih =>
    intro rest name functionNames hlen
    rw [readNames, if_neg Bool.false_ne_true, ← words_dropWhile rest]
    cases hskip : rest.dropWhile isSpace with
    | nil => rw [IfStream.extract_nil hskip, readNames_eof, words_nil, if_pos rfl]
    | cons c left =>
      have hc : isSpace c = false := dropWhile_head hskip
      have hshort : (c :: left).length ≤ rest.length := by
        rw [← hskip]
        exact (List.dropWhile_sublist _).length_le
      have hbehind : ((c :: left).dropWhile fun c => !isSpace c).length ≤ left.length := by
        rw [List.dropWhile_cons_of_pos (p := fun c => !isSpace c) (by simp [hc])]
        exact (List.dropWhile_sublist _).length_le
      rw [IfStream.extract_cons hskip, words_takeWhile hc, if_neg (List.cons_ne_nil _ _)]
      generalize (c :: left).takeWhile (fun c => !isSpace c) = word
      cases hrest : (c :: left).dropWhile fun c => !isSpace c with
      | nil =>
        refine (readNames_eof fuel [] word _).trans (congrArg Except.ok (Finset.ext fun n => ?_))
        simp only [words_nil, List.map_cons, List.map_nil, List.mem_toFinset, Finset.mem_insert,
          Finset.mem_union, List.mem_singleton, or_comm]
      | cons sep behind =>
        have hlen' : (sep :: behind).length < fuel := by
          rw [hrest] at hbehind
          simp only [List.length_cons] at hbehind hshort ⊢
          omega
        refine (ih (sep :: behind) word _ hlen').trans
          (congrArg Except.ok (Finset.ext fun n => ?_))
        by_cases hwords : words isSpace (sep :: behind) = []
        · rw [if_pos hwords, hwords]
          simp only [List.map_cons, List.map_nil, List.mem_toFinset, Finset.mem_insert,
            Finset.mem_union, List.mem_singleton]
          tauto
        · rw [if_neg hwords]
          simp only [List.map_cons, List.mem_toFinset, Finset.mem_insert, Finset.mem_union,
            List.mem_cons]
          tauto

/-- The loop ends, with the names of the file. -/
theorem readNames_file (text : List Char) :
    readNames (text.length + 2) ⟨text, false⟩ [] ∅ = .ok (namesOf (words isSpace text)) := by
  rw [readNames_eq _ _ _ _ (Nat.lt_succ_self _), namesOf, Finset.empty_union]
  rfl

theorem mem_namesOf {read : List (List Char)} (h : read ≠ []) {n : String} :
    n ∈ namesOf read ↔ n.toList ∈ read := by
  rw [namesOf, if_neg h, List.mem_toFinset, List.mem_map]
  constructor
  · intro hn
    obtain ⟨w, hw, rfl⟩ := hn
    rwa [String.toList_ofList]
  · exact fun hn => ⟨n.toList, hn, String.ofList_toList⟩

/-! ## What a file selects -/

/-- The name that a function is listed under. -/
def nameOf (cxaDemangle : String → Option String) (M : Module Fn) (F : Fn) : String :=
  demangledName cxaDemangle (M.getName F)

/-- The functions that the names select. -/
def selected (cxaDemangle : String → Option String) (M : Module Fn)
    (functionNames : Finset String) : Finset Fn :=
  M.functions.toFinset.filter fun F =>
    demangledName cxaDemangle (M.getName F) ∈ functionNames ∨ M.getName F ∈ functionNames

theorem mem_selected {cxaDemangle : String → Option String} {M : Module Fn}
    {functionNames : Finset String} {F : Fn} : F ∈ selected cxaDemangle M functionNames ↔
      F ∈ M.functions ∧ (nameOf cxaDemangle M F ∈ functionNames ∨ M.getName F ∈ functionNames) := by
  rw [selected, Finset.mem_filter, List.mem_toFinset]
  rfl

theorem foldl_filterFunction (cxaDemangle : String → Option String) (M : Module Fn)
    (functionNames : Finset String) : ∀ (functions : List Fn) (info : FunctionInformation Fn),
    (functions.foldl (filterFunction cxaDemangle M functionNames) info).functions =
      info.functions ∪ functions.toFinset.filter fun F =>
        demangledName cxaDemangle (M.getName F) ∈ functionNames ∨ M.getName F ∈ functionNames := by
  intro functions
  induction functions with
  | nil => intro info; simp
  | cons F functions ih =>
    intro info
    rw [List.foldl_cons, ih, List.toFinset_cons, Finset.filter_insert]
    unfold filterFunction
    split
    · simp only [FunctionInformation.addFunction, Finset.insert_union, Finset.union_insert]
    · rfl

/-- A file is loaded when it has as many names as they select functions. -/
theorem loadFile_eq (cxaDemangle : String → Option String) (M : Module Fn) (text : List Char) :
    loadFile cxaDemangle M .init (some text) =
      let functionNames := namesOf (words isSpace text)
      let functions := selected cxaDemangle M functionNames
      if functions.card = functionNames.card then .ok ⟨functions⟩
      else .error (.exit (countError functionNames.card functions.card)) := by
  have hinfo : M.functions.foldl (filterFunction cxaDemangle M (namesOf (words isSpace text)))
      .init = ⟨selected cxaDemangle M (namesOf (words isSpace text))⟩ := by
    have hfunctions := foldl_filterFunction cxaDemangle M (namesOf (words isSpace text))
      M.functions .init
    rw [FunctionInformation.init, Finset.empty_union] at hfunctions
    exact congrArg FunctionInformation.mk hfunctions
  unfold loadFile
  simp only [readNames_file, bind, Except.bind, hinfo, ne_eq, ite_not]

theorem loadFile_ok {cxaDemangle : String → Option String} {M : Module Fn} {text : List Char}
    {info : FunctionInformation Fn} :
    loadFile cxaDemangle M .init (some text) = .ok info ↔
      (selected cxaDemangle M (namesOf (words isSpace text))).card =
          (namesOf (words isSpace text)).card ∧
        selected cxaDemangle M (namesOf (words isSpace text)) = info.functions := by
  rw [loadFile_eq]
  constructor
  · intro h
    by_cases hcount : (selected cxaDemangle M (namesOf (words isSpace text))).card =
        (namesOf (words isSpace text)).card
    · rw [if_pos hcount] at h
      cases h
      exact ⟨hcount, rfl⟩
    · rw [if_neg hcount] at h
      cases h
  · intro h
    rw [if_pos h.1, h.2]

end FunctionFilterPass

end SelfChecksumming
