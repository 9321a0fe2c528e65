import SelfChecksumming.Network.Construct
import SelfChecksumming.Network.Json
import SelfChecksumming.Network.Sort
import SelfChecksumming.Pass.Guard
import SelfChecksumming.Pass.Stats
import Mathlib.Data.Finset.Card
import Mathlib.Order.Nat

/-! # SCPass::runOnModule

The pass sorts the functions of a module into sensitive and other ones, builds or
loads a network, and walks its reverse topological sort to inject the guards. -/
namespace SelfChecksumming
open Library

/-- The command line; `false`, zero and empty are what an absent option reads as. -/
structure Options where
  useOtherFunctions : Bool := false
  sensitiveOnlyChecked : Bool := false
  extractedOnly : Bool := false
  desiredConnectivity : Int32 := 0
  loadCheckersNetwork : String := ""
  dumpSCStat : String := ""
  dumpCheckersNetwork : String := ""

/-- What the pass asks for: the input dependency analysis (`isExtractedFunction` of a
function that has a result), the filter, `__cxa_demangle`, the random numbers of the
two shuffles here and of the network's, and the files. -/
structure Environment (Fn : Type) where
  analysisInfo : Fn → Option Bool
  filter : FunctionInformation Fn
  cxaDemangle : String → Option String
  shuffleSensitive : Shuffle Fn
  shuffleOther : Shuffle Fn
  shuffles : Nat → Shuffle Nat
  networkFile : String → NetworkFile

variable {Fn : Type} [LinearOrder Fn] [OrderBot Fn]

/-! ## Classification -/

structure Classified (Fn : Type) where
  sensitiveFunctions : List Fn := []
  otherFunctions : List Fn := []
  countProcessedFuncs : Nat := 0

/-- One iteration over the functions of the module. -/
def classifyFunction (opts : Options) (env : Environment Fn) (M : Module Fn) (c : Classified Fn)
    (F : Fn) : Classified Fn :=
  if (M.deref F).isDeclaration || (M.deref F).empty || M.getName F = "guardMe" then c
  else
    let c := { c with countProcessedFuncs := c.countProcessedFuncs + 1 }
    match env.analysisInfo F with
    | none => c
    | some isExtracted =>
      let isSensitive := if opts.extractedOnly then isExtracted else true
      let isSensitive :=
        if env.filter.functions ≠ ∅ ∧ !env.filter.isFunction F then false else isSensitive
      if opts.extractedOnly && !isExtracted then
        { c with otherFunctions := c.otherFunctions ++ [F] }
      else if !opts.extractedOnly && opts.useOtherFunctions && !isSensitive then
        { c with otherFunctions := c.otherFunctions ++ [F] }
      else if isSensitive then { c with sensitiveFunctions := c.sensitiveFunctions ++ [F] }
      else c

def classify (opts : Options) (env : Environment Fn) (M : Module Fn) : Classified Fn :=
  M.functions.foldl (classifyFunction opts env M) {}

/-! ## The network -/

/-- What `operator<<` prints for a `cl::opt<bool>`. -/
def showFlag (flag : Bool) : String := if flag then "1" else "0"

def sensitiveCheckersError (opts : Options) : Fault :=
  .exit ("Sensitive functions are checkers while SensitiveOnlyChecked is set to:" ++
    showFlag opts.sensitiveOnlyChecked ++ "\n")

/-- The source forgets to return a value behind the loop. -/
def assertSensitiveOnlyCheckedCondition (opts : Options) (sensitiveFunctions : List Fn)
    (checkerFuncMap : SortedMap Fn (List Fn)) : Except Fault Unit :=
  if ∃ func ∈ sensitiveFunctions, (checkerFuncMap.find? func).isSome then
    .error (sensitiveCheckersError opts)
  else flowsOff

def effectiveConnectivity (opts : Options) : Int32 :=
  if opts.desiredConnectivity = 0 then 2 else opts.desiredConnectivity

structure Network (Fn : Type) [LinearOrder Fn] where
  checkerFuncMap : SortedMap Fn (List Fn)
  topologicalSortFuncs : List Fn

def loadNetwork (opts : Options) (env : Environment Fn) (M : Module Fn) :
    Except Fault (Network Fn) := do
  let loaded ← loadJson M (env.networkFile opts.loadCheckersNetwork)
  if opts.dumpSCStat ≠ "" then
    .error (.exit "ERR. Stats is not avalilable for the loaded networks...")
  else .ok ⟨loaded.1, loaded.2⟩

def constructNetwork (opts : Options) (env : Environment Fn)
    (sensitiveFunctions otherFunctions : List Fn) : Except Fault (Network Fn) := do
  let otherFunctions :=
    if !opts.sensitiveOnlyChecked && !opts.extractedOnly then otherFunctions ++ sensitiveFunctions
    else otherFunctions
  let checkerNetwork := DAGCheckersNetwork.setLowerConnectivityAcceptance {} true
  let checkerFuncMap ← checkerNetwork.constructProtectionNetwork env.shuffles sensitiveFunctions
    otherFunctions (effectiveConnectivity opts)
  let topologicalSortFuncs ← getReverseTopologicalSort checkerFuncMap
  let _ ← (if opts.sensitiveOnlyChecked || opts.extractedOnly then
      assertSensitiveOnlyCheckedCondition opts sensitiveFunctions checkerFuncMap
    else .ok ())
  return ⟨checkerFuncMap, topologicalSortFuncs⟩

def checkersNetwork (opts : Options) (env : Environment Fn) (M : Module Fn)
    (sensitiveFunctions otherFunctions : List Fn) : Except Fault (Network Fn) :=
  if opts.loadCheckersNetwork ≠ "" then loadNetwork opts env M
  else constructNetwork opts env sensitiveFunctions otherFunctions

def dumpNetwork (opts : Options) (M : Module Fn) (network : Network Fn) :
    Except Fault (Option Json) :=
  if opts.dumpCheckersNetwork ≠ "" then
    (dumpJson M network.checkerFuncMap network.topologicalSortFuncs).map some
  else .ok none

/-! ## The injection loop -/

/-- The state before the loop: `FunctionMarkerPass` has just been run, and every
sensitive function counts as protected by zero guards. -/
def PassState.start (M : Module Fn) (sensitiveFunctions : List Fn) : PassState Fn where
  deref := M.deref
  functionInfo := .init
  protectedFuncs := sensitiveFunctions.foldl (fun m SF => m.insert SF 0) .empty

/-- One guard in `host`: the tallies, then the instructions. -/
def guardCheckee (env : Environment Fn) (sensitiveFunctions : List Fn) (host : Fn)
    (cs : Cursor × PassState Fn) (Checkee : Fn) : Except Fault (Cursor × PassState Fn) :=
  let st := cs.2
  let st :=
    if Checkee ∈ sensitiveFunctions then
      { st with protectedFuncs := st.protectedFuncs.upsert Checkee fun n => n.getD 0 + 1 }
    else st
  if Checkee = ⊥ then .error nullName
  else
    let st := { st with
      functionInfo := st.functionInfo.addFunction Checkee
      markedFunctionCount := st.markedFunctionCount + 1
      numberOfGuards := st.numberOfGuards + 1 }
    let cs := injectGuard env.cxaDemangle host cs.1 Checkee false st
    .ok (cs.1, { cs.2 with didModify := true })

/-- Put the entry block back. -/
def PassState.setEntryBlock (st : PassState Fn) (F : Fn) (BB : List Instruction) : PassState Fn :=
  { st with
    deref := Function.update st.deref F
      { st.deref F with blocks := BB :: (st.deref F).blocks.tail } }

omit [OrderBot Fn] in
theorem PassState.setEntryBlock_self (st : PassState Fn) (F : Fn) (BB : List Instruction) :
    (st.setEntryBlock F BB).deref F =
      { st.deref F with blocks := BB :: (st.deref F).blocks.tail } :=
  Function.update_self F _ _

omit [OrderBot Fn] in
theorem PassState.setEntryBlock_ne (st : PassState Fn) {F G : Fn} (BB : List Instruction)
    (h : G ≠ F) : (st.setEntryBlock F BB).deref G = st.deref G :=
  Function.update_of_ne h _ _

/-- The guards of one checker. `I` is looked up once, before any of them. -/
def guardHost (env : Environment Fn) (sensitiveFunctions : List Fn)
    (checkerFuncMap : SortedMap Fn (List Fn)) (st : PassState Fn) (F : Fn) :
    Except Fault (PassState Fn) :=
  match checkerFuncMap.find? F with
  | none => .ok st
  | some checkees =>
    if F = ⊥ then .error (.undefined "getEntryBlock() of a null pointer")
    else
      match (st.deref F).blocks with
      | [] => .error (.undefined "getEntryBlock() of a declaration")
      | BB :: _ =>
        match getFirstNonPHIOrDbg BB with
        | none => if checkees = [] then .ok st else .error (.undefined "builder at a null pointer")
        | some I =>
          match checkees.foldlM (guardCheckee env sensitiveFunctions F) (I, st) with
          | .error fault => .error fault
          | .ok cs => .ok (cs.2.setEntryBlock F cs.1.block)

/-- The hosts in the order of the sort. -/
def injectGuards (env : Environment Fn) (M : Module Fn) (sensitiveFunctions : List Fn)
    (net : Network Fn) : Except Fault (PassState Fn) :=
  net.topologicalSortFuncs.foldlM (guardHost env sensitiveFunctions net.checkerFuncMap)
    (.start M sensitiveFunctions)

/-! ## The whole run -/

def instructionCount (F : Function) : Nat := (F.blocks.map List.length).sum

def passStats (opts : Options) (sensitiveFunctions : List Fn) (st : PassState Fn) : Stats :=
  let stats : Stats := {}
  let stats := stats.setNumberOfSensitiveInstructions
    (sensitiveFunctions.map fun F => instructionCount (st.deref F)).sum
  let stats := stats.addNumberOfGuards st.numberOfGuards
  let stats := stats.addNumberOfProtectedFunctions st.protectedFuncs.entries.length
  let stats := stats.addNumberOfGuardInstructions st.numberOfGuardInstructions
  let stats := stats.setDesiredConnectivity (effectiveConnectivity opts).toInt
  let stats := stats.addNumberOfProtectedInstructions
    (st.protectedFuncs.entries.map fun item => instructionCount (st.deref item.1)).sum
  stats.calculateConnectivity (st.protectedFuncs.entries.map fun item => (item.2 : Int))

/-- "Marked functions … are not reflected correctly" -/
def markedError (st : PassState Fn) : List String :=
  let size := st.functionInfo.functions.card
  if st.markedFunctionCount ≠ size then
    ["ERR. Marked functions " ++ toString st.markedFunctionCount ++
      " are not reflected correctly " ++ toString size ++ "\n"]
  else []

/-- "processed … function, while filter count is …" -/
def processedError (env : Environment Fn) (countProcessedFuncs : Nat) : List String :=
  let size := env.filter.functions.card
  if countProcessedFuncs ≠ size ∧ env.filter.functions ≠ ∅ then
    ["ERR. processed " ++ toString countProcessedFuncs ++
      " function, while filter count is " ++ toString size ++ "\n"]
  else []

structure PassResult (Fn : Type) [LinearOrder Fn] where
  sensitiveFunctions : List Fn
  network : Network Fn
  dumped : Option Json
  state : PassState Fn
  stats : Option Stats
  errors : List String

def runOnModule (opts : Options) (env : Environment Fn) (M : Module Fn) :
    Except Fault (PassResult Fn) := do
  let classified := classify opts env M
  let sensitiveFunctions := env.shuffleSensitive.order classified.sensitiveFunctions
  let otherFunctions := env.shuffleOther.order classified.otherFunctions
  let network ← checkersNetwork opts env M sensitiveFunctions otherFunctions
  let dumped ← dumpNetwork opts M network
  let state ← injectGuards env M sensitiveFunctions network
  let stats := if opts.dumpSCStat ≠ "" then some (passStats opts sensitiveFunctions state) else none
  return {
    sensitiveFunctions, network, dumped, state, stats
    errors := markedError state ++ processedError env classified.countProcessedFuncs }

/-! ## A small run -/

/-- Three definitions, of two instructions each. -/
def sampleModule : Module Nat where
  functions := [1, 2, 3]
  deref F :=
    { name := if F = 1 then "f1" else if F = 2 then "f2" else "f3"
      blocks := [[⟨.original F, .other, []⟩, ⟨.original (F + 3), .terminator, []⟩]] }
  nodup := by decide
  nonnull := by decide
  unique := by decide
  terminated F _ block hblock := by
    rw [List.mem_singleton.mp hblock]
    exact ⟨[_], _, rfl, rfl⟩

/-- No filter, no function extracted, nothing shuffled; every network file is `file`. -/
def sampleEnvironment (file : NetworkFile) : Environment Nat where
  analysisInfo _ := some false
  filter := .init
  cxaDemangle _ := none
  shuffleSensitive := .refl
  shuffleOther := .refl
  shuffles _ := .refl
  networkFile _ := file

/-- The second function checks the first one, the third the second. -/
def sampleNetwork : Network Nat := ⟨⟨[(2, [1]), (3, [2])], by decide⟩, [2, 3]⟩

example : (runOnModule {} (sampleEnvironment .unopened) sampleModule).map
    (fun r => r.state.guards.map fun g => (g.host, g.checkee)) = .ok [(2, 1), (3, 1), (3, 2)] := rfl

end SelfChecksumming
