import SelfChecksumming.Library.SortedMap
import SelfChecksumming.Module

/-! # One guard

`injectGuard` draws three placeholders, appends their line to the guide and
inserts the instructions that pass them to `guardMe`. -/
namespace SelfChecksumming
open Library

/-! ## The guide -/

/-- The characters that the guide shows as an underscore. -/
def isFolded (c : Char) : Bool :=
  c = '(' || c = '*' || c = '&' || c = ')' || c = ',' || c = '<' || c = '>' || c = '~' || c = '['
    || c = ']'

/-- `cxaDemangle` is `__cxa_demangle`, `none` when its status is not zero. -/
def demangleName (cxaDemangle : String → Option String) (name : String) : String :=
  match cxaDemangle name with
  | none => name
  | some demangled =>
    .ofList ((demangled.toList.filter (· ≠ ' ')).map fun c => if isFolded c then '_' else c)

/-- What `%d` prints for an `unsigned int`: the bits read as an `int`. -/
def formatD (v : UInt32) : List Char :=
  let i := v.toInt32.toInt
  if i < 0 then '-' :: Nat.toDigits 10 i.natAbs else Nat.toDigits 10 i.toNat

/-- A line of guide.txt, as `appendToPatchGuide` writes it. -/
structure GuideLine where
  functionName : String
  address : UInt32
  length : UInt32
  expectedHash : UInt32
  deriving DecidableEq, Repr

/-- `fprintf(pFile, "%s,%d,%d,%d\n", …)` -/
def GuideLine.print (line : GuideLine) : List Char :=
  line.functionName.toList ++ ',' :: formatD line.address ++ ',' :: formatD line.length ++
    ',' :: formatD line.expectedHash ++ ['\n']

def guideText (guide : List GuideLine) : List Char := guide.flatMap GuideLine.print

/-! ## The state of the pass -/

/-- A call of `injectGuard`: who checks whom, with which placeholders. -/
structure Guard (Fn : Type) where
  host : Fn
  checkee : Fn
  address : UInt32
  length : UInt32
  expectedHash : UInt32
  deriving DecidableEq, Repr

/-- `guide` is what this run has appended to guide.txt; `guards` records the
calls of `injectGuard`, which the source keeps nowhere. The counters are of the types
`int` and `unsigned int` there; they agree with these below 2^31. -/
structure PassState (Fn : Type) [LinearOrder Fn] where
  deref : Fn → Function
  functionInfo : FunctionInformation Fn
  markedFunctionCount : Nat := 0
  protectedFuncs : SortedMap Fn Nat
  numberOfGuards : Nat := 0
  numberOfGuardInstructions : Nat := 0
  sizeBegin : UInt32 := 555555555
  addressBegin : UInt32 := 222222222
  expectedHashBegin : UInt32 := 444444444
  guide : List GuideLine := []
  didModify : Bool := false
  guards : List (Guard Fn) := []

/-! ## The insertion point -/

/-- A block split at the instruction that a pointer refers to. -/
structure Cursor where
  before : List Instruction
  I : Instruction
  after : List Instruction

def Cursor.block (c : Cursor) : List Instruction := c.before ++ c.I :: c.after

/-- `BB.getFirstNonPHIOrDbg()`, `none` for the null pointer. -/
def getFirstNonPHIOrDbg : List Instruction → Option Cursor
  | [] => none
  | I :: rest =>
    if I.op = .phi ∨ I.op = .dbgInfo then
      (getFirstNonPHIOrDbg rest).map fun c => { c with before := I :: c.before }
    else some ⟨[], I, rest⟩

/-- Insert behind `I`, but before it when it is a terminator. -/
def Cursor.insertAt (c : Cursor) (insts : List Instruction) : Cursor :=
  if c.I.op = .terminator then { c with before := c.before ++ insts }
  else { c with after := insts ++ c.after }

def scGuardMd : String × String := ("sc_guard", "sc_guard")

/-- The instructions of the `k`-th guard. -/
def guardInstructions (k : Nat) (address length expectedHash : UInt32) (checkeeName : String)
    (isInInputdep : Bool) : List Instruction :=
  let callMd := [scGuardMd, ("guard", checkeeName)]
  if isInInputdep then
    [⟨.guard k 0, .call "guardMe" [.i32 address, .i32 length, .i32 expectedHash], callMd⟩]
  else
    let A := Value.result (.guard k 0)
    let B := Value.result (.guard k 1)
    let C := Value.result (.guard k 2)
    [⟨.guard k 0, .alloca "a", []⟩, ⟨.guard k 1, .alloca "b", []⟩, ⟨.guard k 2, .alloca "c", []⟩,
      ⟨.guard k 3, .store (.i32 address) A, [scGuardMd]⟩,
      ⟨.guard k 4, .store (.i32 length) B, [scGuardMd]⟩,
      ⟨.guard k 5, .store (.i32 expectedHash) C, [scGuardMd]⟩,
      ⟨.guard k 6, .load A, [scGuardMd]⟩, ⟨.guard k 7, .load B, [scGuardMd]⟩,
      ⟨.guard k 8, .load C, [scGuardMd]⟩,
      ⟨.guard k 9, .call "guardMe" [.result (.guard k 6), .result (.guard k 7),
        .result (.guard k 8)], callMd⟩]

variable {Fn : Type} [LinearOrder Fn] [OrderBot Fn]

/-- `c` is the entry block of `host`, split at the saved instruction. -/
def injectGuard (cxaDemangle : String → Option String) (host : Fn) (c : Cursor) (Checkee : Fn)
    (isInInputdep : Bool) (st : PassState Fn) : Cursor × PassState Fn :=
  let length := st.sizeBegin
  let address := st.addressBegin
  let expectedHash := st.expectedHashBegin
  let name := (st.deref Checkee).name
  (c.insertAt (guardInstructions st.guards.length address length expectedHash name isInInputdep),
    { st with
      sizeBegin := st.sizeBegin + 1
      addressBegin := st.addressBegin + 1
      expectedHashBegin := st.expectedHashBegin + 1
      guide := st.guide ++ [⟨demangleName cxaDemangle name, address, length, expectedHash⟩]
      numberOfGuardInstructions :=
        st.numberOfGuardInstructions + if isInInputdep then 1 else 9
      guards := st.guards ++ [⟨host, Checkee, address, length, expectedHash⟩] })

end SelfChecksumming
