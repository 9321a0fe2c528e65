import SelfChecksumming.Library.Loop
import SelfChecksumming.Library.SortedMap
import SelfChecksumming.Patcher.Python
import Mathlib.Data.Int.Order.Basic

/-! # dump_pipe.py

The script reads the guide, asks radare2 for the functions it names, finds every
placeholder in the binary, and only then overwrites them, line by line. -/
namespace SelfChecksumming
open Library

/-! ## radare2 -/

/-- What radare2 tells about a function. -/
structure FuncInfo where
  name : String
  offset : Nat
  size : Nat
  deriving DecidableEq, Repr

/-- The session on the binary: the analysis, `afij` after some seeks, and the decoded
output of `p6e size@offset` while the file holds the given bytes; an error when the
session breaks or the output is no base64. -/
structure Radare where
  aflj : List FuncInfo
  afij : List String → List FuncInfo
  p6e : List UInt8 → Nat → Nat → Except Fault (List UInt8)

def precomputeHash (r2 : Radare) (file : List UInt8) (offset size : Nat) : Except Fault Nat := do
  let funcBytes ← r2.p6e file size offset
  return funcBytes.foldl (fun h b => h ^^^ b.toNat) 0

/-! ## The guide -/

/-- One entry of `patches`; `hashTarget` is filled in while patching. -/
structure Patch where
  addPlaceholder : Int
  sizePlaceholder : Int
  hashPlaceholder : Int
  addTarget : Nat
  sizeTarget : Nat
  hashTarget : Nat := 0
  dummy : Bool
  deriving DecidableEq, Repr

/-- `funcs[name]`: the last function listed under the name. -/
def lookupFunc (r2 : Radare) (name : String) : Option FuncInfo :=
  r2.aflj.reverse.find? fun function => function.name = name

/-- `name.replace('sym.','')` -/
def dropSym : List Char → List Char
  | 's' :: 'y' :: 'm' :: '.' :: rest => dropSym rest
  | c :: rest => c :: dropSym rest
  | [] => []

/-- The function a guide name stands for and whether it is a mismatch, with the
seeks made so far. -/
def resolve (r2 : Radare) (seeks : List String) (name : String) :
    Except Fault (FuncInfo × Bool × List String) :=
  let targetFunc := if (lookupFunc r2 name).isNone then "sym." ++ name else name
  match lookupFunc r2 targetFunc with
  | some info => .ok (info, false, seeks)
  | none =>
    let seeks := seeks ++ [targetFunc]
    match r2.afij seeks with
    | [] => .error (.exit ("ERR: failed to find function:" ++ targetFunc))
    | info :: _ => .ok (info, dropSym targetFunc.toList ≠ dropSym info.name.toList, seeks)

/-- One line of the guide. -/
def readLine (r2 : Radare) (st : List Patch × List String) (line : List Char) :
    Except Fault (List Patch × List String) := do
  let s := split ',' line
  let targetFunc ← item s 0
  let addPlaceholder ← item s 1 >>= int
  let sizePlaceholder ← item s 2 >>= int
  let hashPlaceholder ← item s 3 >>= int
  let (info, dummy, seeks) ← resolve r2 st.2 (.ofList targetFunc)
  return (st.1 ++ [{ addPlaceholder, sizePlaceholder, hashPlaceholder, dummy
                     addTarget := info.offset, sizeTarget := info.size }], seeks)

def readGuide (r2 : Radare) (guide : List Char) : Except Fault (List Patch) := do
  let content := (readlines guide).map strip
  let st ← content.foldlM (readLine r2) ([], [])
  if st.1.length ≠ content.length then
    .error (.exit "ERR: len (patches) != len( guide)")
  else .ok st.1

/-! ## Finding the placeholders -/

def findPlaceholderSequential (mm : Mmap) (startIndex : Nat) (searchValue : Int) :
    Except Fault (Option Nat) := do
  let searchBytes ← packI searchValue
  return mm.find searchBytes startIndex

/-- Searches from the position, and once more from the start when that fails. -/
def findPlaceholder (mm : Mmap) (searchValue : Int) : Except Fault (Option Nat × Mmap) := do
  let searchBytes ← packI searchValue
  let mm := if (mm.find searchBytes mm.pos).isNone then { mm with pos := 0 } else mm
  return (mm.find searchBytes mm.pos, mm)

/-- The loop that goes on behind each address found. -/
def collectAddresses (mm : Mmap) (value : Int) :
    Nat → Option Nat → List Nat → Except Fault (List Nat)
  | _, none, addresses => .ok addresses
  | 0, some _, _ => .error .outOfFuel
  | fuel + 1, some address, addresses => do
    let next ← findPlaceholderSequential mm (address + 1) value
    collectAddresses mm value fuel next (addresses ++ [address])

/-- One placeholder value. The message that it is missing shows in debug mode only. -/
def findValue (st : Mmap × SortedMap Int (List Nat)) (value : Int) :
    Except Fault (Mmap × SortedMap Int (List Nat)) := do
  let (address, mm) ← findPlaceholder st.1 value
  let found := (st.2.find? value).getD []
  if address.isNone then .error (.exit "")
  else
    let addresses ← collectAddresses mm value (mm.size + 1) address found
    return (mm, st.2.insert value addresses)

inductive PatchKey where
  | addPlaceholder | sizePlaceholder | hashPlaceholder
  deriving DecidableEq, Repr

def Patch.value (patch : Patch) : PatchKey → Int
  | .addPlaceholder => patch.addPlaceholder
  | .sizePlaceholder => patch.sizePlaceholder
  | .hashPlaceholder => patch.hashPlaceholder

/-- The order in which iterating over a patch comes to its three placeholders; the
other keys are passed over. -/
structure DictOrder where
  keys : List PatchKey
  perm : keys.Perm [.addPlaceholder, .sizePlaceholder, .hashPlaceholder]

/-- The values searched for, in turn. -/
def placeholderValues (order : DictOrder) (patches : List Patch) : List Int :=
  patches.flatMap fun patch => order.keys.map patch.value

/-- The check behind the loops compares with a map that stays empty. -/
def findAllPlaceholders (order : DictOrder) (mm : Mmap) (guardPatches : List Patch) :
    Except Fault (Mmap × SortedMap Int (List Nat)) :=
  (placeholderValues order guardPatches).foldlM findValue (mm, .empty)

/-! ## Patching -/

structure PatchState where
  mm : Mmap
  totalPatches : Nat := 0
  dumpPatch : List Patch := []
  deriving DecidableEq, Repr

def patchAddress (mm : Mmap) (addr : Nat) (patchValue : List UInt8) : Except Fault Mmap := do
  let mm ← mm.seek addr
  mm.write patchValue

/-- A stop keeps the state: what was written stays written. -/
def patchAt (targetValue : Int) (st : PatchState) (addr : Nat) :
    Except (Fault × PatchState) PatchState :=
  match packI targetValue >>= patchAddress st.mm addr with
  | .error fault => .error (fault, st)
  | .ok mm => .ok { st with mm := mm, totalPatches := st.totalPatches + 1 }

/-- Always `True` when it returns, so that the checks on its result are left out. -/
def patchPlaceholder (addresses : SortedMap Int (List Nat)) (placeholderValue : Int)
    (targetValue : Nat) (st : PatchState) : Except (Fault × PatchState) PatchState :=
  match addresses.find? placeholderValue with
  | none => .error (.exception "KeyError", st)
  | some found => found.foldlM (patchAt targetValue) st

/-- One iteration of the patching loop. -/
def patchGuard (r2 : Radare) (addresses : SortedMap Int (List Nat)) (st : PatchState)
    (patch : Patch) : Except (Fault × PatchState) PatchState := do
  let st ← patchPlaceholder addresses patch.addPlaceholder patch.addTarget st
  let sizeTarget := if patch.dummy then 0 else patch.sizeTarget
  let st ← patchPlaceholder addresses patch.sizePlaceholder sizeTarget st
  let expectedHash ←
    (precomputeHash r2 st.mm.bytes patch.addTarget patch.sizeTarget).mapError (·, st)
  let expectedHash := if patch.dummy then 0 else expectedHash
  let patch := { patch with hashTarget := expectedHash }
  let st ← patchPlaceholder addresses patch.hashPlaceholder expectedHash st
  return { st with dumpPatch := st.dumpPatch ++ [patch] }

/-- From opening the binary to the end of the patching loop. -/
def patchBinary (r2 : Radare) (order : DictOrder) (binary : List UInt8) (patches : List Patch) :
    Except (Fault × List UInt8) PatchState :=
  if binary = [] then .error (.exception "ValueError: cannot mmap an empty file", binary)
  else
    match findAllPlaceholders order ⟨binary, 0⟩ patches with
    | .error fault => .error (fault, binary)
    | .ok found =>
      match patches.foldlM (patchGuard r2 found.2) { mm := found.1 } with
      | .error stop => .error (stop.1, stop.2.mm.bytes)
      | .ok st => .ok st

/-! ## The whole script -/

/-- `report` is what is printed last, `manifest` what is dumped in dump mode. -/
structure PatchResult where
  binary : List UInt8
  report : String
  manifest : Option (List Patch)
  deriving DecidableEq, Repr

def patchReport (expectedPatches totalPatches : Nat) : String :=
  if totalPatches ≠ expectedPatches then
    "Failed to patch all expected patches: " ++ toString expectedPatches ++ "  total patched: " ++
      toString totalPatches
  else "Successfuly patched all " ++ toString totalPatches ++ " placeholders"

/-- A stop comes with the bytes that it leaves in the file. -/
def dumpPipe (r2 : Radare) (order : DictOrder) (dumpMode : Bool) (binary : List UInt8)
    (guide : Option (List Char)) : Except (Fault × List UInt8) PatchResult :=
  match guide with
  | none => .error (.exit "ERR. patch guide file cannot be found!", binary)
  | some guide =>
    match readGuide r2 guide with
    | .error fault => .error (fault, binary)
    | .ok patches =>
      match patchBinary r2 order binary patches with
      | .error stop => .error stop
      | .ok st =>
        .ok {
          binary := st.mm.bytes
          report := patchReport (patches.length * 3) st.totalPatches
          manifest := if dumpMode then some st.dumpPatch else none }

/-! ## A small binary -/

/-- Three functions of 2, 12 and 12 bytes; the second holds the placeholders of a
first guard, the third those of a second one. -/
def sampleBinary : List UInt8 :=
  [1, 2] ++ [222222222, 555555555, 444444444, 222222223, 555555556, 444444445].flatMap
    (littleEndian 4)

/-- The file is loaded at 4096. -/
def sampleRadare : Radare where
  aflj := [⟨"sym.f1", 4096, 2⟩, ⟨"sym.f2", 4098, 12⟩, ⟨"sym.f3", 4110, 12⟩]
  afij _ := []
  p6e file size offset := .ok (readAt file (offset - 4096) size)

def sampleOrder : DictOrder := ⟨[.hashPlaceholder, .addPlaceholder, .sizePlaceholder], by decide⟩

example : (dumpPipe sampleRadare sampleOrder false sampleBinary (some
      "f1,222222222,555555555,444444444\nf2,222222223,555555556,444444445\n".toList)).toOption.map
        PatchResult.binary =
    some ([1, 2] ++ [4096, 2, 3, 4098, 12, 17].flatMap (littleEndian 4)) := by decide +kernel

/-- The name of the second line is in no table; the seek ends at the third function, with
some size. -/
def mismatchRadare (size : Nat) : Radare :=
  { sampleRadare with afij := fun _ => [⟨"sym.f3", 4110, size⟩] }

def mismatchGuide : List Char :=
  "f1,222222222,555555555,444444444\nf4,222222223,555555556,444444445\n".toList

/-- What is read from it. -/
def mismatchPatches (size : Nat) : List Patch :=
  [⟨222222222, 555555555, 444444444, 4096, 2, 0, false⟩,
    ⟨222222223, 555555556, 444444445, 4110, size, 0, true⟩]

end SelfChecksumming
