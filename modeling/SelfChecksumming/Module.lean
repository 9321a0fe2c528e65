import Mathlib.Data.Finset.Insert
import Mathlib.Order.BoundedOrder.Basic

/-! # Modules, as far as the passes look at them

`Fn` is the type of `Function *`, with `⊥` the null pointer. A module lists its
functions and says what each pointer refers to. -/
namespace SelfChecksumming

/-- Which instruction: one that the module came with, or the `j`-th one of the
`k`-th guard. -/
inductive InstId where
  | original (n : Nat)
  | guard (k j : Nat)
  deriving DecidableEq, Repr

/-- `constant` is a constant integer of another width, sign-extended. -/
inductive Value where
  | i16 (v : UInt16)
  | i32 (v : UInt32)
  | constant (bits : Nat) (v : Int)
  | result (id : InstId)
  | other (n : Nat)
  deriving DecidableEq, Repr

inductive Opcode where
  | phi
  | dbgInfo
  | terminator
  | alloca (name : String)
  | store (value pointer : Value)
  | load (pointer : Value)
  | call (callee : String) (args : List Value)
  | other
  deriving DecidableEq, Repr

/-- `metadata` holds the attached kinds, each with the string of its node. -/
structure Instruction where
  id : InstId
  op : Opcode
  metadata : List (String × String) := []
  deriving DecidableEq, Repr

/-- The first block is the entry block; a declaration has none. -/
structure Function where
  name : String
  blocks : List (List Instruction)
  deriving DecidableEq, Repr

def Function.isDeclaration (F : Function) : Bool := F.blocks.isEmpty

def Function.empty (F : Function) : Bool := F.blocks.isEmpty

/-- `x` is one of the instructions of a function. -/
def Function.Contains (F : Function) (x : Instruction) : Prop := ∃ block ∈ F.blocks, x ∈ block

/-- A verified module: symbols are unique and every block ends with its terminator. At most
one of its functions is without a name, which LLVM allows for any number of them. -/
structure Module (Fn : Type) [LinearOrder Fn] [OrderBot Fn] where
  functions : List Fn
  deref : Fn → Function
  nodup : functions.Nodup
  nonnull : ⊥ ∉ functions
  unique : ∀ F ∈ functions, ∀ G ∈ functions, (deref F).name = (deref G).name → F = G
  terminated : ∀ F ∈ functions, ∀ block ∈ (deref F).blocks,
    ∃ body t, block = body ++ [t] ∧ t.op = .terminator

variable {Fn : Type} [LinearOrder Fn] [OrderBot Fn]

def Module.getName (M : Module Fn) (F : Fn) : String := (M.deref F).name

/-- `module.getFunction(name)`, null when there is no such function. -/
def Module.getFunction (M : Module Fn) (name : String) : Fn :=
  (M.functions.find? fun F => M.getName F = name).getD ⊥

theorem Module.getFunction_getName (M : Module Fn) {F : Fn} (h : F ∈ M.functions) :
    M.getFunction (M.getName F) = F := by
  unfold getFunction
  cases hf : M.functions.find? fun G => M.getName G = M.getName F with
  | none => simpa using List.find?_eq_none.mp hf F h
  | some G =>
    have hG : M.getName G = M.getName F := by simpa using List.find?_some hf
    exact M.unique G (List.mem_of_find?_eq_some hf) F h hG

theorem Module.ne_bot (M : Module Fn) {F : Fn} (h : F ∈ M.functions) : F ≠ ⊥ :=
  fun he => M.nonnull (he ▸ h)

theorem Module.getFunction_mem (M : Module Fn) {name : String} {F : Fn}
    (h : M.getFunction name = F) (hne : F ≠ ⊥) : F ∈ M.functions ∧ M.getName F = name := by
  unfold getFunction at h
  cases hf : M.functions.find? fun G => M.getName G = name with
  | none => rw [hf] at h; exact absurd h.symm hne
  | some G =>
    rw [hf] at h
    obtain rfl : G = F := h
    exact ⟨List.mem_of_find?_eq_some hf, by simpa using List.find?_some hf⟩

/-! ## Sets of functions -/

structure FunctionInformation (Fn : Type) where
  functions : Finset Fn

namespace FunctionInformation

def init : FunctionInformation Fn := ⟨∅⟩

def addFunction (info : FunctionInformation Fn) (F : Fn) : FunctionInformation Fn :=
  ⟨insert F info.functions⟩

def isFunction (info : FunctionInformation Fn) (F : Fn) : Bool :=
  if info.functions = ∅ ∨ F = ⊥ then false else F ∈ info.functions

end FunctionInformation

end SelfChecksumming
