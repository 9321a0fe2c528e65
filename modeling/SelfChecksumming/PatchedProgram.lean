import SelfChecksumming.Pass.Meaning
import SelfChecksumming.Pass.Prologue
import SelfChecksumming.Tamper

/-! # The program in a patched file

What is executed in the end is neither the binary nor the instrumented module: the stores
of the guards hold the numbers that a file has in the place of their placeholders, and
their calls get to the `guardMe` of rtlib.c. -/
namespace SelfChecksumming
open Library

variable {Fn σ ε : Type}

/-! ## Constants -/

/-- What a file has in the place of a constant that occurs once in the binary. -/
def patchedConstant (binary file : List UInt8) (v : UInt32) : UInt32 :=
  match occurrences binary v.toNat with
  | [i] => constantAt file i
  | _ => v

/-- The stores of guards are what is patched. -/
def Instruction.patched (binary file : List UInt8) (x : Instruction) : Instruction :=
  match x.id, x.op with
  | .guard _ _, .store (.i32 v) pointer =>
    { x with op := .store (.i32 (patchedConstant binary file v)) pointer }
  | _, _ => x

def patchedProgram (binary file : List UInt8) (q : Program Fn Instruction) :
    Program Fn Instruction := fun F => (q F).map (List.map (Instruction.patched binary file))

/-- The guard with what it hands to `guardMe` then. -/
def Guard.patched (binary file : List UInt8) (g : Guard Fn) : Guard Fn :=
  { g with
    address := patchedConstant binary file g.address
    length := patchedConstant binary file g.length
    expectedHash := patchedConstant binary file g.expectedHash }

section Instructions

variable {binary file : List UInt8} {x : Instruction}

@[simp] theorem Instruction.patched_id (binary file : List UInt8) (x : Instruction) :
    (x.patched binary file).id = x.id := by
  unfold Instruction.patched
  split <;> rfl

@[simp] theorem isInserted_patched (n : Nat) (binary file : List UInt8) (x : Instruction) :
    isInserted n (x.patched binary file) = isInserted n x := by
  rw [isInserted, isInserted, x.patched_id]

theorem Instruction.patched_of_uninserted (h : isInserted 0 x = false) :
    x.patched binary file = x := by
  unfold Instruction.patched
  split
  · rename_i k j v pointer hid hop
    simp [isInserted, hid] at h
  · rfl

theorem Guard.instructions_patched [LinearOrder Fn] [OrderBot Fn] (M : Module Fn) (k : Nat)
    (g : Guard Fn) : (g.patched binary file).instructions M k =
      (g.instructions M k).map (Instruction.patched binary file) := rfl

theorem inOrder_patched {seen : InstId → Prop} {l : List Instruction} (h : InOrder seen l) :
    InOrder seen (l.map (Instruction.patched binary file)) := by
  induction l generalizing seen with
  | nil => trivial
  | cons x l ih =>
    rw [List.map_cons, InOrder, x.patched_id]
    exact ⟨h.1, ih h.2⟩

end Instructions

/-! ## The patched program -/

section Programs

variable {binary file : List UInt8} {p q : Program Fn Instruction}

theorem mem_patchedProgram {F : Fn} {block : List Instruction} :
    block ∈ patchedProgram binary file q F ↔
      ∃ block' ∈ q F, block'.map (Instruction.patched binary file) = block := List.mem_map

theorem woven_patchedProgram (hw : Woven (isInserted 0) p q) :
    Woven (isInserted 0) p (patchedProgram binary file q) where
  erase F := by
    rw [← hw.erase F, patchedProgram, List.map_map]
    refine List.map_congr_left fun block _ => ?_
    -- what is not deleted is not patched
    rw [Function.comp_apply, List.filter_map]
    have hsame : ((fun x => !isInserted 0 x) ∘ Instruction.patched binary file) =
        fun x => !isInserted 0 x := by
      funext x
      simp
    rw [hsame]
    refine (List.map_congr_left fun x hx => ?_).trans (List.map_id _)
    exact Instruction.patched_of_uninserted (by simpa using (List.mem_filter.mp hx).2)
  closed F block hblock x hx := by
    obtain ⟨block', hblock', rfl⟩ := mem_patchedProgram.mp hblock
    rw [List.getLast?_map] at hx
    obtain ⟨y, hy, rfl⟩ := Option.map_eq_some_iff.mp hx
    rw [isInserted_patched]
    exact hw.closed F block' hblock' y hy

variable [LinearOrder Fn] [OrderBot Fn] {M : Module Fn} {guards : Nat → Option (Guard Fn)}

theorem Guarded.patched (hq : Guarded M guards q) (binary file : List UInt8) :
    Guarded M (fun k => (guards k).map (Guard.patched binary file))
      (patchedProgram binary file q) where
  planted F block hblock x hx hins := by
    obtain ⟨block', hblock', rfl⟩ := mem_patchedProgram.mp hblock
    obtain ⟨y, hy, rfl⟩ := List.mem_map.mp hx
    rw [isInserted_patched] at hins
    obtain ⟨k, g, hg, hhost, hy⟩ := hq.planted F block' hblock' y hy hins
    refine ⟨k, g.patched binary file, by rw [hg]; rfl, hhost, ?_⟩
    rw [Guard.instructions_patched]
    exact List.mem_map_of_mem hy
  ordered F block hblock := by
    obtain ⟨block', hblock', rfl⟩ := mem_patchedProgram.mp hblock
    exact inOrder_patched (hq.ordered F block' hblock')

theorem Fronted.patched {F : Fn} (h : Fronted M guards q F) (binary file : List UInt8) :
    Fronted M (fun k => (guards k).map (Guard.patched binary file))
      (patchedProgram binary file q) F := by
  obtain ⟨front, rest, others, hb, hfront, hrest, hguards⟩ := h
  refine ⟨_, _, _, by rw [patchedProgram, hb, List.map_cons, List.map_append], fun x hx hold => ?_,
    fun x hx => ?_, fun k g hg hhost x hx => ?_⟩
  · obtain ⟨y, hy, rfl⟩ := List.mem_map.mp hx
    rw [isInserted_patched] at hold
    rw [Instruction.patched_of_uninserted hold]
    exact hfront y hy hold
  · obtain ⟨y, hy, rfl⟩ := List.mem_map.mp hx
    rw [isInserted_patched]
    exact hrest y hy
  · obtain ⟨g', hg', rfl⟩ := Option.map_eq_some_iff.mp hg
    rw [Guard.instructions_patched] at hx
    obtain ⟨y, hy, rfl⟩ := List.mem_map.mp hx
    exact List.mem_map_of_mem (hguards k g' hg' hhost y hy)

omit [LinearOrder Fn] [OrderBot Fn] in
/-- Some of the guards are left, with the numbers of the file. -/
theorem Guard.exists_of_patched {guards : List (Guard Fn)} {p : Guard Fn → Bool} {k : Nat}
    {g' : Guard Fn} (h : (guards[k]?.map (Guard.patched binary file)).filter p = some g') :
    ∃ g ∈ guards, g' = g.patched binary file ∧ p g' = true := by
  obtain ⟨hpatched, hp⟩ := Option.filter_eq_some_iff.mp h
  obtain ⟨g, hk, rfl⟩ := Option.map_eq_some_iff.mp hpatched
  exact ⟨g, List.mem_of_getElem? hk, rfl, hp⟩

omit [LinearOrder Fn] [OrderBot Fn] in
theorem Guard.patched_left {guards : List (Guard Fn)} {p : Guard Fn → Bool} {k : Nat}
    {g : Guard Fn} (hk : guards[k]? = some g) (hp : p (g.patched binary file) = true) :
    (guards[k]?.map (Guard.patched binary file)).filter p = some (g.patched binary file) := by
  rw [hk]
  exact Option.filter_eq_some_iff.mpr ⟨rfl, hp⟩

/-- The program that a run of the pass leaves, as it is found in a file. -/
def PassResult.patched (M : Module Fn) (r : PassResult Fn) (binary file : List UInt8) :
    Program Fn Instruction := patchedProgram binary file (r.program M)

end Programs

/-! ## guardMe at run time -/

/-- The library that is linked in: `guardMe` reads the code as it is loaded, prints its
report when that is not what it was told, and returns. -/
def rtlib (loader : Nat → Nat) (file : List UInt8) (report : ε) (summary : Calls Fn σ ε) :
    Calls Fn σ ε := fun callee args s =>
  match callee, args with
  | "guardMe", [.i32 address, .i32 length, .i32 expectedHash] =>
    ⟨s, .next,
      if guardMe (loadedAt loader file) address length expectedHash then [report] else []⟩
  | callee, args => summary callee args s

section Runtime

variable {loader : Nat → Nat} {binary file : List UInt8} {report : ε} {summary : Calls Fn σ ε}
  {g : Guard Fn}

theorem rtlib_guardMe (g : Guard Fn) (s : σ) : rtlib loader file report summary "guardMe" g.args s =
    ⟨s, .next, if guardMe (loadedAt loader file) g.address g.length g.expectedHash then [report]
      else []⟩ := rfl

/-- What `guardMe` finds when the patched guard calls it. -/
def Guard.finds (g : Guard Fn) (loader : Nat → Nat) (binary file : List UInt8) : Bool :=
  guardMe (loadedAt loader file) (g.patched binary file).address (g.patched binary file).length
    (g.patched binary file).expectedHash

/-- What `guardMe` finds is told by what it is called with. -/
theorem Guard.finds_of_call {g g' : Guard Fn}
    (h : (g.patched binary file).call = (g'.patched binary file).call) (loader : Nat → Nat) :
    g.finds loader binary file = g'.finds loader binary file := by
  simp only [Guard.call, Guard.args, GuardCall.mk.injEq, List.cons.injEq, Value.i32.injEq, and_true,
    true_and] at h
  obtain ⟨-, haddress, hlength, hhash⟩ := h
  rw [Guard.finds, Guard.finds, haddress, hlength, hhash]

theorem Guard.Passes.finds (h : g.Passes loader binary file) :
    g.finds loader binary file = false := by
  obtain ⟨i, j, k, hi, hj, hk, hguard⟩ := h
  simp only [Guard.finds, Guard.patched, patchedConstant, hi, hj, hk]
  exact hguard

theorem Guard.Alarms.finds (h : g.Alarms loader binary file) :
    g.finds loader binary file = true := by
  obtain ⟨i, j, k, hi, hj, hk, hguard⟩ := h
  simp only [Guard.finds, Guard.patched, patchedConstant, hi, hj, hk]
  exact hguard

/-- A guard that passes leaves no trace. -/
theorem Guard.Passes.call (h : g.Passes loader binary file) (s : σ) :
    rtlib loader file report summary "guardMe" (g.patched binary file).args s =
      ⟨s, .next, []⟩ := by
  have hfinds := h.finds
  unfold Guard.finds at hfinds
  rw [rtlib_guardMe, hfinds]
  rfl

/-- A guard that alarms prints its report. -/
theorem Guard.Alarms.call (h : g.Alarms loader binary file) (s : σ) :
    rtlib loader file report summary "guardMe" (g.patched binary file).args s =
      ⟨s, .next, [report]⟩ := by
  have hfinds := h.finds
  unfold Guard.finds at hfinds
  rw [rtlib_guardMe, hfinds]
  rfl

end Runtime

end SelfChecksumming
