import SelfChecksumming.Patcher.Effect

/-! # Runs that stop

Whatever stops the script before the patching loop leaves the file alone. Inside the
loop a number that `struct.pack` refuses stops it between writes, and a manifest that
cannot be opened stops it behind all of them. -/
namespace SelfChecksumming
open Library

/-! ## The script with its arguments -/

/-- What follows the binary and the guide in `sys.argv`: a missing guide is a usage error,
a fourth argument is the file for the manifest, a fifth one holds the statistics, where
`none` stands for a file that cannot be loaded. -/
inductive Arguments where
  | missing
  | plain
  | dump (writable : Bool)
  | stats (numberOfGuards : Option Int)
  deriving DecidableEq, Repr

/-- The script gets to its guide. -/
def Arguments.Opens : Arguments → Prop
  | missing => False
  | stats numberOfGuards => numberOfGuards ≠ none ∧ numberOfGuards ≠ some 0
  | _ => True

def Arguments.dumpMode : Arguments → Bool
  | dump _ => true
  | _ => false

/-- The end of the script: in dump mode the manifest is opened for writing. -/
def dumpManifest (args : Arguments) (result : PatchResult) :
    Except (Fault × List UInt8) PatchResult :=
  if args = .dump false then .error (.exception "IOError", result.binary) else .ok result

/-- The whole script. -/
def script (r2 : Radare) (order : DictOrder) (args : Arguments) (binary : List UInt8)
    (guide : Option (List Char)) : Except (Fault × List UInt8) PatchResult :=
  match args with
  | .missing => .error (.exit "Incorrect usage.", binary)
  | .stats none => .error (.exception "json.load", binary)
  | .stats (some 0) =>
    .ok ⟨binary, "SC stats indicates there is nothing to be patched", none⟩
  | args =>
    match dumpPipe r2 order args.dumpMode binary guide with
    | .error stop => .error stop
    | .ok result => dumpManifest args result

/-! ## What is written before a stop -/

/-- The numbers that a patch asks for fit `<I`. -/
def Patch.Packable (p : Patch) : Prop := p.addTarget < 2 ^ 32 ∧ p.writtenSize < 2 ^ 32

instance (p : Patch) : Decidable p.Packable := inferInstanceAs (Decidable (_ ∧ _))

/-- A file once some fields are written. -/
def afterFields (found : Int → List Nat) (file : List UInt8) (fields : List (Int × Nat)) :
    List UInt8 :=
  writeAll file (fields.flatMap (fieldWrites found))

/-- What a patch writes before its hash is asked for. -/
def Patch.sizedFields (p : Patch) : List (Int × Nat) :=
  [(p.addPlaceholder, p.addTarget), (p.sizePlaceholder, p.writtenSize)]

/-- The fields of a line that are written, and whether that is all of them: a number that
does not fit stops the line, and so does a hash that cannot be computed. -/
def lineMade (r2 : Radare) (found : Int → List Nat) (file : List UInt8) (p : Patch) :
    List (Int × Nat) × Bool :=
  if 2 ^ 32 ≤ p.addTarget then ([], false)
  else if 2 ^ 32 ≤ p.writtenSize then ([(p.addPlaceholder, p.addTarget)], false)
  else
    match hashOf r2 (afterFields found file p.sizedFields) p with
    | .error _ => (p.sizedFields, false)
    | .ok hash => (p.sizedFields ++ [(p.hashPlaceholder, hash)], true)

/-- The fields that the loop writes, and whether it gets to its end. -/
def fieldsMade (r2 : Radare) (found : Int → List Nat) (file : List UInt8) :
    List Patch → List (Int × Nat) × Bool
  | [] => ([], true)
  | p :: rest =>
    let line := lineMade r2 found file p
    if line.2 then
      let later := fieldsMade r2 found (afterFields found file line.1) rest
      (line.1 ++ later.1, later.2)
    else line

section Made

variable {r2 : Radare} {found : Int → List Nat} {file : List UInt8} {p : Patch}

theorem afterFields_append (fields fields' : List (Int × Nat)) :
    afterFields found file (fields ++ fields') =
      afterFields found (afterFields found file fields) fields' := by
  rw [afterFields, List.flatMap_append, writeAll_append]
  rfl

theorem fieldsMade_done (h : (lineMade r2 found file p).2 = true) (rest : List Patch) :
    (fieldsMade r2 found file (p :: rest)).1 = (lineMade r2 found file p).1 ++
        (fieldsMade r2 found (afterFields found file (lineMade r2 found file p).1) rest).1 ∧
      (fieldsMade r2 found file (p :: rest)).2 =
        (fieldsMade r2 found (afterFields found file (lineMade r2 found file p).1) rest).2 := by
  simp only [fieldsMade, if_pos h, and_self]

theorem fieldsMade_stop (h : (lineMade r2 found file p).2 = false) (rest : List Patch) :
    fieldsMade r2 found file (p :: rest) = lineMade r2 found file p := by
  simp only [fieldsMade, h, Bool.false_eq_true, if_false]

/-- The fields of a line that are written are its first ones. -/
theorem lineMade_begins (r2 : Radare) (found : Int → List Nat) (file : List UInt8) (p : Patch) :
    (lineMade r2 found file p).1.map Prod.fst <+: p.placeholders := by
  unfold lineMade
  split
  · exact List.nil_prefix
  · split
    · exact ⟨[p.sizePlaceholder, p.hashPlaceholder], rfl⟩
    · cases hashOf r2 (afterFields found file p.sizedFields) p with
      | error fault => exact ⟨[p.hashPlaceholder], rfl⟩
      | ok hash => exact List.prefix_refl _

theorem lineMade_done (h : (lineMade r2 found file p).2 = true) :
    p.Packable ∧ ∃ hash, hashOf r2 (afterFields found file p.sizedFields) p = .ok hash := by
  unfold lineMade at h
  by_cases ha : 2 ^ 32 ≤ p.addTarget
  · rw [if_pos ha] at h
    cases h
  by_cases hs : 2 ^ 32 ≤ p.writtenSize
  · rw [if_neg ha, if_pos hs] at h
    cases h
  rw [if_neg ha, if_neg hs] at h
  refine ⟨⟨Nat.not_le.mp ha, Nat.not_le.mp hs⟩, ?_⟩
  cases hhash : hashOf r2 (afterFields found file p.sizedFields) p with
  | error fault => rw [hhash] at h; cases h
  | ok hash => exact ⟨hash, rfl⟩

theorem lineMade_of_packable (found : Int → List Nat) (h : p.Packable) {hash : Nat}
    (hhash : hashOf r2 (afterFields found file p.sizedFields) p = .ok hash) :
    lineMade r2 found file p = (p.sizedFields ++ [(p.hashPlaceholder, hash)], true) := by
  rw [lineMade, if_neg (Nat.not_le.mpr h.1), if_neg (Nat.not_le.mpr h.2), hhash]

theorem lineMade_sized (h : p.Packable) (found : Int → List Nat) (r2 : Radare)
    (file : List UInt8) : p.sizedFields <+: (lineMade r2 found file p).1 := by
  rw [lineMade, if_neg (Nat.not_le.mpr h.1), if_neg (Nat.not_le.mpr h.2)]
  cases hashOf r2 (afterFields found file p.sizedFields) p with
  | error fault => exact List.prefix_refl _
  | ok hash => exact List.prefix_append _ _

theorem lineMade_subset (rest : List Patch) :
    (lineMade r2 found file p).1 ⊆ (fieldsMade r2 found file (p :: rest)).1 := by
  cases hline : (lineMade r2 found file p).2 with
  | false => rw [fieldsMade_stop hline]; exact List.Subset.refl _
  | true => rw [(fieldsMade_done hline rest).1]; exact List.subset_append_left _ _

/-- Only numbers that fit are written. -/
theorem lineMade_lt {field : Int × Nat} (h : field ∈ (lineMade r2 found file p).1) :
    field.2 < 2 ^ 32 := by
  unfold lineMade at h
  by_cases ha : 2 ^ 32 ≤ p.addTarget
  · rw [if_pos ha] at h
    cases h
  by_cases hs : 2 ^ 32 ≤ p.writtenSize
  · rw [if_neg ha, if_pos hs, List.mem_singleton] at h
    rw [h]
    exact Nat.not_le.mp ha
  rw [if_neg ha, if_neg hs] at h
  have hsized : ∀ field ∈ p.sizedFields, field.2 < 2 ^ 32 :=
    List.forall_mem_cons.mpr ⟨Nat.not_le.mp ha, List.forall_mem_singleton.mpr (Nat.not_le.mp hs)⟩
  cases hhash : hashOf r2 (afterFields found file p.sizedFields) p with
  | error fault =>
    rw [hhash] at h
    exact hsized field h
  | ok hash =>
    rw [hhash] at h
    rcases List.mem_append.mp h with h | h
    · exact hsized field h
    · rw [List.mem_singleton.mp h]
      exact Nat.lt_of_lt_of_le (hashOf_lt hhash) (by decide)

end Made

/-- The fields written are the first ones of the guide. -/
theorem fieldsMade_prefix (r2 : Radare) (found : Int → List Nat) :
    ∀ (patches : List Patch) (file : List UInt8),
      (fieldsMade r2 found file patches).1.map Prod.fst <+: allPlaceholders patches := by
  intro patches
  induction patches with
  | nil => exact fun _ => List.prefix_refl _
  | cons p rest ih =>
    intro file
    rw [allPlaceholders, List.flatMap_cons]
    cases hline : (lineMade r2 found file p).2 with
    | false =>
      rw [fieldsMade_stop hline]
      exact (lineMade_begins r2 found file p).trans (List.prefix_append _ _)
    | true =>
      obtain ⟨hpack, hash, hhash⟩ := lineMade_done hline
      have hwhole : (lineMade r2 found file p).1.map Prod.fst = p.placeholders := by
        rw [lineMade_of_packable found hpack hhash]
        rfl
      rw [(fieldsMade_done hline rest).1, List.map_append, hwhole]
      exact (List.prefix_append_right_inj _).mpr (ih _)

theorem fieldsMade_lt {r2 : Radare} {found : Int → List Nat} {field : Int × Nat} :
    ∀ (patches : List Patch) {file : List UInt8},
      field ∈ (fieldsMade r2 found file patches).1 → field.2 < 2 ^ 32 := by
  intro patches
  induction patches with
  | nil => nofun
  | cons p rest ih =>
    intro file h
    cases hline : (lineMade r2 found file p).2 with
    | false =>
      rw [fieldsMade_stop hline] at h
      exact lineMade_lt h
    | true =>
      rw [(fieldsMade_done hline rest).1] at h
      exact (List.mem_append.mp h).elim lineMade_lt ih

/-- A loop that gets to its end has packed all numbers, and asked for every hash in some
file. -/
theorem fieldsMade_completed {r2 : Radare} {found : Int → List Nat} :
    ∀ (patches : List Patch) {file : List UInt8},
      (fieldsMade r2 found file patches).2 = true → ∀ p ∈ patches,
        p.Packable ∧ ∃ fields hash, hashOf r2 (afterFields found file fields) p = .ok hash := by
  intro patches
  induction patches with
  | nil => nofun
  | cons p rest ih =>
    intro file h
    cases hline : (lineMade r2 found file p).2 with
    | false =>
      rw [fieldsMade_stop hline, hline] at h
      cases h
    | true =>
      rw [(fieldsMade_done hline rest).2] at h
      obtain ⟨hpack, hash, hhash⟩ := lineMade_done hline
      refine List.forall_mem_cons.mpr ⟨⟨hpack, _, hash, hhash⟩, fun q hq => ?_⟩
      obtain ⟨hpack', fields, hash', hhash'⟩ := ih h q hq
      rw [← afterFields_append] at hhash'
      exact ⟨hpack', _, hash', hhash'⟩

/-! ## The loop -/

/-- The search has recorded addresses for a value. -/
def Recorded (addresses : SortedMap Int (List Nat)) (size : Nat) (v : Int) : Prop :=
  ∃ found, addresses.find? v = some found ∧ found ≠ [] ∧ ∀ addr ∈ found, addr + 4 ≤ size

theorem Recorded.fits {addresses : SortedMap Int (List Nat)} {size : Nat} {v : Int}
    (h : Recorded addresses size v) (target : Nat) :
    Fits size 4 (fieldWrites (recorded addresses) (v, target)) := by
  obtain ⟨found, hfind, -, hfits⟩ := h
  refine writesAt_fits target ?_
  rwa [recorded, hfind, Option.getD_some]

theorem patchPlaceholder_unpackable {addresses : SortedMap Int (List Nat)} {size target : Nat}
    {v : Int} (hv : Recorded addresses size v) (ht : 2 ^ 32 ≤ target) (st : PatchState) :
    patchPlaceholder addresses v target st = .error (.exception "struct.error", st) := by
  obtain ⟨found, hfind, hne, -⟩ := hv
  obtain ⟨addr, rest, rfl⟩ := List.exists_cons_of_ne_nil hne
  have hpack : packI target = .error (.exception "struct.error") := by
    unfold packI
    rw [if_neg (fun h => Nat.not_lt.mpr ht h.2)]
  unfold patchPlaceholder
  rw [hfind]
  simp only [List.foldlM_cons, patchAt, hpack]
  rfl

theorem patchPlaceholder_packable {addresses : SortedMap Int (List Nat)} {size target : Nat}
    {v : Int} {st : PatchState} (hv : Recorded addresses size v) (ht : target < 2 ^ 32)
    (hsize : st.mm.bytes.length = size) :
    ∃ st', patchPlaceholder addresses v target st = .ok st' ∧ st'.mm.bytes.length = size ∧
      st'.mm.bytes = writeAll st.mm.bytes (fieldWrites (recorded addresses) (v, target)) := by
  obtain ⟨found, hfind, -, hfits⟩ := hv
  obtain ⟨st', hst', hlen⟩ := patchPlaceholder_total hfind ht hfits hsize
  obtain ⟨found', hfind', hbytes, -⟩ := patchPlaceholder_ok hst'
  obtain rfl : found = found' := Option.some.inj (hfind.symm.trans hfind')
  refine ⟨st', hst', hlen, ?_⟩
  rw [hbytes, fieldWrites, recorded, hfind, Option.getD_some]

/-- A stretch of the loop ends with these bytes in the file, normally or not. -/
def Ends (completed : Bool) (bytes : List UInt8) : Except (Fault × PatchState) PatchState → Prop
  | .ok st => completed = true ∧ st.mm.bytes = bytes
  | .error stop => completed = false ∧ stop.2.mm.bytes = bytes

theorem patchGuard_ends (r2 : Radare) {addresses : SortedMap Int (List Nat)} {size : Nat}
    {p : Patch} {st : PatchState} (hp : ∀ v ∈ p.placeholders, Recorded addresses size v)
    (hsize : st.mm.bytes.length = size) :
    Ends (lineMade r2 (recorded addresses) st.mm.bytes p).2
      (afterFields (recorded addresses) st.mm.bytes
        (lineMade r2 (recorded addresses) st.mm.bytes p).1)
      (patchGuard r2 addresses st p) := by
  simp only [Patch.placeholders, List.forall_mem_cons] at hp
  obtain ⟨hadd, hsz, hhash, -⟩ := hp
  unfold lineMade
  by_cases ha : 2 ^ 32 ≤ p.addTarget
  · rw [if_pos ha, patchGuard, patchPlaceholder_unpackable hadd ha]
    exact ⟨rfl, rfl⟩
  obtain ⟨st₁, h₁, hlen₁, hb₁⟩ := patchPlaceholder_packable hadd (Nat.not_le.mp ha) hsize
  by_cases hs : 2 ^ 32 ≤ p.writtenSize
  · have hstop := patchPlaceholder_unpackable hsz hs st₁
    rw [if_neg ha, if_pos hs, patchGuard, h₁]
    show Ends _ _ (patchPlaceholder _ _ p.writtenSize st₁ >>= _)
    rw [hstop, afterFields, List.flatMap_singleton]
    exact ⟨rfl, hb₁⟩
  obtain ⟨st₂, h₂, hlen₂, hb₂⟩ := patchPlaceholder_packable hsz (Nat.not_le.mp hs) hlen₁
  have hsized : afterFields (recorded addresses) st.mm.bytes p.sizedFields = st₂.mm.bytes := by
    rw [hb₂, hb₁, ← writeAll_append, afterFields, Patch.sizedFields, List.flatMap_cons,
      List.flatMap_singleton]
  rw [if_neg ha, if_neg hs, hsized, patchGuard, h₁]
  show Ends _ _ (patchPlaceholder _ _ p.writtenSize st₁ >>= _)
  rw [h₂]
  show Ends _ _ ((precomputeHash r2 st₂.mm.bytes _ _).mapError _ >>= _)
  cases hrun : hashOf r2 st₂.mm.bytes p with
  | error fault =>
    rw [stopped_of_hashOf hrun]
    exact ⟨rfl, hsized.symm⟩
  | ok hash =>
    obtain ⟨computed, hcomputed, hw⟩ := computed_of_hashOf hrun
    have hbyte : hash < 2 ^ 32 := Nat.lt_of_lt_of_le (hashOf_lt hrun) (by decide)
    obtain ⟨st₃, h₃, -, hb₃⟩ := patchPlaceholder_packable hhash hbyte hlen₂
    rw [hcomputed]
    show Ends _ _ (patchPlaceholder _ _ (if p.dummy then 0 else computed) st₂ >>= _)
    rw [← hw, h₃]
    refine ⟨rfl, hb₃.trans ?_⟩
    rw [afterFields_append, hsized, afterFields, List.flatMap_singleton]

/-- How the loop ends. -/
theorem patchGuards_end (r2 : Radare) {addresses : SortedMap Int (List Nat)} {size : Nat} :
    ∀ (patches : List Patch) (st : PatchState),
      (∀ p ∈ patches, ∀ v ∈ p.placeholders, Recorded addresses size v) →
      st.mm.bytes.length = size →
      Ends (fieldsMade r2 (recorded addresses) st.mm.bytes patches).2
        (afterFields (recorded addresses) st.mm.bytes
          (fieldsMade r2 (recorded addresses) st.mm.bytes patches).1)
        (patches.foldlM (patchGuard r2 addresses) st) := by
  intro patches
  induction patches with
  | nil => exact fun _ _ _ => ⟨rfl, rfl⟩
  | cons p rest ih =>
    intro st hfound hsize
    have hp := patchGuard_ends r2 (hfound p List.mem_cons_self) hsize
    rw [List.foldlM_cons]
    cases hrun : patchGuard r2 addresses st p with
    | error stop =>
      rw [hrun] at hp
      rw [fieldsMade_stop hp.1]
      exact hp
    | ok st' =>
      rw [hrun] at hp
      obtain ⟨hdone, hbytes⟩ := hp
      have hlen : st'.mm.bytes.length = size := by
        rw [hbytes]
        refine length_writeAll (n := 4) hsize fun w hw => ?_
        obtain ⟨field, hfield, hw⟩ := List.mem_flatMap.mp hw
        have hmem := (lineMade_begins r2 _ _ p).subset (List.mem_map_of_mem (f := Prod.fst) hfield)
        exact (hfound p List.mem_cons_self field.1 hmem).fits field.2 w hw
      have hrest := ih st' (fun q hq => hfound q (List.mem_cons_of_mem _ hq)) hlen
      obtain ⟨hfields, hend⟩ := fieldsMade_done hdone rest
      rw [hfields, hend, afterFields_append, ← hbytes]
      exact hrest

/-! ## The whole run -/

/-- The search finds every placeholder of the guide. -/
structure Findable (binary : List UInt8) (patches : List Patch) : Prop where
  nonempty : binary ≠ []
  range : ∀ v ∈ allPlaceholders patches, 0 ≤ v ∧ v.toNat < 2 ^ 32
  occurs : ∀ v ∈ allPlaceholders patches, occurrences binary v ≠ []

/-- A search that completes has found them all. -/
theorem findable_of_found {order : DictOrder} {binary : List UInt8} {patches : List Patch}
    {found : Mmap × SortedMap Int (List Nat)} (hne : binary ≠ [])
    (h : findAllPlaceholders order ⟨binary, 0⟩ patches = .ok found) : Findable binary patches := by
  have hs := findAllPlaceholders_ok h
  have hmem : ∀ v ∈ allPlaceholders patches, v ∈ placeholderValues order patches :=
    fun v => (placeholderValues_perm order patches).mem_iff.mpr
  exact ⟨hne, fun v hv => hs.range v (hmem v hv), fun v hv => hs.occurs v (hmem v hv)⟩

/-- A search that cannot complete stops the run before anything is written. -/
theorem patchBinary_unfound (r2 : Radare) (order : DictOrder) {binary : List UInt8}
    {patches : List Patch} (h : ¬ Findable binary patches) :
    ∃ fault, patchBinary r2 order binary patches = .error (fault, binary) := by
  unfold patchBinary
  by_cases hne : binary = []
  · exact ⟨_, if_pos hne⟩
  rw [if_neg hne]
  cases hfind : findAllPlaceholders order ⟨binary, 0⟩ patches with
  | error fault => exact ⟨fault, rfl⟩
  | ok found => exact absurd (findable_of_found hne hfind) h

/-- The bytes that a run leaves in the file. -/
def leftBy {α : Type} (bytes : α → List UInt8) : Except (Fault × List UInt8) α → List UInt8
  | .ok result => bytes result
  | .error stop => stop.2

/-- Behind the search the run leaves what the fields written make of the file, and
completes when the loop does. -/
theorem patchBinary_found (r2 : Radare) (order : DictOrder) {binary : List UInt8}
    {patches : List Patch} (h : Findable binary patches) :
    leftBy (fun st => st.mm.bytes) (patchBinary r2 order binary patches) =
        afterFields (foundAt order binary patches) binary
          (fieldsMade r2 (foundAt order binary patches) binary patches).1 ∧
      ((∃ st, patchBinary r2 order binary patches = .ok st) ↔
        (fieldsMade r2 (foundAt order binary patches) binary patches).2 = true) := by
  have hmem : ∀ {v}, v ∈ placeholderValues order patches ↔ v ∈ allPlaceholders patches :=
    (placeholderValues_perm order patches).mem_iff
  obtain ⟨⟨mm, addresses⟩, hfind⟩ := findAllPlaceholders_total order
    (fun v hv => h.range v (hmem.mp hv)) (fun v hv => h.occurs v (hmem.mp hv))
  have hs := findAllPlaceholders_ok hfind
  obtain rfl : mm = ⟨binary, 0⟩ := hs.mm
  have hrecorded : ∀ p ∈ patches, ∀ v ∈ p.placeholders, Recorded addresses binary.length v := by
    intro p hp v hv
    have hall : v ∈ placeholderValues order patches :=
      hmem.mpr (List.mem_flatMap.mpr ⟨p, hp, hv⟩)
    refine ⟨_, by rw [hs.found v, if_pos hall], ?_, fun addr haddr => ?_⟩
    · obtain ⟨i, hi⟩ := List.exists_mem_of_ne_nil _ (hs.occurs v hall)
      exact List.ne_nil_of_mem (mem_addressesOf.mpr ⟨hall, hi⟩)
    · exact occurrence_fits (mem_addressesOf.mp haddr).2
  have hend := patchGuards_end r2 patches { mm := ⟨binary, 0⟩ } hrecorded rfl
  have hfound : recorded addresses = foundAt order binary patches := hs.recorded
  rw [hfound] at hend
  cases hloop : patches.foldlM (patchGuard r2 addresses) { mm := ⟨binary, 0⟩ } with
  | error stop =>
    have hrun : patchBinary r2 order binary patches = .error (stop.1, stop.2.mm.bytes) := by
      simp only [patchBinary, if_neg h.nonempty, hfind, hloop]
    rw [hloop] at hend
    rw [hrun]
    exact ⟨hend.2, ⟨nofun, fun hdone => absurd (hdone.symm.trans hend.1) (by decide)⟩⟩
  | ok st =>
    have hrun : patchBinary r2 order binary patches = .ok st := by
      simp only [patchBinary, if_neg h.nonempty, hfind, hloop]
    rw [hloop] at hend
    rw [hrun]
    exact ⟨hend.2, ⟨fun _ => hend.1, fun _ => ⟨st, rfl⟩⟩⟩

/-- A run that completes has packed the numbers of its patches. -/
theorem patchBinary_packable {r2 : Radare} {order : DictOrder} {binary : List UInt8}
    {patches : List Patch} {st : PatchState} (h : patchBinary r2 order binary patches = .ok st) :
    ∀ p ∈ patches, p.Packable := by
  have hfound : Findable binary patches := by
    by_contra hno
    obtain ⟨fault, hstop⟩ := patchBinary_unfound r2 order hno
    rw [h] at hstop
    cases hstop
  have hdone := (patchBinary_found r2 order hfound).2.mp ⟨st, h⟩
  exact fun p hp => (fieldsMade_completed patches hdone p hp).1

theorem script_opened {r2 : Radare} {order : DictOrder} {args : Arguments} {binary : List UInt8}
    {guide : Option (List Char)} (h : args.Opens) : script r2 order args binary guide =
      match dumpPipe r2 order args.dumpMode binary guide with
      | .error stop => .error stop
      | .ok result => dumpManifest args result := by
  unfold script
  split
  · exact h.elim
  · exact absurd rfl h.1
  · exact absurd rfl h.2
  · rfl

theorem script_unopened {r2 : Radare} {order : DictOrder} {args : Arguments} {binary : List UInt8}
    {guide : Option (List Char)} (h : ¬ args.Opens) {fault : Fault} {file : List UInt8}
    (hrun : script r2 order args binary guide = .error (fault, file)) : file = binary := by
  cases args with
  | missing => cases hrun; rfl
  | plain => exact absurd trivial h
  | dump writable => exact absurd trivial h
  | stats numberOfGuards =>
    by_cases hnone : numberOfGuards = none
    · subst hnone; cases hrun; rfl
    · by_cases hzero : numberOfGuards = some 0
      · subst hzero; cases hrun
      · exact absurd ⟨hnone, hzero⟩ h

/-- What a script that gets to its guide does. -/
theorem script_read {r2 : Radare} {order : DictOrder} {args : Arguments} {binary : List UInt8}
    {text : List Char} {patches : List Patch} (h : args.Opens)
    (hread : readGuide r2 text = .ok patches) : script r2 order args binary (some text) =
      match patchBinary r2 order binary patches with
      | .error stop => .error stop
      | .ok st => dumpManifest args ⟨st.mm.bytes,
          patchReport (patches.length * 3) st.totalPatches,
          if args.dumpMode then some st.dumpPatch else none⟩ := by
  rw [script_opened h]
  unfold dumpPipe
  simp only [hread]
  cases patchBinary r2 order binary patches with
  | error stop => rfl
  | ok st => rfl

/-- A run that gets to the loop leaves the file with the fields written, and completes
when the loop does and the manifest can be opened. -/
theorem script_found {r2 : Radare} (order : DictOrder) {args : Arguments} {binary : List UInt8}
    {text : List Char} {patches : List Patch} (h : args.Opens)
    (hread : readGuide r2 text = .ok patches) (hf : Findable binary patches) :
    leftBy PatchResult.binary (script r2 order args binary (some text)) =
        afterFields (foundAt order binary patches) binary
          (fieldsMade r2 (foundAt order binary patches) binary patches).1 ∧
      ((∃ result, script r2 order args binary (some text) = .ok result) ↔
        (fieldsMade r2 (foundAt order binary patches) binary patches).2 = true ∧
          args ≠ .dump false) := by
  obtain ⟨hleft, hok⟩ := patchBinary_found r2 order hf
  rw [script_read h hread, ← hok, ← hleft]
  cases patchBinary r2 order binary patches with
  | error stop =>
    refine ⟨rfl, nofun, ?_⟩
    intro h
    obtain ⟨⟨st, hst⟩, -⟩ := h
    cases hst
  | ok st =>
    by_cases hd : args = .dump false
    · simp only [dumpManifest, if_pos hd]
      exact ⟨rfl, nofun, fun hboth => absurd hd hboth.2⟩
    · simp only [dumpManifest, if_neg hd]
      exact ⟨rfl, fun _ => ⟨⟨st, rfl⟩, hd⟩, fun _ => ⟨_, rfl⟩⟩

/-- A run that does not get to the loop leaves the file alone. -/
theorem script_unreached {r2 : Radare} {order : DictOrder} {args : Arguments}
    {binary file : List UInt8} {guide : Option (List Char)} {fault : Fault}
    (h : ¬ ∃ text patches, args.Opens ∧ guide = some text ∧ readGuide r2 text = .ok patches ∧
      Findable binary patches) (hrun : script r2 order args binary guide = .error (fault, file)) :
    file = binary := by
  by_cases hopens : args.Opens
  · cases guide with
    | none =>
      rw [script_opened hopens] at hrun
      cases hrun
      rfl
    | some text =>
      cases hread : readGuide r2 text with
      | error stop =>
        rw [script_opened hopens] at hrun
        simp only [dumpPipe, hread] at hrun
        cases hrun
        rfl
      | ok patches =>
        have hf : ¬ Findable binary patches := fun hf => h ⟨text, patches, hopens, rfl, hread, hf⟩
        obtain ⟨fault', hstop⟩ := patchBinary_unfound r2 order hf
        rw [script_read hopens hread, hstop] at hrun
        cases hrun
        rfl
  · exact script_unopened hopens hrun

/-! ## Fields that change nothing -/

/-- The number written is the placeholder itself. -/
def KeepsValue (field : Int × Nat) : Prop := (field.2 : Int) = field.1

theorem afterFields_keeps {found : Int → List Nat} {binary : List UInt8}
    (hfound : ∀ v, ∀ i ∈ found v, i ∈ occurrences binary v) {fields : List (Int × Nat)}
    (h : ∀ field ∈ fields, KeepsValue field) : afterFields found binary fields = binary := by
  have hwrite : ∀ w ∈ fields.flatMap (fieldWrites found), w.2.length = 4 ∧
      w.1 + 4 ≤ binary.length ∧ readAt binary w.1 4 = w.2 := by
    intro w hw
    obtain ⟨field, hfield, hw⟩ := List.mem_flatMap.mp hw
    obtain ⟨i, hi, rfl⟩ := List.mem_map.mp hw
    have hi := hfound field.1 i hi
    have hvalue : field.1.toNat = field.2 := by
      rw [← h field hfield]
      exact Int.toNat_natCast _
    exact ⟨length_littleEndian 4 _, occurrence_fits hi, hvalue ▸ mem_occurrences.mp hi⟩
  exact writeAll_eq_self rfl (fun w hw => ⟨(hwrite w hw).1, (hwrite w hw).2.1⟩)
    fun w hw => (hwrite w hw).2.2

/-- Where no value is used twice and the windows lie apart, only such fields leave the
file as it was. -/
theorem keeps_of_afterFields {order : DictOrder} {binary : List UInt8} {patches : List Patch}
    (hf : Findable binary patches) (hapart : WindowsApart binary patches)
    {fields : List (Int × Nat)} (hmem : ∀ field ∈ fields, field.1 ∈ allPlaceholders patches)
    (hnd : (fields.map Prod.fst).Nodup) (hlt : ∀ field ∈ fields, field.2 < 2 ^ 32)
    (h : afterFields (foundAt order binary patches) binary fields = binary) :
    ∀ field ∈ fields, KeepsValue field := by
  intro field hfield
  obtain ⟨v, t⟩ := field
  have hv := hmem (v, t) hfield
  obtain ⟨i, hi⟩ := List.exists_mem_of_ne_nil _ (hf.occurs v hv)
  obtain ⟨pre, post, rfl⟩ := List.append_of_mem hfield
  have hpost : ∀ field ∈ post, field.1 ≠ v := by
    intro field hmem heq
    rw [List.map_append, List.map_cons] at hnd
    have hagain := List.mem_map_of_mem (f := Prod.fst) hmem
    rw [heq] at hagain
    exact (List.nodup_cons.mp (List.nodup_append.mp hnd).2.1).1 hagain
  have hlast := window_of_last order hf.range hapart pre t hpost (mem_foundAt.mpr ⟨hv, hi⟩)
  rw [afterFields] at h
  rw [h, mem_occurrences.mp hi] at hlast
  have hrange := hf.range v hv
  have heq : v.toNat = t := littleEndian_inj (by omega) (hlt (v, t) hfield) hlast
  show (t : Int) = v
  omega

/-- No placeholder has been replaced by another number when the script stops; the file is
still the binary wherever a hash is asked for. Behind the loop it stops when `behind`. -/
def StopsUnchanged (r2 : Radare) (binary : List UInt8) (behind : Prop) : List Patch → Prop
  | [] => behind
  | p :: rest =>
    2 ^ 32 ≤ p.addTarget ∨ (p.addTarget : Int) = p.addPlaceholder ∧
      (2 ^ 32 ≤ p.writtenSize ∨ (p.writtenSize : Int) = p.sizePlaceholder ∧
        ∀ hash : Nat, hashOf r2 binary p = .ok hash →
          (hash : Int) = p.hashPlaceholder ∧ StopsUnchanged r2 binary behind rest)

/-- That is, all fields written keep their values, and the end of the loop is not the end
of the script. -/
theorem stopsUnchanged_iff {r2 : Radare} {found : Int → List Nat} {binary : List UInt8}
    {behind : Prop} (hfound : ∀ v, ∀ i ∈ found v, i ∈ occurrences binary v) :
    ∀ patches : List Patch, StopsUnchanged r2 binary behind patches ↔
      ((fieldsMade r2 found binary patches).2 = true → behind) ∧
        ∀ field ∈ (fieldsMade r2 found binary patches).1, KeepsValue field := by
  intro patches
  induction patches with
  | nil => simp [StopsUnchanged, fieldsMade]
  | cons p rest ih =>
    rw [StopsUnchanged]
    by_cases ha : 2 ^ 32 ≤ p.addTarget
    · have hline : lineMade r2 found binary p = ([], false) := if_pos ha
      rw [fieldsMade_stop (by rw [hline]), hline]
      exact ⟨fun _ => ⟨nofun, nofun⟩, fun _ => .inl ha⟩
    rw [or_iff_right ha]
    by_cases hs : 2 ^ 32 ≤ p.writtenSize
    · have hline : lineMade r2 found binary p = ([(p.addPlaceholder, p.addTarget)], false) := by
        rw [lineMade, if_neg ha, if_pos hs]
      rw [fieldsMade_stop (by rw [hline]), hline, and_iff_left (.inl hs)]
      exact ⟨fun hadd => ⟨nofun, List.forall_mem_singleton.mpr hadd⟩,
        fun h => h.2 _ List.mem_cons_self⟩
    have hpack : p.Packable := ⟨Nat.not_le.mp ha, Nat.not_le.mp hs⟩
    rw [or_iff_right hs]
    by_cases hkeeps : ∀ field ∈ p.sizedFields, KeepsValue field
    · obtain ⟨hadd, hsize⟩ : (p.addTarget : Int) = p.addPlaceholder ∧
          (p.writtenSize : Int) = p.sizePlaceholder := by
        simpa [Patch.sizedFields, KeepsValue] using hkeeps
      have hback := afterFields_keeps hfound hkeeps
      rw [and_iff_right hadd, and_iff_right hsize]
      cases hhash : hashOf r2 binary p with
      | error fault =>
        have hline : lineMade r2 found binary p = (p.sizedFields, false) := by
          rw [lineMade, if_neg ha, if_neg hs, hback, hhash]
        rw [fieldsMade_stop (by rw [hline]), hline]
        exact ⟨fun _ => ⟨nofun, hkeeps⟩, fun _ => nofun⟩
      | ok hash =>
        have hline := lineMade_of_packable found hpack (hback.symm ▸ hhash)
        obtain ⟨hfields, hend⟩ := fieldsMade_done (by rw [hline]) rest
        rw [hfields, hend, hline, List.forall_mem_append, List.forall_mem_append,
          List.forall_mem_singleton]
        by_cases hh : KeepsValue (p.hashPlaceholder, hash)
        · rw [afterFields_append, hback,
            afterFields_keeps hfound (List.forall_mem_singleton.mpr hh)]
          refine ⟨fun h => ?_, fun h hash' hhash' => ?_⟩
          · obtain ⟨hbehind, hrest⟩ := ih.mp (h hash rfl).2
            exact ⟨hbehind, ⟨hkeeps, hh⟩, hrest⟩
          · obtain rfl : hash = hash' := Except.ok.inj hhash'
            exact ⟨hh, ih.mpr ⟨h.1, h.2.2⟩⟩
        · exact ⟨fun h => absurd (h hash rfl).1 hh, fun h => absurd h.2.1.2 hh⟩
    · have hsized := (lineMade_sized hpack found r2 binary).subset
      refine ⟨fun h => absurd ?_ hkeeps, fun h => absurd ?_ hkeeps⟩
      · exact List.forall_mem_cons.mpr ⟨h.1, List.forall_mem_singleton.mpr h.2.1⟩
      · exact fun field hfield => h.2 field (lineMade_subset rest (hsized hfield))

/-! ## All or nothing -/

/-- The hash of a patch is computed whatever a file of some size holds. -/
def Radare.Answers (r2 : Radare) (size : Nat) (p : Patch) : Prop :=
  ∀ file : List UInt8, file.length = size → ∃ hash, hashOf r2 file p = .ok hash

/-- What a file of some size holds does not decide whether a hash is computed. -/
def Radare.Steady (r2 : Radare) (size : Nat) : Prop :=
  ∀ (p : Patch) (file : List UInt8) (hash : Nat), file.length = size →
    hashOf r2 file p = .ok hash → r2.Answers size p

/-- A run that gets to the patching loop gets through it and opens its manifest, or stops
before a placeholder has been replaced by another number. -/
def StopsInTime (r2 : Radare) (args : Arguments) (binary : List UInt8)
    (guide : Option (List Char)) : Prop :=
  ∀ text patches, args.Opens → guide = some text → readGuide r2 text = .ok patches →
    Findable binary patches →
    ((∀ p ∈ patches, p.Packable ∧ r2.Answers binary.length p) ∧ args ≠ .dump false) ∨
      StopsUnchanged r2 binary (args = .dump false) patches

/-- The guide uses no value twice, and no two of its windows overlap. -/
def DistinctGuide (r2 : Radare) (binary : List UInt8) (guide : Option (List Char)) : Prop :=
  ∀ text patches, guide = some text → readGuide r2 text = .ok patches →
    (allPlaceholders patches).Nodup ∧ WindowsApart binary patches

/-- Patches that can all be packed and hashed get the loop to its end. -/
theorem fieldsMade_answers {r2 : Radare} (order : DictOrder) {binary : List UInt8}
    (all patches : List Patch) {file : List UInt8} (hlen : file.length = binary.length)
    (h : ∀ p ∈ patches, p.Packable ∧ r2.Answers binary.length p) :
    (fieldsMade r2 (foundAt order binary all) file patches).2 = true := by
  induction patches generalizing file with
  | nil => rfl
  | cons p rest ih =>
    obtain ⟨⟨hpack, hanswers⟩, hrest⟩ := List.forall_mem_cons.mp h
    have hafter : ∀ fields,
        (afterFields (foundAt order binary all) file fields).length = binary.length :=
      fun fields => length_writeAll hlen (fields_fit order binary all fields)
    obtain ⟨hash, hhash⟩ := hanswers _ (hafter p.sizedFields)
    have hline := lineMade_of_packable (foundAt order binary all) hpack hhash
    rw [(fieldsMade_done (by rw [hline]) rest).2]
    exact ih (hafter _) hrest

/-- When a run that stops leaves the file alone: if it stops in time, whatever guide and
binary it is given; and only if, where no placeholder is used twice or overlaps another
one and where radare2 answers in one file when it does in another. -/
theorem script_all_or_nothing_iff (r2 : Radare) (order : DictOrder) (args : Arguments)
    (binary : List UInt8) (guide : Option (List Char)) :
    (StopsInTime r2 args binary guide →
      ∀ fault file, script r2 order args binary guide = .error (fault, file) → file = binary) ∧
    (DistinctGuide r2 binary guide → r2.Steady binary.length →
      (∀ fault file, script r2 order args binary guide = .error (fault, file) → file = binary) →
      StopsInTime r2 args binary guide) := by
  have hfound : ∀ patches v, ∀ i ∈ foundAt order binary patches v, i ∈ occurrences binary v :=
    fun patches v i hi => (mem_foundAt.mp hi).2
  constructor
  · intro hcond fault file hrun
    by_cases hreach : ∃ text patches, args.Opens ∧ guide = some text ∧
        readGuide r2 text = .ok patches ∧ Findable binary patches
    · obtain ⟨text, patches, hopens, rfl, hread, hf⟩ := hreach
      obtain ⟨hleft, hok⟩ := script_found order hopens hread hf
      rw [hrun] at hleft hok
      rcases hcond text patches hopens rfl hread hf with ⟨hall, hdump⟩ | hstop
      · have hdone := fieldsMade_answers order patches patches rfl hall
        obtain ⟨result, hresult⟩ := hok.mpr ⟨hdone, hdump⟩
        cases hresult
      · exact hleft.trans (afterFields_keeps (hfound patches)
          ((stopsUnchanged_iff (hfound patches) patches).mp hstop).2)
    · exact script_unreached hreach hrun
  · intro hdistinct hsteady hkeeps text patches hopens htext hread hf
    obtain ⟨hnd, hapart⟩ := hdistinct text patches htext hread
    subst htext
    obtain ⟨hleft, hok⟩ := script_found order hopens hread hf
    cases hrun : script r2 order args binary (some text) with
    | ok result =>
      obtain ⟨hdone, hdump⟩ := hok.mp ⟨result, hrun⟩
      refine .inl ⟨fun p hp => ?_, hdump⟩
      obtain ⟨hpack, fields, hash, hhash⟩ := fieldsMade_completed patches hdone p hp
      exact ⟨hpack, hsteady p _ hash (length_writeAll rfl (fields_fit order binary patches _)) hhash⟩
    | error stop =>
      have hfile := hkeeps stop.1 stop.2 hrun
      rw [hrun] at hleft hok
      have hprefix := fieldsMade_prefix r2 (foundAt order binary patches) patches binary
      refine .inr ((stopsUnchanged_iff (hfound patches) patches).mpr ⟨fun hdone => ?_, ?_⟩)
      · by_contra hdump
        obtain ⟨result, hresult⟩ := hok.mpr ⟨hdone, hdump⟩
        cases hresult
      · exact keeps_of_afterFields hf hapart
          (fun field hfield => hprefix.subset (List.mem_map_of_mem (f := Prod.fst) hfield))
          (hnd.sublist hprefix.sublist) (fun field hfield => fieldsMade_lt patches hfield)
          (hleft.symm.trans hfile)

def sampleGuide : List Char :=
  "f1,222222222,555555555,444444444\nf2,222222223,555555556,444444445\n".toList

/-- No base64 comes back for the second function. -/
def brokenRadare : Radare :=
  { sampleRadare with
    p6e := fun file size offset =>
      if offset = 4098 then .error (.exception "TypeError") else sampleRadare.p6e file size offset }

theorem brokenRadare_hashOf (file : List UInt8) (p : Patch) :
    (∃ hash, hashOf brokenRadare file p = .ok hash) ↔ p.addTarget ≠ 4098 := by
  simp only [hashOf_ok, brokenRadare]
  by_cases hp : p.addTarget = 4098
  · simp [hp]
  · simp [hp, sampleRadare]

/-- The script stops in the second line, behind a first one that it has patched. With the
first number too large it would stop in time. -/
theorem script_all_or_nothing_iff_sample :
    (¬ ∀ fault file, script brokenRadare sampleOrder .plain sampleBinary (some sampleGuide) =
      .error (fault, file) → file = sampleBinary) ∧
    ∀ fault file, script { sampleRadare with aflj := [⟨"sym.f1", 4294967296, 2⟩] } sampleOrder .plain
      sampleBinary (some "f1,222222222,555555555,444444444\n".toList) = .error (fault, file) →
        file = sampleBinary := by
  constructor
  · intro hkeeps
    let patches : List Patch := [⟨222222222, 555555555, 444444444, 4096, 2, 0, false⟩,
      ⟨222222223, 555555556, 444444445, 4098, 12, 0, false⟩]
    have hread : readGuide brokenRadare sampleGuide = .ok patches := rfl
    have hdistinct : DistinctGuide brokenRadare sampleBinary (some sampleGuide) := by
      intro text patches' htext hread'
      obtain rfl : sampleGuide = text := Option.some.inj htext
      obtain rfl : patches = patches' := Except.ok.inj (hread.symm.trans hread')
      refine ⟨by decide, ?_⟩
      unfold WindowsApart
      decide +kernel
    have hsteady : brokenRadare.Steady sampleBinary.length := fun p file hash _ hhash file' _ =>
      (brokenRadare_hashOf file' p).mpr ((brokenRadare_hashOf file p).mp ⟨hash, hhash⟩)
    have hfindable : Findable sampleBinary patches :=
      ⟨List.cons_ne_nil _ _, by decide, by decide +kernel⟩
    have hintime := (script_all_or_nothing_iff brokenRadare sampleOrder .plain sampleBinary
      (some sampleGuide)).2 hdistinct hsteady hkeeps
    rcases hintime sampleGuide patches trivial rfl hread hfindable with ⟨hall, -⟩ | hstop
    · have hsecond := (hall _ (List.mem_cons_of_mem _ List.mem_cons_self)).2 sampleBinary rfl
      exact (brokenRadare_hashOf _ _).mp hsecond rfl
    · simp [StopsUnchanged, patches] at hstop
  · refine (script_all_or_nothing_iff _ sampleOrder .plain sampleBinary _).1 ?_
    intro text patches _ htext hread _
    obtain rfl := Option.some.inj htext
    obtain rfl : [⟨222222222, 555555555, 444444444, 4294967296, 2, 0, false⟩] = patches :=
      Except.ok.inj hread
    exact .inr (.inl (by decide))

/-- The second function of the small binary is at an address of more than 32 bits. -/
def wideRadare : Radare :=
  { sampleRadare with aflj := [⟨"sym.f1", 4096, 2⟩, ⟨"sym.f2", 4294967296, 12⟩] }

/-- The first line is patched when the second one stops the script. -/
theorem second_line_stops : ∃ fault file,
    script wideRadare sampleOrder .plain sampleBinary (some sampleGuide) = .error (fault, file) ∧
      file = [1, 2] ++ [4096, 2, 3, 222222223, 555555556, 444444445].flatMap (littleEndian 4) ∧
      file ≠ sampleBinary := by
  have hleft : leftBy PatchResult.binary
      (script wideRadare sampleOrder .plain sampleBinary (some sampleGuide)) =
        [1, 2] ++ [4096, 2, 3, 222222223, 555555556, 444444445].flatMap (littleEndian 4) := by
    decide +kernel
  have hstop : (script wideRadare sampleOrder .plain sampleBinary (some sampleGuide)).toOption =
      none := by decide +kernel
  cases hrun : script wideRadare sampleOrder .plain sampleBinary (some sampleGuide) with
  | ok result =>
    rw [hrun] at hstop
    cases hstop
  | error stop =>
    rw [hrun] at hleft
    obtain ⟨fault, file⟩ := stop
    obtain rfl : file = _ := hleft
    exact ⟨fault, _, rfl, rfl, by decide +kernel⟩

end SelfChecksumming
