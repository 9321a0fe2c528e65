import SelfChecksumming.Patcher.DumpPipe

/-! # What the search finds

The first find and the find-next loop together list every index at which a value
stands, in any alignment, before anything is written. -/
namespace SelfChecksumming
open Library

/-! ## Occurrences -/

/-- The indices from `start` on at which `pattern` stands. -/
def occurrencesFrom (bytes pattern : List UInt8) (start : Nat) : List Nat :=
  (List.range' start (bytes.length + 1 - (start + pattern.length))).filter
    (matchesAt pattern bytes)

/-- The indices at which the 32-bit value stands. -/
def occurrences (bytes : List UInt8) (value : Int) : List Nat :=
  occurrencesFrom bytes (littleEndian 4 value.toNat) 0

theorem mem_occurrences {bytes : List UInt8} {value : Int} {i : Nat} :
    i ∈ occurrences bytes value ↔ readAt bytes i 4 = littleEndian 4 value.toNat := by
  have hmatch : matchesAt (littleEndian 4 value.toNat) bytes i = true ↔
      readAt bytes i 4 = littleEndian 4 value.toNat := by
    rw [matchesAt, length_littleEndian, decide_eq_true_iff]
  rw [occurrences, occurrencesFrom, List.mem_filter, hmatch, List.mem_range'_1,
    length_littleEndian]
  refine and_iff_right_of_imp fun h => ?_
  have hlen : (readAt bytes i 4).length = 4 := by rw [h, length_littleEndian]
  rw [readAt, List.length_take, List.length_drop] at hlen
  omega

theorem occurrence_fits {bytes : List UInt8} {value : Int} {i : Nat}
    (h : i ∈ occurrences bytes value) : i + 4 ≤ bytes.length := by
  have hlen : (readAt bytes i 4).length = 4 := by rw [mem_occurrences.mp h, length_littleEndian]
  rw [readAt, List.length_take, List.length_drop] at hlen
  omega

theorem find_eq (mm : Mmap) (pattern : List UInt8) (start : Nat) :
    mm.find pattern start = (occurrencesFrom mm.bytes pattern start).head? :=
  List.head?_filter.symm

/-- Behind a match in a range, the other matches are those behind it. -/
theorem filter_range'_cons {p : Nat → Bool} {a : Nat} {rest : List Nat} : ∀ {n s : Nat},
    (List.range' s n).filter p = a :: rest → s ≤ a ∧ a < s + n ∧
      rest = (List.range' (a + 1) (s + n - (a + 1))).filter p := by
  intro n
  induction n with
  | zero => intro s h; cases h
  | succ n ih =>
    intro s h
    rw [List.range'_succ] at h
    by_cases hs : p s = true
    · rw [List.filter_cons_of_pos hs] at h
      obtain ⟨rfl, rfl⟩ := List.cons.inj h
      refine ⟨Nat.le_refl _, by omega, ?_⟩
      rw [show s + (n + 1) - (s + 1) = n by omega]
    · rw [List.filter_cons_of_neg hs] at h
      obtain ⟨hle, hlt, hrest⟩ := ih h
      refine ⟨by omega, by omega, ?_⟩
      rw [hrest, show s + 1 + n - (a + 1) = s + (n + 1) - (a + 1) by omega]

theorem occurrencesFrom_cons {bytes pattern : List UInt8} {start a : Nat} {rest : List Nat}
    (h : occurrencesFrom bytes pattern start = a :: rest) :
    rest = occurrencesFrom bytes pattern (a + 1) := by
  obtain ⟨hle, hlt, hrest⟩ := filter_range'_cons h
  rw [hrest, occurrencesFrom]
  congr 2
  omega

/-! ## The find-next loop -/

/-- From any start the loop adds all occurrences, and it has the fuel to do so. -/
theorem collectAddresses_eq (mm : Mmap) {value : Int} (hv : 0 ≤ value ∧ value.toNat < 2 ^ 32) :
    ∀ (l : List Nat) (start fuel : Nat) (found : List Nat),
      occurrencesFrom mm.bytes (littleEndian 4 value.toNat) start = l → l.length ≤ fuel →
      collectAddresses mm value fuel l.head? found = .ok (found ++ l) := by
  intro l
  induction l with
  | nil => intro start fuel found _ _; simp [collectAddresses]
  | cons a rest ih =>
    intro start fuel found hl hfuel
    cases fuel with
    | zero => simp at hfuel
    | succ fuel =>
      have hrest := occurrencesFrom_cons hl
      have hnext : findPlaceholderSequential mm (a + 1) value = .ok rest.head? := by
        rw [findPlaceholderSequential, packI_of_lt hv]
        show Except.ok (mm.find _ _) = _
        rw [find_eq, hrest]
      rw [List.head?_cons, collectAddresses, hnext]
      refine (ih (a + 1) fuel (found ++ [a]) hrest.symm ?_).trans ?_
      · rw [List.length_cons] at hfuel
        omega
      · rw [List.append_assoc, List.singleton_append]

theorem length_occurrences_le (bytes : List UInt8) (value : Int) :
    (occurrences bytes value).length ≤ bytes.length + 1 := by
  have hle := List.length_filter_le (matchesAt (littleEndian 4 value.toNat) bytes)
    (List.range' 0 (bytes.length + 1 - (0 + (littleEndian 4 value.toNat).length)))
  rw [List.length_range'] at hle
  unfold occurrences occurrencesFrom
  omega

/-- One value, with the file at its start. -/
theorem findValue_eq (bytes : List UInt8) (found : SortedMap Int (List Nat)) {value : Int}
    (hv : 0 ≤ value ∧ value.toNat < 2 ^ 32) :
    findValue (⟨bytes, 0⟩, found) value =
      if occurrences bytes value = [] then .error (.exit "")
      else .ok (⟨bytes, 0⟩,
        found.insert value ((found.find? value).getD [] ++ occurrences bytes value)) := by
  have hfirst : findPlaceholder ⟨bytes, 0⟩ value =
      .ok ((occurrences bytes value).head?, ⟨bytes, 0⟩) := by
    rw [findPlaceholder, packI_of_lt hv]
    show Except.ok _ = _
    simp only [find_eq, ite_self]
    rfl
  rw [findValue, hfirst]
  cases hocc : occurrences bytes value with
  | nil => rfl
  | cons a rest =>
    have hcollect := collectAddresses_eq ⟨bytes, 0⟩ hv (a :: rest) 0 (bytes.length + 1)
      ((found.find? value).getD []) hocc (hocc ▸ length_occurrences_le bytes value)
    rw [if_neg (List.cons_ne_nil a rest)]
    refine bind_eq_ok.mpr ⟨_, rfl, ?_⟩
    exact bind_eq_ok.mpr ⟨_, hcollect, rfl⟩

theorem findValue_ok {bytes : List UInt8} {found : SortedMap Int (List Nat)} {value : Int}
    {st : Mmap × SortedMap Int (List Nat)} (h : findValue (⟨bytes, 0⟩, found) value = .ok st) :
    (0 ≤ value ∧ value.toNat < 2 ^ 32) ∧ occurrences bytes value ≠ [] ∧ st = (⟨bytes, 0⟩,
      found.insert value ((found.find? value).getD [] ++ occurrences bytes value)) := by
  have hrange : 0 ≤ value ∧ value.toNat < 2 ^ 32 := by
    obtain ⟨_, hfirst, -⟩ := bind_eq_ok.mp h
    obtain ⟨_, hpack, -⟩ := bind_eq_ok.mp hfirst
    exact (packI_ok hpack).1
  refine ⟨hrange, ?_⟩
  rw [findValue_eq bytes found hrange] at h
  by_cases hocc : occurrences bytes value = []
  · rw [if_pos hocc] at h
    cases h
  · rw [if_neg hocc] at h
    exact ⟨hocc, (Except.ok.inj h).symm⟩

/-! ## All values -/

/-- The addresses recorded for a value: its occurrences, once for every time it was
searched for. -/
def addressesOf (bytes : List UInt8) (values : List Int) (value : Int) : List Nat :=
  (List.replicate (values.count value) (occurrences bytes value)).flatten

theorem mem_addressesOf {bytes : List UInt8} {values : List Int} {value : Int} {i : Nat} :
    i ∈ addressesOf bytes values value ↔ value ∈ values ∧ i ∈ occurrences bytes value := by
  rw [addressesOf, List.mem_flatten]
  constructor
  · intro h
    obtain ⟨l, hl, hi⟩ := h
    obtain ⟨hcount, rfl⟩ := List.mem_replicate.mp hl
    exact ⟨List.count_pos_iff.mp (by omega), hi⟩
  · intro h
    obtain ⟨hv, hi⟩ := h
    have hpos := List.count_pos_iff.mpr hv
    exact ⟨_, List.mem_replicate.mpr ⟨by omega, rfl⟩, hi⟩

/-- The state of the search once some values are done. -/
structure Searched (bytes : List UInt8) (done : List Int) (st : Mmap × SortedMap Int (List Nat)) :
    Prop where
  mm : st.1 = ⟨bytes, 0⟩
  found : ∀ v, st.2.find? v = if v ∈ done then some (addressesOf bytes done v) else none
  range : ∀ v ∈ done, 0 ≤ v ∧ v.toNat < 2 ^ 32
  occurs : ∀ v ∈ done, occurrences bytes v ≠ []

theorem Searched.findValue {bytes : List UInt8} {done : List Int} {value : Int}
    {st st' : Mmap × SortedMap Int (List Nat)} (hs : Searched bytes done st)
    (h : SelfChecksumming.findValue st value = .ok st') :
    Searched bytes (done ++ [value]) st' := by
  obtain ⟨mm, found⟩ := st
  obtain rfl : mm = ⟨bytes, 0⟩ := hs.mm
  obtain ⟨hrange, hocc, rfl⟩ := findValue_ok h
  have hold : (found.find? value).getD [] = addressesOf bytes done value := by
    rw [hs.found value]
    by_cases hv : value ∈ done
    · rw [if_pos hv, Option.getD_some]
    · rw [if_neg hv, Option.getD_none, addressesOf, List.count_eq_zero_of_not_mem hv]
      rfl
  have hsnoc : ∀ v, v ∈ done ++ [value] ↔ v ∈ done ∨ v = value := fun v => by
    rw [List.mem_append, List.mem_singleton]
  refine ⟨rfl, fun v => ?_, fun v hv => ?_, fun v hv => ?_⟩
  · by_cases hv : v = value
    · subst hv
      rw [SortedMap.find?_insert_self, if_pos ((hsnoc v).mpr (.inr rfl)), hold, addressesOf,
        addressesOf, List.count_append, List.count_singleton_self, List.replicate_add,
        List.flatten_append]
      simp
    · rw [SortedMap.find?_insert_ne _ _ hv, hs.found v, addressesOf, addressesOf,
        List.count_append, List.count_singleton]
      simp [hv, Ne.symm hv]
  · rcases (hsnoc v).mp hv with hv | rfl
    · exact hs.range v hv
    · exact hrange
  · rcases (hsnoc v).mp hv with hv | rfl
    · exact hs.occurs v hv
    · exact hocc

theorem Searched.start (bytes : List UInt8) : Searched bytes [] (⟨bytes, 0⟩, .empty) :=
  ⟨rfl, fun _ => by simp, by simp, by simp⟩

/-- A search that completes has found every value, everywhere. -/
theorem findAllPlaceholders_ok {order : DictOrder} {bytes : List UInt8} {patches : List Patch}
    {st : Mmap × SortedMap Int (List Nat)}
    (h : findAllPlaceholders order ⟨bytes, 0⟩ patches = .ok st) :
    Searched bytes (placeholderValues order patches) st := by
  have hinv := foldlM_invariant (Searched bytes) (fun done v b b' hb hv => hb.findValue hv)
    (placeholderValues order patches) [] (Searched.start bytes) h
  rwa [List.nil_append] at hinv

/-- The search completes when every value is a 32-bit one that occurs. -/
theorem findAllPlaceholders_total (order : DictOrder) {bytes : List UInt8} {patches : List Patch}
    (hrange : ∀ v ∈ placeholderValues order patches, 0 ≤ v ∧ v.toNat < 2 ^ 32)
    (hocc : ∀ v ∈ placeholderValues order patches, occurrences bytes v ≠ []) :
    ∃ st, findAllPlaceholders order ⟨bytes, 0⟩ patches = .ok st := by
  obtain ⟨st, hst, -⟩ := foldlM_total (f := findValue) (fun st => st.1 = ⟨bytes, 0⟩)
    (placeholderValues order patches)
    (fun v hv st hmm => by
      obtain ⟨mm, found⟩ := st
      obtain rfl : mm = ⟨bytes, 0⟩ := hmm
      rw [findValue_eq bytes found (hrange v hv), if_neg (hocc v hv)]
      exact ⟨_, rfl, rfl⟩)
    (⟨bytes, 0⟩, .empty) rfl
  exact ⟨st, hst⟩

end SelfChecksumming
