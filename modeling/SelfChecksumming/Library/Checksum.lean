import SelfChecksumming.Library.Window

/-! # The exclusive or of bytes -/
namespace Library

def xorBytes (bytes : List UInt8) : UInt8 := bytes.foldl (· ^^^ ·) 0

theorem xor_xor_cancel (a b : UInt8) : a ^^^ (a ^^^ b) = b := by
  rw [← UInt8.xor_assoc, UInt8.xor_self, UInt8.zero_xor]

theorem foldl_xor (bytes : List UInt8) : ∀ h : UInt8,
    bytes.foldl (· ^^^ ·) h = h ^^^ xorBytes bytes := by
  induction bytes with
  | nil => intro h; exact (UInt8.xor_zero).symm
  | cons b bytes ih =>
    intro h
    rw [xorBytes, List.foldl_cons, List.foldl_cons, ih, ih (0 ^^^ b), UInt8.zero_xor,
      UInt8.xor_assoc]

theorem xorBytes_cons (b : UInt8) (bytes : List UInt8) :
    xorBytes (b :: bytes) = b ^^^ xorBytes bytes := by
  rw [xorBytes, List.foldl_cons, foldl_xor, UInt8.zero_xor]

theorem xorBytes_append (bytes bytes' : List UInt8) :
    xorBytes (bytes ++ bytes') = xorBytes bytes ^^^ xorBytes bytes' := by
  rw [xorBytes, List.foldl_append, foldl_xor, ← xorBytes]

/-- Accumulating numbers instead of bytes gives the same checksum. -/
theorem foldl_xor_toNat (bytes : List UInt8) :
    bytes.foldl (fun h b => h ^^^ b.toNat) 0 = (xorBytes bytes).toNat := by
  have hfold : ∀ (bytes : List UInt8) (h : UInt8),
      bytes.foldl (fun h b => h ^^^ b.toNat) h.toNat = (h ^^^ xorBytes bytes).toNat := by
    intro bytes
    induction bytes with
    | nil => intro h; exact congrArg UInt8.toNat (UInt8.xor_zero).symm
    | cons b bytes ih =>
      intro h
      rw [List.foldl_cons, ← UInt8.toNat_xor, ih, xorBytes_cons, UInt8.xor_assoc]
  exact (hfold bytes 0).trans (congrArg UInt8.toNat UInt8.zero_xor)

/-- The checksum of the differences is the difference of the checksums. -/
theorem xorBytes_zipWith : ∀ {l l' : List UInt8}, l.length = l'.length →
    xorBytes (List.zipWith (· ^^^ ·) l l') = xorBytes l ^^^ xorBytes l' := by
  intro l
  induction l with
  | nil =>
    intro l' h
    obtain rfl : l' = [] := List.eq_nil_of_length_eq_zero h.symm
    exact UInt8.xor_self.symm
  | cons b l ih =>
    intro l' h
    cases l' with
    | nil => cases h
    | cons c l' =>
      rw [List.zipWith_cons_cons, xorBytes_cons, xorBytes_cons, xorBytes_cons,
        ih (Nat.succ.inj h), UInt8.xor_assoc, UInt8.xor_assoc, ← UInt8.xor_assoc (xorBytes l),
        UInt8.xor_comm (xorBytes l) c, UInt8.xor_assoc]

/-- One byte cannot change without changing the checksum. -/
theorem xorBytes_set_ne {l : List UInt8} : ∀ {k : Nat} {b c : UInt8}, l[k]? = some c → c ≠ b →
    xorBytes (l.set k b) ≠ xorBytes l := by
  induction l with
  | nil => intro k b c h; cases h
  | cons a l ih =>
    intro k b c h hne
    cases k with
    | zero =>
      obtain rfl : a = c := Option.some.inj h
      rw [List.set_cons_zero, xorBytes_cons, xorBytes_cons, Ne, UInt8.xor_left_inj]
      exact Ne.symm hne
    | succ k =>
      rw [List.set_cons_succ, xorBytes_cons, xorBytes_cons, Ne, UInt8.xor_right_inj]
      exact ih h hne

/-- A byte takes part in the checksum on its own. -/
theorem xorBytes_set {l : List UInt8} : ∀ {k : Nat} {c : UInt8} (b : UInt8), l[k]? = some c →
    xorBytes (l.set k b) = xorBytes l ^^^ (c ^^^ b) := by
  induction l with
  | nil => intro k c b h; cases h
  | cons a l ih =>
    intro k c b h
    cases k with
    | zero =>
      obtain rfl : a = c := Option.some.inj h
      rw [List.set_cons_zero, xorBytes_cons, xorBytes_cons, UInt8.xor_comm (a ^^^ xorBytes l),
        UInt8.xor_comm a b, UInt8.xor_assoc, ← UInt8.xor_assoc a, UInt8.xor_self, UInt8.zero_xor]
    | succ k =>
      rw [List.set_cons_succ, xorBytes_cons, xorBytes_cons, ih b h, UInt8.xor_assoc]

/-! ## Windows -/

/-- A write inside a range changes its checksum by what was there and what is. -/
theorem xorBytes_writeAt {l d : List UInt8} {i start n : Nat} (hl : start ≤ i)
    (hr : i + d.length ≤ start + n) (hn : start + n ≤ l.length) :
    xorBytes (readAt (writeAt l i d) start n) =
      xorBytes (readAt l start n) ^^^ (xorBytes (readAt l i d.length) ^^^ xorBytes d) := by
  have hfit : i + d.length ≤ l.length := by omega
  obtain ⟨a, rfl⟩ := Nat.exists_eq_add_of_le hl
  obtain ⟨b, hb⟩ := Nat.exists_eq_add_of_le hr
  obtain rfl : n = a + (d.length + b) := by omega
  have hbefore : readAt (writeAt l (start + a) d) start a = readAt l start a := by
    refine readAt_congr fun k hk hk' => ?_
    rw [writeAt_getElem? hfit, if_neg (by omega)]
  have hbehind : readAt (writeAt l (start + a) d) (start + a + d.length) b =
      readAt l (start + a + d.length) b := by
    refine readAt_congr fun k hk hk' => ?_
    rw [writeAt_getElem? hfit, if_neg (by omega)]
  simp only [readAt_add, xorBytes_append, hbefore, hbehind, readAt_writeAt_self hfit]
  generalize xorBytes (readAt l (start + a) d.length) = old
  generalize xorBytes (readAt l start a) = before
  generalize xorBytes (readAt l (start + a + d.length) b) = behind
  calc before ^^^ (xorBytes d ^^^ behind)
      = before ^^^ ((old ^^^ (old ^^^ xorBytes d)) ^^^ behind) := by rw [xor_xor_cancel]
    _ = before ^^^ (old ^^^ behind) ^^^ (old ^^^ xorBytes d) := by ac_rfl

/-- Two lists that differ in some windows of a range: so far as checksums go, the range
differs as much as the windows do. -/
theorem xorBytes_windows {k start n : Nat} {ws : List Nat} : ∀ {l l' : List UInt8},
    l.length = l'.length → start + n ≤ l.length →
    (∀ i ∈ ws, start ≤ i ∧ i + k ≤ start + n) → ws.Pairwise (Apart k) →
    (∀ j, start ≤ j → j < start + n → (∀ i ∈ ws, j < i ∨ i + k ≤ j) → l[j]? = l'[j]?) →
    xorBytes (readAt l start n) ^^^ xorBytes (readAt l' start n) =
      xorBytes (ws.flatMap (readAt l · k)) ^^^ xorBytes (ws.flatMap (readAt l' · k)) := by
  induction ws with
  | nil =>
    intro l l' hlen hn _ _ hsame
    have hread : readAt l start n = readAt l' start n :=
      readAt_congr fun j hj hj' => hsame j hj hj' (fun i hi => absurd hi List.not_mem_nil)
    rw [hread, UInt8.xor_self, List.flatMap_nil, List.flatMap_nil, UInt8.xor_self]
  | cons i ws ih =>
    intro l l' hlen hn hin hapart hsame
    obtain ⟨⟨hl, hr⟩, hin⟩ := List.forall_mem_cons.mp hin
    obtain ⟨hi, hapart⟩ := List.pairwise_cons.mp hapart
    have hd : (readAt l' i k).length = k := by
      rw [readAt, List.length_take, List.length_drop]
      omega
    have hfit : i + (readAt l' i k).length ≤ l.length := by omega
    have hstep := xorBytes_writeAt hl (d := readAt l' i k) (by omega) hn
    have hkept : ∀ j ∈ ws, readAt (writeAt l i (readAt l' i k)) j k = readAt l j k := by
      intro j hj
      refine readAt_congr fun b hb hb' => ?_
      rw [writeAt_getElem? hfit, if_neg]
      rcases hi j hj with h | h <;> omega
    have hrest := ih (l := writeAt l i (readAt l' i k)) ((length_writeAt hfit).trans hlen)
      (by rwa [length_writeAt hfit]) hin hapart fun j hj hj' hout => ?_
    · rw [List.flatMap_cons, List.flatMap_cons, xorBytes_append, xorBytes_append]
      rw [List.flatMap_congr hkept, hstep, hd] at hrest
      generalize xorBytes (readAt l i k) = a at hrest ⊢
      generalize xorBytes (readAt l' i k) = b at hrest ⊢
      generalize xorBytes (readAt l start n) = whole at hrest ⊢
      generalize xorBytes (readAt l' start n) = whole' at hrest ⊢
      calc whole ^^^ whole'
          = (a ^^^ b) ^^^ ((a ^^^ b) ^^^ (whole ^^^ whole')) := (xor_xor_cancel _ _).symm
        _ = (a ^^^ b) ^^^ (whole ^^^ (a ^^^ b) ^^^ whole') := by ac_rfl
        _ = _ := by rw [hrest]; ac_rfl
    · rw [writeAt_getElem? hfit, hd]
      split
      · rename_i hj
        rw [readAt_getElem?, if_pos (by omega), Nat.add_sub_cancel' hj.1]
      · rename_i hj
        exact hsame j ‹_› hj' (List.forall_mem_cons.mpr ⟨by omega, hout⟩)

end Library
