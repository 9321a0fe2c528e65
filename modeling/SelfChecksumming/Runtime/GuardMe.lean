import SelfChecksumming.Library.Checksum

/-! # guardMe of rtlib.c -/
namespace SelfChecksumming
open Library

/-- The loop; `beginAddress` is the pointer, `memory` what it points into. -/
def guardLoop (memory : Nat → UInt8) (length : UInt32) (beginAddress : Nat) (visited : UInt32)
    (hash : UInt8) : UInt8 :=
  if visited < length then
    guardLoop memory length (beginAddress + 1) (visited + 1) (hash ^^^ memory beginAddress)
  else hash
termination_by length.toNat - visited.toNat
decreasing_by
  rename_i h
  rw [UInt32.lt_iff_toNat_lt] at h
  have := length.toNat_lt
  rw [UInt32.toNat_add, UInt32.toNat_one]
  omega

/-- `true` when the guard prints "Tampered binary!". -/
def guardMe (memory : Nat → UInt8) (address length expectedHash : UInt32) : Bool :=
  guardLoop memory length address.toNat 0 0 ≠ expectedHash.toUInt8

/-- The bytes from an address on. -/
def bytesFrom (memory : Nat → UInt8) (address n : Nat) : List UInt8 :=
  (List.range' address n).map memory

theorem guardLoop_eq (memory : Nat → UInt8) (length : UInt32) : ∀ (n address : Nat)
    (visited : UInt32) (hash : UInt8), visited.toNat + n = length.toNat →
    guardLoop memory length address visited hash =
      hash ^^^ xorBytes (bytesFrom memory address n) := by
  intro n
  induction n with
  | zero =>
    intro address visited hash hn
    have hdone : ¬ visited < length := by rw [UInt32.lt_iff_toNat_lt]; omega
    rw [guardLoop, if_neg hdone]
    exact (UInt8.xor_zero).symm
  | succ n ih =>
    intro address visited hash hn
    have hlt : visited < length := by rw [UInt32.lt_iff_toNat_lt]; omega
    have hbound := length.toNat_lt
    have hnext : (visited + 1).toNat = visited.toNat + 1 := by
      rw [UInt32.toNat_add, UInt32.toNat_one]
      omega
    rw [guardLoop, if_pos hlt, ih _ _ _ (by omega), bytesFrom, bytesFrom, List.range'_succ,
      List.map_cons, xorBytes_cons, UInt8.xor_assoc]

/-- A guard compares the checksum of its bytes with the low byte of the expected hash. -/
theorem guardMe_eq (memory : Nat → UInt8) (address length expectedHash : UInt32) :
    guardMe memory address length expectedHash =
      decide (xorBytes (bytesFrom memory address.toNat length.toNat) ≠ expectedHash.toUInt8) := by
  rw [guardMe, guardLoop_eq memory length length.toNat _ _ _ (by simp), UInt8.zero_xor]

end SelfChecksumming
