import SelfChecksumming.Library.LittleEndian
import SelfChecksumming.Library.Window
import SelfChecksumming.Outcome

/-! # The Python 2 library, as far as dump_pipe.py uses it -/
namespace SelfChecksumming
open Library

/-! ## mmap -/

/-- A shared mapping of a whole file: its bytes, which are the file's, and the position. -/
structure Mmap where
  bytes : List UInt8
  pos : Nat := 0
  deriving DecidableEq, Repr

/-- `search` stands at index `i`. -/
def matchesAt (search bytes : List UInt8) (i : Nat) : Bool :=
  readAt bytes i search.length = search

namespace Mmap

def size (mm : Mmap) : Nat := mm.bytes.length

/-- `mm.find(search, start)`, `none` for -1. -/
def find (mm : Mmap) (search : List UInt8) (start : Nat) : Option Nat :=
  (List.range' start (mm.size + 1 - (start + search.length))).find? (matchesAt search mm.bytes)

/-- `mm.seek(pos, os.SEEK_SET)` -/
def seek (mm : Mmap) (pos : Nat) : Except Fault Mmap :=
  if pos ≤ mm.size then .ok { mm with pos := pos }
  else .error (.exception "ValueError: seek out of range")

def write (mm : Mmap) (data : List UInt8) : Except Fault Mmap :=
  if mm.pos + data.length ≤ mm.size then
    .ok ⟨writeAt mm.bytes mm.pos data, mm.pos + data.length⟩
  else .error (.exception "ValueError: data out of range")

end Mmap

/-! ## struct -/

/-- `struct.pack('<I', v)` -/
def packI (v : Int) : Except Fault (List UInt8) :=
  if 0 ≤ v ∧ v.toNat < 2 ^ 32 then .ok (littleEndian 4 v.toNat)
  else .error (.exception "struct.error")

theorem packI_ok {v : Int} {data : List UInt8} (h : packI v = .ok data) :
    (0 ≤ v ∧ v.toNat < 2 ^ 32) ∧ data = littleEndian 4 v.toNat := by
  unfold packI at h
  by_cases hv : 0 ≤ v ∧ v.toNat < 2 ^ 32
  · rw [if_pos hv] at h
    exact ⟨hv, (Except.ok.inj h).symm⟩
  · rw [if_neg hv] at h
    cases h

theorem packI_of_lt {v : Int} (h : 0 ≤ v ∧ v.toNat < 2 ^ 32) :
    packI v = .ok (littleEndian 4 v.toNat) := if_pos h

/-! ## str -/

def isSpace (c : Char) : Bool :=
  c = ' ' || c = '\t' || c = '\n' || c = '\r' || c = '\x0b' || c = '\x0c'

/-- `s.strip()` -/
def strip (s : List Char) : List Char :=
  ((s.dropWhile isSpace).reverse.dropWhile isSpace).reverse

/-- `s.split(sep)` -/
def split (sep : Char) : List Char → List (List Char)
  | [] => [[]]
  | c :: rest =>
    if c = sep then [] :: split sep rest
    else
      match split sep rest with
      | [] => [[c]]
      | word :: words => (c :: word) :: words

/-- `f.readlines()`; every line but the last one ends with its line break. -/
def readlines : List Char → List (List Char)
  | [] => []
  | c :: rest =>
    if c = '\n' then [c] :: readlines rest
    else
      match readlines rest with
      | [] => [[c]]
      | line :: lines => (c :: line) :: lines

def splitSign : List Char → Int × List Char
  | '-' :: digits => (-1, digits)
  | '+' :: digits => (1, digits)
  | digits => (1, digits)

/-- `int(s)` -/
def int (s : List Char) : Except Fault Int :=
  let signed := splitSign (strip s)
  if signed.2 ≠ [] ∧ signed.2.all Char.isDigit then
    .ok (signed.1 * (Nat.ofDigitChars 10 signed.2 0 : Nat))
  else .error (.exception "ValueError: invalid literal for int() with base 10")

/-- `s[i]` of a list -/
def item {α : Type} (s : List α) (i : Nat) : Except Fault α :=
  match s[i]? with
  | some a => .ok a
  | none => .error (.exception "IndexError: list index out of range")

example : (readlines "f,1,-2\n g".toList).map (fun line => split ',' (strip line)) =
    ["f,1,-2", "g"].map (fun line => split ',' line.toList) := by decide

end SelfChecksumming
