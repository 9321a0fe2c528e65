import Mathlib.Algebra.GroupWithZero.Nat
import Mathlib.Algebra.Ring.Rat

/-! # The statistics of a run

Connectivity is kept in exact arithmetic, where the source uses `double`. The counters,
of the types `int` and `long` there, have no bound: they agree with these below 2^31. -/
namespace SelfChecksumming

/-- `stdConnectivitySq` is the square of the standard deviation. Both averages are
`none` when they were divided by zero. -/
structure Stats where
  numberOfProtectedInstructions : Int := 0
  numberOfSensitiveInstructions : Int := 0
  numberOfProtectedFunctions : Int := 0
  avgConnectivity : Option Rat := some 0
  stdConnectivitySq : Option Rat := some 0
  numberOfGuards : Int := 0
  numberOfGuardInstructions : Int := 0
  desiredConnectivity : Int := 1
  deriving DecidableEq, Repr

namespace Stats

def setNumberOfSensitiveInstructions (s : Stats) (value : Int) : Stats :=
  { s with numberOfSensitiveInstructions := value }

def addNumberOfProtectedInstructions (s : Stats) (value : Int) : Stats :=
  { s with numberOfProtectedInstructions := s.numberOfProtectedInstructions + value }

def addNumberOfProtectedFunctions (s : Stats) (value : Int) : Stats :=
  { s with numberOfProtectedFunctions := s.numberOfProtectedFunctions + value }

def setDesiredConnectivity (s : Stats) (value : Int) : Stats :=
  { s with desiredConnectivity := value }

def addNumberOfGuards (s : Stats) (value : Int) : Stats :=
  { s with numberOfGuards := s.numberOfGuards + value }

def addNumberOfGuardInstructions (s : Stats) (value : Int) : Stats :=
  { s with numberOfGuardInstructions := s.numberOfGuardInstructions + value }

/-- `x / n`, defined for `n` other than zero only. -/
def divide (x : Rat) (n : Nat) : Option Rat := if n = 0 then none else some (x / n)

def calculateConnectivity (s : Stats) (v : List Int) : Stats :=
  let mean := divide (v.map fun x : Int => (x : Rat)).sum v.length
  { s with
    avgConnectivity := mean
    stdConnectivitySq :=
      mean.bind fun mean => divide (v.map fun x : Int => (x - mean) * (x - mean)).sum v.length }

end Stats

end SelfChecksumming
