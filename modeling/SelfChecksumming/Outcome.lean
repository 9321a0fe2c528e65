/-! Ways in which the C++ side stops short of a result. -/
namespace SelfChecksumming

inductive Fault where
  /-- `errs() << message; exit(1)` -/
  | exit (message : String)
  /-- an exception nobody catches -/
  | exception (what : String)
  /-- undefined behaviour: a null pointer dereferenced, an index out of range -/
  | undefined (what : String)
  /-- the fuel of a modelled recursion ran out -/
  | outOfFuel
  deriving DecidableEq, Repr

/-- Control gets past the end of a function whose result nobody looks at. C++ leaves that
undefined; with GCC 5.4, the compiler of the image in the Dockerfile, the function returns. -/
abbrev flowsOff : Except Fault Unit := .ok ()

end SelfChecksumming
