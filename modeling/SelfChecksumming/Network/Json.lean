import SelfChecksumming.Library.SortedMap
import SelfChecksumming.Module
import SelfChecksumming.Outcome
import Mathlib.Data.String.Basic

/-! # Dumping and loading a network

JSON values stand for the text that the library prints and parses. `loadJson`
rebuilds the map from the names under "topologicalsort", so a dumped network comes
back whole because the sort lists every key. -/
namespace SelfChecksumming
open Library

/-- The numbers are integers; fractional ones are left out. -/
inductive Json where
  | null
  | bool (b : Bool)
  | num (n : Int)
  | str (s : String)
  | arr (elements : List Json)
  | obj (members : List (String × Json))

namespace Json

/-- `j[key]` on a value that is not constant: a missing member is null, and so is
a member of null. -/
def member (key : String) : Json → Except Fault Json
  | null => .ok null
  | obj members => .ok (((members.find? fun m => m.1 = key).map Prod.snd).getD null)
  | _ => .error (.exception "type_error.305")

/-- What a range-based `for` over the value visits. -/
def elements : Json → List Json
  | null => []
  | arr xs => xs
  | obj members => members.map Prod.snd
  | j => [j]

/-- `j.get<std::string>()` -/
def getString : Json → Except Fault String
  | str s => .ok s
  | _ => .error (.exception "type_error.302")

end Json

/-- What opening and parsing a file gives. -/
inductive NetworkFile where
  | unopened
  | malformed
  | parsed (j : Json)

variable {Fn : Type} [LinearOrder Fn] [OrderBot Fn]

/-! ## dumpJson -/

/-- The members of `j` while the map is dumped, and `uniqueCheckees`. The member
"map" exists from the first checker on. -/
structure Dump (Fn : Type) where
  allCheckees : List Json := []
  map : Option (SortedMap String (List Json)) := none
  uniqueCheckees : List Fn := []

def nullName : Fault := .undefined "getName() of a null pointer"

/-- `j["map"][checker].push_back(checkee)`, and `checkee` among all checkees once. -/
def dumpCheckee (M : Module Fn) (checker : Fn) (d : Dump Fn) (checkee : Fn) :
    Except Fault (Dump Fn) :=
  if checkee = ⊥ then .error nullName
  else
    let name := Json.str (M.getName checkee)
    let map := (d.map.getD .empty).upsert (M.getName checker) fun xs => xs.getD [] ++ [name]
    if checkee ∈ d.uniqueCheckees then .ok { d with map := some map }
    else .ok ⟨d.allCheckees ++ [name], some map, d.uniqueCheckees ++ [checkee]⟩

def dumpChecker (M : Module Fn) (d : Dump Fn) (checker : Fn × List Fn) : Except Fault (Dump Fn) :=
  if checker.1 = ⊥ then .ok d
  else
    checker.2.foldlM (dumpCheckee M checker.1)
      { d with map := some ((d.map.getD .empty).insert (M.getName checker.1) []) }

def dumpSort (M : Module Fn) (names : List Json) (checker : Fn) : Except Fault (List Json) :=
  if checker = ⊥ then .error nullName else .ok (names ++ [.str (M.getName checker)])

/-- The value under `key` in an object of arrays. -/
def arrays (map : SortedMap String (List Json)) : List (String × Json) :=
  map.entries.map fun e => (e.1, .arr e.2)

def dumpJson (M : Module Fn) (checkerToCheckee : SortedMap Fn (List Fn))
    (reverseTopologicalSort : List Fn) : Except Fault Json :=
  match checkerToCheckee.entries.foldlM (dumpChecker M) {} with
  | .error fault => .error fault
  | .ok d =>
    match reverseTopologicalSort.foldlM (dumpSort M) [] with
    | .error fault => .error fault
    | .ok names =>
      .ok (.obj ([("allCheckees", .arr d.allCheckees)] ++
        (d.map.map fun map => ("map", .obj (arrays map))).toList ++
        [("topologicalsort", .arr names)]))

/-! ## loadJson -/

def loadCheckee (M : Module Fn) (checkee : Json) : Except Fault Fn :=
  match checkee.getString with
  | .error fault => .error fault
  | .ok name => .ok (M.getFunction name)

def loadChecker (M : Module Fn) (j : Json) (loaded : SortedMap Fn (List Fn) × List Fn)
    (checker : Json) : Except Fault (SortedMap Fn (List Fn) × List Fn) := do
  let name ← checker.getString
  let checkerFunc := M.getFunction name
  let map ← j.member "map"
  let checkees ← map.member name
  let funcCheckee ← checkees.elements.mapM (loadCheckee M)
  return (loaded.1.insert checkerFunc funcCheckee, loaded.2 ++ [checkerFunc])

/-- The map and the list that the file's text gives. -/
def loadJson (M : Module Fn) : NetworkFile → Except Fault (SortedMap Fn (List Fn) × List Fn)
  | .unopened => .ok (.empty, [])
  | .malformed => .error (.exception "parse_error")
  | .parsed j => do
    let checkers ← j.member "topologicalsort"
    checkers.elements.foldlM (loadChecker M j) (.empty, [])

end SelfChecksumming
