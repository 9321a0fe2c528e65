import SelfChecksumming.Library.Loop
import SelfChecksumming.Network.Json

/-! # PatchManifest

The manifest of the script, read into one map for each kind of placeholder. The numbers
are cast to `int`; of two entries with one placeholder the later one counts. -/
namespace SelfChecksumming
open Library

namespace Json

/-- `j[key]` on a value that is constant. -/
def constMember (key : String) : Json → Except Fault Json
  | obj members =>
    match members.find? fun m => m.1 = key with
    | some m => .ok m.2
    | none => .error (.undefined "operator[] of a constant object without the key")
  | _ => .error (.exception "type_error.305")

/-- The number that `j.get<int>()` casts: an integer of 64 bits, signed or unsigned. -/
def getNumber : Json → Except Fault Int
  | num n =>
    if n.toNat < 2 ^ 64 ∧ (-n).toNat ≤ 2 ^ 63 then .ok n
    else .error (.undefined "cast of a number out of range")
  | bool b => .ok (if b then 1 else 0)
  | _ => .error (.exception "type_error.302")

def numberAt (patch : Json) (key : String) : Except Fault Int :=
  patch.constMember key >>= getNumber

end Json

inductive PatchKind where
  | address | length | hash
  deriving DecidableEq, Repr

/-- The numbers of one element of the manifest. -/
structure ManifestEntry where
  sizePlaceholder : Int
  sizeTarget : Int
  addPlaceholder : Int
  addTarget : Int
  hashPlaceholder : Int
  hashTarget : Int
  deriving DecidableEq, Repr

namespace ManifestEntry

def placeholder (e : ManifestEntry) : PatchKind → Int
  | .address => e.addPlaceholder
  | .length => e.sizePlaceholder
  | .hash => e.hashPlaceholder

def target (e : ManifestEntry) : PatchKind → Int
  | .address => e.addTarget
  | .length => e.sizeTarget
  | .hash => e.hashTarget

end ManifestEntry

def readEntry (patch : Json) : Except Fault ManifestEntry := do
  let sizePlaceholder ← patch.numberAt "size_placeholder"
  let sizeTarget ← patch.numberAt "size_target"
  let addPlaceholder ← patch.numberAt "add_placeholder"
  let addTarget ← patch.numberAt "add_target"
  let hashPlaceholder ← patch.numberAt "hash_placeholder"
  let hashTarget ← patch.numberAt "hash_target"
  return { sizePlaceholder, sizeTarget, addPlaceholder, addTarget, hashPlaceholder, hashTarget }

/-- The three `std::map<int, int>`, with the number of each key. -/
structure PatchManifest where
  addressPatches : SortedMap Int Int32 := .empty
  sizePatches : SortedMap Int Int32 := .empty
  hashPatches : SortedMap Int Int32 := .empty

namespace PatchManifest

def patches (manifest : PatchManifest) : PatchKind → SortedMap Int Int32
  | .address => manifest.addressPatches
  | .length => manifest.sizePatches
  | .hash => manifest.hashPatches

/-- `patches[placeholder] = target`, both cast to `int`. -/
def assign (map : SortedMap Int Int32) (placeholder target : Int) : SortedMap Int Int32 :=
  map.insert (Int32.ofInt placeholder).toInt (Int32.ofInt target)

def addEntry (manifest : PatchManifest) (e : ManifestEntry) : PatchManifest where
  sizePatches := assign manifest.sizePatches e.sizePlaceholder e.sizeTarget
  addressPatches := assign manifest.addressPatches e.addPlaceholder e.addTarget
  hashPatches := assign manifest.hashPatches e.hashPlaceholder e.hashTarget

def readPatch (manifest : PatchManifest) (patch : Json) : Except Fault PatchManifest := do
  let e ← readEntry patch
  return manifest.addEntry e

/-- `root` is what the file at the path parses to. -/
def readPatchManifest (root : Json) : Except Fault PatchManifest :=
  root.elements.foldlM readPatch {}

theorem patches_addEntry (manifest : PatchManifest) (e : ManifestEntry) (kind : PatchKind) :
    (manifest.addEntry e).patches kind =
      assign (manifest.patches kind) (e.placeholder kind) (e.target kind) := by
  cases kind <;> rfl

/-- The elements of a manifest that can be read. -/
def entriesOf (root : List Json) : List ManifestEntry :=
  root.filterMap fun patch => (readEntry patch).toOption

/-- What the manifest says about a placeholder: the target of the last entry that has it. -/
def listed (entries : List ManifestEntry) (kind : PatchKind) (placeholder : Int32) : Option Int :=
  (entries.reverse.find? fun e => Int32.ofInt (e.placeholder kind) = placeholder).map
    fun e => e.target kind

theorem listed_append (entries : List ManifestEntry) (e : ManifestEntry) (kind : PatchKind)
    (placeholder : Int32) : listed (entries ++ [e]) kind placeholder =
      if Int32.ofInt (e.placeholder kind) = placeholder then some (e.target kind)
      else listed entries kind placeholder := by
  unfold listed
  rw [List.reverse_append, List.reverse_singleton, List.singleton_append, List.find?_cons]
  by_cases h : Int32.ofInt (e.placeholder kind) = placeholder <;> simp [h]

/-- The maps hold what some elements say. -/
def Holds (manifest : PatchManifest) (root : List Json) : Prop :=
  ∀ kind (placeholder : Int32), (manifest.patches kind).find? placeholder.toInt =
    (listed (entriesOf root) kind placeholder).map Int32.ofInt

theorem Holds.readPatch {manifest manifest' : PatchManifest} {root : List Json} {patch : Json}
    (h : manifest.Holds root) (hrun : PatchManifest.readPatch manifest patch = .ok manifest') :
    manifest'.Holds (root ++ [patch]) := by
  obtain ⟨e, he, hrun⟩ := bind_eq_ok.mp hrun
  cases hrun
  intro kind placeholder
  have hentries : entriesOf (root ++ [patch]) = entriesOf root ++ [e] := by
    simp [entriesOf, he, Except.toOption]
  rw [patches_addEntry, assign, hentries, listed_append]
  by_cases hp : Int32.ofInt (e.placeholder kind) = placeholder
  · rw [if_pos hp, hp, SortedMap.find?_insert_self]
    rfl
  · have hne : placeholder.toInt ≠ (Int32.ofInt (e.placeholder kind)).toInt :=
      fun heq => hp (Int32.toInt_inj.mp heq).symm
    rw [if_neg hp, SortedMap.find?_insert_ne _ _ hne, h]

theorem holds_of_read {root : Json} {manifest : PatchManifest}
    (h : readPatchManifest root = .ok manifest) : manifest.Holds root.elements := by
  have hinv := foldlM_invariant (fun done manifest => PatchManifest.Holds manifest done)
    (fun done patch b b' hb hrun => hb.readPatch hrun) root.elements [] (fun kind _ => ?_) h
  · exact hinv
  · cases kind <;> rfl

end PatchManifest

end SelfChecksumming
