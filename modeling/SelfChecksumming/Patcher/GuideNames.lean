import Mathlib.Data.List.Forall2
import SelfChecksumming.Pass.Run
import SelfChecksumming.Patcher.DumpPipe

/-! # What a name in the guide stands for

The pass deletes blanks from a demangled name and folds ten characters into the
underscore; the script tells two names apart up to the text "sym.". -/
namespace SelfChecksumming
open Library

/-! ## Folding -/

def foldChar (c : Char) : Char := if isFolded c then '_' else c

def unblanked (text : String) : List Char := text.toList.filter (· ≠ ' ')

/-- The characters that the guide cannot tell apart. -/
def SameGlyph (a b : Char) : Prop :=
  a = b ∨ (isFolded a = true ∨ a = '_') ∧ (isFolded b = true ∨ b = '_')

theorem foldChar_eq_underscore {c : Char} : foldChar c = '_' ↔ isFolded c = true ∨ c = '_' := by
  unfold foldChar
  cases isFolded c <;> simp

theorem foldChar_eq_iff {a b : Char} : foldChar a = foldChar b ↔ SameGlyph a b := by
  unfold SameGlyph
  rw [← foldChar_eq_underscore, ← foldChar_eq_underscore]
  constructor
  · intro h
    cases ha : isFolded a with
    | true =>
      have hline : foldChar a = '_' := if_pos ha
      exact .inr ⟨hline, h ▸ hline⟩
    | false =>
      cases hb : isFolded b with
      | true =>
        have hline : foldChar b = '_' := if_pos hb
        exact .inr ⟨h.trans hline, hline⟩
      | false => exact .inl (by simpa [foldChar, ha, hb] using h)
  · intro h
    rcases h with rfl | ⟨ha, hb⟩
    · rfl
    · rw [ha, hb]

theorem demangleName_some {cxaDemangle : String → Option String} {name text : String}
    (h : cxaDemangle name = some text) :
    demangleName cxaDemangle name = .ofList ((unblanked text).map foldChar) := by
  rw [demangleName, h]
  rfl

theorem demangleName_none {cxaDemangle : String → Option String} {name : String}
    (h : cxaDemangle name = none) : demangleName cxaDemangle name = name := by
  rw [demangleName, h]

/-! ## Two names -/

/-- When two symbols get one name: their texts agree, glyph by glyph, up to blanks. A
symbol that does not demangle is its own text, and nothing in it is folded. -/
def Collide (cxaDemangle : String → Option String) (n m : String) : Prop :=
  match cxaDemangle n, cxaDemangle m with
  | some s, some t => List.Forall₂ SameGlyph (unblanked s) (unblanked t)
  | some s, none => List.Forall₂ (fun a b => foldChar a = b) (unblanked s) m.toList
  | none, some t => List.Forall₂ (fun a b => a = foldChar b) n.toList (unblanked t)
  | none, none => n = m

theorem demangleName_eq_iff (cxaDemangle : String → Option String) (n m : String) :
    demangleName cxaDemangle n = demangleName cxaDemangle m ↔ Collide cxaDemangle n m := by
  rw [← String.toList_inj, ← List.forall₂_eq_eq_eq]
  unfold Collide
  cases hn : cxaDemangle n with
  | none =>
    cases hm : cxaDemangle m with
    | none =>
      rw [demangleName_none hn, demangleName_none hm, List.forall₂_eq_eq_eq, String.toList_inj]
    | some t =>
      rw [demangleName_none hn, demangleName_some hm, String.toList_ofList,
        List.forall₂_map_right_iff]
  | some s =>
    cases hm : cxaDemangle m with
    | none =>
      rw [demangleName_some hn, demangleName_none hm, String.toList_ofList,
        List.forall₂_map_left_iff]
    | some t =>
      rw [demangleName_some hn, demangleName_some hm, String.toList_ofList, String.toList_ofList,
        List.forall₂_map_left_iff, List.forall₂_map_right_iff]
      simp only [foldChar_eq_iff]

/-! ## Looking names up -/

theorem dropSym_sym (name : String) : dropSym ("sym." ++ name).toList = dropSym name.toList := by
  rw [String.toList_append]
  rfl

theorem lookupFunc_name {r2 : Radare} {name : String} {info : FuncInfo}
    (h : lookupFunc r2 name = some info) : info.name = name := by
  simpa using List.find?_some h

/-- What is taken for the function of a line, and not for a mismatch, has its name. -/
theorem resolve_name {r2 : Radare} {seeks seeks' : List String} {name : String} {info : FuncInfo}
    (h : resolve r2 seeks name = .ok (info, false, seeks')) :
    dropSym info.name.toList = dropSym name.toList := by
  unfold resolve at h
  have htarget : dropSym (if (lookupFunc r2 name).isNone then "sym." ++ name else name).toList =
      dropSym name.toList := by
    split
    · exact dropSym_sym name
    · rfl
  generalize (if (lookupFunc r2 name).isNone then "sym." ++ name else name) = target at h htarget
  rw [← htarget]
  cases hfind : lookupFunc r2 target with
  | some found =>
    simp only [hfind] at h
    cases h
    rw [lookupFunc_name hfind]
  | none =>
    simp only [hfind] at h
    cases hseek : r2.afij (seeks ++ [target]) with
    | nil => simp only [hseek] at h; cases h
    | cons found rest =>
      simp only [hseek, Except.ok.injEq, Prod.mk.injEq, decide_eq_false_iff_not, not_not] at h
      obtain ⟨rfl, hname, -⟩ := h
      exact hname.symm

variable {Fn : Type} [LinearOrder Fn] [OrderBot Fn]

/-- How far the names in the guide identify two functions: they are equal exactly when the
texts agree glyph by glyph, never when neither symbol demangles; and the script takes both
lines for functions of one name only when the names agree up to "sym.". -/
theorem guide_names_identify (cxaDemangle : String → Option String) (M : Module Fn) {F G : Fn}
    (hF : F ∈ M.functions) (hG : G ∈ M.functions) (hne : F ≠ G) :
    (demangleName cxaDemangle (M.getName F) = demangleName cxaDemangle (M.getName G) ↔
      Collide cxaDemangle (M.getName F) (M.getName G)) ∧
    (cxaDemangle (M.getName F) = none → cxaDemangle (M.getName G) = none →
      demangleName cxaDemangle (M.getName F) ≠ demangleName cxaDemangle (M.getName G)) ∧
    ∀ r2 seeks₁ seeks₂ seeks₁' seeks₂' info₁ info₂,
      resolve r2 seeks₁ (demangleName cxaDemangle (M.getName F)) = .ok (info₁, false, seeks₁') →
      resolve r2 seeks₂ (demangleName cxaDemangle (M.getName G)) = .ok (info₂, false, seeks₂') →
      info₁.name = info₂.name →
      dropSym (demangleName cxaDemangle (M.getName F)).toList =
        dropSym (demangleName cxaDemangle (M.getName G)).toList := by
  refine ⟨demangleName_eq_iff _ _ _, fun hnone hnone' heq => ?_, ?_⟩
  · rw [demangleName_none hnone, demangleName_none hnone'] at heq
    exact hne (M.unique F hF G hG heq)
  · intro r2 seeks₁ seeks₂ seeks₁' seeks₂' info₁ info₂ h₁ h₂ hname
    rw [← resolve_name h₁, hname, resolve_name h₂]

/-- Three overloads; two take a pointer and a reference. -/
def overloadModule : Module Nat where
  functions := [21, 22, 23]
  deref F :=
    { name := if F = 21 then "_Z1fPi" else if F = 22 then "_Z1fRi" else "_Z1fic", blocks := [] }
  nodup := by decide
  nonnull := by decide
  unique := by decide
  terminated F _ block hblock := by cases hblock

def overloadDemangle (name : String) : Option String :=
  if name = "_Z1fPi" then some "f(int*)"
  else if name = "_Z1fRi" then some "f(int&)"
  else if name = "_Z1fic" then some "f(int, char)" else none

def overloadRadare : Radare := { sampleRadare with aflj := [⟨"sym.f_int__", 4096, 2⟩] }

/-- The first two share a name and are looked up as one function; the third has its own. -/
theorem guide_names_identify_sample :
    Collide overloadDemangle (overloadModule.getName 21) (overloadModule.getName 22) ∧
    ¬ Collide overloadDemangle (overloadModule.getName 21) (overloadModule.getName 23) ∧
    ∃ info, resolve overloadRadare [] "f_int__" = .ok (info, false, []) ∧
      dropSym (demangleName overloadDemangle (overloadModule.getName 21)).toList =
        dropSym (demangleName overloadDemangle (overloadModule.getName 22)).toList := by
  have h₁₂ := guide_names_identify overloadDemangle overloadModule (F := 21) (G := 22)
    (by decide) (by decide) (by decide)
  have h₁₃ := guide_names_identify overloadDemangle overloadModule (F := 21) (G := 23)
    (by decide) (by decide) (by decide)
  have hpointer : demangleName overloadDemangle (overloadModule.getName 21) = "f_int__" := rfl
  have hreference : demangleName overloadDemangle (overloadModule.getName 22) = "f_int__" := rfl
  have hpair : demangleName overloadDemangle (overloadModule.getName 23) = "f_int_char_" := rfl
  rw [hpointer, hreference] at h₁₂ ⊢
  rw [hpointer, hpair] at h₁₃
  have hresolve : resolve overloadRadare [] "f_int__" = .ok (⟨"sym.f_int__", 4096, 2⟩, false, []) :=
    rfl
  exact ⟨h₁₂.1.mp rfl, fun hcollide => absurd (h₁₃.1.mpr hcollide) (by decide), _, hresolve,
    h₁₂.2.2 _ _ _ _ _ _ _ hresolve hresolve rfl⟩

/-- The guide calls both of them `f_int__`, and the script looks up one function. -/
theorem overloads_share_name :
    overloadModule.getName 21 ≠ overloadModule.getName 22 ∧
    overloadDemangle (overloadModule.getName 21) = some "f(int*)" ∧
    overloadDemangle (overloadModule.getName 22) = some "f(int&)" ∧
    demangleName overloadDemangle (overloadModule.getName 21) = "f_int__" ∧
    demangleName overloadDemangle (overloadModule.getName 22) = "f_int__" ∧
    resolve overloadRadare [] "f_int__" = .ok (⟨"sym.f_int__", 4096, 2⟩, false, []) :=
  ⟨by decide, rfl, rfl, rfl, rfl, rfl⟩

end SelfChecksumming
