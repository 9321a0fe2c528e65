import SelfChecksumming.Network.ConstructSoundness
import SelfChecksumming.Pass.Injection

/-! # Who is protected and who protects

The classification loop filters the functions of the module; what a constructed
network connects is drawn from the two lists it fills. -/
namespace SelfChecksumming
open Library

variable {Fn : Type} [LinearOrder Fn] [OrderBot Fn]

/-! ## The classification loop -/

/-- Neither a declaration nor guardMe. -/
def isProcessed (M : Module Fn) (F : Fn) : Bool :=
  !((M.deref F).isDeclaration || (M.deref F).empty || M.getName F = "guardMe")

/-- The filter is empty or names the function. -/
def passesFilter (env : Environment Fn) (F : Fn) : Bool :=
  env.filter.functions = ∅ ∨ env.filter.isFunction F

def isSensitive (opts : Options) (env : Environment Fn) (M : Module Fn) (F : Fn) : Bool :=
  isProcessed M F && passesFilter env F &&
    (env.analysisInfo F).any fun isExtracted => !opts.extractedOnly || isExtracted

def isOther (opts : Options) (env : Environment Fn) (M : Module Fn) (F : Fn) : Bool :=
  isProcessed M F && (env.analysisInfo F).any fun isExtracted =>
    if opts.extractedOnly then !isExtracted else opts.useOtherFunctions && !passesFilter env F

theorem classifyFunction_eq (opts : Options) (env : Environment Fn) (M : Module Fn)
    (c : Classified Fn) (F : Fn) :
    classifyFunction opts env M c F =
      ⟨c.sensitiveFunctions ++ [F].filter (isSensitive opts env M),
        c.otherFunctions ++ [F].filter (isOther opts env M),
        c.countProcessedFuncs + [F].countP (isProcessed M)⟩ := by
  unfold classifyFunction
  by_cases hp : isProcessed M F = true
  · have hskip :
        ((M.deref F).isDeclaration || (M.deref F).empty || M.getName F = "guardMe") = false := by
      simpa only [isProcessed, Bool.not_eq_true'] using hp
    rw [hskip]
    have hfilter : (env.filter.functions ≠ ∅ ∧ (!env.filter.isFunction F) = true) ↔
        passesFilter env F = false := by
      simp [passesFilter]
    cases ha : env.analysisInfo F with
    | none => simp [isSensitive, isOther, ha, hp]
    | some isExtracted =>
      simp only [hfilter]
      cases he : opts.extractedOnly <;> cases isExtracted <;> cases hf : passesFilter env F <;>
        cases hu : opts.useOtherFunctions <;> simp [isSensitive, isOther, ha, hp, he, hf, hu]
  · have hskip :
        ((M.deref F).isDeclaration || (M.deref F).empty || M.getName F = "guardMe") = true := by
      simpa only [isProcessed, Bool.not_eq_true', Bool.not_eq_false] using hp
    rw [if_pos hskip]
    simp [isSensitive, isOther, hp]

/-- The loop sorts the functions of the module by the two predicates. -/
theorem classify_eq (opts : Options) (env : Environment Fn) (M : Module Fn) :
    classify opts env M = ⟨M.functions.filter (isSensitive opts env M),
      M.functions.filter (isOther opts env M), M.functions.countP (isProcessed M)⟩ := by
  have hfold : ∀ (l : List Fn) (c : Classified Fn), l.foldl (classifyFunction opts env M) c =
      ⟨c.sensitiveFunctions ++ l.filter (isSensitive opts env M),
        c.otherFunctions ++ l.filter (isOther opts env M),
        c.countProcessedFuncs + l.countP (isProcessed M)⟩ := by
    intro l
    induction l with
    | nil => intro c; simp
    | cons F l ih =>
      intro c
      rw [List.foldl_cons, ih, classifyFunction_eq]
      have hl : F :: l = [F] ++ l := rfl
      rw [hl, List.filter_append, List.filter_append, List.countP_append, List.append_assoc,
        List.append_assoc, Nat.add_assoc]
  rw [classify, hfold]
  simp

/-- A definition other than guardMe that the analysis has a result for. -/
structure Eligible (env : Environment Fn) (M : Module Fn) (F : Fn) : Prop where
  mem : F ∈ M.functions
  isDefined : (M.deref F).isDeclaration = false
  name : M.getName F ≠ "guardMe"
  result : (env.analysisInfo F).isSome

theorem eligible_of_processed {env : Environment Fn} {M : Module Fn} {F : Fn}
    (hF : F ∈ M.functions) (hp : isProcessed M F = true) {p : Bool → Bool}
    (ha : (env.analysisInfo F).any p = true) : Eligible env M F := by
  simp only [isProcessed, Bool.not_eq_true', Bool.or_eq_false_iff, decide_eq_false_iff_not] at hp
  refine ⟨hF, hp.1.1, hp.2, ?_⟩
  cases h : env.analysisInfo F with
  | none => rw [h] at ha; cases ha
  | some e => rfl

theorem isOther_of_isSensitive {opts : Options} {env : Environment Fn} {M : Module Fn} {F : Fn}
    (h : isSensitive opts env M F = true) : isOther opts env M F = false := by
  unfold isSensitive at h
  unfold isOther
  cases ha : env.analysisInfo F with
  | none => simp
  | some e =>
    simp only [ha, Option.any_some, Bool.and_eq_true] at h
    cases he : opts.extractedOnly <;> simp_all

/-! ## The two lists -/

/-- The sensitive functions as the run shuffles them. -/
def sensitiveOf (opts : Options) (env : Environment Fn) (M : Module Fn) : List Fn :=
  env.shuffleSensitive.order (classify opts env M).sensitiveFunctions

def otherOf (opts : Options) (env : Environment Fn) (M : Module Fn) : List Fn :=
  env.shuffleOther.order (classify opts env M).otherFunctions

theorem mem_sensitiveOf {opts : Options} {env : Environment Fn} {M : Module Fn} {F : Fn} :
    F ∈ sensitiveOf opts env M ↔ F ∈ M.functions ∧ isSensitive opts env M F = true := by
  rw [sensitiveOf, (env.shuffleSensitive.perm _).mem_iff, classify_eq, List.mem_filter]

theorem mem_otherOf {opts : Options} {env : Environment Fn} {M : Module Fn} {F : Fn} :
    F ∈ otherOf opts env M ↔ F ∈ M.functions ∧ isOther opts env M F = true := by
  rw [otherOf, (env.shuffleOther.perm _).mem_iff, classify_eq, List.mem_filter]

/-- The functions that the network may use as checkers. -/
def checkersFor (opts : Options) (env : Environment Fn) (M : Module Fn) : List Fn :=
  if !opts.sensitiveOnlyChecked && !opts.extractedOnly then
    otherOf opts env M ++ sensitiveOf opts env M
  else otherOf opts env M

theorem mem_checkersFor {opts : Options} {env : Environment Fn} {M : Module Fn} {F : Fn}
    (h : F ∈ checkersFor opts env M) : F ∈ otherOf opts env M ∨
      opts.sensitiveOnlyChecked = false ∧ opts.extractedOnly = false ∧
        F ∈ sensitiveOf opts env M := by
  unfold checkersFor at h
  by_cases hf : (!opts.sensitiveOnlyChecked && !opts.extractedOnly) = true
  · rw [if_pos hf] at h
    simp only [Bool.and_eq_true, Bool.not_eq_true'] at hf
    exact (List.mem_append.mp h).imp_right fun h => ⟨hf.1, hf.2, h⟩
  · rw [if_neg hf] at h
    exact .inl h

theorem sensitiveOf_nodup (opts : Options) (env : Environment Fn) (M : Module Fn) :
    (sensitiveOf opts env M).Nodup := by
  rw [sensitiveOf, (env.shuffleSensitive.perm _).nodup_iff, classify_eq]
  exact M.nodup.filter _

theorem otherOf_nodup (opts : Options) (env : Environment Fn) (M : Module Fn) :
    (otherOf opts env M).Nodup := by
  rw [otherOf, (env.shuffleOther.perm _).nodup_iff, classify_eq]
  exact M.nodup.filter _

theorem checkersFor_nodup (opts : Options) (env : Environment Fn) (M : Module Fn) :
    (checkersFor opts env M).Nodup := by
  unfold checkersFor
  split
  · refine List.nodup_append.mpr ⟨otherOf_nodup opts env M, sensitiveOf_nodup opts env M, ?_⟩
    intro F hF G hG he
    subst he
    have hother := (mem_otherOf.mp hF).2
    rw [isOther_of_isSensitive (mem_sensitiveOf.mp hG).2] at hother
    cases hother
  · exact otherOf_nodup opts env M

theorem eligible_of_sensitive {opts : Options} {env : Environment Fn} {M : Module Fn} {F : Fn}
    (h : F ∈ sensitiveOf opts env M) : Eligible env M F := by
  obtain ⟨hF, hs⟩ := mem_sensitiveOf.mp h
  simp only [isSensitive, Bool.and_eq_true] at hs
  exact eligible_of_processed hF hs.1.1 hs.2

theorem eligible_of_other {opts : Options} {env : Environment Fn} {M : Module Fn} {F : Fn}
    (h : F ∈ otherOf opts env M) : Eligible env M F := by
  obtain ⟨hF, ho⟩ := mem_otherOf.mp h
  simp only [isOther, Bool.and_eq_true] at ho
  exact eligible_of_processed hF ho.1 ho.2

theorem eligible_of_checker {opts : Options} {env : Environment Fn} {M : Module Fn} {F : Fn}
    (h : F ∈ checkersFor opts env M) : Eligible env M F := by
  rcases mem_checkersFor h with h | ⟨_, _, h⟩
  · exact eligible_of_other h
  · exact eligible_of_sensitive h

end SelfChecksumming
