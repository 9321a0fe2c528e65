import Mathlib.Data.List.Forall2

/-! # Loops that may fail

`List.foldlM` over `Except` is a `for` loop whose body can stop the program. The
invariants see the elements done so far. -/
namespace Library

variable {α β ε : Type} {f : β → α → Except ε β}

theorem bind_eq_ok {x : Except ε α} {g : α → Except ε β} {b : β} :
    x >>= g = .ok b ↔ ∃ a, x = .ok a ∧ g a = .ok b := by
  cases x with
  | error e => exact ⟨nofun, fun ⟨_, h, _⟩ => by cases h⟩
  | ok a => exact ⟨fun h => ⟨a, rfl, h⟩, fun ⟨_, h, hg⟩ => by cases h; exact hg⟩

theorem mapError_eq_ok {ε' : Type} {x : Except ε α} {g : ε → ε'} {a : α} :
    x.mapError g = .ok a ↔ x = .ok a := by
  cases x with
  | error e => exact ⟨nofun, nofun⟩
  | ok b => exact ⟨fun h => congrArg Except.ok (Except.ok.inj h), fun h => by cases h; rfl⟩

/-- What every completed iteration keeps holds at the end of a completed loop. -/
theorem foldlM_invariant (I : List α → β → Prop)
    (step : ∀ done x b b', I done b → f b x = .ok b' → I (done ++ [x]) b') :
    ∀ (l done : List α) {b b' : β}, I done b → l.foldlM f b = .ok b' → I (done ++ l) b' := by
  intro l
  induction l with
  | nil =>
    intro done b b' hb h
    obtain rfl : b = b' := Except.ok.inj h
    simpa using hb
  | cons x l ih =>
    intro done b b' hb h
    rw [List.foldlM_cons] at h
    cases hx : f b x with
    | error e => rw [hx] at h; cases h
    | ok b₁ =>
      rw [hx] at h
      simpa using ih (done ++ [x]) (step done x b b₁ hb hx) h

/-- The same for a loop whose body cannot stop the program. -/
theorem foldl_invariant {f : β → α → β} (I : List α → β → Prop)
    (step : ∀ done x b, I done b → I (done ++ [x]) (f b x)) :
    ∀ (l done : List α) {b : β}, I done b → I (done ++ l) (l.foldl f b) := by
  intro l
  induction l with
  | nil => exact fun done b hb => by simpa using hb
  | cons x l ih => exact fun done b hb => by simpa using ih (done ++ [x]) (step done x b hb)

/-- A loop completes when no iteration can fail under what the earlier ones keep. -/
theorem foldlM_total (I : β → Prop) (l : List α)
    (step : ∀ x ∈ l, ∀ b, I b → ∃ b', f b x = .ok b' ∧ I b') :
    ∀ b, I b → ∃ b', l.foldlM f b = .ok b' ∧ I b' := by
  induction l with
  | nil => exact fun b hb => ⟨b, rfl, hb⟩
  | cons x l ih =>
    intro b hb
    obtain ⟨b₁, hx, hb₁⟩ := step x List.mem_cons_self b hb
    obtain ⟨b', hl, hb'⟩ := ih (fun y hy => step y (List.mem_cons_of_mem _ hy)) b₁ hb₁
    refine ⟨b', ?_, hb'⟩
    rw [List.foldlM_cons, hx]
    exact hl

/-- A loop whose iterations can fail on their elements only. -/
theorem foldlM_returns_iff {P : α → Prop} (step : ∀ b x, (∃ b', f b x = .ok b') ↔ P x) :
    ∀ (l : List α) (b : β), (∃ b', l.foldlM f b = .ok b') ↔ ∀ x ∈ l, P x := by
  intro l
  induction l with
  | nil => exact fun b => ⟨fun _ x hx => (List.not_mem_nil hx).elim, fun _ => ⟨b, rfl⟩⟩
  | cons x l ih =>
    intro b
    simp only [List.foldlM_cons, bind_eq_ok, List.forall_mem_cons]
    constructor
    · intro h
      obtain ⟨b', b₁, hx, hl⟩ := h
      exact ⟨(step b x).mp ⟨b₁, hx⟩, (ih b₁).mp ⟨b', hl⟩⟩
    · intro h
      obtain ⟨b₁, hx⟩ := (step b x).mpr h.1
      obtain ⟨b', hl⟩ := (ih b₁).mpr h.2
      exact ⟨b', b₁, hx, hl⟩

/-- Two loops over one list, in step as far as the first one gets. -/
theorem foldlM_lockstep {γ : Type} {g : γ → α → Except ε γ} (I : List α → β → γ → Prop)
    (step : ∀ done x b b' c, I done b c → f b x = .ok b' →
      ∃ c', g c x = .ok c' ∧ I (done ++ [x]) b' c') :
    ∀ (l done : List α) {b b' : β} {c : γ}, I done b c → l.foldlM f b = .ok b' →
      ∃ c', l.foldlM g c = .ok c' ∧ I (done ++ l) b' c' := by
  intro l
  induction l with
  | nil =>
    intro done b b' c hI h
    obtain rfl : b = b' := Except.ok.inj h
    exact ⟨c, rfl, by simpa using hI⟩
  | cons x l ih =>
    intro done b b' c hI h
    rw [List.foldlM_cons] at h
    obtain ⟨b₁, hx, hl⟩ := bind_eq_ok.mp h
    obtain ⟨c₁, hcx, hI₁⟩ := step done x b b₁ c hI hx
    obtain ⟨c', hcl, hI'⟩ := ih (done ++ [x]) hI₁ hl
    refine ⟨c', ?_, by simpa using hI'⟩
    rw [List.foldlM_cons, hcx]
    exact hcl

/-! ## Rewriting a list with an accumulator -/

variable {σ : Type}

def mapAccumM (f : σ → α → Except ε (β × σ)) : σ → List α → Except ε (List β × σ)
  | s, [] => .ok ([], s)
  | s, a :: l => do
    let (b, s) ← f s a
    let (bs, s) ← mapAccumM f s l
    return (b :: bs, s)

/-- What `f` makes of an element does not depend on the accumulator. -/
def Maps (f : σ → α → Except ε (β × σ)) (R : α → β → Prop) : Prop :=
  ∀ s a b, (∃ s', f s a = .ok (b, s')) ↔ R a b

theorem Maps.mapAccumM {f : σ → α → Except ε (β × σ)} {R : α → β → Prop} (h : Maps f R) :
    Maps (Library.mapAccumM f) (List.Forall₂ R) := by
  intro s l
  induction l generalizing s with
  | nil =>
    intro bs
    constructor
    · intro h
      obtain ⟨s', hrun⟩ := h
      cases hrun
      exact .nil
    · intro hbs
      cases hbs
      exact ⟨s, rfl⟩
  | cons a l ih =>
    intro bs
    constructor
    · intro h
      obtain ⟨s', hrun⟩ := h
      obtain ⟨⟨b, s₁⟩, hb, hrun⟩ := bind_eq_ok.mp hrun
      obtain ⟨⟨bs', s₂⟩, hbs, hrun⟩ := bind_eq_ok.mp hrun
      cases hrun
      exact .cons ((h s a b).mp ⟨s₁, hb⟩) ((ih s₁ bs').mp ⟨_, hbs⟩)
    · intro hbs
      cases hbs with
      | cons hab hrest =>
        obtain ⟨s₁, hb⟩ := (h s a _).mpr hab
        obtain ⟨s₂, hrun⟩ := (ih s₁ _).mpr hrest
        exact ⟨s₂, bind_eq_ok.mpr ⟨_, hb, bind_eq_ok.mpr ⟨_, hrun, rfl⟩⟩⟩

/-! ## Lists related element by element -/

theorem exists_forall₂ {R : α → β → Prop} {l : List α} :
    (∃ l', List.Forall₂ R l l') ↔ ∀ a ∈ l, ∃ b, R a b := by
  induction l with
  | nil => simp
  | cons a l ih =>
    rw [List.forall_mem_cons, ← ih]
    constructor
    · intro h
      obtain ⟨_, h⟩ := h
      cases h with
      | cons hab hl => exact ⟨⟨_, hab⟩, _, hl⟩
    · intro h
      obtain ⟨⟨b, hab⟩, l', hl⟩ := h
      exact ⟨b :: l', .cons hab hl⟩

theorem exists_related {R : α → β → Prop} {l : List α} {l' : List β} (h : List.Forall₂ R l l')
    {a : α} (ha : a ∈ l) : ∃ b ∈ l', R a b := by
  induction h with
  | nil => cases ha
  | @cons x y l l' hxy _ ih =>
    rcases List.mem_cons.mp ha with rfl | ha
    · exact ⟨y, List.mem_cons_self, hxy⟩
    · obtain ⟨b, hb, hab⟩ := ih ha
      exact ⟨b, List.mem_cons_of_mem _ hb, hab⟩

theorem forall₂_split {R : α → β → Prop} {l₁ l₂ : List α} {l : List β}
    (h : List.Forall₂ R (l₁ ++ l₂) l) :
    List.Forall₂ R l₁ (l.take l₁.length) ∧ List.Forall₂ R l₂ (l.drop l₁.length) :=
  ⟨(List.forall₂_take_append _ _ _ h.flip).flip, (List.forall₂_drop_append _ _ _ h.flip).flip⟩

/-- What belongs to an element, with what belongs to those in front and behind. -/
theorem forall₂_middle {R : α → β → Prop} {l₁ l₂ : List α} {a : α} {l : List β}
    (h : List.Forall₂ R (l₁ ++ a :: l₂) l) :
    ∃ l₁' b l₂', l = l₁' ++ b :: l₂' ∧ List.Forall₂ R l₁ l₁' ∧ R a b ∧ List.Forall₂ R l₂ l₂' := by
  obtain ⟨hfront, hback⟩ := forall₂_split h
  obtain ⟨b, l₂', hb, hback, hdrop⟩ := List.forall₂_cons_left_iff.mp hback
  refine ⟨l.take l₁.length, b, l₂', ?_, hfront, hb, hback⟩
  rw [← hdrop, List.take_append_drop]

/-- A relation that a property of the first element decides. -/
theorem forall₂_iff_forall {R S : α → β → Prop} {P : α → Prop} {l : List α} {l' : List β}
    (h : List.Forall₂ R l l') (hiff : ∀ a b, R a b → (S a b ↔ P a)) :
    List.Forall₂ S l l' ↔ ∀ a ∈ l, P a := by
  induction h with
  | nil => simp
  | cons hab _ ih => rw [List.forall₂_cons, List.forall_mem_cons, hiff _ _ hab, ih]

end Library
