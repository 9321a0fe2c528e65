import Mathlib.Computability.StateTransition

/-! # Weaving instructions into a program

A program gives every function its blocks, and a run is a stack of functions that have
been entered. Where the instructions that a transformation adds can be shown to be quiet,
by an invariant of the runs that it makes, the two programs simulate each other. -/
namespace Library

/-- Where control goes after an instruction. -/
inductive Control (Fn : Type*) where
  | next
  | goto (block : Nat)
  | call (callee : Fn)
  | ret
  | halt

/-- What an instruction does. -/
structure Effect (Fn σ ε : Type*) where
  state : σ
  control : Control Fn
  events : List ε

/-- What the instructions of each function do to a state. -/
abbrev Semantics (Fn Inst σ ε : Type*) := Fn → Inst → σ → Effect Fn σ ε

/-- The blocks of every function, the entry block first. -/
abbrev Program (Fn Inst : Type*) := Fn → List (List Inst)

/-- What is left of the block that a function is in. -/
structure Frame (Fn Inst : Type*) where
  function : Fn
  rest : List Inst

/-- The innermost function comes first. -/
structure Config (Fn Inst σ ε : Type*) where
  frames : List (Frame Fn Inst)
  state : σ
  events : List ε

variable {Fn Inst σ τ ε δ : Type*}

namespace Program

/-- Control at the first instruction of a block. -/
def enter (p : Program Fn Inst) (F : Fn) (block : Nat) : Frame Fn Inst := ⟨F, (p F)[block]?.getD []⟩

def proceed (p : Program Fn Inst) (frame : Frame Fn Inst) (frames : List (Frame Fn Inst)) :
    Control Fn → List (Frame Fn Inst)
  | .next => frame :: frames
  | .goto block => p.enter frame.function block :: frames
  | .call callee => p.enter callee 0 :: frame :: frames
  | .ret => frames
  | .halt => []

def step (p : Program Fn Inst) (sem : Semantics Fn Inst σ ε) (c : Config Fn Inst σ ε) :
    Option (Config Fn Inst σ ε) :=
  match c.frames with
  | ⟨F, x :: rest⟩ :: frames =>
    let effect := sem F x c.state
    some ⟨p.proceed ⟨F, rest⟩ frames effect.control, effect.state, c.events ++ effect.events⟩
  | _ => none

/-- Any number of steps. -/
abbrev Runs (p : Program Fn Inst) (sem : Semantics Fn Inst σ ε) :
    Config Fn Inst σ ε → Config Fn Inst σ ε → Prop := StateTransition.Reaches (p.step sem)

/-- The run of `n` steps, or of less when it ends before. -/
def steps (p : Program Fn Inst) (sem : Semantics Fn Inst σ ε) :
    Nat → Config Fn Inst σ ε → Config Fn Inst σ ε
  | 0, c => c
  | n + 1, c => match p.step sem c with
    | none => c
    | some c' => p.steps sem n c'

theorem runs_steps (p : Program Fn Inst) (sem : Semantics Fn Inst σ ε) (n : Nat) :
    ∀ c, p.Runs sem c (p.steps sem n c) := by
  induction n with
  | zero => exact fun c => .refl
  | succ n ih =>
    intro c
    rw [steps]
    split
    · exact .refl
    · rename_i c' hstep
      exact (ih c').head hstep

/-- Where a run ends, if it does. -/
abbrev result (p : Program Fn Inst) (sem : Semantics Fn Inst σ ε) (c : Config Fn Inst σ ε) :
    Part (Config Fn Inst σ ε) := StateTransition.eval (p.step sem) c

/-- A run that begins with a function. -/
def start (p : Program Fn Inst) (F : Fn) (state : σ) : Config Fn Inst σ ε :=
  ⟨[p.enter F 0], state, []⟩

theorem step_cons (p : Program Fn Inst) (sem : Semantics Fn Inst σ ε) (F : Fn) (x : Inst)
    (rest : List Inst) (frames : List (Frame Fn Inst)) (s : σ) (events : List ε) :
    p.step sem ⟨⟨F, x :: rest⟩ :: frames, s, events⟩ = some
      ⟨p.proceed ⟨F, rest⟩ frames (sem F x s).control, (sem F x s).state,
        events ++ (sem F x s).events⟩ := rfl

/-- A run only takes steps at an instruction. -/
theorem step_ok {p : Program Fn Inst} {sem : Semantics Fn Inst σ ε} {c c' : Config Fn Inst σ ε}
    (h : p.step sem c = some c') : ∃ F x rest frames, c.frames = ⟨F, x :: rest⟩ :: frames ∧
      c' = ⟨p.proceed ⟨F, rest⟩ frames (sem F x c.state).control, (sem F x c.state).state,
        c.events ++ (sem F x c.state).events⟩ := by
  obtain ⟨frames, s, events⟩ := c
  unfold step at h
  split at h
  · rename_i F x rest frames hframes
    exact ⟨F, x, rest, frames, hframes, (Option.some.inj h).symm⟩
  · cases h

/-- What every block of every function has, every frame of a run has. -/
theorem proceed_forall {p : Program Fn Inst} {P : Frame Fn Inst → Prop}
    (hp : ∀ F block, P (p.enter F block)) {frame : Frame Fn Inst} {frames : List (Frame Fn Inst)}
    (hframe : P frame) (hframes : ∀ f ∈ frames, P f) (control : Control Fn) :
    ∀ f ∈ p.proceed frame frames control, P f := by
  cases control with
  | next => exact List.forall_mem_cons.mpr ⟨hframe, hframes⟩
  | goto block => exact List.forall_mem_cons.mpr ⟨hp _ _, hframes⟩
  | call callee =>
    exact List.forall_mem_cons.mpr ⟨hp _ _, List.forall_mem_cons.mpr ⟨hframe, hframes⟩⟩
  | ret => exact hframes
  | halt => nofun

end Program

/-- What holds at the start and is kept by every step holds in the whole run. -/
theorem Program.Runs.invariant {p : Program Fn Inst} {sem : Semantics Fn Inst σ ε}
    {P : Config Fn Inst σ ε → Prop} (hstep : ∀ a b, P a → p.step sem a = some b → P b)
    {a b : Config Fn Inst σ ε} (ha : P a) (h : p.Runs sem a b) : P b := by
  induction h with
  | refl => exact ha
  | tail _ hb ih => exact hstep _ _ ih hb

/-! ## Straight code -/

/-- A step at an instruction that goes on to the next one. -/
theorem Program.steps_next {p : Program Fn Inst} {sem : Semantics Fn Inst σ ε} {F : Fn} {x : Inst}
    {s : σ} (hnext : (sem F x s).control = .next) (rest : List Inst) (frames : List (Frame Fn Inst))
    (events : List ε) (n : Nat) :
    p.steps sem (n + 1) ⟨⟨F, x :: rest⟩ :: frames, s, events⟩ =
      p.steps sem n ⟨⟨F, rest⟩ :: frames, (sem F x s).state, events ++ (sem F x s).events⟩ := by
  rw [steps, p.step_cons, hnext]
  rfl

/-! ## Adding instructions -/

section Weaving

variable {added : Inst → Bool}

/-- There is no added instruction at the end. -/
def Closed (added : Inst → Bool) (l : List Inst) : Prop := ∀ x, l.getLast? = some x → added x = false

theorem Closed.nil : Closed added [] := nofun

theorem Closed.tail {x : Inst} {l : List Inst} (h : Closed added (x :: l)) : Closed added l := by
  intro y hy
  exact h y (by rw [List.getLast?_cons, hy, Option.getD_some])

/-- What is closed and holds nothing but added instructions is empty. -/
theorem Closed.eq_nil {l : List Inst} (h : Closed added l) (hl : l.filter (!added ·) = []) :
    l = [] := by
  cases hlast : l.getLast? with
  | none => exact List.getLast?_eq_none_iff.mp hlast
  | some x =>
    have hx := List.filter_eq_nil_iff.mp hl x (List.mem_of_getLast? hlast)
    simp [h x hlast] at hx

/-- `q` is `p` with instructions added to its blocks, none of them at the end. -/
structure Woven (added : Inst → Bool) (p q : Program Fn Inst) : Prop where
  erase : ∀ F, (q F).map (List.filter (!added ·)) = p F
  closed : ∀ F, ∀ block ∈ q F, Closed added block

/-- `A` says what the instructions of a program mean, `B` what those of the woven program
do. An added one that comes next in a configuration with the invariant `I` passes control
on, and does not show in the state and the events. -/
structure Weaves (added : Inst → Bool) (view : τ → σ) (shown : δ → Option ε)
    (A : Semantics Fn Inst σ ε) (B : Semantics Fn Inst τ δ) (q : Program Fn Inst)
    (I : Config Fn Inst τ δ → Prop) : Prop where
  kept : ∀ b b', I b → q.step B b = some b' → I b'
  quiet : ∀ F x rest frames t done, I ⟨⟨F, x :: rest⟩ :: frames, t, done⟩ → added x = true →
    (B F x t).control = .next ∧ view (B F x t).state = view t ∧
      (B F x t).events.filterMap shown = []
  faithful : ∀ F x t, added x = false → (B F x t).control = (A F x (view t)).control ∧
    view (B F x t).state = (A F x (view t)).state ∧
    (B F x t).events.filterMap shown = (A F x (view t)).events

/-- A frame of the program and the frame with what was added. -/
structure Frame.Woven (added : Inst → Bool) (f g : Frame Fn Inst) : Prop where
  function : g.function = f.function
  rest : g.rest.filter (!added ·) = f.rest
  closed : Closed added g.rest

structure Config.Woven (added : Inst → Bool) (view : τ → σ) (shown : δ → Option ε)
    (a : Config Fn Inst σ ε) (b : Config Fn Inst τ δ) : Prop where
  frames : List.Forall₂ (Frame.Woven added) a.frames b.frames
  state : view b.state = a.state
  events : b.events.filterMap shown = a.events

/-- The same functions are being executed. -/
theorem functions_of_woven {frames frames' : List (Frame Fn Inst)}
    (h : List.Forall₂ (Frame.Woven added) frames frames') :
    frames'.map Frame.function = frames.map Frame.function := by
  induction h with
  | nil => rfl
  | cons hf _ ih => rw [List.map_cons, List.map_cons, hf.function, ih]

variable {p q : Program Fn Inst} {view : τ → σ} {shown : δ → Option ε} {A : Semantics Fn Inst σ ε}
  {B : Semantics Fn Inst τ δ} {I : Config Fn Inst τ δ → Prop}

theorem Woven.enter (hw : Woven added p q) (F : Fn) (block : Nat) :
    Frame.Woven added (p.enter F block) (q.enter F block) := by
  refine ⟨rfl, ?_, ?_⟩
  · simp only [Program.enter, ← hw.erase F, List.getElem?_map]
    cases (q F)[block]? with
    | none => rfl
    | some l => rfl
  · simp only [Program.enter]
    cases hl : (q F)[block]? with
    | none => exact Closed.nil
    | some l => exact hw.closed F l (List.mem_of_getElem? hl)

theorem Woven.proceed (hw : Woven added p q) {f g : Frame Fn Inst}
    {frames frames' : List (Frame Fn Inst)} (hfg : Frame.Woven added f g)
    (hframes : List.Forall₂ (Frame.Woven added) frames frames') (control : Control Fn) :
    List.Forall₂ (Frame.Woven added) (p.proceed f frames control)
      (q.proceed g frames' control) := by
  cases control with
  | next => exact .cons hfg hframes
  | goto block =>
    rw [Program.proceed, Program.proceed, hfg.function]
    exact .cons (hw.enter f.function block) hframes
  | call callee => exact .cons (hw.enter callee 0) (.cons hfg hframes)
  | ret => exact hframes
  | halt => exact .nil

theorem Woven.start (hw : Woven added p q) (F : Fn) (t : τ) :
    Config.Woven added view shown (p.start F (view t)) (q.start F t) :=
  ⟨.cons (hw.enter F 0) .nil, rfl, rfl⟩

/-- A step of the woven program is one at an added instruction, or a step of the program. -/
theorem Weaves.step_back (hs : Weaves added view shown A B q I) (hw : Woven added p q)
    {a : Config Fn Inst σ ε} {b b' : Config Fn Inst τ δ}
    (hab : Config.Woven added view shown a b) (hI : I b) (h : q.step B b = some b') :
    Config.Woven added view shown a b' ∨
      ∃ a', p.step A a = some a' ∧ Config.Woven added view shown a' b' := by
  obtain ⟨F, x, rest, frames, hb, rfl⟩ := Program.step_ok h
  obtain ⟨aframes, s, events⟩ := a
  obtain ⟨bframes, t, done⟩ := b
  obtain rfl : bframes = _ := hb
  obtain ⟨hframes, rfl, rfl⟩ := hab
  cases hframes with
  | @cons f _ tail _ hf htail =>
    obtain ⟨G, left⟩ := f
    obtain ⟨hG, hleft, hclosed⟩ := hf
    obtain rfl : F = G := hG
    by_cases hx : added x = true
    · obtain ⟨hcontrol, hview, hquiet⟩ := hs.quiet F x rest frames t done hI hx
      refine .inl ⟨?_, hview, by rw [List.filterMap_append, hquiet, List.append_nil]⟩
      rw [hcontrol]
      refine .cons ⟨rfl, ?_, hclosed.tail⟩ htail
      rw [← hleft, List.filter_cons_of_neg (by simp [hx])]
    · have hx : added x = false := Bool.not_eq_true _ ▸ hx
      obtain ⟨hcontrol, hview, hfaithful⟩ := hs.faithful F x t hx
      rw [List.filter_cons_of_pos (by simp [hx])] at hleft
      subst hleft
      have hrest : Frame.Woven added ⟨F, rest.filter (!added ·)⟩ ⟨F, rest⟩ :=
        ⟨rfl, rfl, hclosed.tail⟩
      refine .inr ⟨_, p.step_cons A F x _ tail _ _, ?_, hview, ?_⟩
      · rw [hcontrol]
        exact hw.proceed hrest htail _
      · rw [List.filterMap_append, hfaithful]

/-- Whatever the woven program reaches, the program reaches. -/
theorem Weaves.reaches_back (hs : Weaves added view shown A B q I) (hw : Woven added p q)
    {a : Config Fn Inst σ ε} {b b' : Config Fn Inst τ δ}
    (hab : Config.Woven added view shown a b) (hI : I b) (h : q.Runs B b b') :
    ∃ a', p.Runs A a a' ∧ Config.Woven added view shown a' b' := by
  have hboth := Program.Runs.invariant (P := fun c => I c ∧ ∃ a', p.Runs A a a' ∧
    Config.Woven added view shown a' c) (fun c c' hc hstep => ?_) ⟨hI, a, .refl, hab⟩ h
  · exact hboth.2
  · obtain ⟨hIc, a', ha', hac⟩ := hc
    refine ⟨hs.kept c c' hIc hstep, ?_⟩
    rcases hs.step_back hw hac hIc hstep with hsame | ⟨a'', hstep', hac'⟩
    · exact ⟨a', ha', hsame⟩
    · exact ⟨a'', ha'.tail hstep', hac'⟩

/-- The added instructions in front of the next one of the program are passed. -/
theorem Weaves.catch_up (hs : Weaves added view shown A B q I) (hw : Woven added p q) {F : Fn}
    {x : Inst} {rest : List Inst} {frames frames' : List (Frame Fn Inst)}
    (hframes : List.Forall₂ (Frame.Woven added) frames frames') :
    ∀ (l : List Inst) (t : τ) (done : List δ), l.filter (!added ·) = x :: rest → Closed added l →
      I ⟨⟨F, l⟩ :: frames', t, done⟩ →
      ∃ b, StateTransition.Reaches₁ (q.step B) ⟨⟨F, l⟩ :: frames', t, done⟩ b ∧
        Config.Woven added view shown
          ⟨p.proceed ⟨F, rest⟩ frames (A F x (view t)).control, (A F x (view t)).state,
            done.filterMap shown ++ (A F x (view t)).events⟩ b ∧ I b := by
  intro l
  induction l with
  | nil => exact fun t done h => by cases h
  | cons y l ih =>
    intro t done hl hclosed hI
    have hstep := q.step_cons B F y l frames' t done
    have hI' := hs.kept _ _ hI hstep
    by_cases hy : added y = true
    · obtain ⟨hcontrol, hview, hquiet⟩ := hs.quiet F y l frames' t done hI hy
      rw [List.filter_cons_of_neg (by simp [hy])] at hl
      rw [hcontrol] at hstep hI'
      obtain ⟨b, hb, hab, hIb⟩ := ih (B F y t).state (done ++ (B F y t).events) hl hclosed.tail hI'
      rw [hview, List.filterMap_append, hquiet, List.append_nil] at hab
      exact ⟨b, .head hstep hb, hab, hIb⟩
    · have hy : added y = false := Bool.not_eq_true _ ▸ hy
      obtain ⟨hcontrol, hview, hfaithful⟩ := hs.faithful F y t hy
      rw [List.filter_cons_of_pos (by simp [hy])] at hl
      obtain ⟨rfl, rfl⟩ := List.cons.inj hl
      have hrest : Frame.Woven added ⟨F, l.filter (!added ·)⟩ ⟨F, l⟩ := ⟨rfl, rfl, hclosed.tail⟩
      refine ⟨_, .single hstep, ⟨?_, hview, ?_⟩, hI'⟩
      · rw [hcontrol]
        exact hw.proceed hrest hframes _
      · rw [List.filterMap_append, hfaithful]

/-- The woven program takes every step of the program, and ends where it ends. -/
theorem Weaves.respects (hs : Weaves added view shown A B q I) (hw : Woven added p q) :
    StateTransition.Respects (p.step A) (q.step B)
      fun a b => Config.Woven added view shown a b ∧ I b := by
  rintro ⟨aframes, s, events⟩ ⟨bframes, t, done⟩ ⟨⟨hframes, rfl, rfl⟩, hI⟩
  cases hframes with
  | nil => rfl
  | @cons f g frames frames' hf hframes =>
    obtain ⟨F, left⟩ := f
    obtain ⟨G, l⟩ := g
    obtain ⟨hG, hl, hclosed⟩ := hf
    obtain rfl : G = F := hG
    cases left with
    | nil =>
      obtain rfl : l = [] := hclosed.eq_nil hl
      rfl
    | cons x rest =>
      obtain ⟨b, hb, hab, hIb⟩ := hs.catch_up hw hframes l t done hl hclosed hI
      exact ⟨b, ⟨hab, hIb⟩, hb⟩

/-- The two programs simulate each other, and one ends when and where the other does. -/
theorem Weaves.simulates (hs : Weaves added view shown A B q I) (hw : Woven added p q)
    {a : Config Fn Inst σ ε} {b : Config Fn Inst τ δ} (hab : Config.Woven added view shown a b)
    (hI : I b) :
    (∀ a', p.Runs A a a' → ∃ b', q.Runs B b b' ∧ Config.Woven added view shown a' b') ∧
    (∀ b', q.Runs B b b' → ∃ a', p.Runs A a a' ∧ Config.Woven added view shown a' b') ∧
    (∀ a' ∈ p.result A a, ∃ b' ∈ q.result B b, Config.Woven added view shown a' b') ∧
    ((q.result B b).Dom ↔ (p.result A a).Dom) := by
  have hr := hs.respects hw
  refine ⟨fun a' ha' => ?_, fun b' hb' => hs.reaches_back hw hab hI hb', fun a' ha' => ?_,
    StateTransition.tr_eval_dom hr ⟨hab, hI⟩⟩
  · obtain ⟨b', ⟨hab', -⟩, hb'⟩ := StateTransition.tr_reaches hr ⟨hab, hI⟩ ha'
    exact ⟨b', hb', hab'⟩
  · obtain ⟨b', ⟨hab', -⟩, hb'⟩ := StateTransition.tr_eval hr ⟨hab, hI⟩ ha'
    exact ⟨b', hb', hab'⟩

end Weaving

end Library
