import Mathlib.Data.List.Basic

/-! # Replaying tapes on partial labelled machines

A machine step is a partial function of the whole state and one label; a step that is `none` has
no defined outcome and no later state. A tape is replayed from the left, so a source and a tape
determine every intermediate state. Invariants come in one form for all tapes and in one form for
the tapes whose every step meets a side condition. Histories collect what an observer sees along a
replay without adding anything to the state.
-/

namespace Machine

/-- A labelled machine whose steps are partial functions. -/
structure PartialMachine (σ ε : Type*) where
  step? : σ → ε → Option σ

namespace PartialMachine

variable {σ ε ω : Type*} (m : PartialMachine σ ε)

/-- A source and a tape determine the final state, unless some step is undefined. -/
def replay? : σ → List ε → Option σ
  | source, [] => some source
  | source, event :: rest => (m.step? source event).bind fun next => replay? next rest

@[simp] theorem replay?_nil (source : σ) : m.replay? source [] = some source := rfl

theorem replay?_cons (source : σ) (event : ε) (rest : List ε) :
    m.replay? source (event :: rest) =
      (m.step? source event).bind fun next => m.replay? next rest := rfl

/-- Replay composes at every cut of the tape. -/
theorem replay?_append (source : σ) (first second : List ε) :
    m.replay? source (first ++ second) =
      (m.replay? source first).bind fun middle => m.replay? middle second := by
  induction first generalizing source with
  | nil => rfl
  | cons event rest ih =>
    rw [List.cons_append, replay?_cons, replay?_cons, Option.bind_assoc]
    exact congrArg _ (funext fun next => ih next)

/-- The last step of a replay starts where the replay of the shorter tape ends. -/
theorem replay?_concat (source : σ) (first : List ε) (event : ε) :
    m.replay? source (first ++ [event]) =
      (m.replay? source first).bind fun middle => m.step? middle event := by
  rw [replay?_append]
  congr 1
  funext middle
  simp only [replay?_cons, replay?_nil, Option.bind_fun_some]

/-- Every state a tape passes satisfies `P`, both endpoints included. -/
def Throughout (P : σ → Prop) : σ → List ε → Prop
  | source, [] => P source
  | source, event :: rest => P source ∧ ∀ next, m.step? source event = some next →
      Throughout P next rest

/-- Every step a tape takes satisfies `C` at the state it starts from. -/
def EachStep (C : σ → ε → Prop) : σ → List ε → Prop
  | _, [] => True
  | source, event :: rest => C source event ∧ ∀ next, m.step? source event = some next →
      EachStep C next rest

variable {m}

/-- A step that is defined has one outcome. -/
theorem forall_step?_iff {source next : σ} {event : ε} (step : m.step? source event = some next)
    {P : σ → Prop} : (∀ other, m.step? source event = some other → P other) ↔ P next := by
  constructor
  · exact fun all => all next step
  · intro holds other taken
    obtain rfl := Option.some.inj (step.symm.trans taken)
    exact holds

theorem forall_step?_of_none {source : σ} {event : ε} (step : m.step? source event = none)
    {P : σ → Prop} : ∀ other, m.step? source event = some other → P other := by
  intro other taken
  rw [step] at taken
  cases taken

/-- The property of all states of a tape is computed along the tape. -/
instance decidableThroughout {P : σ → Prop} [DecidablePred P] :
    (source : σ) → (tape : List ε) → Decidable (m.Throughout P source tape)
  | source, [] => inferInstanceAs (Decidable (P source))
  | source, event :: rest => match step : m.step? source event with
    | none => decidable_of_iff (P source)
        ⟨fun holds => ⟨holds, forall_step?_of_none step⟩, And.left⟩
    | some next =>
      have : Decidable (m.Throughout P next rest) := decidableThroughout next rest
      decidable_of_iff (P source ∧ m.Throughout P next rest) (and_congr_right fun _ =>
        (forall_step?_iff (P := fun next => m.Throughout P next rest) step).symm)

/-- The condition on all steps of a tape is computed along the tape. -/
instance decidableEachStep {C : σ → ε → Prop} [∀ s e, Decidable (C s e)] :
    (source : σ) → (tape : List ε) → Decidable (m.EachStep C source tape)
  | _, [] => isTrue trivial
  | source, event :: rest => match step : m.step? source event with
    | none => decidable_of_iff (C source event)
        ⟨fun holds => ⟨holds, forall_step?_of_none step⟩, And.left⟩
    | some next =>
      have : Decidable (m.EachStep C next rest) := decidableEachStep next rest
      decidable_of_iff (C source event ∧ m.EachStep C next rest) (and_congr_right fun _ =>
        (forall_step?_iff (P := fun next => m.EachStep C next rest) step).symm)

theorem EachStep.mono {C D : σ → ε → Prop} (weaker : ∀ s e, C s e → D s e) {source : σ}
    {tape : List ε} (steps : m.EachStep C source tape) : m.EachStep D source tape := by
  induction tape generalizing source with
  | nil => trivial
  | cons event rest ih => exact ⟨weaker _ _ steps.1, fun next step => ih (steps.2 next step)⟩

theorem EachStep.and {C D : σ → ε → Prop} {source : σ} {tape : List ε}
    (left : m.EachStep C source tape) (right : m.EachStep D source tape) :
    m.EachStep (fun s e => C s e ∧ D s e) source tape := by
  induction tape generalizing source with
  | nil => trivial
  | cons event rest ih =>
    exact ⟨⟨left.1, right.1⟩, fun next step => ih (left.2 next step) (right.2 next step)⟩

theorem EachStep.of_forall {C : σ → ε → Prop} {source : σ} {tape : List ε}
    (all : ∀ s, ∀ e ∈ tape, C s e) : m.EachStep C source tape := by
  induction tape generalizing source with
  | nil => trivial
  | cons event rest ih =>
    exact ⟨all _ _ (List.mem_cons_self ..),
      fun next _ => ih fun s e member => all s e (List.mem_cons_of_mem _ member)⟩

/-- A side condition splits at every cut of the tape. -/
theorem eachStep_append {C : σ → ε → Prop} {source : σ} {first second : List ε} :
    m.EachStep C source (first ++ second) ↔ m.EachStep C source first ∧
      ∀ middle, m.replay? source first = some middle → m.EachStep C middle second := by
  induction first generalizing source with
  | nil => simp [EachStep]
  | cons event rest ih =>
    simp only [List.cons_append, EachStep, replay?_cons, Option.bind_eq_some_iff]
    constructor
    · rintro ⟨head, tail⟩
      refine ⟨⟨head, fun next step => (ih.mp (tail next step)).1⟩, ?_⟩
      rintro middle ⟨next, step, suffix⟩
      exact (ih.mp (tail next step)).2 middle suffix
    · rintro ⟨⟨head, tail⟩, suffix⟩
      exact ⟨head, fun next step => ih.mpr ⟨tail next step, fun middle replayed =>
        suffix middle ⟨next, step, replayed⟩⟩⟩

/-- Where the side condition is what defines a step, it is what defines a replay. -/
theorem eachStep_iff_replay? {C : σ → ε → Prop}
    (defined : ∀ s e, C s e ↔ ∃ t, m.step? s e = some t) {source : σ} {tape : List ε} :
    m.EachStep C source tape ↔ ∃ target, m.replay? source tape = some target := by
  induction tape generalizing source with
  | nil => exact iff_of_true trivial ⟨source, rfl⟩
  | cons event rest ih =>
    rw [EachStep, replay?_cons]
    constructor
    · rintro ⟨first, later⟩
      obtain ⟨next, step⟩ := (defined source event).mp first
      rw [step]
      exact ih.mp (later next step)
    · rintro ⟨target, replayed⟩
      obtain ⟨next, step, suffix⟩ := Option.bind_eq_some_iff.mp replayed
      refine ⟨(defined source event).mpr ⟨next, step⟩, ?_⟩
      rw [forall_step?_iff step]
      exact ih.mpr ⟨target, suffix⟩

/-- The endpoint of a replay is one of the states it passes. -/
theorem Throughout.last {P : σ → Prop} {source target : σ} {tape : List ε}
    (passes : m.Throughout P source tape) (replayed : m.replay? source tape = some target) :
    P target := by
  induction tape generalizing source with
  | nil => cases replayed; exact passes
  | cons event rest ih =>
    obtain ⟨next, step, suffix⟩ := Option.bind_eq_some_iff.mp replayed
    exact ih (passes.2 next step) suffix

theorem Throughout.head {P : σ → Prop} {source : σ} {tape : List ε}
    (passes : m.Throughout P source tape) : P source := by
  cases tape with
  | nil => exact passes
  | cons event rest => exact passes.1

theorem Throughout.mono {P Q : σ → Prop} (weaker : ∀ s, P s → Q s) {source : σ}
    {tape : List ε} (passes : m.Throughout P source tape) : m.Throughout Q source tape := by
  induction tape generalizing source with
  | nil => exact weaker _ passes
  | cons event rest ih => exact ⟨weaker _ passes.1, fun next step => ih (passes.2 next step)⟩

/-- Passing only `P` states is the same as ending every prefix in a `P` state. -/
theorem throughout_iff_prefix {P : σ → Prop} {source : σ} {tape : List ε} :
    m.Throughout P source tape ↔ ∀ first target, first <+: tape →
      m.replay? source first = some target → P target := by
  induction tape generalizing source with
  | nil =>
    constructor
    · rintro holds first target within replayed
      obtain rfl := List.prefix_nil.mp within
      cases replayed
      exact holds
    · exact fun all => all [] source List.prefix_rfl rfl
  | cons event rest ih =>
    constructor
    · rintro ⟨head, tail⟩ first target within replayed
      cases first with
      | nil => cases replayed; exact head
      | cons other others =>
        obtain ⟨rfl, inside⟩ := List.cons_prefix_cons.mp within
        obtain ⟨next, step, suffix⟩ := Option.bind_eq_some_iff.mp replayed
        exact ih.mp (tail next step) others target inside suffix
    · intro all
      refine ⟨all [] source (List.nil_prefix ..) rfl, fun next step => ih.mpr ?_⟩
      intro first target within replayed
      exact all (event :: first) target (List.cons_prefix_cons.mpr ⟨rfl, within⟩)
        (by rw [replay?_cons, step]; exact replayed)

section Invariants

variable {I P : σ → Prop} {C : σ → ε → Prop}

/-- What every admitted step preserves holds at the end of every admitted tape. -/
theorem invariant_replay? (preserved : ∀ s e t, I s → C s e → m.step? s e = some t → I t)
    {source target : σ} {tape : List ε} (start : I source) (steps : m.EachStep C source tape)
    (replayed : m.replay? source tape = some target) : I target := by
  induction tape generalizing source with
  | nil => cases replayed; exact start
  | cons event rest ih =>
    obtain ⟨next, step, suffix⟩ := Option.bind_eq_some_iff.mp replayed
    exact ih (preserved _ _ _ start steps.1 step) (steps.2 next step) suffix

/-- What every admitted step preserves holds throughout every admitted tape. -/
theorem invariant_throughout (preserved : ∀ s e t, I s → C s e → m.step? s e = some t → I t)
    {source : σ} {tape : List ε} (start : I source) (steps : m.EachStep C source tape) :
    m.Throughout I source tape := by
  induction tape generalizing source with
  | nil => exact start
  | cons event rest ih =>
    exact ⟨start, fun next step => ih (preserved _ _ _ start steps.1 step) (steps.2 next step)⟩

/-- A condition is exact for a property when it keeps an invariant that gives the property and
every step that fails it leaves the property broken. -/
theorem throughout_iff_eachStep {A : ε → Prop} (sound : ∀ s, I s → P s)
    (preserved : ∀ s e t, I s → A e → C s e → m.step? s e = some t → I t)
    (breaks : ∀ s e t, I s → A e → ¬ C s e → m.step? s e = some t → ¬ P t)
    {source target : σ} {tape : List ε} (start : I source) (all : ∀ e ∈ tape, A e)
    (replayed : m.replay? source tape = some target) :
    m.Throughout P source tape ↔ m.EachStep C source tape := by
  induction tape generalizing source with
  | nil => exact ⟨fun _ => trivial, fun _ => sound _ start⟩
  | cons event rest ih =>
    obtain ⟨next, step, suffix⟩ := Option.bind_eq_some_iff.mp replayed
    have first := all event (List.mem_cons_self ..)
    have later := fun e member => all e (List.mem_cons_of_mem event member)
    rw [Throughout, EachStep, forall_step?_iff step, forall_step?_iff step]
    constructor
    · rintro ⟨_, tail⟩
      have admitted : C source event := by
        by_contra fails
        exact breaks _ _ _ start first fails step tail.head
      exact ⟨admitted, (ih (preserved _ _ _ start first admitted step) later suffix).mp tail⟩
    · rintro ⟨admitted, tail⟩
      exact ⟨sound _ start,
        (ih (preserved _ _ _ start first admitted step) later suffix).mpr tail⟩

/-- The same for replays that need not be defined, when a step that fails the condition is. -/
theorem throughout_iff_eachStep_of_defined {A : ε → Prop} (sound : ∀ s, I s → P s)
    (preserved : ∀ s e t, I s → A e → C s e → m.step? s e = some t → I t)
    (breaks : ∀ s e, I s → A e → ¬ C s e → ∃ t, m.step? s e = some t ∧ ¬ P t)
    {source : σ} {tape : List ε} (start : I source) (all : ∀ e ∈ tape, A e) :
    m.Throughout P source tape ↔ m.EachStep C source tape := by
  induction tape generalizing source with
  | nil => exact ⟨fun _ => trivial, fun _ => sound _ start⟩
  | cons event rest ih =>
    have first := all event (List.mem_cons_self ..)
    have later := fun e member => all e (List.mem_cons_of_mem event member)
    constructor
    · rintro ⟨_, tail⟩
      have admitted : C source event := by
        by_contra fails
        obtain ⟨next, step, broken⟩ := breaks _ _ start first fails
        exact broken (tail next step).head
      exact ⟨admitted, fun next step =>
        (ih (preserved _ _ _ start first admitted step) later).mp (tail next step)⟩
    · rintro ⟨admitted, tail⟩
      exact ⟨sound _ start, fun next step =>
        (ih (preserved _ _ _ start first admitted step) later).mpr (tail next step)⟩

/-- Two conditions on the steps agree along a tape when an invariant that one of them keeps makes
them agree at every step. -/
theorem eachStep_iff_eachStep {A D : σ → ε → Prop}
    (agree : ∀ s e, I s → A s e → (D s e ↔ C s e))
    (preserved : ∀ s e t, I s → A s e → C s e → m.step? s e = some t → I t)
    {source : σ} {tape : List ε} (start : I source) (allowed : m.EachStep A source tape) :
    m.EachStep D source tape ↔ m.EachStep C source tape := by
  induction tape generalizing source with
  | nil => exact Iff.rfl
  | cons event rest ih =>
    rw [EachStep, EachStep, agree _ _ start allowed.1]
    refine and_congr_right fun admitted => forall_congr' fun next => ?_
    constructor
    · intro later step
      exact (ih (preserved _ _ _ start allowed.1 admitted step) (allowed.2 next step)).mp
        (later step)
    · intro later step
      exact (ih (preserved _ _ _ start allowed.1 admitted step) (allowed.2 next step)).mpr
        (later step)

end Invariants

section Histories

variable (m) (observe : σ → ε → List ω)

/-- What an observer of the steps has seen along a replay, oldest first. -/
def history : σ → List ε → List ω
  | _, [] => []
  | source, event :: rest => observe source event ++
      match m.step? source event with
      | none => []
      | some next => history next rest

variable {m observe}

/-- An invariant may speak of the history so far: each step extends it by what it shows. -/
theorem history_invariant {I : List ω → σ → Prop} {C : σ → ε → Prop}
    (preserved : ∀ seen s e t, I seen s → C s e → m.step? s e = some t →
      I (seen ++ observe s e) t)
    {source target : σ} {tape : List ε} (start : I [] source)
    (steps : m.EachStep C source tape) (replayed : m.replay? source tape = some target) :
    I (m.history observe source tape) target := by
  suffices general : ∀ seen, I seen source → I (seen ++ m.history observe source tape) target by
    simpa only [List.nil_append] using general [] start
  clear start
  induction tape generalizing source with
  | nil =>
    intro seen holds
    cases replayed
    simpa only [history, List.append_nil] using holds
  | cons event rest ih =>
    intro seen holds
    obtain ⟨next, step, suffix⟩ := Option.bind_eq_some_iff.mp replayed
    have moved := ih (steps.2 next step) suffix _ (preserved _ _ _ _ holds steps.1 step)
    simpa only [history, step, List.append_assoc] using moved

end Histories

end PartialMachine

end Machine
