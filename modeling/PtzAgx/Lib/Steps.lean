import Mathlib.Tactic.Common

/-! # Machines driven by events

An event that is not possible ends a run. What a run is asked for is asked of
every step it takes, with the state before it, the event and the state after it.
-/

namespace PtzAgx

variable {σ ε : Type} {step : σ → ε → Option σ} {P Q : σ → ε → σ → Prop} {Inv : σ → Prop}
  {s s' : σ} {e : ε}
  {es : List ε}

/-- Every step of the run that these events make satisfies `P`. -/
def AllSteps (step : σ → ε → Option σ) (P : σ → ε → σ → Prop) : σ → List ε → Prop
  | _, [] => True
  | s, e :: es => ∀ s', step s e = some s' → P s e s' ∧ AllSteps step P s' es

theorem AllSteps.tail (all : AllSteps step P s (e :: es)) (stepped : step s e = some s') :
    AllSteps step P s' es :=
  (all s' stepped).2

theorem AllSteps.front {fs : List ε} (all : AllSteps step P s (es ++ fs)) :
    AllSteps step P s es := by
  induction es generalizing s with
  | nil => trivial
  | cons e es ih =>
      intro s' stepped
      exact ⟨(all s' stepped).1, ih (all s' stepped).2⟩

theorem AllSteps.last {s'' : σ} (all : AllSteps step P s (es ++ [e]))
    (ran : es.foldlM step s = some s')
    (stepped : step s' e = some s'') : P s' e s'' := by
  induction es generalizing s with
  | nil =>
      obtain rfl := Option.some.inj ran
      exact (all s'' stepped).1
  | cons f es ih =>
      obtain ⟨next, first, rest⟩ := Option.bind_eq_some_iff.mp ran
      exact ih (all.tail first) rest

theorem AllSteps.append {fs : List ε} (all : AllSteps step P s es)
    (rest : ∀ s', AllSteps step P s' fs) :
    AllSteps step P s (es ++ fs) := by
  induction es generalizing s with
  | nil => exact rest s
  | cons e es ih =>
      intro s' stepped
      exact ⟨(all s' stepped).1, ih (all s' stepped).2⟩

theorem AllSteps.andThen {fs : List ε} (all : AllSteps step P s es)
    (ran : es.foldlM step s = some s')
    (rest : AllSteps step P s' fs) : AllSteps step P s (es ++ fs) := by
  induction es generalizing s with
  | nil =>
      obtain rfl := Option.some.inj ran
      exact rest
  | cons e es ih =>
      intro next stepped
      have further : es.foldlM step next = some s' := by simpa [stepped] using ran
      exact ⟨(all next stepped).1, ih (all.tail stepped) further⟩

/-- An invariant that steps satisfying `Q` keep, and under which they satisfy `P`. -/
theorem AllSteps.of_invariant (all : AllSteps step Q s es) (start : Inv s)
    (keeps : ∀ s e s', Inv s → step s e = some s' → Q s e s' → Inv s' ∧ P s e s') :
    AllSteps step P s es := by
  induction es generalizing s with
  | nil => trivial
  | cons e es ih =>
      intro s' stepped
      obtain ⟨meets, later⟩ := all s' stepped
      obtain ⟨kept, holds⟩ := keeps s e s' start stepped meets
      exact ⟨holds, ih later kept⟩

/-- What holds at the start of a run and is kept by each step, knowing the events
    there have been, holds of the whole run. -/
theorem foldlM_history {H : List ε → σ → Prop} (start : H [] s)
    (keeps : ∀ before s e s', H before s → step s e = some s' → H (before ++ [e]) s')
    (ran : es.foldlM step s = some s') : H es s' := by
  have later (before : List ε) (s : σ) (es : List ε) (so : H before s)
    (ran : es.foldlM step s = some s') :
      H (before ++ es) s' := by
    induction es generalizing before s with
    | nil =>
        cases ran
        simpa using so
    | cons e es ih =>
        obtain ⟨next, first, rest⟩ := Option.bind_eq_some_iff.mp ran
        simpa using ih (before ++ [e]) next (keeps before s e next so first) rest
  simpa using later [] s es start ran

end PtzAgx
