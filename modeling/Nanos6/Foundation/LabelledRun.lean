import Mathlib.Tactic.Common

/-!
# Runs of a partial step function

A system is given by a step function that takes a state and a label and either
refuses or returns the next state.  A run is a finite sequence of steps; the
relation `allowed` says which labels may be taken in which states, so that a
restricted class of runs needs no second step function.
-/

namespace Foundation

universe u v

variable {State : Type u} {Label : Type v}

/-- Finite runs whose steps all satisfy `allowed`. -/
inductive Run (step : State → Label → Option State)
    (allowed : State → Label → Prop) : State → State → Prop
  | refl (state : State) : Run step allowed state state
  | tail {source middle target : State} {label : Label} :
      Run step allowed source middle →
      allowed middle label →
      step middle label = some target →
      Run step allowed source target

namespace Run

variable {step : State → Label → Option State}
  {allowed : State → Label → Prop}

/-- What holds at the start and is kept by every allowed step holds at the
end of every run. -/
theorem invariant {holds : State → Prop} {source target : State}
    (run : Run step allowed source target) (initial : holds source)
    (kept : ∀ state label next, holds state → allowed state label →
      step state label = some next → holds next) :
    holds target := by
  induction run with
  | refl => exact initial
  | tail _ permitted taken inductionHypothesis =>
      exact kept _ _ _ inductionHypothesis permitted taken

/-- An invariant that needs a second one, already known along the run. -/
theorem invariant_with {known holds : State → Prop} {source target : State}
    (run : Run step allowed source target)
    (knownAlong : ∀ state, Run step allowed source state → known state)
    (initial : holds source)
    (kept : ∀ state label next, known state → known next → holds state →
      allowed state label → step state label = some next → holds next) :
    holds target := by
  induction run with
  | refl => exact initial
  | tail before permitted taken inductionHypothesis =>
      exact kept _ _ _ (knownAlong _ before)
        (knownAlong _ (before.tail permitted taken))
        inductionHypothesis permitted taken

/-- Runs can be put together. -/
theorem trans {source middle target : State}
    (first : Run step allowed source middle)
    (second : Run step allowed middle target) :
    Run step allowed source target := by
  induction second with
  | refl => exact first
  | tail _ permitted taken inductionHypothesis =>
      exact inductionHypothesis.tail permitted taken

/-- A run of one step. -/
theorem single {source target : State} (label : Label)
    (permitted : allowed source label)
    (taken : step source label = some target) :
    Run step allowed source target :=
  (Run.refl source).tail permitted taken

/-- A run may be taken for one of a larger class. -/
theorem mono {larger : State → Label → Prop} {source target : State}
    (run : Run step allowed source target)
    (weaker : ∀ state label, allowed state label → larger state label) :
    Run step larger source target := by
  induction run with
  | refl => exact .refl _
  | tail _ permitted taken inductionHypothesis =>
      exact inductionHypothesis.tail (weaker _ _ permitted) taken

end Run

/-- A run that never ends: a state and a label at every index. -/
def InfiniteRun (step : State → Label → Option State) (states : Nat → State)
    (labels : Nat → Label) : Prop :=
  ∀ index, step (states index) (labels index) = some (states (index + 1))

/-- The label leads to a good state, if it can be taken. -/
def Leads (step : State → Label → Option State) (good : State → Prop)
    (state : State) (label : Label) : Prop :=
  ∀ next, step state label = some next → good next

/-- What is good at the start is good all along a run through good states. -/
theorem good_of_run {step : State → Label → Option State}
    {good : State → Prop} {source target : State}
    (run : Run step (Leads step good) source target)
    (initial : good source) : good target :=
  run.invariant initial fun _ _ next _ leads taken => leads next taken

/-- Take the labels of a list one after another, through good states only. -/
def execute (step : State → Label → Option State) (good : State → Prop)
    [DecidablePred good] : State → List Label → Option State
  | state, [] => some state
  | state, label :: rest =>
      (step state label).bind fun next =>
        if good next then execute step good next rest else none

/-- Every executed list of labels is a run. -/
theorem run_of_execute {step : State → Label → Option State}
    {good : State → Prop} [DecidablePred good] (labels : List Label)
    {source middle target : State}
    (before : Run step (Leads step good) source middle)
    (done : execute step good middle labels = some target) :
    Run step (Leads step good) source target := by
  induction labels generalizing middle with
  | nil =>
      cases done
      exact before
  | cons label rest inductionHypothesis =>
      obtain ⟨next, taken, continued⟩ := Option.bind_eq_some_iff.mp done
      split at continued
      · rename_i isGood
        have leads : Leads step good middle label := by
          intro other also
          rw [taken] at also
          cases also
          exact isGood
        exact inductionHypothesis (before.tail leads taken) continued
      · cases continued

/-- Take the labels of a list one after another, as long as they are
allowed. -/
def executeAllowed (step : State → Label → Option State)
    (allowed : State → Label → Prop)
    [∀ state label, Decidable (allowed state label)] :
    State → List Label → Option State
  | state, [] => some state
  | state, label :: rest =>
      if allowed state label then
        (step state label).bind fun next =>
          executeAllowed step allowed next rest
      else none

theorem run_of_executeAllowed {step : State → Label → Option State}
    {allowed : State → Label → Prop}
    [∀ state label, Decidable (allowed state label)] (labels : List Label)
    {source middle target : State} (before : Run step allowed source middle)
    (done : executeAllowed step allowed middle labels = some target) :
    Run step allowed source target := by
  induction labels generalizing middle with
  | nil =>
      cases done
      exact before
  | cons label rest inductionHypothesis =>
      unfold executeAllowed at done
      split at done
      · rename_i permitted
        obtain ⟨next, taken, continued⟩ := Option.bind_eq_some_iff.mp done
        exact inductionHypothesis (before.tail permitted taken) continued
      · cases done

/-- Take the labels of a list one after another, as long as they are allowed
and through good states only. -/
def executeThrough (step : State → Label → Option State)
    (allowed : State → Label → Prop)
    [∀ state label, Decidable (allowed state label)] (good : State → Prop)
    [DecidablePred good] : State → List Label → Option State
  | state, [] => some state
  | state, label :: rest =>
      if allowed state label then
        (step state label).bind fun next =>
          if good next then executeThrough step allowed good next rest
          else none
      else none

theorem executeThrough_of_execute {step : State → Label → Option State}
    {good : State → Prop} [DecidablePred good] (labels : List Label)
    (source : State) :
    executeThrough step (fun _ _ => True) good source labels =
      execute step good source labels := by
  induction labels generalizing source with
  | nil => rfl
  | cons label rest inductionHypothesis =>
      unfold executeThrough execute
      rw [if_pos trivial]
      congr 1
      funext next
      rw [inductionHypothesis]

/-- An executed list of labels that leads to a state with a property. -/
theorem exists_run_of_executeAllowed {step : State → Label → Option State}
    {allowed : State → Label → Prop}
    [∀ state label, Decidable (allowed state label)] (labels : List Label)
    (source : State) (holds : State → Bool)
    (executed :
      (executeAllowed step allowed source labels).any holds = true) :
    ∃ target, Run step allowed source target ∧ holds target = true := by
  obtain ⟨target, done, satisfied⟩ := (Option.any_eq_true _ _).mp executed
  exact ⟨target, run_of_executeAllowed labels (.refl _) done, satisfied⟩

end Foundation
