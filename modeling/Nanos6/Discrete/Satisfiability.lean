import Nanos6.Discrete.Predecessors

/-!
# Satisfied accesses do not conflict

The accesses of the tasks to one datum while the tasks register and unregister
them.  An access is re-evaluated when the one before it goes away or becomes
satisfied, but the accesses in it only if it becomes satisfied itself.  Those are
left behind if it does not and one of them would: a read in a weak write, with a read
before the write.
-/

namespace Nanos6.Discrete

open Foundation

/-! ### Tasks -/

/-- The accesses of the same type can be satisfied together. -/
def DataAccessType.isShared : DataAccessType → Bool
  | .write => false
  | .readwrite => false
  | _ => true

namespace DataAccessSequence

/-- All accesses in the sequence, with those in them. -/
def accesses : DataAccessSequence → List DataAccess
  | nil => []
  | cons access subaccesses rest =>
      access :: subaccesses.accesses ++ rest.accesses

/-- Each access with the one that `getEffectivePrevious` returns for it. -/
def effectivePrevious : Option DataAccess → DataAccessSequence →
    List (DataAccess × Option DataAccess)
  | _, nil => []
  | previous, cons access subaccesses rest =>
      (access, previous) :: subaccesses.effectivePrevious previous ++
        rest.effectivePrevious (some access)

/-- The accesses of tasks without children. -/
def leaves : DataAccessSequence → List DataAccess
  | nil => []
  | cons access subaccesses rest =>
      (if subaccesses.isEmpty then [access] else subaccesses.leaves) ++
        rest.leaves

/-- A child of the task adds an access to the sequence of the task. -/
def registerChild (parent task : Nat) (accessType : DataAccessType)
    (weak : Bool) : Option DataAccess → DataAccessSequence →
      Option DataAccessSequence
  | _, nil => none
  | previous, cons access subaccesses rest =>
      if access.originator = parent then
        -- The task of a strong access does not run before it is satisfied.
        if access.weak || access.satisfied then
          (subaccesses.registerTaskDataAccess task accessType weak
            previous).map fun result => cons access result.1 rest
        else none
      else
        match subaccesses.registerChild parent task accessType weak
            previous with
        | some inner => some (cons access inner rest)
        | none =>
            (rest.registerChild parent task accessType weak
              (some access)).map (cons access subaccesses)

end DataAccessSequence

inductive Action where
  /-- A task without a parent that accesses the datum. -/
  | registerRoot (task : Nat) (type : DataAccessType) (weak : Bool)
  | registerChild (parent task : Nat) (type : DataAccessType) (weak : Bool)
  | unregister (task : Nat)
  deriving DecidableEq, Repr

/-- The task has run: its access is weak or satisfied. -/
def DataAccessSequence.hasRun (task : Nat) (root : DataAccessSequence) :
    Bool :=
  root.accesses.any fun access =>
    access.originator == task && (access.weak || access.satisfied)

/-- The sequence of the datum in the dependency domain. -/
def step (root : DataAccessSequence) : Action → Option DataAccessSequence
  | .registerRoot task type weak =>
      if task ∈ root.originators then none
      else (root.registerTaskDataAccess task type weak none).map Prod.fst
  | .registerChild parent task type weak =>
      if task ∈ root.originators then none
      else root.registerChild parent task type weak none
  | .unregister task =>
      if root.hasRun task then some (root.unregisterDataAccess task none).1
      else none

/-! ### Where an evaluation leaves an access behind -/

namespace DataAccessSequence

/-- The first access, the first one in it and so on. -/
def leading : DataAccessSequence → List DataAccess
  | nil => []
  | cons access subaccesses _ => access :: subaccesses.leading

/-- The evaluation does not stop at an access in which it could go on. -/
def reevaluatesAll : Option DataAccess → DataAccessSequence → Bool
  | _, nil => true
  | previous, cons access subaccesses rest =>
      if access.satisfied then true
      else if evaluateSatisfiability previous access.type then
        subaccesses.reevaluatesAll previous &&
          rest.reevaluatesAll (some { access with satisfied := true })
      else
        subaccesses.leading.all fun inner =>
          inner.satisfied || !evaluateSatisfiability previous inner.type

def permitsUnregister (task : Nat) :
    Option DataAccess → DataAccessSequence → Bool
  | _, nil => true
  | previous, cons access subaccesses rest =>
      if access.originator = task then
        rest.reevaluatesAll (subaccesses.last previous)
      else
        subaccesses.permitsUnregister task previous &&
          rest.permitsUnregister task (some access)

/-- The access of a child is of the type of that of its parent, if that is of a
shared type. -/
def permitsChild (parent : Nat) (type : DataAccessType)
    (root : DataAccessSequence) : Bool :=
  root.accesses.all fun access =>
    access.originator != parent || !access.type.isShared ||
      access.type == type

end DataAccessSequence

def permits (root : DataAccessSequence) : Action → Bool
  | .registerRoot _ _ _ => true
  | .registerChild parent _ type _ => root.permitsChild parent type
  | .unregister task => root.permitsUnregister task none

def Permitted (root : DataAccessSequence) (action : Action) : Prop :=
  permits root action = true

instance (root : DataAccessSequence) (action : Action) :
    Decidable (Permitted root action) :=
  inferInstanceAs (Decidable (permits root action = true))

/-! ## Evaluation -/

/-- The access before allows more types. -/
def Allows (before after : Option DataAccess) : Prop :=
  ∀ type, evaluateSatisfiability before type = true →
    evaluateSatisfiability after type = true

theorem evaluateSatisfiability_some {previous : DataAccess}
    {type : DataAccessType} :
    evaluateSatisfiability (some previous) type = true ↔
      previous.satisfied = true ∧ previous.type = type ∧
        type.isShared = true := by
  cases satisfied : previous.satisfied <;> cases type <;>
    simp [evaluateSatisfiability, satisfied, DataAccessType.isShared]

/-- Nothing follows an access that is not satisfied. -/
theorem allows_of_unsatisfied {access : DataAccess}
    (unsatisfied : access.satisfied = false) (after : Option DataAccess) :
    Allows (some access) after := by
  intro type allowed
  rw [evaluateSatisfiability_some, unsatisfied] at allowed
  cases allowed.1

namespace DataAccessSequence

/-- The accesses of the sequence are of the type of the access that holds it, if
that is a shared type. -/
def Fits (type : DataAccessType) : DataAccessSequence → Prop
  | nil => True
  | cons access _ rest =>
      (type.isShared = true → access.type = type) ∧ rest.Fits type

/-- Every access has been evaluated with the one before it. -/
def IsEvaluated : Option DataAccess → DataAccessSequence → Prop
  | _, nil => True
  | previous, cons access subaccesses rest =>
      access.satisfied = evaluateSatisfiability previous access.type ∧
        (access.weak = false → access.satisfied = false →
          subaccesses = nil) ∧
        subaccesses.Fits access.type ∧ subaccesses.IsEvaluated previous ∧
        rest.IsEvaluated (some access)

/-- What comes before a sequence matters for its leading accesses only. -/
theorem IsEvaluated.congr {sequence : DataAccessSequence}
    {before after : Option DataAccess}
    (known : sequence.IsEvaluated before)
    (same : ∀ access ∈ sequence.leading,
      evaluateSatisfiability after access.type =
        evaluateSatisfiability before access.type) :
    sequence.IsEvaluated after := by
  induction sequence with
  | nil => trivial
  | cons access subaccesses rest inner _ =>
      obtain ⟨evaluated, started, fits, within, following⟩ := known
      refine ⟨?_, started, fits, ?_, following⟩
      · rw [same access List.mem_cons_self]
        exact evaluated
      · exact inner within fun access member =>
          same access (List.mem_cons_of_mem _ member)

/-- The leading accesses in an access of a shared type are of that type. -/
theorem IsEvaluated.type_of_leading {sequence : DataAccessSequence}
    {previous : Option DataAccess} {type : DataAccessType}
    (known : sequence.IsEvaluated previous) (fits : sequence.Fits type)
    (shared : type.isShared = true) :
    ∀ access ∈ sequence.leading, access.type = type := by
  induction sequence with
  | nil => simp [leading]
  | cons access subaccesses rest inner _ =>
      obtain ⟨-, -, innerFits, within, -⟩ := known
      have isType := fits.1 shared
      rw [isType] at innerFits
      intro other member
      rcases List.mem_cons.mp member with rfl | later
      · exact isType
      · exact inner within innerFits other later

theorem IsEvaluated.evaluated_of_leading {sequence : DataAccessSequence}
    {previous : Option DataAccess}
    (known : sequence.IsEvaluated previous) :
    ∀ access ∈ sequence.leading,
      access.satisfied = evaluateSatisfiability previous access.type := by
  induction sequence with
  | nil => simp [leading]
  | cons access subaccesses rest inner _ =>
      intro other member
      rcases List.mem_cons.mp member with rfl | later
      · exact known.1
      · exact inner known.2.2.2.1 other later

/-- The accesses in a satisfied one stay satisfied. -/
theorem IsEvaluated.of_satisfied {access : DataAccess}
    {subaccesses : DataAccessSequence} {before after : Option DataAccess}
    (evaluated : evaluateSatisfiability before access.type = true)
    (fits : subaccesses.Fits access.type)
    (within : subaccesses.IsEvaluated before)
    (allows : Allows before after) : subaccesses.IsEvaluated after := by
  refine within.congr fun inner member => ?_
  have allowed : evaluateSatisfiability before inner.type = true := by
    cases before with
    | none => rfl
    | some previous =>
        have shared := (evaluateSatisfiability_some.mp evaluated).2.2
        rw [within.type_of_leading fits shared inner member]
        exact evaluated
  rw [allowed]
  exact allows inner.type allowed

/-- The accesses in an access fit where the access does. -/
theorem Fits.of_imp {sequence : DataAccessSequence}
    {type outer : DataAccessType} (fits : sequence.Fits type)
    (same : outer.isShared = true → type = outer) :
    sequence.Fits outer := by
  induction sequence with
  | nil => trivial
  | cons access subaccesses rest _ inductionHypothesis =>
      refine ⟨fun shared => ?_, inductionHypothesis fits.2⟩
      have isOuter := same shared
      rw [← isOuter] at shared ⊢
      exact fits.1 shared

theorem fits_reevaluate (type : DataAccessType)
    {sequence : DataAccessSequence} (previous : Option DataAccess)
    (fits : sequence.Fits type) :
    (sequence.reevaluateAndPropagateSatisfiability previous).1.Fits
      type := by
  induction sequence generalizing previous with
  | nil => trivial
  | cons access subaccesses rest _ inductionHypothesis =>
      simp only [reevaluateAndPropagateSatisfiability]
      split
      · exact fits
      · split
        · exact ⟨fits.1, inductionHypothesis _ fits.2⟩
        · exact fits

/-- The evaluation leaves nothing behind if it does not stop where it could go
on. -/
theorem IsEvaluated.reevaluate {sequence : DataAccessSequence}
    {before after : Option DataAccess}
    (known : sequence.IsEvaluated before) (allows : Allows before after)
    (all : sequence.reevaluatesAll after = true) :
    (sequence.reevaluateAndPropagateSatisfiability after).1.IsEvaluated
      after := by
  induction sequence generalizing before after with
  | nil => trivial
  | cons access subaccesses rest inner outer =>
      obtain ⟨evaluated, started, fits, within, following⟩ := known
      simp only [reevaluatesAll] at all
      simp only [reevaluateAndPropagateSatisfiability]
      split
      · rename_i satisfied
        rw [satisfied] at evaluated
        refine ⟨?_, started, fits, within.of_satisfied evaluated.symm fits
          allows, following⟩
        rw [satisfied, allows _ evaluated.symm]
      · rename_i notSatisfied
        have unsatisfied : access.satisfied = false :=
          Bool.not_eq_true _ ▸ notSatisfied
        rw [if_neg notSatisfied] at all
        split
        · rename_i allowed
          rw [if_pos allowed, Bool.and_eq_true] at all
          have later := outer following
            (allows_of_unsatisfied unsatisfied _) all.2
          by_cases weak : access.weak = true
          · rw [if_pos weak]
            refine ⟨allowed.symm, ?_, ?_, ?_, later⟩
            · intro _ not
              cases not
            · exact fits_reevaluate _ _ fits
            · exact inner within allows all.1
          · have none := started (Bool.not_eq_true _ ▸ weak) unsatisfied
            subst none
            rw [if_neg weak]
            exact ⟨allowed.symm, fun _ _ => rfl, trivial, trivial, later⟩
        · rename_i refused
          rw [if_neg refused, List.all_eq_true] at all
          refine ⟨?_, started, fits, ?_, following⟩
          · rw [unsatisfied]
            exact (Bool.not_eq_true _ ▸ refused).symm
          · refine within.congr fun other member => ?_
            have otherEvaluated := within.evaluated_of_leading other member
            cases otherSatisfied : other.satisfied with
            | true =>
                rw [otherSatisfied] at otherEvaluated
                rw [← otherEvaluated, allows _ otherEvaluated.symm]
            | false =>
                have behind := all other member
                rw [otherSatisfied, Bool.false_or, Bool.not_eq_true'] at behind
                rw [behind, ← otherEvaluated, otherSatisfied]

/-! ## Unregistration -/

theorem isEvaluated_append {first second : DataAccessSequence}
    {previous : Option DataAccess} :
    (first.append second).IsEvaluated previous ↔
      first.IsEvaluated previous ∧
        second.IsEvaluated (first.last previous) := by
  induction first generalizing previous with
  | nil => simp only [append, IsEvaluated, last, true_and]
  | cons access subaccesses rest _ inductionHypothesis =>
      simp only [append, IsEvaluated, last, inductionHypothesis, and_assoc]

theorem fits_append {first second : DataAccessSequence}
    {type : DataAccessType} :
    (first.append second).Fits type ↔
      first.Fits type ∧ second.Fits type := by
  induction first with
  | nil => simp only [append, Fits, true_and]
  | cons access subaccesses rest _ inductionHypothesis =>
      simp only [append, Fits, inductionHypothesis, and_assoc]

/-- The accesses in a satisfied access of a shared type are satisfied. -/
theorem IsEvaluated.evaluate_last {sequence : DataAccessSequence}
    {previous : Option DataAccess} {type : DataAccessType}
    (known : sequence.IsEvaluated previous) (fits : sequence.Fits type)
    (shared : type.isShared = true)
    (allowed : evaluateSatisfiability previous type = true) :
    evaluateSatisfiability (sequence.last previous) type = true := by
  induction sequence generalizing previous with
  | nil => exact allowed
  | cons access subaccesses rest _ inductionHypothesis =>
      have isType := fits.1 shared
      have satisfied : access.satisfied = true := by
        rw [known.1, isType]
        exact allowed
      exact inductionHypothesis known.2.2.2.2 fits.2
        (evaluateSatisfiability_some.mpr ⟨satisfied, isType, shared⟩)

theorem fits_unregister (task : Nat) (type : DataAccessType)
    {sequence : DataAccessSequence} {previous before : Option DataAccess}
    (known : sequence.IsEvaluated before) (fits : sequence.Fits type) :
    (sequence.unregisterDataAccess task previous).1.Fits type := by
  induction sequence generalizing previous before with
  | nil => trivial
  | cons access subaccesses rest _ outer =>
      obtain ⟨-, -, innerFits, -, following⟩ := known
      simp only [unregisterDataAccess]
      split
      · exact fits_append.mpr
          ⟨innerFits.of_imp fits.1, fits_reevaluate type _ fits.2⟩
      · exact ⟨fits.1, outer following fits.2⟩

/-- The accesses are evaluated again where one has gone away. -/
theorem IsEvaluated.unregister (task : Nat)
    {sequence : DataAccessSequence} {previous : Option DataAccess}
    (known : sequence.IsEvaluated previous)
    (permitted : sequence.permitsUnregister task previous = true) :
    (sequence.unregisterDataAccess task previous).1.IsEvaluated
      previous := by
  induction sequence generalizing previous with
  | nil => trivial
  | cons access subaccesses rest inner outer =>
      obtain ⟨evaluated, started, fits, within, following⟩ := known
      simp only [permitsUnregister] at permitted
      simp only [unregisterDataAccess]
      split
      · rename_i isTask
        rw [if_pos isTask] at permitted
        refine isEvaluated_append.mpr ⟨within,
          following.reevaluate ?_ permitted⟩
        intro type allowed
        obtain ⟨satisfied, rfl, shared⟩ :=
          evaluateSatisfiability_some.mp allowed
        refine within.evaluate_last fits shared ?_
        rw [← evaluated]
        exact satisfied
      · rename_i notTask
        rw [if_neg notTask, Bool.and_eq_true] at permitted
        refine ⟨evaluated, ?_, fits_unregister task _ within fits,
          inner within permitted.1, outer following permitted.2⟩
        intro strong unsatisfied
        have none := started strong unsatisfied
        subst none
        rfl

/-! ## Registration -/

/-- A task without an access gets one at the end of the sequence. -/
theorem registerTaskDataAccess_of_fresh {task : Nat}
    (type : DataAccessType) (weak : Bool) {sequence : DataAccessSequence}
    (previous : Option DataAccess) (fresh : task ∉ sequence.originators) :
    ∃ canStart, sequence.registerTaskDataAccess task type weak previous =
      some (sequence.append (cons ⟨task, type, weak,
        evaluateSatisfiability (sequence.last previous) type⟩ nil nil),
        canStart) := by
  induction sequence generalizing previous with
  | nil => exact ⟨_, rfl⟩
  | cons access subaccesses rest _ inductionHypothesis =>
      simp only [originators, List.cons_append, List.mem_cons,
        List.mem_append, not_or] at fresh
      obtain ⟨canStart, registered⟩ :=
        inductionHypothesis (some access) fresh.2.2
      refine ⟨canStart, ?_⟩
      rw [registerTaskDataAccess, if_neg fun own => fresh.1 own.2.symm,
        registered]
      rfl

theorem IsEvaluated.register {task : Nat} {type : DataAccessType}
    {weak : Bool} {sequence : DataAccessSequence}
    {previous : Option DataAccess}
    (known : sequence.IsEvaluated previous)
    (fresh : task ∉ sequence.originators)
    {result : DataAccessSequence × Bool}
    (registered : sequence.registerTaskDataAccess task type weak previous =
      some result) :
    result.1.IsEvaluated previous ∧ ∀ outer, sequence.Fits outer →
      (outer.isShared = true → type = outer) → result.1.Fits outer := by
  obtain ⟨canStart, isResult⟩ :=
    registerTaskDataAccess_of_fresh type weak previous fresh
  rw [isResult] at registered
  cases registered
  constructor
  · exact isEvaluated_append.mpr
      ⟨known, rfl, fun _ _ => rfl, trivial, trivial, trivial⟩
  · intro outer fits same
    exact fits_append.mpr ⟨fits, same, trivial⟩

theorem fits_registerChild {parent task : Nat} {type : DataAccessType}
    {weak : Bool} {outer : DataAccessType}
    {sequence next : DataAccessSequence} {previous : Option DataAccess}
    (fits : sequence.Fits outer)
    (registered : sequence.registerChild parent task type weak previous =
      some next) : next.Fits outer := by
  induction sequence generalizing previous next with
  | nil => cases registered
  | cons access subaccesses rest _ inductionHypothesis =>
      simp only [registerChild] at registered
      split at registered
      · split at registered
        · obtain ⟨result, -, rfl⟩ := Option.map_eq_some_iff.mp registered
          exact fits
        · cases registered
      · split at registered
        · cases registered
          exact fits
        · obtain ⟨result, isResult, rfl⟩ :=
            Option.map_eq_some_iff.mp registered
          exact ⟨fits.1, inductionHypothesis fits.2 isResult⟩

theorem IsEvaluated.registerChild {parent task : Nat}
    {type : DataAccessType} {weak : Bool}
    {sequence next : DataAccessSequence} {previous : Option DataAccess}
    (known : sequence.IsEvaluated previous)
    (fresh : task ∉ sequence.originators)
    (permitted : sequence.permitsChild parent type = true)
    (registered : sequence.registerChild parent task type weak previous =
      some next) : next.IsEvaluated previous := by
  induction sequence generalizing previous next with
  | nil => cases registered
  | cons access subaccesses rest inner outer =>
      obtain ⟨evaluated, started, fits, within, following⟩ := known
      simp only [originators, List.cons_append, List.mem_cons,
        List.mem_append, not_or] at fresh
      simp only [permitsChild, accesses, List.cons_append, List.all_cons,
        List.all_append, Bool.and_eq_true] at permitted
      simp only [DataAccessSequence.registerChild] at registered
      split at registered
      · rename_i isParent
        split at registered
        · rename_i hasRun
          obtain ⟨result, isResult, rfl⟩ :=
            Option.map_eq_some_iff.mp registered
          obtain ⟨after, afterFits⟩ := within.register fresh.2.1 isResult
          refine ⟨evaluated, ?_, afterFits _ fits ?_, after, following⟩
          · intro strong unsatisfied
            rw [strong, unsatisfied] at hasRun
            cases hasRun
          · intro shared
            have same := permitted.1
            simp only [isParent, bne_self_eq_false, shared, Bool.not_true,
              Bool.false_or, beq_iff_eq] at same
            exact same.symm
        · cases registered
      · split at registered
        · rename_i changed isChanged
          cases registered
          refine ⟨evaluated, ?_, fits_registerChild fits isChanged,
            inner within fresh.2.1 permitted.2.1 isChanged, following⟩
          intro strong unsatisfied
          rw [started strong unsatisfied] at isChanged
          cases isChanged
        · obtain ⟨changed, isChanged, rfl⟩ :=
            Option.map_eq_some_iff.mp registered
          exact ⟨evaluated, started, fits, within,
            outer following fresh.2.2 permitted.2.2 isChanged⟩

theorem IsEvaluated.step {root next : DataAccessSequence} {action : Action}
    (known : root.IsEvaluated none) (permitted : Permitted root action)
    (taken : step root action = some next) : next.IsEvaluated none := by
  cases action with
  | registerRoot task type weak =>
      simp only [Discrete.step] at taken
      split at taken
      · cases taken
      · rename_i fresh
        obtain ⟨result, isResult, rfl⟩ := Option.map_eq_some_iff.mp taken
        exact (known.register fresh isResult).1
  | registerChild parent task type weak =>
      simp only [Discrete.step] at taken
      split at taken
      · cases taken
      · rename_i fresh
        exact known.registerChild fresh permitted taken
  | unregister task =>
      simp only [Discrete.step] at taken
      split at taken
      · cases taken
        exact known.unregister task permitted
      · cases taken

/-! ## Satisfied accesses -/

/-- A satisfied access after another one is of its type. -/
theorem IsEvaluated.type_of_satisfied {sequence : DataAccessSequence}
    {previous : DataAccess} (known : sequence.IsEvaluated (some previous))
    {access : DataAccess} (member : access ∈ sequence.accesses)
    (satisfied : access.satisfied = true) :
    previous.satisfied = true ∧ previous.type = access.type ∧
      access.type.isShared = true := by
  induction sequence generalizing previous with
  | nil => cases member
  | cons head subaccesses rest inner outer =>
      obtain ⟨evaluated, -, -, within, following⟩ := known
      rcases List.mem_append.mp member with first | later
      · rcases List.mem_cons.mp first with rfl | nested
        · rw [satisfied] at evaluated
          exact evaluateSatisfiability_some.mp evaluated.symm
        · exact inner within nested
      · obtain ⟨headSatisfied, same, shared⟩ := outer following later
        rw [headSatisfied] at evaluated
        obtain ⟨before, also, -⟩ :=
          evaluateSatisfiability_some.mp evaluated.symm
        exact ⟨before, also.trans same, shared⟩

/-- The accesses in an access of a shared type are of that type. -/
theorem IsEvaluated.type_of_fits {sequence : DataAccessSequence}
    {previous : Option DataAccess} {type : DataAccessType}
    (known : sequence.IsEvaluated previous) (fits : sequence.Fits type)
    (shared : type.isShared = true) {access : DataAccess}
    (member : access ∈ sequence.accesses) : access.type = type := by
  induction sequence generalizing previous with
  | nil => cases member
  | cons head subaccesses rest inner outer =>
      obtain ⟨-, -, innerFits, within, following⟩ := known
      have isType := fits.1 shared
      rw [isType] at innerFits
      rcases List.mem_append.mp member with first | later
      · rcases List.mem_cons.mp first with rfl | nested
        · exact isType
        · exact inner within innerFits nested
      · exact outer following fits.2 later

theorem mem_accesses_of_mem_leaves {sequence : DataAccessSequence}
    {access : DataAccess} (member : access ∈ sequence.leaves) :
    access ∈ sequence.accesses := by
  induction sequence with
  | nil => cases member
  | cons head subaccesses rest inner outer =>
      simp only [leaves] at member
      refine List.mem_append.mpr ?_
      rcases List.mem_append.mp member with first | later
      · left
        split at first
        · rw [List.mem_singleton.mp first]
          exact List.mem_cons_self
        · exact List.mem_cons_of_mem _ (inner first)
      · exact Or.inr (outer later)

/-- The satisfied accesses of tasks without children are all of one type. -/
theorem IsEvaluated.pairwise_leaves {sequence : DataAccessSequence}
    {previous : Option DataAccess}
    (known : sequence.IsEvaluated previous) :
    sequence.leaves.Pairwise fun first second =>
      first.satisfied = true → second.satisfied = true →
        first.type = second.type ∧ second.type.isShared = true := by
  induction sequence generalizing previous with
  | nil => exact List.Pairwise.nil
  | cons head subaccesses rest inner outer =>
      obtain ⟨-, -, fits, within, following⟩ := known
      refine List.pairwise_append.mpr ⟨?_, outer following, ?_⟩
      · split
        · exact List.pairwise_singleton _ _
        · exact inner within
      · intro first isFirst second isSecond _ satisfied
        obtain ⟨-, same, shared⟩ := following.type_of_satisfied
          (mem_accesses_of_mem_leaves isSecond) satisfied
        refine ⟨?_, shared⟩
        split at isFirst
        · rw [List.mem_singleton.mp isFirst]
          exact same
        · rw [← same] at shared ⊢
          exact within.type_of_fits fits shared
            (mem_accesses_of_mem_leaves isFirst)

theorem IsEvaluated.evaluated {sequence : DataAccessSequence}
    {previous : Option DataAccess}
    (known : sequence.IsEvaluated previous) :
    ∀ pair ∈ sequence.effectivePrevious previous,
      pair.1.satisfied = evaluateSatisfiability pair.2 pair.1.type := by
  induction sequence generalizing previous with
  | nil => simp [effectivePrevious]
  | cons head subaccesses rest inner outer =>
      obtain ⟨evaluated, -, -, within, following⟩ := known
      intro pair member
      rcases List.mem_append.mp member with first | later
      · rcases List.mem_cons.mp first with rfl | nested
        · exact evaluated
        · exact inner within pair nested
      · exact outer following pair later

end DataAccessSequence

/-! ## What the sequences guarantee -/

structure DataAccessSequence.IsConsistent (root : DataAccessSequence) :
    Prop where
  /-- Each access is satisfied as the one before it says. -/
  evaluated : ∀ pair ∈ root.effectivePrevious none,
    pair.1.satisfied = evaluateSatisfiability pair.2 pair.1.type
  /-- The strong accesses of tasks without children that are satisfied together
  are of the same shared type. -/
  compatible : (root.leaves.filter fun access => !access.weak).Pairwise
    fun first second =>
      first.satisfied = true → second.satisfied = true →
        first.type = second.type ∧ second.type.isShared = true

theorem isConsistent_of_run {root : DataAccessSequence}
    (run : Run step Permitted .nil root) : root.IsConsistent := by
  have known : root.IsEvaluated none :=
    run.invariant trivial fun _ _ _ known permitted taken =>
      known.step permitted taken
  exact ⟨known.evaluated, known.pairwise_leaves.filter _⟩

/-- A write, then a weak write with a read in it; the child of the first one is a
read and stays. -/
def readInWeakWrite : List Action :=
  [.registerRoot 0 .readwrite false, .registerRoot 1 .readwrite true,
    .registerChild 1 2 .read false, .registerChild 0 3 .read false]

/-- The write goes away without a child: all accesses become satisfied. -/
theorem isConsistent_readInWeakWrite :
    ∃ root, Run step Permitted .nil root ∧
      root = .cons ⟨1, .readwrite, true, true⟩
        (.cons ⟨2, .read, false, true⟩ .nil .nil) .nil ∧
      root.IsConsistent := by
  let final : DataAccessSequence := .cons ⟨1, .readwrite, true, true⟩
    (.cons ⟨2, .read, false, true⟩ .nil .nil) .nil
  obtain ⟨root, run, holds⟩ :
      ∃ root, Run step Permitted .nil root ∧ decide (root = final) = true :=
    exists_run_of_executeAllowed (readInWeakWrite.take 3 ++ [.unregister 0])
      .nil (fun root => decide (root = final)) (by decide)
  exact ⟨root, run, of_decide_eq_true holds, isConsistent_of_run run⟩

/-- The read in the weak write is left behind. -/
theorem isConsistent_fails :
    ¬ ∀ root, Run step (fun _ _ => True) .nil root → root.IsConsistent := by
  intro holds
  let final : DataAccessSequence :=
    .cons ⟨3, .read, false, true⟩ .nil
      (.cons ⟨1, .readwrite, true, false⟩
        (.cons ⟨2, .read, false, false⟩ .nil .nil) .nil)
  obtain ⟨root, run, isFinal⟩ :
      ∃ root, Run step (fun _ _ => True) .nil root ∧
        decide (root = final) = true :=
    exists_run_of_executeAllowed (readInWeakWrite ++ [.unregister 0]) .nil
      (fun root => decide (root = final)) (by decide)
  have consistent := holds root run
  rw [of_decide_eq_true isFinal] at consistent
  have wrong := consistent.evaluated
    (⟨2, .read, false, false⟩, some ⟨3, .read, false, true⟩) (by decide)
  revert wrong
  decide

end Nanos6.Discrete
