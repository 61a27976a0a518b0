import Mathlib.Algebra.Order.BigOperators.Group.Finset
import Nanos6.Dependencies.Control
import Nanos6.Foundation.Ranking
import Nanos6.Foundation.Weights
import Nanos6.Progress.Emission

/-!
# The load of the dependency system

What is still to be done, on nine levels.  A step of a registration lowers the
first level, one that creates a taskwait fragment or a sink the second one, and
so on down to the delayed operations themselves, so that a step may leave any
amount of work on the levels after the one that it lowers.

Objects are counted by their addresses: an object that is fragmented counts as
much as before.
-/

namespace Nanos6

open Foundation

/-- The levels of the load, the first one compared first. -/
inductive Level where
  /-- Objects that a registration still has to match. -/
  | registration
  /-- Entries of bottom maps that can still get a taskwait fragment or a
  sink. -/
  | creation
  /-- Objects that still have to be linked to a taskwait. -/
  | linking
  /-- Objects that are not complete. -/
  | completion
  /-- Objects without a next one. -/
  | succession
  /-- Objects that a bottom-map update still has to go through. -/
  | relinking
  /-- Status bits that an operation can still set. -/
  | satisfaction
  /-- Objects before an operation that brings a ReductionInfo. -/
  | reductionInfo
  /-- Objects before an operation. -/
  | operations
  deriving DecidableEq

namespace Level

def position : Level → Fin 9
  | registration => 0
  | creation => 1
  | linking => 2
  | completion => 3
  | succession => 4
  | relinking => 5
  | satisfaction => 6
  | reductionInfo => 7
  | operations => 8

theorem position_injective : Function.Injective position := by
  intro first second same
  cases first <;> cases second <;> first | rfl | cases same

instance : LinearOrder Level :=
  LinearOrder.lift' position position_injective

instance : Finite Level :=
  Finite.of_injective position position_injective

end Level

/-! ## The load of a task -/

namespace Work

/-- The objects that a loop of a registration can still meet, where no access
reaches beyond `bound`. -/
def registrationLoad (bound : Nat) : Work → Nat
  | .linkTaskAccesses low => (bound - low) * (bound + 2) + 1
  | .replaceMatching progress =>
      progress.remaining.stop - progress.remaining.start + 1
  | _ => 0

/-- The entries of a bottom map that a loop still comes to. -/
def creationLoad (bottomMap : IntervalMap BottomMapEntry) : Work → Nat
  | .enterTaskwait => bottomMap.weigh fun _ => 1
  | .createTaskwait low => bottomMap.weighFrom low fun _ => 1
  | .createTopLevelSink low => bottomMap.weighFrom low fun _ => 1
  | _ => 0

def linkingLoad : Work → Nat
  | .linkToTaskwait _ region => region.stop - region.start + 1
  | _ => 0

theorem registrationLoad_linkToTaskwait (bound : Nat)
    (previous : DataAccessLink) (region : DataAccessRegion) :
    (linkToTaskwait previous region).registrationLoad bound = 0 :=
  rfl

theorem creationLoad_linkToTaskwait (bottomMap : IntervalMap BottomMapEntry)
    (previous : DataAccessLink) (region : DataAccessRegion) :
    (linkToTaskwait previous region).creationLoad bottomMap = 0 :=
  rfl

end Work

/-- A taskwait or the end of the task can still come. -/
def TaskStatus.isOpen : TaskStatus → Bool
  | .unborn => true
  | .registering => true
  | .registered => true
  | .running => true
  | .finished => true
  | _ => false

/-- The weight of all objects of a task. -/
def weighObjects (weight : DataAccess → Nat)
    (objects : AccessMap → IntervalMap DataAccess) : Nat :=
  (objects .accesses).weigh weight + (objects .accessFragments).weigh weight +
    (objects .taskwaitFragments).weigh weight

namespace Task

def registrationLoad (bound : Nat) (task : Task) : Nat :=
  (task.work.map (Work.registrationLoad bound)).sum

/-- The bottom map of an open task counts as a whole; the one of a task that
has entered a taskwait or is being unregistered counts as far as the loop over
it still has to go. -/
def creationLoad (task : Task) : Nat :=
  (task.work.map (Work.creationLoad task.subaccessBottomMap)).sum +
    if task.status.isOpen then task.subaccessBottomMap.weigh fun _ => 1
    else 0

def linkingLoad (task : Task) : Nat :=
  (task.work.map Work.linkingLoad).sum

/-- Nothing is added to the load of a task. -/
structure Lightens (bound : Nat) (before after : Task) : Prop where
  registration :
    after.registrationLoad bound ≤ before.registrationLoad bound
  creation : after.creationLoad ≤ before.creationLoad
  linking : after.linkingLoad ≤ before.linkingLoad
  completion :
    weighObjects DataAccess.incomplete after.objects ≤
      weighObjects DataAccess.incomplete before.objects
  succession :
    weighObjects DataAccess.unlinked after.objects ≤
      weighObjects DataAccess.unlinked before.objects
  satisfaction :
    weighObjects DataAccess.unsetFlags after.objects ≤
      weighObjects DataAccess.unsetFlags before.objects

theorem Lightens.refl (bound : Nat) (task : Task) : Lightens bound task task :=
  ⟨le_refl _, le_refl _, le_refl _, le_refl _, le_refl _, le_refl _⟩

theorem Lightens.trans {bound : Nat} {first second third : Task}
    (before : Lightens bound first second)
    (after : Lightens bound second third) : Lightens bound first third where
  registration := after.registration.trans before.registration
  creation := after.creation.trans before.creation
  linking := after.linking.trans before.linking
  completion := after.completion.trans before.completion
  succession := after.succession.trans before.succession
  satisfaction := after.satisfaction.trans before.satisfaction

/-- A task that has not been submitted. -/
structure Dormant (task : Task) : Prop where
  status : task.status = .unborn
  work : task.work = []
  objects : ∀ map, (task.objects map).pieces = []

/-- No access of the task reaches beyond `bound`. -/
def Bounded (bound : Nat) (task : Task) : Prop :=
  ∀ piece ∈ (task.objects .accesses).pieces, piece.interval.stop ≤ bound

end Task

/-! ## The load of the system -/

/-- The addresses of a region, and one for the end of the loop over it. -/
def regionLoad (region : DataAccessRegion) : Nat :=
  region.stop - region.start + 1

namespace System

/-- Only the given tasks have been submitted, and their accesses do not reach
beyond `bound`. -/
structure Within (tasks : Finset TaskId) (bound : Nat)
    (system : System) : Prop where
  dormant : ∀ task, task ∉ tasks → (system.task task).Dormant
  bounded : ∀ task, (system.task task).Bounded bound

/-- No other task than the given ones is submitted, and no access grows. -/
structure Follows (tasks : Finset TaskId) (bound : Nat)
    (system next : System) : Prop where
  dormant : ∀ task, task ∉ tasks → (system.task task).Dormant →
    (next.task task).Dormant
  bounded : ∀ task, (system.task task).Bounded bound →
    (next.task task).Bounded bound

def load (tasks : Finset TaskId) (bound : Nat) (system : System) :
    Level → Nat
  | .registration =>
      ∑ task ∈ tasks, (system.task task).registrationLoad bound
  | .creation => ∑ task ∈ tasks, (system.task task).creationLoad
  | .linking => ∑ task ∈ tasks, (system.task task).linkingLoad
  | .completion =>
      ∑ task ∈ tasks,
        weighObjects DataAccess.incomplete (system.task task).objects
  | .succession =>
      ∑ task ∈ tasks,
        weighObjects DataAccess.unlinked (system.task task).objects
  | .relinking =>
      (system.bottomMapUpdates.map fun update =>
        regionLoad update.2.2.region).sum
  | .satisfaction =>
      ∑ task ∈ tasks,
        weighObjects DataAccess.unsetFlags (system.task task).objects
  | .reductionInfo =>
      (system.delayedOperations.map fun delayed =>
        if delayed.2.setReductionInfo then regionLoad delayed.2.region
        else 0).sum
  | .operations =>
      (system.delayedOperations.map fun delayed =>
        regionLoad delayed.2.region).sum

/-- The load goes down, or it stays on every level at most what it was. -/
def Sinks (tasks : Finset TaskId) (bound : Nat) (system next : System) :
    Prop :=
  NeverRaises (system.load tasks bound) (next.load tasks bound) ∨
    ∃ level, LowersAt level (system.load tasks bound) (next.load tasks bound)

section Comparison

variable {tasks : Finset TaskId} {bound : Nat} {system next : System}

theorem Within.of_follows (within : Within tasks bound system)
    (follows : Follows tasks bound system next) :
    Within tasks bound next where
  dormant := fun task outside =>
    follows.dormant task outside (within.dormant task outside)
  bounded := fun task => follows.bounded task (within.bounded task)

theorem Follows.of_eq (tasks : Finset TaskId) (bound : Nat)
    (same : next.task = system.task) : Follows tasks bound system next where
  dormant := fun task _ dormant => by rwa [same]
  bounded := fun task bounded => by rwa [same]

theorem Follows.trans {last : System}
    (first : Follows tasks bound system next)
    (second : Follows tasks bound next last) :
    Follows tasks bound system last where
  dormant := fun task outside dormant =>
    second.dormant task outside (first.dormant task outside dormant)
  bounded := fun task bounded =>
    second.bounded task (first.bounded task bounded)

theorem Within.mem_of_piece (within : Within tasks bound system)
    {task : TaskId} {map : AccessMap} {piece : Piece DataAccess}
    (member : piece ∈ ((system.task task).objects map).pieces) :
    task ∈ tasks := by
  by_contra outside
  rw [(within.dormant task outside).objects map] at member
  cases member

theorem Within.mem_of_work (within : Within tasks bound system)
    {task : TaskId} {head : Work} {rest : List Work}
    (working : (system.task task).work = head :: rest) : task ∈ tasks := by
  by_contra outside
  rw [(within.dormant task outside).work] at working
  cases working

/-- Where nothing is added to any task, only the levels of the operations and
of the updates have to be looked at. -/
theorem load_le_of_lightens
    (lightens : ∀ task,
      (system.task task).Lightens bound (next.task task))
    {level : Level}
    (listed : level = .relinking ∨ level = .reductionInfo ∨
        level = .operations →
      next.load tasks bound level ≤ system.load tasks bound level) :
    next.load tasks bound level ≤ system.load tasks bound level := by
  cases level with
  | registration =>
      exact Finset.sum_le_sum fun task _ => (lightens task).registration
  | creation => exact Finset.sum_le_sum fun task _ => (lightens task).creation
  | linking => exact Finset.sum_le_sum fun task _ => (lightens task).linking
  | completion =>
      exact Finset.sum_le_sum fun task _ => (lightens task).completion
  | succession =>
      exact Finset.sum_le_sum fun task _ => (lightens task).succession
  | relinking => exact listed (by simp)
  | satisfaction =>
      exact Finset.sum_le_sum fun task _ => (lightens task).satisfaction
  | reductionInfo => exact listed (by simp)
  | operations => exact listed (by simp)

/-- A step that adds nothing to any task, to the operations or to the
updates. -/
theorem neverRaises_of_lightens
    (lightens : ∀ task,
      (system.task task).Lightens bound (next.task task))
    (updates : next.bottomMapUpdates = system.bottomMapUpdates)
    (operations : next.delayedOperations = system.delayedOperations) :
    NeverRaises (system.load tasks bound) (next.load tasks bound) := by
  intro level
  refine load_le_of_lightens lightens fun listed => ?_
  rcases listed with rfl | rfl | rfl
  · simp only [load, updates, le_refl]
  · simp only [load, operations, le_refl]
  · simp only [load, operations, le_refl]

/-- A step that lowers a level up to the one of the updates, and adds nothing
to any task. -/
theorem lowersAt_of_lightens
    (lightens : ∀ task,
      (system.task task).Lightens bound (next.task task))
    {level : Level} (early : level ≤ .relinking)
    (lowered : next.load tasks bound level < system.load tasks bound level) :
    LowersAt level (system.load tasks bound) (next.load tasks bound) := by
  refine ⟨fun earlier isEarlier => ?_, lowered⟩
  refine load_le_of_lightens lightens fun listed => ?_
  have before : earlier < .relinking := lt_of_lt_of_le isEarlier early
  rcases listed with rfl | rfl | rfl
  · exact absurd before (lt_irrefl _)
  · exact absurd before (by decide)
  · exact absurd before (by decide)

end Comparison

end System

end Nanos6
