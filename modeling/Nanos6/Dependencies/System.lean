import Mathlib.Logic.Function.Basic
import Mathlib.Logic.Function.Iterate
import Nanos6.Dependencies.StatusChanges

/-!
# Tasks and the state of the dependency system

A task keeps its objects, its bottom map and its counters.  The operation that
a task has in progress (its own registration, a taskwait, a release, the
unregistration of its accesses) is a list of `Work`: the loops of the source
that still have to run, each with the address up to which it has come.  One
step treats one object, so an interleaving of steps is at least as fine as one
of the critical sections of the source.
-/

namespace Nanos6

open Foundation

structure BottomMapEntry where
  link : DataAccessLink
  accessType : DataAccessType
  deriving DecidableEq

/-- How far `replaceMatchingInBottomMapLinkAndPropagate` has come with one
access: `region` is the region of the access at the start, `remaining` the part
that still has to be matched. -/
structure LinkProgress where
  region : DataAccessRegion
  remaining : DataAccessRegion
  isReduction : Bool
  reductionTypeAndOperatorIndex : Option Nat
  parentAccessType : DataAccessType := .noAccess
  hasAllocatedReductionInfo : Bool := false
  previousReductionInfo : Option ReductionInfo := none
  deriving DecidableEq

/-- The loops of an operation that still have to run. -/
inductive Work where
  | linkTaskAccesses (low : Nat)
  | replaceMatching (progress : LinkProgress)
  | decreasePredecessors
  | enterTaskwait
  | createTaskwait (low : Nat)
  | createTopLevelSink (low : Nat)
  | linkToTaskwait (previous : DataAccessLink) (region : DataAccessRegion)
  | finalizeFragments (low : Nat)
  | finalizeAccesses (region : DataAccessRegion)
  | finalizeFragmentsOf (region : DataAccessRegion)
  | processDelayedOperations
  | markAsBlocked
  | exitTaskwait
  | completeWaitClause
  | markAsReleased
  deriving DecidableEq

/-- Where a task is in its life. -/
inductive TaskStatus where
  | unborn
  | registering
  | registered
  | running
  | enteringTaskwait
  | inTaskwait
  | blocked
  | leavingTaskwait
  | finishing
  | inWaitClause
  | waitClausePending
  | finished
  | releasing
  | released
  | disposed
  deriving DecidableEq, Repr

/-- The body of the task has returned. -/
def TaskStatus.hasFinished : TaskStatus → Bool
  | .finishing => true
  | .inWaitClause => true
  | .waitClausePending => true
  | .finished => true
  | .releasing => true
  | .released => true
  | .disposed => true
  | _ => false

/-- The two ways in which a task is reported as ready. -/
inductive ReadyReport where
  | satisfiedOriginator
  | registrationReturn
  deriving DecidableEq, Repr

structure Task where
  parent : Option TaskId := none
  status : TaskStatus := .unborn
  /-- The tasks created by this one, in order of creation. -/
  children : List TaskId := []
  objects : AccessMap → IntervalMap DataAccess := fun _ => .empty
  subaccessBottomMap : IntervalMap BottomMapEntry := .empty
  counters : Counters := {}
  mustDelayRelease : Bool := false
  registeringChild : Option TaskId := none
  work : List Work := []
  readyReports : List ReadyReport := []
  /-- The accesses as they were when the task was deleted. -/
  deletedAccesses : IntervalMap DataAccess := .empty

namespace Task

/-- `linkTaskAccesses` is in progress for this task. -/
def isLinking (task : Task) : Bool :=
  match task.work with
  | .linkTaskAccesses _ :: _ => true
  | .replaceMatching _ :: _ => true
  | _ => false

def hasAccesses (task : Task) : Bool :=
  !(task.objects .accesses).pieces.isEmpty

end Task

structure System where
  task : TaskId → Task
  /-- The delayed operations, each with the task whose operation in progress
  emitted it. -/
  delayedOperations : List (TaskId × UpdateOperation) := []
  /-- The updates of bottom maps that are in progress, the innermost first: the
  task whose operation performs the update and the task whose bottom map it
  goes through. -/
  bottomMapUpdates : List (TaskId × TaskId × BottomMapUpdateOperation) := []
  /-- The calls of `disposeOrUnblockTask` that have to be made. -/
  pendingDisposals : List TaskId := []
  nextReductionInfo : Nat := 0
  /-- Some assertion has failed: of a setter, of a fragmentation, or of the
  creation of an initial fragment or of a taskwait. -/
  assertionFailed : Bool := false
  /-- Some object has been deleted before it was discounted. -/
  undiscountedDeletion : Bool := false

namespace System

def parent (system : System) : TaskId → Option TaskId :=
  fun task => (system.task task).parent

/-- Change one task. -/
def modifyTask (system : System) (task : TaskId) (change : Task → Task) :
    System :=
  { system with
    task := Function.update system.task task (change (system.task task)) }

/-- The bottom map of a task is being updated. -/
def updatesBottomMap (system : System) (task : TaskId) : Bool :=
  system.bottomMapUpdates.any fun update => update.2.1 == task

/-- The operation in progress of a task is inside of a bottom-map update. -/
def isUpdating (system : System) (owner : TaskId) : Bool :=
  system.bottomMapUpdates.any fun update => update.1 == owner

/-- The lock of the access structures of a task is held by a registration or
by a bottom-map update. -/
def locked (system : System) (task : TaskId) : Bool :=
  (system.task task).isLinking ||
    ((system.task task).registeringChild.elim false fun child =>
      (system.task child).isLinking) ||
    system.updatesBottomMap task

end System

/-- Count one more object with the status of an object that is being
fragmented. -/
def setUpNewFragment (parent : TaskId → Option TaskId) (access : DataAccess)
    (region : DataAccessRegion) (counters : Counters) : Counters :=
  let duplicated := { access with registered := false }
  let registered := { access with registered := true }
  (handleDataAccessStatusChanges (.of parent duplicated)
    (.of parent registered) registered region access.originator
    counters).counters

/-- Fragment the object of a piece by `region`, change the status of the part
inside it and act on the changes. -/
def handleChange (parent : TaskId → Option TaskId) (task : TaskId)
    (piece : Piece DataAccess) (region : DataAccessRegion) (setter : Setter)
    (counters : Counters) : HandledChanges :=
  handleDataAccessStatusChanges (.of parent piece.value)
    (.of parent (setter.apply piece.value)) (setter.apply piece.value)
    (piece.interval.inter region) task
    ((setUpNewFragment parent piece.value
      piece.interval)^[piece.sides region] counters)

/-- The objects of a task after a change.  A removable taskwait fragment of a
reduction also leaves its CPUs in the accesses that it meets. -/
def changedObjects (objects : AccessMap → IntervalMap DataAccess)
    (map : AccessMap) (piece : Piece DataAccess) (region : DataAccessRegion)
    (handled : HandledChanges) : AccessMap → IntervalMap DataAccess :=
  let replaced :=
    Function.update objects map
      ((objects map).replace piece region handled.access)
  if handled.collectedReductionCpuSet.isSome then
    Function.update replaced .accesses
      ((replaced .accesses).mapMeeting (piece.interval.inter region)
        fun access =>
          { access with
            reductionCpuSet :=
              access.reductionCpuSet.union handled.collectedReductionCpuSet })
  else
    replaced

namespace System

/-- Take over the outcome of handling the changes of an object of `task`. -/
def absorb (system : System) (owner task : TaskId)
    (objects : AccessMap → IntervalMap DataAccess)
    (bottomMap : IntervalMap BottomMapEntry)
    (handled : HandledChanges) : System :=
  { system.modifyTask task fun current =>
      { current with
        objects := objects
        subaccessBottomMap := bottomMap
        counters := handled.counters
        readyReports :=
          current.readyReports ++
            handled.dependencyData.satisfiedOriginators.map
              fun _ => .satisfiedOriginator } with
    delayedOperations :=
      system.delayedOperations ++
        handled.dependencyData.delayedOperations.map fun operation =>
          (owner, operation)
    bottomMapUpdates :=
      (handled.bottomMapUpdate.map fun operation =>
        (owner, task, operation)).toList ++ system.bottomMapUpdates
    pendingDisposals :=
      system.pendingDisposals ++ handled.dependencyData.removableTasks }

/-- Fragment an object by `region` and change the status of the part inside
it.  Only a registered object may be fragmented. -/
def changeObject (system : System) (owner task : TaskId) (map : AccessMap)
    (piece : Piece DataAccess) (region : DataAccessRegion)
    (setter : Setter) : System :=
  let current := system.task task
  let target := piece.interval.inter region
  let handled :=
    handleChange system.parent task piece region setter current.counters
  let bottomMap :=
    if handled.access.isSome then current.subaccessBottomMap
    else current.subaccessBottomMap.eraseInterval target
  { system.absorb owner task
      (changedObjects current.objects map piece region handled)
      bottomMap handled with
    assertionFailed :=
      system.assertionFailed || !setter.assertion piece.value ||
        (piece.sides region != 0 && !piece.value.registered) }

/-- Add a new object; `initial` are the effects before its registration. -/
def createObject (system : System) (owner task : TaskId) (map : AccessMap)
    (region : DataAccessRegion) (initial : DataAccessStatusEffects)
    (access : DataAccess) : System :=
  let current := system.task task
  let handled :=
    handleDataAccessStatusChanges initial (.of system.parent access) access
      region task current.counters
  let objects :=
    Function.update current.objects map
      ((current.objects map).insert region access)
  system.absorb owner task objects current.subaccessBottomMap handled

/-- Go on with the operation in progress of a task. -/
def setWork (system : System) (task : TaskId) (work : List Work) : System :=
  system.modifyTask task fun current => { current with work := work }

/-! ## What a change leaves alone -/

section Frame

variable (system : System) (owner task other : TaskId) (map : AccessMap)
  (piece : Piece DataAccess) (region : DataAccessRegion) (setter : Setter)
  (initial : DataAccessStatusEffects) (access : DataAccess)

theorem task_modifyTask (change : Task → Task) :
    (system.modifyTask task change).task other =
      if other = task then change (system.task task)
      else system.task other := by
  by_cases same : other = task
  · subst same
    simp [modifyTask]
  · simp [modifyTask, same]

theorem task_changeObject :
    (system.changeObject owner task map piece region setter).task other =
      if other = task then
        let current := system.task task
        let handled :=
          handleChange system.parent task piece region setter current.counters
        { current with
          objects := changedObjects current.objects map piece region handled
          subaccessBottomMap :=
            if handled.access.isSome then current.subaccessBottomMap
            else
              current.subaccessBottomMap.eraseInterval
                (piece.interval.inter region)
          counters := handled.counters
          readyReports :=
            current.readyReports ++
              handled.dependencyData.satisfiedOriginators.map
                fun _ => .satisfiedOriginator }
      else system.task other := by
  simp only [changeObject, absorb, task_modifyTask]

theorem pendingDisposals_changeObject :
    (system.changeObject owner task map piece region
        setter).pendingDisposals =
      system.pendingDisposals ++
        (handleChange system.parent task piece region setter
          (system.task task).counters).dependencyData.removableTasks :=
  rfl

theorem task_createObject :
    (system.createObject owner task map region initial access).task other =
      if other = task then
        let current := system.task task
        let handled :=
          handleDataAccessStatusChanges initial (.of system.parent access)
            access region task current.counters
        { current with
          objects :=
            Function.update current.objects map
              ((current.objects map).insert region access)
          counters := handled.counters
          readyReports :=
            current.readyReports ++
              handled.dependencyData.satisfiedOriginators.map
                fun _ => .satisfiedOriginator }
      else system.task other := by
  simp only [createObject, absorb, task_modifyTask]

theorem pendingDisposals_createObject :
    (system.createObject owner task map region initial
        access).pendingDisposals =
      system.pendingDisposals ++
        (handleDataAccessStatusChanges initial (.of system.parent access)
          access region task
          (system.task task).counters).dependencyData.removableTasks :=
  rfl

end Frame

end System

end Nanos6
