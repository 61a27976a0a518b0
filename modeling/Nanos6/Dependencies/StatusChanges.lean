import Nanos6.Dependencies.StatusEffects

/-!
# Acting on the changes of a status

`handleDataAccessStatusChanges` compares the effects of an object before and
after a change.  It counts the object, reports the task as ready, emits the
operations for the next object and for the fragments, asks for an update of the
bottom map and discounts the object.

The bottom-map update takes the locks of other tasks, so it is handed back to
the caller, which performs it one object at a time.  The source performs it
before it discounts the object; the lock of the task is held during both.
-/

namespace Nanos6

open Foundation

/-- A change of the status of the objects of another task, or of other objects
of the same task, that is performed later. -/
structure UpdateOperation where
  target : DataAccessLink
  region : DataAccessRegion
  makeReadSatisfied : Bool := false
  makeWriteSatisfied : Bool := false
  makeConcurrentSatisfied : Bool := false
  makeTopmost : Bool := false
  makeTopLevel : Bool := false
  setReductionInfo : Bool := false
  reductionInfo : Option ReductionInfo := none
  reductionCpuSet : CPUSet := none
  deriving DecidableEq

def UpdateOperation.empty (operation : UpdateOperation) : Bool :=
  !operation.makeReadSatisfied && !operation.makeWriteSatisfied &&
    !operation.makeConcurrentSatisfied && !operation.makeTopmost &&
    !operation.makeTopLevel && !operation.setReductionInfo &&
    operation.reductionCpuSet.isNone

structure BottomMapUpdateOperation where
  region : DataAccessRegion
  parentAccessType : DataAccessType
  inhibitReadSatisfiabilityPropagation : Bool
  inhibitConcurrentSatisfiabilityPropagation : Bool
  inhibitReductionInfoPropagation : Bool
  next : DataAccessLink
  deriving DecidableEq

/-- What the handling of status changes leaves for later. -/
structure CPUDependencyData where
  satisfiedOriginators : List TaskId := []
  delayedOperations : List UpdateOperation := []
  removableTasks : List TaskId := []
  deriving DecidableEq

/-- The counters of a task that the dependency system changes.  The last two
are not in the source: they count how often `createTaskwait` has blocked the
task and how often its last live taskwait fragment has taken that back. -/
structure Counters where
  removalBlockers : Int := 0
  liveTaskwaitFragmentCount : Int := 0
  predecessorCount : Int := 0
  countdownToBeWokenUp : Int := 1
  taskwaitBlocks : Nat := 0
  taskwaitUnblocks : Nat := 0
  deriving DecidableEq, Repr

namespace Counters

def increaseRemovalBlockingCount (counters : Counters) : Counters :=
  { counters with countdownToBeWokenUp := counters.countdownToBeWokenUp + 1 }

/-- The second component says whether the task becomes ready or disposable. -/
def decreaseRemovalBlockingCount (counters : Counters) : Counters × Bool :=
  ({ counters with countdownToBeWokenUp := counters.countdownToBeWokenUp - 1 },
    counters.countdownToBeWokenUp - 1 == 0)

def increasePredecessors (amount : Int) (counters : Counters) : Counters :=
  { counters with predecessorCount := counters.predecessorCount + amount }

/-- The second component says whether the task becomes ready. -/
def decreasePredecessors (amount : Int) (counters : Counters) :
    Counters × Bool :=
  ({ counters with predecessorCount := counters.predecessorCount - amount },
    counters.predecessorCount - amount == 0)

/-- Count a new object. -/
def countObject (objectType : DataAccessObjectType) (counters : Counters) :
    Counters :=
  let blocked :=
    if counters.removalBlockers == 0 then
      counters.increaseRemovalBlockingCount
    else
      counters
  { blocked with
    removalBlockers := blocked.removalBlockers + 1
    liveTaskwaitFragmentCount :=
      if objectType == .taskwait then
        blocked.liveTaskwaitFragmentCount + 1
      else
        blocked.liveTaskwaitFragmentCount }

end Counters

/-- The part of the handling that counts a new object. -/
def handleRegistration (initial updated : DataAccessStatusEffects)
    (access : DataAccess) (counters : Counters) : Counters :=
  if initial.isRegistered != updated.isRegistered then
    let counted :=
      if initial.isRemovable then counters
      else counters.countObject access.objectType
    if updated.enforcesDependency then
      counted.increasePredecessors 1
    else
      counted
  else
    counters

/-- The part of the handling that discounts a satisfied access from the
predecessors of its task; the second component says that the task becomes
ready. -/
def handleDependency (initial updated : DataAccessStatusEffects)
    (counters : Counters) : Counters × Bool :=
  if initial.enforcesDependency != updated.enforcesDependency &&
      !updated.enforcesDependency then
    counters.decreasePredecessors 1
  else
    (counters, false)

/-- The set of CPUs of a reduction, joined with the one of the previous access
when both belong to the same reduction. -/
def joinReductionCpuSet (access : DataAccess) : DataAccess :=
  if access.reductionInfo == access.previousReductionInfo then
    { access with
      reductionCpuSet :=
        access.reductionCpuSet.union access.previousReductionCpuSet }
  else
    access

/-- The part of the handling that propagates to the next object. -/
def propagateToNext (initial updated : DataAccessStatusEffects)
    (access : DataAccess) (region : DataAccessRegion) :
    DataAccess × List UpdateOperation :=
  match access.next with
  | none => (access, [])
  | some next =>
      let cpuSetChanges :=
        initial.propagatesReductionCpuSetToNext !=
          updated.propagatesReductionCpuSetToNext
      let joined := if cpuSetChanges then joinReductionCpuSet access else access
      let infoChanges :=
        initial.propagatesReductionInfoToNext !=
          updated.propagatesReductionInfoToNext
      let operation : UpdateOperation :=
        { target := next
          region := region
          makeReadSatisfied :=
            initial.propagatesReadSatisfiabilityToNext !=
              updated.propagatesReadSatisfiabilityToNext
          makeWriteSatisfied :=
            initial.propagatesWriteSatisfiabilityToNext !=
              updated.propagatesWriteSatisfiabilityToNext
          makeConcurrentSatisfied :=
            initial.propagatesConcurrentSatisfiabilityToNext !=
              updated.propagatesConcurrentSatisfiabilityToNext
          setReductionInfo := infoChanges
          reductionInfo := if infoChanges then joined.reductionInfo else none
          reductionCpuSet :=
            if cpuSetChanges then joined.reductionCpuSet else none
          makeTopmost := initial.makesNextTopmost != updated.makesNextTopmost
          makeTopLevel :=
            initial.propagatesTopLevel != updated.propagatesTopLevel }
      (joined, if operation.empty then [] else [operation])

/-- The part of the handling that propagates to the fragments. -/
def propagateToFragments (initial updated : DataAccessStatusEffects)
    (access : DataAccess) (region : DataAccessRegion) (task : TaskId) :
    DataAccess × List UpdateOperation :=
  if access.hasSubaccesses then
    let cpuSetChanges :=
      initial.propagatesReductionCpuSetToFragments !=
        updated.propagatesReductionCpuSetToFragments
    let joined :=
      if cpuSetChanges && access.type == .reduction then
        joinReductionCpuSet access
      else
        access
    let infoChanges :=
      initial.propagatesReductionInfoToFragments !=
        updated.propagatesReductionInfoToFragments
    let operation : UpdateOperation :=
      { target := ⟨task, .fragment⟩
        region := region
        makeReadSatisfied :=
          initial.propagatesReadSatisfiabilityToFragments !=
            updated.propagatesReadSatisfiabilityToFragments
        makeWriteSatisfied :=
          initial.propagatesWriteSatisfiabilityToFragments !=
            updated.propagatesWriteSatisfiabilityToFragments
        makeConcurrentSatisfied :=
          initial.propagatesConcurrentSatisfiabilityToFragments !=
            updated.propagatesConcurrentSatisfiabilityToFragments
        setReductionInfo := infoChanges
        reductionInfo := if infoChanges then joined.reductionInfo else none
        reductionCpuSet :=
          if cpuSetChanges then
            if access.type == .reduction then joined.reductionCpuSet
            else joined.previousReductionCpuSet
          else none }
    (joined, if operation.empty then [] else [operation])
  else
    (access, [])

theorem joinReductionCpuSet_eq (access : DataAccess) :
    ∃ cpus, joinReductionCpuSet access =
      { access with reductionCpuSet := cpus } := by
  unfold joinReductionCpuSet
  split
  · exact ⟨_, rfl⟩
  · exact ⟨access.reductionCpuSet, rfl⟩

/-- Propagation changes nothing of the object but its set of CPUs. -/
theorem joined_propagate (initial updated : DataAccessStatusEffects)
    (access : DataAccess) (region : DataAccessRegion) (task : TaskId) :
    ∃ cpus,
      (propagateToFragments initial updated
          (propagateToNext initial updated access region).1 region task).1 =
        { access with reductionCpuSet := cpus } := by
  have toNext : ∃ cpus,
      (propagateToNext initial updated access region).1 =
        { access with reductionCpuSet := cpus } := by
    unfold propagateToNext
    split
    · exact ⟨access.reductionCpuSet, rfl⟩
    · dsimp only
      split
      · exact joinReductionCpuSet_eq access
      · exact ⟨access.reductionCpuSet, rfl⟩
  obtain ⟨first, linked⟩ := toNext
  rw [linked]
  unfold propagateToFragments
  split
  · dsimp only
    split
    · obtain ⟨second, joined⟩ :=
        joinReductionCpuSet_eq { access with reductionCpuSet := first }
      exact ⟨second, by rw [joined]⟩
    · exact ⟨first, rfl⟩
  · exact ⟨first, rfl⟩

/-- The part of the handling that asks for an update of the bottom map. -/
def bottomMapUpdateOf (initial updated : DataAccessStatusEffects)
    (access : DataAccess) (region : DataAccessRegion) :
    Option BottomMapUpdateOperation :=
  match access.next with
  | none => none
  | some next =>
      if access.hasSubaccesses &&
          initial.linksBottomMapAccessesToNextAndInhibitsPropagation !=
            updated.linksBottomMapAccessesToNextAndInhibitsPropagation then
        some
          { region := region
            parentAccessType := access.type
            inhibitReadSatisfiabilityPropagation := access.type == .read
            inhibitConcurrentSatisfiabilityPropagation :=
              access.type == .concurrent
            inhibitReductionInfoPropagation :=
              access.type != .write && access.type != .readwrite
            next := next }
      else
        none

/-- The part of the handling that discounts a removable object.  The second
component tells how often the task has to be disposed of or unblocked. -/
def handleRemoval (initial updated : DataAccessStatusEffects)
    (access : DataAccess) (task : TaskId) (counters : Counters) :
    Counters × List TaskId :=
  if initial.isRemovable != updated.isRemovable then
    let discounted :=
      { counters with removalBlockers := counters.removalBlockers - 1 }
    let taskwait : Counters × List TaskId :=
      if access.objectType == .taskwait then
        let fewer :=
          { discounted with
            liveTaskwaitFragmentCount :=
              discounted.liveTaskwaitFragmentCount - 1 }
        if fewer.liveTaskwaitFragmentCount == 0 then
          let (unblocked, zero) := fewer.decreaseRemovalBlockingCount
          ({ unblocked with taskwaitUnblocks := unblocked.taskwaitUnblocks + 1 },
            if zero then [task] else [])
        else
          (fewer, [])
      else
        (discounted, [])
    if taskwait.1.removalBlockers == 0 then
      let (unblocked, zero) := taskwait.1.decreaseRemovalBlockingCount
      (unblocked, taskwait.2 ++ if zero then [task] else [])
    else
      taskwait
  else
    (counters, [])

/-- The outcome of handling the changes of one object. -/
structure HandledChanges where
  counters : Counters
  /-- The object after the changes, or nothing when it has been deleted. -/
  access : Option DataAccess
  dependencyData : CPUDependencyData := {}
  bottomMapUpdate : Option BottomMapUpdateOperation := none
  /-- The CPUs that a removable taskwait fragment of a reduction adds to the
  accesses of its task. -/
  collectedReductionCpuSet : CPUSet := none

/-- Act on the differences between the effects of an object before and after a
change; `access` is the changed object. -/
def handleDataAccessStatusChanges (initial updated : DataAccessStatusEffects)
    (access : DataAccess) (region : DataAccessRegion) (task : TaskId)
    (counters : Counters) : HandledChanges :=
  let registered := handleRegistration initial updated access counters
  if !updated.isRegistered then
    { counters := registered, access := some access }
  else
    let (dependency, ready) := handleDependency initial updated registered
    let (linked, toNext) := propagateToNext initial updated access region
    let (joined, toFragments) :=
      propagateToFragments initial updated linked region task
    let removal := handleRemoval initial updated joined task dependency
    let removed := initial.isRemovable != updated.isRemovable
    { counters := removal.1
      access :=
        if removed then
          if joined.hasNext then some { joined with hasBeenDiscounted := true }
          else none
        else some joined
      dependencyData :=
        { satisfiedOriginators := if ready then [task] else []
          delayedOperations := toNext ++ toFragments
          removableTasks := removal.2 }
      bottomMapUpdate := bottomMapUpdateOf initial updated joined region
      collectedReductionCpuSet :=
        if removed && joined.objectType == .taskwait &&
            joined.type == .reduction then
          joined.previousReductionCpuSet
        else none }

/-- What becomes of the object: apart from its set of CPUs it is the changed
object, marked when it has been discounted; it is deleted when it becomes
removable without a next object. -/
theorem access_handleDataAccessStatusChanges
    (initial updated : DataAccessStatusEffects) (access : DataAccess)
    (region : DataAccessRegion) (task : TaskId) (counters : Counters) :
    let removed :=
      updated.isRegistered && initial.isRemovable != updated.isRemovable
    ∃ cpus,
      (handleDataAccessStatusChanges initial updated access region task
          counters).access =
        if removed && !access.hasNext then none
        else
          some
            { access with
              reductionCpuSet := cpus
              hasBeenDiscounted := access.hasBeenDiscounted || removed } := by
  intro removed
  obtain ⟨cpus, joined⟩ :=
    joined_propagate initial updated access region task
  unfold handleDataAccessStatusChanges
  cases registered : updated.isRegistered with
  | false =>
      have kept : removed = false := by simp [removed, registered]
      exact ⟨access.reductionCpuSet, by simp [kept]⟩
  | true =>
      refine ⟨cpus, ?_⟩
      have same : removed = (initial.isRemovable != updated.isRemovable) := by
        simp [removed, registered]
      simp only [Bool.not_true, Bool.false_eq_true, if_false, ← same, joined]
      cases removed with
      | false => simp
      | true =>
          cases hasNext : access.hasNext with
          | true =>
              have stillNext :
                  { access with reductionCpuSet := cpus }.hasNext = true :=
                hasNext
              simp [stillNext]
          | false =>
              have noNext :
                  { access with reductionCpuSet := cpus }.hasNext = false :=
                hasNext
              simp [noNext]

end Nanos6
