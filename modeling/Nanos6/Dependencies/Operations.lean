import Nanos6.Dependencies.Registration

/-!
# The other operations of the dependency system

Delayed operations, bottom-map updates, taskwaits, top-level sinks, the
completion of accesses and the disposal of tasks, each one object at a time.
-/

namespace Nanos6

open Foundation

namespace Setter

/-- Receive the ReductionInfo of the previous access, possibly null. -/
def receiveReductionInfo (info : Option ReductionInfo) : Setter :=
  let adopt : Setter :=
    { apply := fun access =>
        match info with
        | some found =>
            if access.reductionInfo.isNone && access.type == .reduction &&
                access.reductionTypeAndOperatorIndex ==
                  some found.typeAndOperatorIndex then
              { access with reductionInfo := some found }
            else
              access
        | none => access
      assertion := fun access =>
        access.reductionInfo.isNone ||
          (access.type == .reduction && access.allocatedReductionInfo) }
  (setPreviousReductionInfo info).andThen <|
    adopt.andThen setReceivedReductionInfo

def applyUpdateOperation (operation : UpdateOperation) : Setter :=
  (onlyIf operation.makeReadSatisfied setReadSatisfied).andThen <|
    (onlyIf operation.makeWriteSatisfied setWriteSatisfied).andThen <|
      (onlyIf operation.makeConcurrentSatisfied
          setConcurrentSatisfied).andThen <|
        (onlyIf operation.setReductionInfo
            (receiveReductionInfo operation.reductionInfo)).andThen <|
          (onlyIf operation.reductionCpuSet.isSome
              ((setPreviousReductionCpuSet
                operation.reductionCpuSet).andThen
                setReceivedReductionCpuSet)).andThen <|
            (onlyIf operation.makeTopmost setTopmost).andThen <|
              onlyIf operation.makeTopLevel setTopLevel

/-- What the objects at the bottom of a completed access undergo. -/
def followParent (operation : BottomMapUpdateOperation) : Setter :=
  (onlyIf operation.inhibitReadSatisfiabilityPropagation
      unsetCanPropagateReadSatisfiability).andThen <|
    (onlyIf operation.inhibitConcurrentSatisfiabilityPropagation
        unsetCanPropagateConcurrentSatisfiability).andThen <|
      (onlyIf operation.inhibitReductionInfoPropagation
          unsetCanPropagateReductionInfo).andThen <|
        setNext operation.next

end Setter

/-! ## Delayed operations -/

/-- Perform the delayed operation at `index` on one object.  The operation
keeps its place in the list, with the region that is left, until no object is
left for it.  The operations of one owner are performed in order. -/
def processUpdateOperation (system : System) (index : Nat) : Option System :=
  match system.delayedOperations[index]? with
  | none => none
  | some (owner, operation) =>
      let target := operation.target
      let region := operation.region
      if (system.delayedOperations.take index).any (fun earlier =>
          earlier.1 == owner) || system.isUpdating owner ||
          system.locked target.task then
        none
      else
        match ((system.task target.task).objects
            target.objectType.map).firstIn region.start region.stop with
        | none =>
            some
              { system with
                delayedOperations :=
                  system.delayedOperations.eraseIdx index }
        | some piece =>
            let changed :=
              system.changeObject owner target.task target.objectType.map
                piece region (.applyUpdateOperation operation)
            let reached := (piece.interval.inter region).stop
            some
              { changed with
                delayedOperations :=
                  changed.delayedOperations.set index
                    (owner,
                      { operation with region := ⟨reached, region.stop⟩ }) }

/-! ## Bottom-map updates -/

/-- Perform the bottom-map update at `index` on one object.  The innermost
update of an owner comes first. -/
def processBottomMapUpdate (system : System) (index : Nat) : Option System :=
  match system.bottomMapUpdates[index]? with
  | none => none
  | some (owner, task, operation) =>
      if (system.bottomMapUpdates.take index).any fun inner =>
          inner.1 == owner then
        none
      else
        let region := operation.region
        let updatesBefore := system.bottomMapUpdates.take index
        let updatesAfter := system.bottomMapUpdates.drop (index + 1)
        let continueFrom := fun (reached : Nat) =>
          { system with
            bottomMapUpdates :=
              updatesBefore ++
                (owner, task,
                  { operation with region := ⟨reached, region.stop⟩ }) ::
                updatesAfter }
        match (system.task task).subaccessBottomMap.firstIn
            region.start region.stop with
        | none =>
            some
              { system with bottomMapUpdates := updatesBefore ++ updatesAfter }
        | some entry =>
            let subregion := entry.interval.inter region
            let target := entry.value.link
            if target.task ≠ task ∧ system.locked target.task then
              none
            else
              match ((system.task target.task).objects
                  target.objectType.map).firstIn
                    subregion.start subregion.stop with
              | none => some (continueFrom subregion.stop)
              | some piece =>
                  some <|
                    (continueFrom (piece.interval.inter subregion).stop)
                      |>.changeObject owner target.task target.objectType.map
                        piece subregion (.followParent operation)

/-! ## Taskwaits and sinks -/

/-- A new taskwait fragment or top-level sink; it is created complete. -/
def taskwaitFragment (task : TaskId) (objectType : DataAccessObjectType)
    (type : DataAccessType) : DataAccess :=
  { createAccess task objectType type false none with
    inBottomMap := true
    registered := true
    complete := true }

/-- Put a taskwait fragment or a sink at the bottom of one entry. -/
def createTaskwaitFragment (system : System) (task : TaskId)
    (objectType : DataAccessObjectType) (entry : Piece BottomMapEntry) :
    System :=
  let created :=
    system.createObject task task .taskwaitFragments entry.interval
      (.of system.parent (createAccess task objectType
        entry.value.accessType false none))
      (taskwaitFragment task objectType entry.value.accessType)
  created.modifyTask task fun current =>
    { current with
      subaccessBottomMap :=
        current.subaccessBottomMap.replace entry entry.interval
          (some ⟨⟨task, objectType⟩, entry.value.accessType⟩) }

def createTaskwait (system : System) (task : TaskId) (low : Nat)
    (rest : List Work) : System :=
  match (system.task task).subaccessBottomMap.nextFrom low with
  | none => system.setWork task rest
  | some entry =>
      (createTaskwaitFragment system task .taskwait entry).setWork task
        (.linkToTaskwait entry.value.link entry.interval ::
          .createTaskwait entry.interval.stop :: rest)

/-- Only the entries of regions outside of the accesses get a sink. -/
def createTopLevelSink (system : System) (task : TaskId) (low : Nat)
    (rest : List Work) : System :=
  match (system.task task).subaccessBottomMap.nextFrom low with
  | none => system.setWork task rest
  | some entry =>
      if entry.value.accessType != .noAccess then
        system.setWork task (.createTopLevelSink entry.interval.stop :: rest)
      else
        (createTaskwaitFragment system task .topLevelSink entry).setWork task
          (.linkToTaskwait entry.value.link entry.interval ::
            .createTopLevelSink entry.interval.stop :: rest)

/-- Link one object that was at the bottom to the taskwait of `task`. -/
def linkToTaskwait (system : System) (task : TaskId)
    (previous : DataAccessLink) (region : DataAccessRegion)
    (rest : List Work) : Option System :=
  if previous.task ≠ task ∧ system.locked previous.task then
    none
  else
    match ((system.task previous.task).objects
        previous.objectType.map).firstIn region.start region.stop with
    | none => some (system.setWork task rest)
    | some piece =>
        let linked :=
          system.changeObject task previous.task previous.objectType.map
            piece region (.linkTo ⟨task, .taskwait⟩)
        some <| linked.setWork task
          (.linkToTaskwait previous
            ⟨(piece.interval.inter region).stop, region.stop⟩ :: rest)

/-! ## Completing accesses -/

def finalizeFragments (system : System) (task : TaskId) (low : Nat)
    (rest : List Work) : System :=
  match ((system.task task).objects .accessFragments).nextFrom low with
  | none => system.setWork task rest
  | some piece =>
      let completed :=
        if piece.value.complete then system
        else
          system.changeObject task task .accessFragments piece piece.interval
            .setComplete
      completed.setWork task (.finalizeFragments piece.interval.stop :: rest)

/-- Complete one fragment of an access that has just been completed. -/
def finalizeFragmentsOf (system : System) (task : TaskId)
    (region : DataAccessRegion) (rest : List Work) : System :=
  match ((system.task task).objects .accessFragments).firstIn
      region.start region.stop with
  | none => system.setWork task rest
  | some piece =>
      let completed :=
        system.changeObject task task .accessFragments piece region
          .setComplete
      completed.setWork task
        (.finalizeFragmentsOf
          ⟨(piece.interval.inter region).stop, region.stop⟩ :: rest)

/-- Complete one access, unless it has been released before, and then its
fragments. -/
def finalizeAccess (system : System) (task : TaskId)
    (region : DataAccessRegion) (rest : List Work) : System :=
  match ((system.task task).objects .accesses).firstIn
      region.start region.stop with
  | none => system.setWork task rest
  | some piece =>
      if piece.value.complete then
        system.setWork task
          (.finalizeAccesses ⟨piece.interval.stop, region.stop⟩ :: rest)
      else
        let target := piece.interval.inter region
        let completed :=
          system.changeObject task task .accesses piece region .setComplete
        let continued :=
          .finalizeAccesses ⟨target.stop, region.stop⟩ :: rest
        completed.setWork task <|
          if piece.value.hasSubaccesses then
            .finalizeFragmentsOf target :: continued
          else
            continued

/-- A region that holds all the accesses of a task. -/
def Task.accessBounds (task : Task) : DataAccessRegion :=
  ⟨0, (task.objects .accesses).pieces.foldl
    (fun bound piece => max bound piece.interval.stop) 0⟩

/-! ## Entering and leaving a taskwait -/

/-- The start of `handleEnterTaskwait`: the contribution of the accesses to the
removal blocking count is taken back, and the taskwait fragments add one. -/
def Task.enterTaskwait (rest : List Work) (task : Task) : Task :=
  let withoutAccesses :=
    if task.hasAccesses then task.counters.decreaseRemovalBlockingCount.1
    else task.counters
  let nothingBelow := task.subaccessBottomMap.pieces.isEmpty
  { task with
    status := if task.status = .finishing then .inWaitClause else .inTaskwait
    counters :=
      if nothingBelow then withoutAccesses
      else
        { withoutAccesses.increaseRemovalBlockingCount with
          taskwaitBlocks := withoutAccesses.taskwaitBlocks + 1 }
    work :=
      if nothingBelow then .finalizeFragments 0 :: rest
      else .createTaskwait 0 :: .finalizeFragments 0 :: rest }

/-- `createTaskwait` asserts that no taskwait fragment is left from before. -/
def handleEnterTaskwait (system : System) (task : TaskId)
    (rest : List Work) : System :=
  let current := system.task task
  { system.modifyTask task (Task.enterTaskwait rest) with
    assertionFailed :=
      system.assertionFailed ||
        (!current.subaccessBottomMap.pieces.isEmpty &&
          !(current.objects .taskwaitFragments).pieces.isEmpty) }

/-- Some object of a map has not been discounted. -/
def holdsUndiscounted (map : IntervalMap DataAccess) : Bool :=
  map.pieces.any fun piece => !piece.value.hasBeenDiscounted

/-- Without accesses the fragments and taskwait fragments are not touched. -/
def handleExitTaskwait (system : System) (task : TaskId) : System :=
  let current := system.task task
  if current.hasAccesses then
    { system.modifyTask task fun current =>
        { current with
          counters := current.counters.increaseRemovalBlockingCount
          objects := fun map =>
            match map with
            | .accesses =>
                (current.objects .accesses).mapValues fun access =>
                  { access with hasSubaccesses := false }
            | _ => .empty
          subaccessBottomMap := .empty } with
      undiscountedDeletion :=
        system.undiscountedDeletion ||
          holdsUndiscounted (current.objects .accessFragments) ||
          holdsUndiscounted (current.objects .taskwaitFragments) }
  else
    system.modifyTask task fun current =>
      { current with subaccessBottomMap := .empty }

/-- The end of a taskwait keeps the accesses, without subaccesses, and deletes
the fragments. -/
theorem handleExitTaskwait_of_hasAccesses (system : System) (task : TaskId)
    (accesses : (system.task task).hasAccesses = true) :
    ∃ exited : Task → AccessMap → IntervalMap DataAccess,
      (∀ current, exited current .accesses =
        (current.objects .accesses).mapValues fun access =>
          { access with hasSubaccesses := false }) ∧
      (∀ current map, map ≠ .accesses → exited current map = .empty) ∧
      handleExitTaskwait system task =
        { system.modifyTask task fun current =>
            { current with
              counters := current.counters.increaseRemovalBlockingCount
              objects := exited current
              subaccessBottomMap := .empty } with
          undiscountedDeletion :=
            system.undiscountedDeletion ||
              holdsUndiscounted
                ((system.task task).objects .accessFragments) ||
              holdsUndiscounted
                ((system.task task).objects .taskwaitFragments) } := by
  refine ⟨?exited, ?_, ?_, ?exits⟩
  case exits =>
    unfold handleExitTaskwait
    exact if_pos accesses
  · exact fun _ => rfl
  · intro current map fragments
    cases map with
    | accesses => exact absurd rfl fragments
    | accessFragments => rfl
    | taskwaitFragments => rfl

/-- `markAsBlocked`: the task goes on at once when nothing is left to wait
for. -/
def markAsBlocked (system : System) (task : TaskId) (rest : List Work) :
    System :=
  system.modifyTask task fun current =>
    let (counters, done) := current.counters.decreaseRemovalBlockingCount
    { current with
      counters := counters
      status := if done then .leavingTaskwait else .blocked
      work := if done then .exitTaskwait :: rest else rest }

/-- The end of a taskwait: `markAsUnblocked` and `handleExitTaskwait`. -/
def exitTaskwait (system : System) (task : TaskId) (rest : List Work) :
    System :=
  let unblocked :=
    system.modifyTask task fun current =>
      { current with
        counters := current.counters.increaseRemovalBlockingCount
        status := .running
        work := rest }
  handleExitTaskwait unblocked task

/-- The wait clause of a finished task is over. -/
def completeDelayedRelease (system : System) (task : TaskId) : System :=
  let exited :=
    handleExitTaskwait
      (system.modifyTask task fun current =>
        { current with mustDelayRelease := false }) task
  exited.modifyTask task fun current =>
    { current with
      counters := current.counters.increaseRemovalBlockingCount
      status := .finished }

/-- The check of `markAsFinished` whether the wait clause is already over. -/
def completeWaitClause (system : System) (task : TaskId)
    (rest : List Work) : System :=
  let (counters, done) :=
    (system.task task).counters.decreaseRemovalBlockingCount
  let decreased :=
    system.modifyTask task fun current =>
      { current with
        counters := counters
        status := .waitClausePending
        work := rest }
  if done then completeDelayedRelease decreased task else decreased

/-! ## The end of a task -/

/-- `markAsReleased`: the accesses of the task have been unregistered. -/
def markAsReleased (system : System) (task : TaskId) (rest : List Work) :
    System :=
  let (counters, done) :=
    (system.task task).counters.decreaseRemovalBlockingCount
  { system.modifyTask task fun current =>
      { current with
        counters := counters
        status := .released
        work := rest } with
    pendingDisposals :=
      system.pendingDisposals ++ if done then [task] else [] }

/-- Delete a finished task and unlink it from its parent. -/
def disposeTask (system : System) (task : TaskId) : System :=
  let current := system.task task
  let deleted :=
    { system.modifyTask task fun current =>
        { current with
          status := .disposed
          objects := fun _ => .empty
          subaccessBottomMap := .empty
          deletedAccesses := current.objects .accesses } with
      undiscountedDeletion :=
        system.undiscountedDeletion ||
          holdsUndiscounted (current.objects .accesses) ||
          holdsUndiscounted (current.objects .accessFragments) ||
          holdsUndiscounted (current.objects .taskwaitFragments) }
  match current.parent with
  | none => deleted
  | some parent =>
      let (counters, done) :=
        (deleted.task parent).counters.decreaseRemovalBlockingCount
      { deleted.modifyTask parent fun current =>
          { current with counters := counters } with
        pendingDisposals :=
          deleted.pendingDisposals ++ if done then [parent] else [] }

/-- One pending call of `disposeOrUnblockTask`: complete the wait clause of the
task, delete the task, or let it leave the taskwait in which it is blocked. -/
def disposeOrUnblockTask (system : System) (index : Nat) : Option System :=
  match system.pendingDisposals[index]? with
  | none => none
  | some task =>
      let called :=
        { system with
          pendingDisposals := system.pendingDisposals.eraseIdx index }
      let current := system.task task
      if system.updatesBottomMap task then
        none
      else if current.status.hasFinished then
        if current.mustDelayRelease then
          some (completeDelayedRelease called task)
        else
          some (disposeTask called task)
      else if current.status = .blocked then
        some <| called.modifyTask task fun current =>
          { current with status := .leavingTaskwait, work := [.exitTaskwait] }
      else
        none

end Nanos6
