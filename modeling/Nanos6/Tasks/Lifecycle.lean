import Mathlib.Algebra.Order.Ring.Int
import Mathlib.Logic.Function.Basic
import Nanos6.Foundation.LabelledRun

/-!
# The life of a task

Four parties race for the end of a task: the thread that executes its body, the
thread that disposes of its last child, the one that fulfills its last external
event and the dependency system.  Two counters of the task decide who acts.
Every thread is an activity here, with the point of the source at which it
stands; a step performs what one activity does up to its next access to a
counter.

The dependency system appears only through the increments and decrements of the
removal blocking count that it makes.
-/

namespace Nanos6.Lifecycle

open Foundation

abbrev TaskId := Nat

/-- What an atomic `int` holds, which wraps around. -/
def wrapInt (value : Int) : Int :=
  (value + 2 ^ 31) % 2 ^ 32 - 2 ^ 31

structure Task where
  parent : Option TaskId := none
  isCreated : Bool := false
  isStarted : Bool := false
  /-- No thread is assigned to the task any more. -/
  hasFinished : Bool := false
  mustDelayRelease : Bool := false
  countdownToBeWokenUp : Int := 1
  countdownToRelease : Int := 1
  isFreed : Bool := false
  /-- The fields below are not in the source; they record the history. -/
  hasWaitClause : Bool := false
  children : List TaskId := []
  /-- The task has been removed from its parent. -/
  isUnlinked : Bool := false
  /-- What the task itself adds to `countdownToBeWokenUp`. -/
  blocksRemoval : Bool := true
  /-- What the task itself adds to `countdownToRelease`. -/
  blocksRelease : Bool := true
  /-- The increments of the dependency system that it has not taken back. -/
  removalBlockers : Nat := 0
  /-- The external events that have not been fulfilled. -/
  events : Nat := 0
  /-- The calls of `unregisterTaskDataAccesses`. -/
  unregistrations : Nat := 0
  /-- How often the task has been freed. -/
  frees : Nat := 0

namespace Task

/-- `increaseRemovalBlockingCount` by the dependency system. -/
def increaseRemovalBlockers (amount : Nat) (task : Task) : Task :=
  { task with
    countdownToBeWokenUp := task.countdownToBeWokenUp + amount
    removalBlockers := task.removalBlockers + amount }

/-- `decreaseRemovalBlockingCount` by the dependency system. -/
def decreaseRemovalBlockers (task : Task) : Task :=
  { task with
    countdownToBeWokenUp := task.countdownToBeWokenUp - 1
    removalBlockers := task.removalBlockers - 1 }

/-- The task gives up its own part of the removal blocking count:
`markAsBlocked`, `markAsReleased` and the start of the wait clause. -/
def decreaseRemovalBlockingCount (task : Task) : Task :=
  { task with
    countdownToBeWokenUp := task.countdownToBeWokenUp - 1
    blocksRemoval := false }

/-- The task takes its own part back: `markAsUnblocked` and the end of the wait
clause. -/
def increaseRemovalBlockingCount (task : Task) : Task :=
  { task with
    countdownToBeWokenUp := task.countdownToBeWokenUp + 1
    blocksRemoval := true }

def addChild (child : TaskId) (task : Task) : Task :=
  { task with
    countdownToBeWokenUp := task.countdownToBeWokenUp + 1
    children := task.children ++ [child] }

def removeChild (task : Task) : Task :=
  { task with countdownToBeWokenUp := task.countdownToBeWokenUp - 1 }

/-- `increaseReleaseCount` for external events. -/
def increaseEvents (amount : Nat) (task : Task) : Task :=
  { task with
    countdownToRelease := wrapInt (task.countdownToRelease + amount)
    events := task.events + amount }

/-- `decreaseReleaseCount` for external events. -/
def decreaseEvents (amount : Nat) (task : Task) : Task :=
  { task with
    countdownToRelease := wrapInt (task.countdownToRelease - amount)
    events := task.events - amount }

/-- `decreaseReleaseCount` at the end of the task. -/
def decreaseReleaseCount (task : Task) : Task :=
  { task with
    countdownToRelease := wrapInt (task.countdownToRelease - 1)
    blocksRelease := false }

end Task

/-- Who goes through the end of a task.  `disposeOrUnblockTask` is given a compute
place or none. -/
inductive Caller where
  | handleTask
  | decreaseTaskEventCounter
  | disposeOrUnblockTask (hasComputePlace : Bool)
  deriving DecidableEq, Repr

/-- The caller hands on its compute place, apart from the one that fulfills an
event. -/
def Caller.hasComputePlace : Caller → Bool
  | .handleTask => true
  | .decreaseTaskEventCounter => false
  | .disposeOrUnblockTask hasComputePlace => hasComputePlace

/-- A thread, at the point of the source that it performs next. -/
inductive Activity where
  | body (task : TaskId)
  | markAsBlocked (task : TaskId)
  | markAsUnblocked (task : TaskId)
  | markAsFinished (task : TaskId)
  /-- The decrement of `markAsFinished` under a wait clause. -/
  | delayRelease (task : TaskId)
  | completeDelayedRelease (task : TaskId) (caller : Caller)
  | handleExitTaskwait (task : TaskId) (caller : Caller)
  | increaseRemovalBlockingCount (task : TaskId) (caller : Caller)
  | decreaseReleaseCount (task : TaskId) (caller : Caller)
  | unregisterTaskDataAccesses (task : TaskId) (caller : Caller)
  | markAsReleased (task : TaskId) (caller : Caller)
  /-- The assertion of `disposeOrUnblockTask` that the release is not delayed
  any more; a build with `NDEBUG` has none. -/
  | assertReleased (task : TaskId) (readyOrDisposable hasComputePlace : Bool)
  | disposeOrUnblockTask (task : TaskId) (hasComputePlace : Bool)
  | unlinkFromParent (task : TaskId) (hasComputePlace : Bool)
  /-- The task is deleted, and then the loop goes on with `next`. -/
  | free (task : TaskId) (next : Option TaskId) (hasComputePlace : Bool)
  deriving DecidableEq, Repr

structure System where
  task : TaskId → Task
  activities : List Activity
  /-- Some thread has used a task that had been freed. -/
  usedAfterFree : Bool := false
  /-- `markAllChildrenAsFinished` has stopped at its assertion that there is a
  compute place. -/
  lacksComputePlace : Bool := false

namespace System

def modifyTask (system : System) (task : TaskId) (change : Task → Task) :
    System :=
  { system with
    task := Function.update system.task task (change (system.task task)) }

/-- A thread reads or writes a task. -/
def uses (system : System) (task : TaskId) : System :=
  { system with
    usedAfterFree := system.usedAfterFree || (system.task task).isFreed }

/-- The activity at `index` goes on with `next`, or is over. -/
def goesOn (system : System) (index : Nat) (next : List Activity) : System :=
  { system with
    activities :=
      system.activities.take index ++ next ++
        system.activities.drop (index + 1) }

def starts (system : System) (activity : Activity) : System :=
  { system with activities := system.activities ++ [activity] }

end System

/-- The end of the wait clause branch of `disposeOrUnblockTask`, with or
without its assertion. -/
def leaveWaitClause (ndebug : Bool) (task : TaskId)
    (readyOrDisposable hasComputePlace : Bool) : List Activity :=
  if ndebug then
    if readyOrDisposable then [.unlinkFromParent task hasComputePlace] else []
  else
    [.assertReleased task readyOrDisposable hasComputePlace]

/-- Where a caller goes on when it cannot release or dispose of the task. -/
def leave (ndebug : Bool) (task : TaskId) : Caller → List Activity
  | .disposeOrUnblockTask hasComputePlace =>
      leaveWaitClause ndebug task false hasComputePlace
  | _ => []

/-- Where a caller goes on when the task has become disposable. -/
def dispose (ndebug : Bool) (task : TaskId) : Caller → List Activity
  | .disposeOrUnblockTask hasComputePlace =>
      leaveWaitClause ndebug task true hasComputePlace
  | caller => [.disposeOrUnblockTask task caller.hasComputePlace]

/-- The loop of `disposeOrUnblockTask` goes on with the parent, or ends. -/
def continueWith (hasComputePlace : Bool) : Option TaskId → List Activity
  | none => []
  | some parent => [.disposeOrUnblockTask parent hasComputePlace]

/-- What a thread does at its point of the source.  `accesses` is the number of
increments that `handleExitTaskwait` makes: one if the task has accesses. -/
def perform (ndebug : Bool) (system : System) (index : Nat)
    (accesses : Nat) : Activity → Option System
  | .body _ => none
  | .markAsBlocked task =>
      let changed :=
        (system.uses task).modifyTask task Task.decreaseRemovalBlockingCount
      some <| changed.goesOn index <|
        if (changed.task task).countdownToBeWokenUp == 0 then
          [.markAsUnblocked task]
        else []
  | .markAsUnblocked task =>
      some <| ((system.uses task).modifyTask task
        Task.increaseRemovalBlockingCount).goesOn index [.body task]
  | .markAsFinished task =>
      let finished :=
        (system.uses task).modifyTask task fun current =>
          { current with hasFinished := true }
      some <| finished.goesOn index <|
        if (finished.task task).mustDelayRelease then [.delayRelease task]
        else [.decreaseReleaseCount task .handleTask]
  | .delayRelease task =>
      let changed :=
        (system.uses task).modifyTask task Task.decreaseRemovalBlockingCount
      some <| changed.goesOn index <|
        if (changed.task task).countdownToBeWokenUp == 0 then
          [.completeDelayedRelease task .handleTask]
        else []
  | .completeDelayedRelease task caller =>
      let completed :=
        (system.uses task).modifyTask task fun current =>
          { current with mustDelayRelease := false }
      some (completed.goesOn index [.handleExitTaskwait task caller])
  | .handleExitTaskwait task caller =>
      let exited :=
        (system.uses task).modifyTask task
          (Task.increaseRemovalBlockers accesses)
      some (exited.goesOn index [.increaseRemovalBlockingCount task caller])
  | .increaseRemovalBlockingCount task caller =>
      some <| ((system.uses task).modifyTask task
        Task.increaseRemovalBlockingCount).goesOn index
          [.decreaseReleaseCount task caller]
  | .decreaseReleaseCount task caller =>
      let changed :=
        (system.uses task).modifyTask task Task.decreaseReleaseCount
      some <| changed.goesOn index <|
        if (changed.task task).countdownToRelease == 0 then
          [.unregisterTaskDataAccesses task caller]
        else leave ndebug task caller
  | .unregisterTaskDataAccesses task caller =>
      let unregistered :=
        (system.uses task).modifyTask task fun current =>
          { current with unregistrations := current.unregistrations + 1 }
      some (unregistered.goesOn index [.markAsReleased task caller])
  | .markAsReleased task caller =>
      let changed :=
        (system.uses task).modifyTask task Task.decreaseRemovalBlockingCount
      some <| changed.goesOn index <|
        if (changed.task task).countdownToBeWokenUp == 0 then
          dispose ndebug task caller
        else leave ndebug task caller
  | .assertReleased task readyOrDisposable hasComputePlace =>
      some <| (system.uses task).goesOn index <|
        if readyOrDisposable then [.unlinkFromParent task hasComputePlace]
        else []
  | .disposeOrUnblockTask task hasComputePlace =>
      let current := system.task task
      if current.hasFinished then
        if current.mustDelayRelease then
          if ndebug || hasComputePlace then
            some <| (system.uses task).goesOn index
              [.completeDelayedRelease task
                (.disposeOrUnblockTask hasComputePlace)]
          else
            some
              { (system.uses task).goesOn index [] with
                lacksComputePlace := true }
        else
          some <| (system.uses task).goesOn index
            [.unlinkFromParent task hasComputePlace]
      else some ((system.uses task).goesOn index [.markAsUnblocked task])
  | .unlinkFromParent task hasComputePlace =>
      let unlinked :=
        (system.uses task).modifyTask task fun current =>
          { current with isUnlinked := true }
      match (system.task task).parent with
      | none =>
          some (unlinked.goesOn index [.free task none hasComputePlace])
      | some parent =>
          let removed :=
            (unlinked.uses parent).modifyTask parent Task.removeChild
          some <| removed.goesOn index
            [.free task
              (if (removed.task parent).countdownToBeWokenUp == 0 then
                some parent
              else none)
              hasComputePlace]
  | .free task next hasComputePlace =>
      let freed :=
        (system.uses task).modifyTask task fun current =>
          { current with isFreed := true, frees := current.frees + 1 }
      some (freed.goesOn index (continueWith hasComputePlace next))

/-- The points at which the dependency system adds to the removal blocking
count of the task: a child registers its accesses, a taskwait is created, or
the accesses are unregistered. -/
def Activity.mayBlockRemoval (task : TaskId) : Activity → Bool
  | .body other => other == task
  | .markAsBlocked other => other == task
  | .delayRelease other => other == task
  | .unregisterTaskDataAccesses other _ => other == task
  | _ => false

inductive Action where
  | submit (parent child : TaskId) (hasWaitClause : Bool)
  | start (task : TaskId)
  | taskwait (index : Nat)
  | finish (index : Nat)
  | increaseEvents (task : TaskId) (amount : Nat)
  | decreaseEvents (task : TaskId) (amount : Nat)
  | increaseRemovalBlockers (task : TaskId)
  | decreaseRemovalBlockers (task : TaskId) (hasComputePlace : Bool)
  | perform (index : Nat) (accesses : Nat)
  deriving DecidableEq

def step (ndebug : Bool) (system : System) : Action → Option System
  | .submit parent child hasWaitClause =>
      if .body parent ∈ system.activities ∧
          (system.task child).isCreated = false ∧ child ≠ parent then
        some <| ((system.uses parent).modifyTask parent
          (Task.addChild child)).modifyTask child fun _ =>
            { parent := some parent
              isCreated := true
              mustDelayRelease := hasWaitClause
              hasWaitClause := hasWaitClause }
      else none
  | .start task =>
      let current := system.task task
      if current.isCreated && !current.isStarted then
        some <| ((system.uses task).modifyTask task fun current =>
          { current with isStarted := true }).starts (.body task)
      else none
  | .taskwait index =>
      match system.activities[index]? with
      | some (.body task) =>
          if (system.task task).countdownToBeWokenUp == 1 then
            some (system.uses task)
          else
            some ((system.uses task).goesOn index [.markAsBlocked task])
      | _ => none
  | .finish index =>
      match system.activities[index]? with
      | some (.body task) =>
          some ((system.uses task).goesOn index [.markAsFinished task])
      | _ => none
  | .increaseEvents task amount =>
      -- The amounts of events are of type `unsigned int`.
      if .body task ∈ system.activities ∧ amount < 2 ^ 32 then
        some <| (system.uses task).modifyTask task
          (Task.increaseEvents amount)
      else none
  | .decreaseEvents task amount =>
      if 0 < amount ∧ amount < 2 ^ 32 ∧
          amount ≤ (system.task task).events then
        let changed :=
          (system.uses task).modifyTask task (Task.decreaseEvents amount)
        if (changed.task task).countdownToRelease == 0 then
          some (changed.starts (.unregisterTaskDataAccesses task
            .decreaseTaskEventCounter))
        else some changed
      else none
  | .increaseRemovalBlockers task =>
      let current := system.task task
      if (current.isCreated && !current.isStarted) ||
          system.activities.any (Activity.mayBlockRemoval task) then
        some <| (system.uses task).modifyTask task
          (Task.increaseRemovalBlockers 1)
      else none
  | .decreaseRemovalBlockers task hasComputePlace =>
      if 0 < (system.task task).removalBlockers then
        let changed :=
          (system.uses task).modifyTask task Task.decreaseRemovalBlockers
        if (changed.task task).countdownToBeWokenUp == 0 then
          some <| changed.starts (.disposeOrUnblockTask task hasComputePlace)
        else some changed
      else none
  | .perform index accesses =>
      match system.activities[index]? with
      | some activity => perform ndebug system index accesses activity
      | none => none

/-- Only the main task exists, and it runs. -/
def initialSystem (main : TaskId) : System where
  task := fun task =>
    if task = main then { isCreated := true, isStarted := true } else {}
  activities := [.body main]

end Nanos6.Lifecycle
