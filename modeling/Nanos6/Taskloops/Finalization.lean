import Nanos6.Scheduling.FIFOScheduler
import Nanos6.Taskloops.Iterations
import Nanos6.Tasks.LifecycleRuns

/-!
# The end of a taskloop

A taskloop source waits in the ready queue of the scheduler and is never executed
itself.  A thread that finds it at the front, with iterations left, announces a
collaborator under the lock of the scheduler and creates it, as a child of the
source, after that.  The collaborator takes chunks of iterations until there are
none, and takes its announcement back.  The thread that finds the source without
iterations takes it off the queue and marks it as finished; then its dependencies
are released through its wait clause, by whoever comes last.

The state puts together the scheduler, the life of the tasks and the iterations of
the sources.  The body of a source stands for its time in the scheduler.
-/

namespace Nanos6.Finalization

open Foundation
export Lifecycle (TaskId)
export Scheduling (CPU ReadyTaskHint)

structure Config where
  scheduler : FIFOScheduler.Config
  ndebug : Bool
  useDistributionFunction : Bool
  partitionCount : Nat
  main : TaskId
  /-- What `nanos6_register_taskloop_bounds` is given for a source. -/
  bounds : TaskId → Taskloop.Bounds
  /-- The main task is not a taskloop. -/
  runnable : scheduler.isTaskloop main = false
  /-- The number of CPUs is an `int`. -/
  partitions : 0 < partitionCount ∧ partitionCount < 2 ^ 31
  /-- The loops are normalized. -/
  normalized : ∀ task, (bounds task).IsGiven

/-- The task is a source: a taskloop that is not runnable. -/
def Config.isSource (config : Config) (task : TaskId) : Bool :=
  config.scheduler.isTaskloop task

/-- A collaborator that has been created. -/
structure Collaboration where
  source : TaskId
  /-- Its place among the collaborators of the source. -/
  index : Nat
  /-- `notifyCollaboratorHasFinished` has been called. -/
  hasNotified : Bool := false
  deriving DecidableEq

structure State where
  life : Lifecycle.System
  scheduler : FIFOScheduler.State := {}
  taskloopInfo : TaskId → Taskloop.Source
  collaborations : TaskId → Option Collaboration := fun _ => none
  /-- Not in the source: how often the scheduler has marked the task as
  finished. -/
  finishes : TaskId → Nat := fun _ => 0

/-! ### What is on its way -/

/-- How often the call has the source in its hands, after it has been taken off
the queue or before it is put there. -/
def carries (source : TaskId) : FIFOScheduler.Call → Nat
  | .addReadyTask task hint _ =>
      if task = source ∧ hint ≠ .unblockedTask then 1 else 0
  | .scanReadyTasks _ _ completeTaskloops => completeTaskloops.count source
  | .finishTaskloops _ _ completeTaskloops _ _ _ =>
      completeTaskloops.count source
  | _ => 0

/-- How often the call has taken the source off the queue. -/
def completes (source : TaskId) : FIFOScheduler.Call → Nat
  | .scanReadyTasks _ _ completeTaskloops => completeTaskloops.count source
  | .finishTaskloops _ _ completeTaskloops _ _ _ =>
      completeTaskloops.count source
  | _ => 0

/-- The collaborators that the call has announced and has not created. -/
def announces (source : TaskId) : FIFOScheduler.Call → Nat
  | .finishTaskloops _ _ _ _ assigned _ =>
      if assigned = some source then 1 else 0
  | .createCollaborator _ taskloop => if taskloop = source then 1 else 0
  | _ => 0

namespace State

/-- The child is a collaborator that has not notified. -/
def isCollaborating (state : State) (child : TaskId) : Bool :=
  (state.collaborations child).any fun collaboration =>
    !collaboration.hasNotified

/-- The collaborators that have been announced and have not notified. -/
def announced (state : State) (source : TaskId) : Nat :=
  total (announces source) state.scheduler.calls +
    (state.life.task source).children.countP state.isCollaborating

/-- How often the source is in the ready queue, or in the hands of a call. -/
def pending (state : State) (source : TaskId) : Nat :=
  state.scheduler.readyTasks.count source +
    total (carries source) state.scheduler.calls

end State

/-! ### Steps -/

inductive Action where
  /-- A step of the life of the tasks in which the scheduler has no part. -/
  | life (action : Lifecycle.Action)
  | addReadyTask (task : TaskId) (hint : ReadyTaskHint) (doGetIdle : Bool)
  | getReadyTask (cpu : CPU) (canMarkAsIdle : Bool)
  /-- A call of the scheduler goes on; with the result of `markAsFinished`. -/
  | perform (index : Nat) (answer : Bool)
  /-- A call of the scheduler creates a collaborator, which is going to run on
  the CPU given. -/
  | createCollaborator (index : Nat) (collaborator : TaskId) (cpu : CPU)
  /-- A step of `run`. -/
  | run (collaborator : TaskId)
  | notifyCollaboratorHasFinished (collaborator : TaskId)
  deriving DecidableEq

/-- A source is created with a wait clause; it has no body that could create
tasks, wait or finish.  A collaborator finishes after `run`.  The dependency
system takes back its own increments. -/
def mayAct (config : Config) (state : State) : Lifecycle.Action → Bool
  | .submit parent child hasWaitClause =>
      !config.isSource parent && (hasWaitClause || !config.isSource child)
  | .start task => !config.isSource task
  | .taskwait index =>
      match state.life.activities[index]? with
      | some (.body task) => !config.isSource task
      | _ => true
  | .finish index =>
      match state.life.activities[index]? with
      | some (.body task) =>
          !config.isSource task && !state.isCollaborating task
      | _ => true
  | .increaseEvents task _ => !config.isSource task
  | .decreaseRemovalBlockers task _ =>
      state.announced task < (state.life.task task).removalBlockers
  | _ => true

namespace State

/-- `hasPendingIterations`, and `notifyCollaboratorHasStarted` if there are
any. -/
def announce (state : State) (source : TaskId) : Lifecycle.System :=
  if (state.taskloopInfo source).hasPendingIterations then
    (state.life.uses source).modifyTask source
      (Lifecycle.Task.increaseRemovalBlockers 1)
  else state.life.uses source

/-- One iteration of the loop over the ready tasks. -/
def scan (config : Config) (state : State) (index : Nat) (cpu : CPU)
    (canMarkAsIdle : Bool) (completeTaskloops : List TaskId) : State :=
  let scanned (hasPendingIterations : Bool) : FIFOScheduler.State :=
    FIFOScheduler.scan config.scheduler state.scheduler index cpu
      canMarkAsIdle completeTaskloops hasPendingIterations
  match state.scheduler.readyTasks with
  | task :: _ =>
      if config.isSource task then
        { state with
          life := state.announce task
          scheduler :=
            scanned (state.taskloopInfo task).hasPendingIterations }
      else { state with scheduler := scanned false }
  | [] => { state with scheduler := scanned false }

/-- `markAsFinished` is called for a complete taskloop. -/
def finish (ndebug : Bool) (state : State) (source : TaskId) :
    Option State :=
  (Lifecycle.step ndebug state.life
    (.finish (state.life.activities.idxOf (.body source)))).map fun life =>
      { state with
        life := life
        finishes :=
          Function.update state.finishes source (state.finishes source + 1) }

/-- `createCollaborator`: the new task becomes a child of the source. -/
def createCollaborator (state : State) (index : Nat)
    (source collaborator : TaskId) (path : List Nat) : State :=
  let info := state.taskloopInfo source
  { state with
    life :=
      ((state.life.uses source).modifyTask source
        (Lifecycle.Task.addChild collaborator)).modifyTask collaborator
          fun _ => { parent := some source, isCreated := true }
    scheduler := state.scheduler.goesOn index []
    taskloopInfo :=
      Function.update state.taskloopInfo source
        { info with
          collaborators := info.collaborators ++ [.requests path] }
    collaborations :=
      Function.update state.collaborations collaborator
        (some { source := source, index := info.collaborators.length }) }

/-- A call of the scheduler goes on. -/
def performs (config : Config) (state : State) (index : Nat)
    (answer : Bool) : FIFOScheduler.Call → Option State
  | .scanReadyTasks cpu canMarkAsIdle completeTaskloops =>
      some (state.scan config index cpu canMarkAsIdle completeTaskloops)
  | .finishTaskloops cpu canMarkAsIdle (taskloop :: rest) shouldRecheck
      assigned seen =>
      (state.finish config.ndebug taskloop).map fun finished =>
        { finished with
          scheduler := state.scheduler.goesOn index
            [.finishTaskloops cpu canMarkAsIdle rest
              (shouldRecheck || answer) assigned seen] }
  | .createCollaborator _ _ => none
  | call =>
      (FIFOScheduler.perform config.scheduler state.scheduler index answer
        call).map fun scheduler => { state with scheduler := scheduler }

/-- `notifyCollaboratorHasFinished`, which ignores the result of the
decrement. -/
def notify (state : State) (collaborator : TaskId)
    (collaboration : Collaboration) : State :=
  { state with
    life :=
      (state.life.uses collaboration.source).modifyTask collaboration.source
        Lifecycle.Task.decreaseRemovalBlockers
    collaborations :=
      Function.update state.collaborations collaborator
        (some { collaboration with hasNotified := true }) }

end State

def step (config : Config) (state : State) : Action → Option State
  | .life action =>
      if mayAct config state action then
        (Lifecycle.step config.ndebug state.life action).map fun life =>
          { state with life := life }
      else none
  | .addReadyTask task hint doGetIdle =>
      let added : FIFOScheduler.State :=
        { state.scheduler with
          calls :=
            state.scheduler.calls ++ [.addReadyTask task hint doGetIdle] }
      if config.isSource task then
        if hint = .unblockedTask then none
        else
          (Lifecycle.step config.ndebug state.life (.start task)).map
            fun life => { state with life := life, scheduler := added }
      else some { state with scheduler := added }
  | .getReadyTask cpu canMarkAsIdle =>
      some
        { state with
          scheduler :=
            { state.scheduler with
              calls :=
                state.scheduler.calls ++
                  [.getReadyTask cpu canMarkAsIdle] } }
  | .perform index answer =>
      state.scheduler.calls[index]?.bind
        (state.performs config index answer)
  | .createCollaborator index collaborator cpu =>
      match state.scheduler.calls[index]? with
      | some (.createCollaborator _ source) =>
          if (state.life.task collaborator).isCreated = false ∧
              collaborator ≠ source ∧
              config.isSource collaborator = false then
            (Taskloop.getPartitionPath config.useDistributionFunction
              (state.taskloopInfo source).partitions.length cpu).map
                (state.createCollaborator index source collaborator)
          else none
      | _ => none
  | .run collaborator =>
      match state.collaborations collaborator with
      | some collaboration =>
          if .body collaborator ∈ state.life.activities then
            (Taskloop.step config.useDistributionFunction
              (state.taskloopInfo collaboration.source)
              (.perform collaboration.index)).map fun info =>
                { state with
                  life := state.life.uses collaboration.source
                  taskloopInfo :=
                    Function.update state.taskloopInfo collaboration.source
                      info }
          else none
      | none => none
  | .notifyCollaboratorHasFinished collaborator =>
      match state.collaborations collaborator with
      | some collaboration =>
          if .body collaborator ∈ state.life.activities ∧
              collaboration.hasNotified = false ∧
              (state.taskloopInfo
                collaboration.source).collaborators[collaboration.index]? =
                some .returned then
            some (state.notify collaborator collaboration)
          else none
      | none => none

def initialState (config : Config) : State where
  life := Lifecycle.initialSystem config.main
  taskloopInfo := fun task =>
    Taskloop.initialized config.partitionCount (config.bounds task)

/-- The counters of the partitions do not overflow, and the steps of the tasks
are permitted. -/
def permits (config : Config) (state : State) : Action → Bool
  | .life (.submit parent child hasWaitClause) =>
      Lifecycle.permits config.ndebug state.life
          (.submit parent child hasWaitClause) &&
        (!config.isSource child ||
          decide ((config.bounds child).setChunksize
            config.partitionCount).Fits)
  | .life action => Lifecycle.permits config.ndebug state.life action
  | .run collaborator =>
      (state.collaborations collaborator).all fun collaboration =>
        Taskloop.permits (state.taskloopInfo collaboration.source)
          (.perform collaboration.index)
  | _ => true

def Permitted (config : Config) (state : State) (action : Action) : Prop :=
  permits config state action = true

instance (config : Config) (state : State) (action : Action) :
    Decidable (Permitted config state action) :=
  inferInstanceAs (Decidable (permits config state action = true))

theorem Permitted.ofLife {config : Config} {state : State}
    {action : Lifecycle.Action}
    (permitted : Permitted config state (.life action)) :
    Lifecycle.Permitted config.ndebug state.life action := by
  cases action with
  | submit parent child hasWaitClause => rfl
  | _ => exact permitted

end Nanos6.Finalization
