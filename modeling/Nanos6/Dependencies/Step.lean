import Nanos6.Dependencies.Operations
import Nanos6.Foundation.LabelledRun

/-!
# The steps of the dependency system

The actions of the tasks and of the runtime threads, and the step function
that performs them.  Any number of tasks can have an operation in progress;
the labels of a run choose which one goes on.
-/

namespace Nanos6

open Foundation

inductive Action where
  /-- `parent` submits the new task `child`. -/
  | submit (parent child : TaskId) (declarations : List AccessDeclaration)
      (mustDelayRelease : Bool)
  /-- A thread starts the body of a ready task. -/
  | start (task : TaskId)
  | taskwait (task : TaskId)
  | release (task : TaskId) (region : DataAccessRegion)
  /-- The body returns. -/
  | finish (task : TaskId)
  /-- All events of a finished task are fulfilled. -/
  | unregister (task : TaskId)
  /-- The operation in progress of a task goes on by one object. -/
  | advance (task : TaskId)
  | bottomMapUpdate (index : Nat)
  | delayedOperation (index : Nat)
  | disposeOrUnblock (index : Nat)
  deriving DecidableEq

/-- A task that can call the runtime: its body runs and none of its operations
is in progress. -/
def Task.canCall (task : Task) : Bool :=
  task.status == .running && task.work.isEmpty && task.registeringChild.isNone

/-- A new task with its accesses; without accesses it is ready at once. -/
def newTask (parent : TaskId) (accesses : IntervalMap DataAccess)
    (mustDelayRelease : Bool) : Task :=
  let withAccesses := !accesses.pieces.isEmpty
  { parent := some parent
    status := if withAccesses then .registering else .registered
    objects := Function.update (fun _ => IntervalMap.empty) .accesses accesses
    counters :=
      if withAccesses then Counters.increasePredecessors 2 {} else {}
    mustDelayRelease := mustDelayRelease
    work :=
      if withAccesses then
        [.linkTaskAccesses 0, .processDelayedOperations, .decreasePredecessors]
      else []
    readyReports := if withAccesses then [] else [.registrationReturn] }

/-- The parent of a new task: one more child, which it may be registering. -/
def Task.addChild (child : TaskId) (accesses : IntervalMap DataAccess)
    (task : Task) : Task :=
  { task with
    counters := task.counters.increaseRemovalBlockingCount
    children := task.children ++ [child]
    registeringChild := if accesses.pieces.isEmpty then none else some child }

/-- `nanos6_submit_task` up to the first critical section of the
registration. -/
def submitTask (system : System) (parent child : TaskId)
    (declarations : List AccessDeclaration) (mustDelayRelease : Bool) :
    Option System :=
  if (system.task parent).canCall &&
      (system.task child).status == .unborn && child != parent then
    (registerDepinfo child declarations).map fun accesses =>
      (system.modifyTask parent (Task.addChild child accesses)).modifyTask
        child fun _ => newTask parent accesses mustDelayRelease
  else
    none

theorem submitTask_eq_some {system next : System} {parent child : TaskId}
    {declarations : List AccessDeclaration} {mustDelayRelease : Bool}
    (submitted : submitTask system parent child declarations
      mustDelayRelease = some next) :
    (system.task parent).canCall = true ∧
      (system.task child).status = .unborn ∧ child ≠ parent ∧
      ∃ accesses, registerDepinfo child declarations = some accesses ∧
        next =
          (system.modifyTask parent
            (Task.addChild child accesses)).modifyTask
              child fun _ => newTask parent accesses mustDelayRelease := by
  unfold submitTask at submitted
  split at submitted
  · rename_i allowed
    simp only [Bool.and_eq_true, beq_iff_eq, bne_iff_ne] at allowed
    obtain ⟨accesses, declared, rfl⟩ := Option.map_eq_some_iff.mp submitted
    exact ⟨allowed.1.1, allowed.1.2, allowed.2, accesses, declared, rfl⟩
  · cases submitted

/-- The end of `registerTaskDataAccesses`. -/
def decreasePredecessors (system : System) (task : TaskId)
    (rest : List Work) : System :=
  let registered :=
    system.modifyTask task fun current =>
      let (counters, ready) := current.counters.decreasePredecessors 2
      { current with
        counters := counters
        status := .registered
        work := rest
        readyReports :=
          current.readyReports ++
            if ready then [.registrationReturn] else [] }
  match (system.task task).parent with
  | none => registered
  | some parent =>
      registered.modifyTask parent fun current =>
        { current with registeringChild := none }

/-- `nanos6_taskwait`; the fast check returns without blocking.  While the
bottom map is being updated the countdown may already show a removal that the
source performs after the update. -/
def enterTaskwait (system : System) (task : TaskId) : Option System :=
  let current := system.task task
  if !current.canCall then
    none
  else if current.counters.countdownToBeWokenUp == 1 then
    if system.updatesBottomMap task then none else some system
  else
    some <| system.modifyTask task fun current =>
      { current with
        status := .enteringTaskwait
        work := [.enterTaskwait, .processDelayedOperations, .markAsBlocked] }

def releaseAccessRegion (system : System) (task : TaskId)
    (region : DataAccessRegion) : Option System :=
  if (system.task task).canCall then
    some <| system.setWork task
      [.finalizeAccesses region, .processDelayedOperations]
  else
    none

/-- The start of `markAsFinished`. -/
def markAsFinished (system : System) (task : TaskId) : Option System :=
  let current := system.task task
  if !current.canCall then
    none
  else if current.mustDelayRelease then
    some <| system.modifyTask task fun current =>
      { current with
        status := .finishing
        work :=
          [.enterTaskwait, .processDelayedOperations, .completeWaitClause] }
  else
    some <| system.modifyTask task fun current =>
      { current with status := .finished }

def unregisterTaskDataAccesses (system : System) (task : TaskId) :
    Option System :=
  let current := system.task task
  if current.status == .finished then
    some <| system.modifyTask task fun current =>
      { current with
        status := .releasing
        work :=
          [.createTopLevelSink 0, .finalizeAccesses current.accessBounds,
            .processDelayedOperations, .markAsReleased] }
  else
    none

/-- Go on with the operation in progress of a task.  The bottom-map updates
that it performs come first, and so do those that hold its lock. -/
def advance (system : System) (task : TaskId) : Option System :=
  let current := system.task task
  if system.isUpdating task || system.updatesBottomMap task then
    none
  else
    match current.work with
    | [] => none
    | .linkTaskAccesses low :: rest =>
        some (linkTaskAccesses system task low rest)
    | .replaceMatching progress :: rest =>
        match current.parent with
        | none => none
        | some parent =>
            replaceMatchingInBottomMapLinkAndPropagate system task parent
              progress rest
    | .decreasePredecessors :: rest =>
        some (decreasePredecessors system task rest)
    | .enterTaskwait :: rest => some (handleEnterTaskwait system task rest)
    | .createTaskwait low :: rest =>
        some (createTaskwait system task low rest)
    | .createTopLevelSink low :: rest =>
        some (createTopLevelSink system task low rest)
    | .linkToTaskwait previous region :: rest =>
        linkToTaskwait system task previous region rest
    | .finalizeFragments low :: rest =>
        some (finalizeFragments system task low rest)
    | .finalizeAccesses region :: rest =>
        some (finalizeAccess system task region rest)
    | .finalizeFragmentsOf region :: rest =>
        some (finalizeFragmentsOf system task region rest)
    | .processDelayedOperations :: rest =>
        if system.delayedOperations.any fun delayed => delayed.1 == task then
          none
        else
          some (system.setWork task rest)
    | .markAsBlocked :: rest => some (markAsBlocked system task rest)
    | .exitTaskwait :: rest => some (exitTaskwait system task rest)
    | .completeWaitClause :: rest =>
        some (completeWaitClause system task rest)
    | .markAsReleased :: rest => some (markAsReleased system task rest)

/-- What the operation in progress of a task can do next, by the loop that it
is in. -/
inductive Advances (system : System) (task : TaskId) :
    Work → List Work → System → Prop
  | linkTaskAccesses (low : Nat) (rest : List Work) :
      Advances system task (.linkTaskAccesses low) rest
        (linkTaskAccesses system task low rest)
  | replaceMatching {progress : LinkProgress} {rest : List Work}
      {parent : TaskId} {next : System} :
      (system.task task).parent = some parent →
      replaceMatchingInBottomMapLinkAndPropagate system task parent progress
        rest = some next →
      Advances system task (.replaceMatching progress) rest next
  | decreasePredecessors (rest : List Work) :
      Advances system task .decreasePredecessors rest
        (decreasePredecessors system task rest)
  | enterTaskwait (rest : List Work) :
      Advances system task .enterTaskwait rest
        (handleEnterTaskwait system task rest)
  | createTaskwait (low : Nat) (rest : List Work) :
      Advances system task (.createTaskwait low) rest
        (createTaskwait system task low rest)
  | createTopLevelSink (low : Nat) (rest : List Work) :
      Advances system task (.createTopLevelSink low) rest
        (createTopLevelSink system task low rest)
  | linkToTaskwait {previous : DataAccessLink} {region : DataAccessRegion}
      {rest : List Work} {next : System} :
      linkToTaskwait system task previous region rest = some next →
      Advances system task (.linkToTaskwait previous region) rest next
  | finalizeFragments (low : Nat) (rest : List Work) :
      Advances system task (.finalizeFragments low) rest
        (finalizeFragments system task low rest)
  | finalizeAccesses (region : DataAccessRegion) (rest : List Work) :
      Advances system task (.finalizeAccesses region) rest
        (finalizeAccess system task region rest)
  | finalizeFragmentsOf (region : DataAccessRegion) (rest : List Work) :
      Advances system task (.finalizeFragmentsOf region) rest
        (finalizeFragmentsOf system task region rest)
  | processDelayedOperations (rest : List Work) :
      (system.delayedOperations.any fun delayed => delayed.1 == task) =
        false →
      Advances system task .processDelayedOperations rest
        (system.setWork task rest)
  | markAsBlocked (rest : List Work) :
      Advances system task .markAsBlocked rest
        (markAsBlocked system task rest)
  | exitTaskwait (rest : List Work) :
      Advances system task .exitTaskwait rest (exitTaskwait system task rest)
  | completeWaitClause (rest : List Work) :
      Advances system task .completeWaitClause rest
        (completeWaitClause system task rest)
  | markAsReleased (rest : List Work) :
      Advances system task .markAsReleased rest
        (markAsReleased system task rest)

theorem advances_of_advance {system next : System} {task : TaskId}
    (advanced : advance system task = some next) :
    ∃ head rest,
      (system.task task).work = head :: rest ∧
        system.isUpdating task = false ∧
        system.updatesBottomMap task = false ∧
        Advances system task head rest next := by
  unfold advance at advanced
  dsimp only at advanced
  split at advanced
  · cases advanced
  · rename_i free
    simp only [Bool.or_eq_true, not_or, Bool.not_eq_true] at free
    cases working : (system.task task).work with
    | nil =>
        rw [working] at advanced
        cases advanced
    | cons head rest =>
        rw [working] at advanced
        refine ⟨head, rest, rfl, free.1, free.2, ?_⟩
        cases head with
        | linkTaskAccesses low =>
            cases advanced
            exact .linkTaskAccesses low rest
        | replaceMatching progress =>
            dsimp only at advanced
            split at advanced
            · cases advanced
            · exact .replaceMatching ‹_› advanced
        | decreasePredecessors =>
            cases advanced
            exact .decreasePredecessors rest
        | enterTaskwait =>
            cases advanced
            exact .enterTaskwait rest
        | createTaskwait low =>
            cases advanced
            exact .createTaskwait low rest
        | createTopLevelSink low =>
            cases advanced
            exact .createTopLevelSink low rest
        | linkToTaskwait previous region => exact .linkToTaskwait advanced
        | finalizeFragments low =>
            cases advanced
            exact .finalizeFragments low rest
        | finalizeAccesses region =>
            cases advanced
            exact .finalizeAccesses region rest
        | finalizeFragmentsOf region =>
            cases advanced
            exact .finalizeFragmentsOf region rest
        | processDelayedOperations =>
            dsimp only at advanced
            split at advanced
            · cases advanced
            · rename_i none
              cases advanced
              exact .processDelayedOperations rest
                (Bool.eq_false_iff.mpr none)
        | markAsBlocked =>
            cases advanced
            exact .markAsBlocked rest
        | exitTaskwait =>
            cases advanced
            exact .exitTaskwait rest
        | completeWaitClause =>
            cases advanced
            exact .completeWaitClause rest
        | markAsReleased =>
            cases advanced
            exact .markAsReleased rest

def step (system : System) : Action → Option System
  | .submit parent child declarations mustDelayRelease =>
      submitTask system parent child declarations mustDelayRelease
  | .start task =>
      let current := system.task task
      if current.status == .registered && !current.readyReports.isEmpty then
        some <| system.modifyTask task fun current =>
          { current with status := .running }
      else
        none
  | .taskwait task => enterTaskwait system task
  | .release task region => releaseAccessRegion system task region
  | .finish task => markAsFinished system task
  | .unregister task => unregisterTaskDataAccesses system task
  | .advance task => advance system task
  | .bottomMapUpdate index => processBottomMapUpdate system index
  | .delayedOperation index => processUpdateOperation system index
  | .disposeOrUnblock index => disposeOrUnblockTask system index

/-- The state in which only the main task exists; it has no accesses, so it was
ready at once, and it runs. -/
def initialSystem (main : TaskId) : System where
  task := fun task =>
    if task = main then
      { status := .running, readyReports := [.registrationReturn] }
    else {}

/-- The states reached by runs whose steps all satisfy `allowed`. -/
def Reaches (allowed : System → Action → Prop) (main : TaskId)
    (system : System) : Prop :=
  Run step allowed (initialSystem main) system

/-- No assertion has failed so far; the source stops the program when one
does. -/
def System.Asserted (system : System) : Prop :=
  system.assertionFailed = false

instance : DecidablePred System.Asserted :=
  fun system => inferInstanceAs (Decidable (system.assertionFailed = false))

/-- A list of actions that can be executed leads to a reachable state. -/
theorem reaches_of_execute (good : System → Prop) [DecidablePred good]
    (main : TaskId) (actions : List Action) (holds : System → Prop)
    [DecidablePred holds]
    (executed :
      (execute step good (initialSystem main) actions).any
        (fun system => decide (holds system)) = true) :
    ∃ system, Reaches (Leads step good) main system ∧ holds system := by
  obtain ⟨system, done, satisfied⟩ := (Option.any_eq_true _ _).mp executed
  exact ⟨system, run_of_execute actions (.refl _) done,
    of_decide_eq_true satisfied⟩

end Nanos6
