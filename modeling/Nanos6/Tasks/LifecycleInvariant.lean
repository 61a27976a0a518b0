import Mathlib.Data.List.Nodup
import Nanos6.Tasks.Lifecycle

/-!
# At most one thread drives a task

The life of a task passes through stages.  In every stage at most one thread
drives the task, and a task that no thread drives has something left to wait
for.  Both counters are the sums of what they count, so only one thread can see
the last of it go.
-/

namespace Nanos6.Lifecycle

open Foundation

/-! ## Stages -/

inductive Stage where
  | young
  | delayed
  | restoring
  | restored
  | awaiting
  | fulfilled
  | unregistered
  | unlinked
  | freed
  deriving DecidableEq

namespace Stage

def isFinished (stage : Stage) : Bool :=
  stage != .young

/-- The wait clause of the task is being waited for or completed. -/
def waits : Stage → Bool
  | .delayed => true
  | .restoring => true
  | _ => false

def delays (hasWaitClause : Bool) : Stage → Bool
  | .young => hasWaitClause
  | .delayed => true
  | _ => false

def isPastWait : Stage → Bool
  | .young => false
  | .delayed => false
  | _ => true

def blocksRelease : Stage → Bool
  | .young => true
  | .delayed => true
  | .restoring => true
  | .restored => true
  | _ => false

def isFulfilled : Stage → Bool
  | .fulfilled => true
  | .unregistered => true
  | .unlinked => true
  | .freed => true
  | _ => false

def isUnregistered : Stage → Bool
  | .unregistered => true
  | .unlinked => true
  | .freed => true
  | _ => false

def isUnlinked : Stage → Bool
  | .unlinked => true
  | .freed => true
  | _ => false

end Stage

/-- The fields of a task in a stage, and its counters. -/
structure Task.IsAt (task : Task) (stage : Stage) (undisposed : Nat) :
    Prop where
  created : task.isCreated = true
  started : stage ≠ .young → task.isStarted = true
  finished : task.hasFinished = stage.isFinished
  delays : task.mustDelayRelease = stage.delays task.hasWaitClause
  waits : stage.waits = true → task.hasWaitClause = true
  blocksRelease : task.blocksRelease = stage.blocksRelease
  unregistrations : task.unregistrations = stage.isUnregistered.toNat
  unlinked : task.isUnlinked = stage.isUnlinked
  isFreed : task.isFreed = (stage == .freed)
  frees : task.frees = (stage == .freed).toNat
  childless : stage.isPastWait = true → task.hasWaitClause = true →
    undisposed = 0
  events : stage.isFulfilled = true → task.events = 0
  awaits : stage = .awaiting → 0 < task.events
  countdown :
    task.countdownToBeWokenUp =
      task.blocksRemoval.toNat + undisposed + task.removalBlockers
  release :
    task.countdownToRelease = task.blocksRelease.toNat + task.events
  fits : task.countdownToRelease < 2 ^ 31

namespace Task.IsAt

variable {task : Task} {stage : Stage} {undisposed : Nat}

theorem decreaseRemovalBlockingCount (here : task.IsAt stage undisposed)
    (blocks : task.blocksRemoval = true) :
    task.decreaseRemovalBlockingCount.IsAt stage undisposed :=
  { here with
    countdown := by
      have countdown := here.countdown
      rw [blocks] at countdown
      simp only [Task.decreaseRemovalBlockingCount, Bool.toNat_true,
        Bool.toNat_false] at countdown ⊢
      omega }

theorem increaseRemovalBlockingCount (here : task.IsAt stage undisposed)
    (unblocked : task.blocksRemoval = false) :
    task.increaseRemovalBlockingCount.IsAt stage undisposed :=
  { here with
    countdown := by
      have countdown := here.countdown
      rw [unblocked] at countdown
      simp only [Task.increaseRemovalBlockingCount, Bool.toNat_true,
        Bool.toNat_false] at countdown ⊢
      omega }

theorem increaseRemovalBlockers (here : task.IsAt stage undisposed)
    (amount : Nat) :
    (task.increaseRemovalBlockers amount).IsAt stage undisposed :=
  { here with
    countdown := by
      have countdown := here.countdown
      simp only [Task.increaseRemovalBlockers] at countdown ⊢
      push_cast
      omega }

theorem decreaseRemovalBlockers (here : task.IsAt stage undisposed)
    (some : 0 < task.removalBlockers) :
    task.decreaseRemovalBlockers.IsAt stage undisposed :=
  { here with
    countdown := by
      have countdown := here.countdown
      simp only [Task.decreaseRemovalBlockers] at countdown ⊢
      omega }

theorem addChild (here : task.IsAt stage undisposed)
    (early : stage.isPastWait = false) (child : TaskId) :
    (task.addChild child).IsAt stage (undisposed + 1) :=
  { here with
    childless := by
      intro past
      rw [early] at past
      cases past
    countdown := by
      have countdown := here.countdown
      simp only [Task.addChild] at countdown ⊢
      push_cast
      omega }

theorem removeChild (here : task.IsAt stage (undisposed + 1)) :
    task.removeChild.IsAt stage undisposed :=
  { here with
    childless := by
      intro past waits
      cases here.childless past waits
    countdown := by
      have countdown := here.countdown
      simp only [Task.removeChild] at countdown ⊢
      push_cast at countdown
      omega }

/-- The counter has room for more events. -/
theorem increaseEvents (here : task.IsAt stage undisposed)
    (young : stage = .young) {amount : Nat}
    (room : task.countdownToRelease + amount < 2 ^ 31) :
    (task.increaseEvents amount).IsAt stage undisposed :=
  { here with
    events := by
      intro fulfilled
      rw [young] at fulfilled
      cases fulfilled
    awaits := by
      intro awaits
      rw [young] at awaits
      cases awaits
    release := by
      have release := here.release
      simp only [Task.increaseEvents, wrapInt]
      push_cast
      omega
    fits := by
      have release := here.release
      simp only [Task.increaseEvents, wrapInt]
      omega }

/-- Some events are left, or the task has not come to its end. -/
theorem decreaseEvents (here : task.IsAt stage undisposed) {amount : Nat}
    (enough : amount ≤ task.events)
    (some : stage = .awaiting → amount < task.events) :
    (task.decreaseEvents amount).IsAt stage undisposed :=
  { here with
    events := by
      intro fulfilled
      have none := here.events fulfilled
      simp only [Task.decreaseEvents]
      omega
    awaits := by
      intro awaits
      have left := some awaits
      simp only [Task.decreaseEvents]
      omega
    release := by
      have release := here.release
      have fits := here.fits
      simp only [Task.decreaseEvents, wrapInt]
      omega
    fits := by
      have release := here.release
      have fits := here.fits
      simp only [Task.decreaseEvents, wrapInt]
      omega }

/-- The last event is fulfilled. -/
theorem fulfill (here : task.IsAt .awaiting undisposed) :
    (task.decreaseEvents task.events).IsAt .fulfilled undisposed :=
  { here with
    started := fun _ => here.started (by simp)
    waits := by
      intro waits
      cases waits
    events := by
      intro _
      simp [Task.decreaseEvents]
    awaits := by
      intro awaits
      cases awaits
    release := by
      have release := here.release
      have fits := here.fits
      simp only [Task.decreaseEvents, wrapInt]
      omega
    fits := by
      have release := here.release
      have fits := here.fits
      simp only [Task.decreaseEvents, wrapInt]
      omega }

theorem finish (here : task.IsAt .young undisposed)
    (started : task.isStarted = true) :
    { task with hasFinished := true }.IsAt
      (if task.mustDelayRelease then .delayed else .restored) undisposed := by
  have delays := here.delays
  cases waits : task.mustDelayRelease with
  | true =>
      exact
        { here with
          started := fun _ => started
          finished := rfl
          delays := rfl
          waits := fun _ => by simpa [Stage.delays, waits] using delays.symm
          childless := fun past => by cases past
          awaits := fun awaits => by cases awaits }
  | false =>
      exact
        { here with
          started := fun _ => started
          finished := rfl
          delays := rfl
          waits := fun waits => by cases waits
          childless := by
            intro _ hasWait
            rw [waits] at delays
            simp only [Stage.delays] at delays
            rw [← delays] at hasWait
            cases hasWait
          awaits := fun awaits => by cases awaits }

theorem completeDelayedRelease (here : task.IsAt .delayed 0) :
    { task with mustDelayRelease := false }.IsAt .restoring 0 :=
  { here with
    started := fun _ => here.started (by simp)
    delays := rfl
    childless := fun _ _ => rfl
    awaits := fun awaits => by cases awaits }

theorem restore (here : task.IsAt .restoring undisposed) :
    task.IsAt .restored undisposed :=
  { here with
    started := fun _ => here.started (by simp)
    waits := fun waits => by cases waits
    awaits := fun awaits => by cases awaits }

theorem decreaseReleaseCount (here : task.IsAt .restored undisposed) :
    task.decreaseReleaseCount.IsAt
      (if task.events = 0 then .fulfilled else .awaiting) undisposed := by
  have release := here.release
  have fits := here.fits
  have blocks := here.blocksRelease
  split
  · rename_i none
    exact
      { here with
        started := fun _ => here.started (by simp)
        waits := fun waits => by cases waits
        blocksRelease := rfl
        events := fun _ => none
        awaits := fun awaits => by cases awaits
        release := by
          rw [blocks] at release
          simp only [Task.decreaseReleaseCount, wrapInt, Stage.blocksRelease,
            Bool.toNat_true, Bool.toNat_false] at release ⊢
          omega
        fits := by
          simp only [Task.decreaseReleaseCount, wrapInt]
          omega }
  · rename_i some
    exact
      { here with
        started := fun _ => here.started (by simp)
        waits := fun waits => by cases waits
        blocksRelease := rfl
        events := fun fulfilled => by cases fulfilled
        awaits := fun _ => Nat.pos_of_ne_zero some
        release := by
          rw [blocks] at release
          simp only [Task.decreaseReleaseCount, wrapInt, Stage.blocksRelease,
            Bool.toNat_true, Bool.toNat_false] at release ⊢
          omega
        fits := by
          simp only [Task.decreaseReleaseCount, wrapInt]
          omega }

theorem unregister (here : task.IsAt .fulfilled undisposed) :
    { task with unregistrations := task.unregistrations + 1 }.IsAt
      .unregistered undisposed :=
  { here with
    started := fun _ => here.started (by simp)
    unregistrations := by
      have none := here.unregistrations
      simp only [Stage.isUnregistered, Bool.toNat_false] at none
      simp [none, Stage.isUnregistered]
    awaits := fun awaits => by cases awaits }

theorem unlink (here : task.IsAt .unregistered undisposed) :
    { task with isUnlinked := true }.IsAt .unlinked undisposed :=
  { here with
    started := fun _ => here.started (by simp)
    unlinked := rfl
    awaits := fun awaits => by cases awaits }

theorem free (here : task.IsAt .unlinked undisposed) :
    { task with isFreed := true, frees := task.frees + 1 }.IsAt .freed
      undisposed :=
  { here with
    started := fun _ => here.started (by simp)
    isFreed := rfl
    frees := by
      have none : task.frees = 0 := here.frees
      simp [none]
    awaits := fun awaits => by cases awaits }

end Task.IsAt

/-- Nothing is left that blocks the removal, the task itself apart. -/
def Task.isOver (undisposed : Nat) (task : Task) : Bool :=
  undisposed + task.removalBlockers == 0

/-- The task whose end or taskwait a thread looks at. -/
def Activity.task : Activity → TaskId
  | .body task => task
  | .markAsBlocked task => task
  | .markAsUnblocked task => task
  | .markAsFinished task => task
  | .delayRelease task => task
  | .completeDelayedRelease task _ => task
  | .handleExitTaskwait task _ => task
  | .increaseRemovalBlockingCount task _ => task
  | .decreaseReleaseCount task _ => task
  | .unregisterTaskDataAccesses task _ => task
  | .markAsReleased task _ => task
  | .assertReleased task _ _ => task
  | .disposeOrUnblockTask task _ => task
  | .unlinkFromParent task _ => task
  | .free task _ _ => task

/-- The thread is the one that has to act for the task.  The assertion at the
end of a failed release is the only point at which a thread looks at a task that
it does not drive. -/
def Activity.drives (task : TaskId) : Activity → Bool
  | .assertReleased other readyOrDisposable _ =>
      readyOrDisposable && task == other
  | .free other next _ => task == other || next == some task
  | activity => task == activity.task

/-- `disposeOrUnblockTask` has been called for the task. -/
def Stage.isCalled (stage : Stage) (blocks started isOver : Bool) : Bool :=
  !blocks && isOver &&
    (stage == .young && started || stage == .delayed ||
      stage == .unregistered)

/-- The stage in which a thread drives the task. -/
def Activity.fits (task : TaskId) (stage : Stage)
    (blocks started isOver : Bool) : Activity → Bool
  | .body _ => stage == .young && blocks && started
  | .markAsBlocked _ => stage == .young && blocks && started
  | .markAsUnblocked _ => stage == .young && !blocks && started && isOver
  | .markAsFinished _ => stage == .young && blocks && started
  | .delayRelease _ => stage == .delayed && blocks
  | .completeDelayedRelease _ _ => stage == .delayed && !blocks && isOver
  | .handleExitTaskwait _ _ => stage == .restoring && !blocks && isOver
  | .increaseRemovalBlockingCount _ _ => stage == .restoring && !blocks
  | .decreaseReleaseCount _ _ => stage == .restored && blocks
  | .unregisterTaskDataAccesses _ _ => stage == .fulfilled && blocks
  | .markAsReleased _ _ => stage == .unregistered && blocks
  | .assertReleased _ _ _ => stage == .unregistered && !blocks && isOver
  | .disposeOrUnblockTask _ _ => stage.isCalled blocks started isOver
  | .unlinkFromParent _ _ => stage == .unregistered && !blocks && isOver
  | .free other next _ =>
      if other = task then
        stage == .unlinked && !blocks && isOver && next != some task
      else stage.isCalled blocks started isOver

/-- A task that no thread drives waits for something, or is gone. -/
def Stage.rests (stage : Stage) (blocks started isOver : Bool) : Bool :=
  match stage with
  | .young => (!started && blocks) || (started && !blocks && !isOver)
  | .delayed => !blocks && !isOver
  | .awaiting => blocks
  | .unregistered => !blocks && !isOver
  | .freed => !blocks && isOver
  | _ => false

/-- A task, its number of undisposed children and the threads that drive it fit
together. -/
def Stands (drivers : List Activity) (id : TaskId) (undisposed : Nat)
    (task : Task) : Prop :=
  ∃ stage, task.IsAt stage undisposed ∧
    ((drivers = [] ∧
        stage.rests task.blocksRemoval task.isStarted
          (task.isOver undisposed) = true) ∨
      ∃ driver, drivers = [driver] ∧
        driver.fits id stage task.blocksRemoval task.isStarted
          (task.isOver undisposed) = true)

namespace System

def drivers (system : System) (task : TaskId) : List Activity :=
  system.activities.filter (Activity.drives task)

/-- The children that have not been removed from a task. -/
def undisposed (system : System) (task : TaskId) : Nat :=
  (system.task task).children.countP fun child =>
    !(system.task child).isUnlinked

theorem task_modifyTask (system : System) (task other : TaskId)
    (change : Task → Task) :
    (system.modifyTask task change).task other =
      if other = task then change (system.task task)
      else system.task other := by
  by_cases same : other = task
  · subst same
    simp [modifyTask]
  · simp [modifyTask, same]

@[simp]
theorem task_uses (system : System) (task : TaskId) :
    (system.uses task).task = system.task :=
  rfl

@[simp]
theorem task_goesOn (system : System) (index : Nat) (next : List Activity) :
    (system.goesOn index next).task = system.task :=
  rfl

@[simp]
theorem task_starts (system : System) (activity : Activity) :
    (system.starts activity).task = system.task :=
  rfl

theorem undisposed_congr {system next : System} {task : TaskId}
    (children : (next.task task).children = (system.task task).children)
    (unlinked : ∀ child ∈ (system.task task).children,
      (next.task child).isUnlinked = (system.task child).isUnlinked) :
    next.undisposed task = system.undisposed task := by
  unfold undisposed
  rw [children]
  refine List.countP_congr fun child member => ?_
  rw [unlinked child member]

end System

/-- A task that has not been created is as it was at the start. -/
structure Task.IsPristine (task : Task) : Prop where
  parent : task.parent = none
  children : task.children = []
  finished : task.hasFinished = false
  unregistrations : task.unregistrations = 0
  frees : task.frees = 0
  isFreed : task.isFreed = false
  countdown : task.countdownToBeWokenUp = 1
  release : task.countdownToRelease = 1
  blockers : task.removalBlockers = 0
  events : task.events = 0

structure Inv (system : System) : Prop where
  mem_children : ∀ task parent,
    task ∈ (system.task parent).children ↔
      (system.task task).parent = some parent
  nodup : ∀ task, (system.task task).children.Nodup
  parent_ne : ∀ task, (system.task task).parent ≠ some task
  stands : ∀ task, (system.task task).isCreated = true →
    Stands (system.drivers task) task (system.undisposed task)
      (system.task task)
  pristine : ∀ task, (system.task task).isCreated = false →
    system.drivers task = [] ∧ (system.task task).IsPristine
  unused : system.usedAfterFree = false

theorem Activity.fits_ne_freed {activity : Activity} {task : TaskId}
    {stage : Stage} {blocks started isOver : Bool}
    (fits : activity.fits task stage blocks started isOver = true) :
    stage ≠ .freed := by
  rintro rfl
  cases activity <;> simp [Activity.fits, Stage.isCalled] at fits

namespace Inv

variable {system : System} {task : TaskId} {index : Nat} {activity : Activity}

theorem drivers_goesOn (system : System) (index : Nat) (next : List Activity)
    (task : TaskId) :
    (system.goesOn index next).drivers task =
      (system.activities.take index).filter (Activity.drives task) ++
        next.filter (Activity.drives task) ++
        (system.activities.drop (index + 1)).filter
          (Activity.drives task) := by
  simp [System.drivers, System.goesOn, List.filter_append]

theorem drivers_split (found : system.activities[index]? = some activity)
    (task : TaskId) :
    system.drivers task =
      (system.activities.take index).filter (Activity.drives task) ++
        [activity].filter (Activity.drives task) ++
        (system.activities.drop (index + 1)).filter
          (Activity.drives task) := by
  obtain ⟨bound, here⟩ := List.getElem?_eq_some_iff.mp found
  have split : system.activities =
      system.activities.take index ++ [activity] ++
        system.activities.drop (index + 1) := by
    rw [← here, List.append_assoc, List.singleton_append,
      List.getElem_cons_drop, List.take_append_drop]
  unfold System.drivers
  rw [← List.filter_append, ← List.filter_append, ← split]

/-- A step that creates no task. -/
theorem keepsFamily (inv : Inv system) {next : System}
    (same : ∀ other,
      (next.task other).parent = (system.task other).parent ∧
        (next.task other).children = (system.task other).children ∧
        (next.task other).isCreated = (system.task other).isCreated)
    (stands : ∀ other, (system.task other).isCreated = true →
      Stands (next.drivers other) other (next.undisposed other)
        (next.task other))
    (pristine : ∀ other, (system.task other).isCreated = false →
      next.drivers other = system.drivers other ∧
        next.task other = system.task other)
    (unused : next.usedAfterFree = false) : Inv next where
  mem_children := by
    intro other registrar
    rw [(same registrar).2.1, (same other).1]
    exact inv.mem_children other registrar
  nodup := by
    intro other
    rw [(same other).2.1]
    exact inv.nodup other
  parent_ne := by
    intro other
    rw [(same other).1]
    exact inv.parent_ne other
  stands := by
    intro other created
    rw [(same other).2.2] at created
    exact stands other created
  pristine := by
    intro other absent
    rw [(same other).2.2] at absent
    rw [(pristine other absent).1, (pristine other absent).2]
    exact inv.pristine other absent
  unused := unused

/-- A thread that drives a task is the only one. -/
theorem driven (inv : Inv system)
    (found : system.activities[index]? = some activity)
    (drives : activity.drives task = true) :
    ∃ stage, (system.task task).IsAt stage (system.undisposed task) ∧
      activity.fits task stage (system.task task).blocksRemoval
        (system.task task).isStarted
        ((system.task task).isOver (system.undisposed task)) = true ∧
      ∀ next, (system.goesOn index next).drivers task =
        next.filter (Activity.drives task) := by
  have split := drivers_split found task
  rw [List.filter_cons_of_pos drives, List.filter_nil] at split
  have created : (system.task task).isCreated = true := by
    by_contra absent
    have none := (inv.pristine task (Bool.eq_false_iff.mpr absent)).1
    rw [none] at split
    simp at split
  obtain ⟨stage, at_stage, rests | ⟨driver, only, fits⟩⟩ :=
    inv.stands task created
  · rw [rests.1] at split
    simp at split
  · rw [only] at split
    have lengths := congrArg List.length split
    simp only [List.length_append, List.length_singleton] at lengths
    have before := List.eq_nil_of_length_eq_zero
      (by omega : ((system.activities.take index).filter
        (Activity.drives task)).length = 0)
    have after := List.eq_nil_of_length_eq_zero
      (by omega : ((system.activities.drop (index + 1)).filter
        (Activity.drives task)).length = 0)
    rw [before, after] at split
    simp only [List.nil_append, List.append_nil,
      List.cons.injEq, and_true] at split
    subst split
    refine ⟨stage, at_stage, fits, fun next => ?_⟩
    rw [drivers_goesOn, before, after]
    simp

theorem drivers_other (found : system.activities[index]? = some activity)
    {other : TaskId} (notDriven : activity.drives other = false)
    {next : List Activity}
    (none : next.filter (Activity.drives other) = []) :
    (system.goesOn index next).drivers other = system.drivers other := by
  rw [drivers_goesOn, drivers_split found, none,
    List.filter_cons_of_neg (by rw [notDriven]; simp), List.filter_nil]

/-- The thread that drives a task goes on with it and changes nothing else. -/
theorem goesOn (inv : Inv system)
    (found : system.activities[index]? = some activity)
    (drives : ∀ other, activity.drives other = true ↔ other = task)
    (change : Task → Task)
    (parent : (change (system.task task)).parent = (system.task task).parent)
    (children :
      (change (system.task task)).children = (system.task task).children)
    (unlinked :
      (change (system.task task)).isUnlinked = (system.task task).isUnlinked)
    (created :
      (change (system.task task)).isCreated = (system.task task).isCreated)
    {next : List Activity}
    (nextDrives : ∀ other, other ≠ task →
      next.filter (Activity.drives other) = [])
    (stands : ∀ stage, (system.task task).IsAt stage (system.undisposed task) →
      activity.fits task stage (system.task task).blocksRemoval
        (system.task task).isStarted
        ((system.task task).isOver (system.undisposed task)) = true →
      Stands (next.filter (Activity.drives task)) task
        (system.undisposed task) (change (system.task task))) :
    Inv (((system.uses task).modifyTask task change).goesOn index next) := by
  obtain ⟨stage, at_stage, fits, drivers⟩ :=
    inv.driven found ((drives task).mpr rfl)
  obtain ⟨result, resultIs⟩ : ∃ result, result =
      ((system.uses task).modifyTask task change).goesOn index next :=
    ⟨_, rfl⟩
  rw [← resultIs]
  have tasks : ∀ other, result.task other =
      if other = task then change (system.task task)
      else system.task other := by
    intro other
    rw [resultIs, System.task_goesOn, System.task_modifyTask,
      System.task_uses]
  have same : ∀ other, (result.task other).parent =
      (system.task other).parent ∧
      (result.task other).children = (system.task other).children ∧
      (result.task other).isUnlinked = (system.task other).isUnlinked ∧
      (result.task other).isCreated = (system.task other).isCreated := by
    intro other
    rw [tasks]
    split
    · rename_i isTask
      subst isTask
      exact ⟨parent, children, unlinked, created⟩
    · exact ⟨rfl, rfl, rfl, rfl⟩
  have undisposed : ∀ other,
      result.undisposed other = system.undisposed other := fun other =>
    System.undisposed_congr (same other).2.1 fun child _ => (same child).2.2.1
  have activities : result.activities =
      (system.goesOn index next).activities := by
    rw [resultIs]
    rfl
  have resultDrivers : ∀ other, result.drivers other =
      (system.goesOn index next).drivers other := by
    intro other
    unfold System.drivers
    rw [activities]
  have others : ∀ other, other ≠ task →
      result.drivers other = system.drivers other := by
    intro other differ
    rw [resultDrivers]
    refine drivers_other found ?_ (nextDrives other differ)
    rw [Bool.eq_false_iff]
    exact fun driven => differ ((drives other).mp driven)
  refine inv.keepsFamily
    (fun other => ⟨(same other).1, (same other).2.1, (same other).2.2.2⟩)
    ?_ ?_ ?_
  · intro other isCreated
    rw [undisposed]
    by_cases isTask : other = task
    · subst isTask
      rw [resultDrivers, drivers, tasks, if_pos rfl]
      exact stands stage at_stage fits
    · rw [others other isTask, tasks, if_neg isTask]
      exact inv.stands other isCreated
  · intro other absent
    have notTask : other ≠ task := by
      rintro rfl
      rw [at_stage.created] at absent
      cases absent
    rw [tasks, if_neg notTask]
    exact ⟨others other notTask, rfl⟩
  · rw [resultIs]
    change (system.usedAfterFree || (system.task task).isFreed) = false
    rw [inv.unused, at_stage.isFreed]
    simpa using Activity.fits_ne_freed fits

/-! ## What the threads do -/

theorem isOver_iff {undisposed : Nat} {task : Task} :
    task.isOver undisposed = true ↔
      undisposed = 0 ∧ task.removalBlockers = 0 := by
  simp [Task.isOver]

/-- Without the part of the task itself, the countdown is zero exactly when
nothing else is left. -/
theorem countdown_eq_zero {undisposed : Nat} {task : Task} {stage : Stage}
    (here : task.IsAt stage undisposed)
    (unblocked : task.blocksRemoval = false) :
    (task.countdownToBeWokenUp == 0) = task.isOver undisposed := by
  have countdown := here.countdown
  rw [unblocked] at countdown
  simp only [Bool.toNat_false] at countdown
  rw [Bool.eq_iff_iff, beq_iff_eq, isOver_iff, countdown]
  omega

/-- A task gives its own part up, and the thread goes on when nothing else is
left. -/
theorem stands_decrease {task : Task} {id : TaskId} {stage : Stage}
    {undisposed : Nat} (here : task.IsAt stage undisposed)
    (blocks : task.blocksRemoval = true)
    (started : stage = .young → task.isStarted = true)
    (resting : stage = .young ∨ stage = .delayed ∨ stage = .unregistered)
    {next : List Activity}
    (isOver : task.decreaseRemovalBlockingCount.isOver undisposed = true →
      ∃ driver, next = [driver] ∧
        driver.fits id stage false task.isStarted true = true)
    (waits : task.decreaseRemovalBlockingCount.isOver undisposed = false →
      next = []) :
    Stands next id undisposed task.decreaseRemovalBlockingCount := by
  refine ⟨stage, here.decreaseRemovalBlockingCount blocks, ?_⟩
  cases done : task.decreaseRemovalBlockingCount.isOver undisposed with
  | true =>
      obtain ⟨driver, only, fits⟩ := isOver done
      exact Or.inr ⟨driver, only, fits⟩
  | false =>
      refine Or.inl ⟨waits done, ?_⟩
      rcases resting with young | rest | rest
      · simp [young, Stage.rests, Task.decreaseRemovalBlockingCount,
          started young]
      · simp [rest, Stage.rests, Task.decreaseRemovalBlockingCount]
      · simp [rest, Stage.rests, Task.decreaseRemovalBlockingCount]

section Perform

variable {next : System} {ndebug : Bool} {accesses : Nat}

theorem markAsBlocked (inv : Inv system)
    (found : system.activities[index]? = some (.markAsBlocked task))
    (performed : perform ndebug system index accesses (.markAsBlocked task) =
      some next) : Inv next := by
  cases performed
  refine inv.goesOn found (by simp [Activity.drives, Activity.task]) _
    rfl rfl rfl rfl ?_ ?_
  · intro other differ
    split <;> simp [Activity.drives, Activity.task, differ]
  · intro stage here fits
    simp only [Activity.fits, Bool.and_eq_true, beq_iff_eq] at fits
    obtain ⟨⟨young, blocks⟩, started⟩ := fits
    have zero :=
      countdown_eq_zero (here.decreaseRemovalBlockingCount blocks) rfl
    rw [System.task_modifyTask, if_pos rfl, System.task_uses, zero]
    refine stands_decrease here blocks (fun _ => started) (Or.inl young) ?_ ?_
    · intro isOver
      rw [isOver, if_pos rfl]
      exact ⟨.markAsUnblocked task, by simp [Activity.drives, Activity.task],
        by simp [Activity.fits, young, started]⟩
    · intro waits
      rw [waits]
      rfl

theorem markAsUnblocked (inv : Inv system)
    (found : system.activities[index]? = some (.markAsUnblocked task))
    (performed : perform ndebug system index accesses
      (.markAsUnblocked task) = some next) : Inv next := by
  cases performed
  refine inv.goesOn found (by simp [Activity.drives, Activity.task]) _
    rfl rfl rfl rfl ?_ ?_
  · intro other differ
    simp [Activity.drives, Activity.task, differ]
  · intro stage here fits
    simp only [Activity.fits, Bool.and_eq_true, beq_iff_eq,
      Bool.not_eq_true'] at fits
    obtain ⟨⟨⟨young, unblocked⟩, started⟩, -⟩ := fits
    refine ⟨stage, here.increaseRemovalBlockingCount unblocked,
      Or.inr ⟨.body task, by simp [Activity.drives, Activity.task], ?_⟩⟩
    simp [Activity.fits, young, Task.increaseRemovalBlockingCount, started]

theorem markAsFinished (inv : Inv system)
    (found : system.activities[index]? = some (.markAsFinished task))
    (performed : perform ndebug system index accesses
      (.markAsFinished task) = some next) : Inv next := by
  cases performed
  refine inv.goesOn found (by simp [Activity.drives, Activity.task]) _
    rfl rfl rfl rfl ?_ ?_
  · intro other differ
    split <;> simp [Activity.drives, Activity.task, differ]
  · intro stage here fits
    simp only [Activity.fits, Bool.and_eq_true, beq_iff_eq] at fits
    obtain ⟨⟨young, blocks⟩, started⟩ := fits
    subst young
    have finished := here.finish started
    rw [System.task_modifyTask, if_pos rfl, System.task_uses]
    cases waits : (system.task task).mustDelayRelease with
    | true =>
        rw [waits, if_pos rfl] at finished
        rw [if_pos rfl]
        exact ⟨.delayed, finished, Or.inr ⟨.delayRelease task,
          by simp [Activity.drives, Activity.task],
          by simp [Activity.fits, blocks]⟩⟩
    | false =>
        rw [waits, if_neg (by simp)] at finished
        rw [if_neg (by simp)]
        exact ⟨.restored, finished, Or.inr
          ⟨.decreaseReleaseCount task .handleTask,
            by simp [Activity.drives, Activity.task],
            by simp [Activity.fits, blocks]⟩⟩

theorem delayRelease (inv : Inv system)
    (found : system.activities[index]? = some (.delayRelease task))
    (performed : perform ndebug system index accesses (.delayRelease task) =
      some next) : Inv next := by
  cases performed
  refine inv.goesOn found (by simp [Activity.drives, Activity.task]) _
    rfl rfl rfl rfl ?_ ?_
  · intro other differ
    split <;> simp [Activity.drives, Activity.task, differ]
  · intro stage here fits
    simp only [Activity.fits, Bool.and_eq_true, beq_iff_eq] at fits
    obtain ⟨delayed, blocks⟩ := fits
    have zero :=
      countdown_eq_zero (here.decreaseRemovalBlockingCount blocks) rfl
    rw [System.task_modifyTask, if_pos rfl, System.task_uses, zero]
    refine stands_decrease here blocks ?_ (Or.inr (Or.inl delayed)) ?_ ?_
    · intro young
      rw [delayed] at young
      cases young
    · intro isOver
      rw [isOver, if_pos rfl]
      exact ⟨.completeDelayedRelease task .handleTask,
        by simp [Activity.drives, Activity.task],
        by simp [Activity.fits, delayed]⟩
    · intro waits
      rw [waits]
      rfl

theorem completeDelayedRelease (inv : Inv system) {caller : Caller}
    (found : system.activities[index]? =
      some (.completeDelayedRelease task caller))
    (performed : perform ndebug system index accesses
      (.completeDelayedRelease task caller) = some next) : Inv next := by
  cases performed
  refine inv.goesOn found (by simp [Activity.drives, Activity.task]) _
    rfl rfl rfl rfl ?_ ?_
  · intro other differ
    simp [Activity.drives, Activity.task, differ]
  · intro stage here fits
    simp only [Activity.fits, Bool.and_eq_true, beq_iff_eq,
      Bool.not_eq_true'] at fits
    obtain ⟨⟨delayed, unblocked⟩, isOver⟩ := fits
    obtain ⟨none, -⟩ := isOver_iff.mp isOver
    rw [none] at here isOver ⊢
    subst delayed
    exact ⟨.restoring, here.completeDelayedRelease, Or.inr
      ⟨.handleExitTaskwait task caller,
        by simp [Activity.drives, Activity.task], by
          simp only [Activity.fits, unblocked]
          simpa [Task.isOver] using isOver⟩⟩

theorem handleExitTaskwait (inv : Inv system) {caller : Caller}
    (found : system.activities[index]? =
      some (.handleExitTaskwait task caller))
    (performed : perform ndebug system index accesses
      (.handleExitTaskwait task caller) = some next) : Inv next := by
  cases performed
  refine inv.goesOn found (by simp [Activity.drives, Activity.task]) _
    rfl rfl rfl rfl ?_ ?_
  · intro other differ
    simp [Activity.drives, Activity.task, differ]
  · intro stage here fits
    simp only [Activity.fits, Bool.and_eq_true, beq_iff_eq,
      Bool.not_eq_true'] at fits
    obtain ⟨⟨restoring, unblocked⟩, -⟩ := fits
    exact ⟨stage, here.increaseRemovalBlockers accesses, Or.inr
      ⟨.increaseRemovalBlockingCount task caller,
        by simp [Activity.drives, Activity.task],
        by simp [Activity.fits, restoring, Task.increaseRemovalBlockers,
          unblocked]⟩⟩

theorem increaseRemovalBlockingCount (inv : Inv system) {caller : Caller}
    (found : system.activities[index]? =
      some (.increaseRemovalBlockingCount task caller))
    (performed : perform ndebug system index accesses
      (.increaseRemovalBlockingCount task caller) = some next) :
    Inv next := by
  cases performed
  refine inv.goesOn found (by simp [Activity.drives, Activity.task]) _
    rfl rfl rfl rfl ?_ ?_
  · intro other differ
    simp [Activity.drives, Activity.task, differ]
  · intro stage here fits
    simp only [Activity.fits, Bool.and_eq_true, beq_iff_eq,
      Bool.not_eq_true'] at fits
    obtain ⟨restoring, unblocked⟩ := fits
    subst restoring
    exact ⟨.restored, (here.increaseRemovalBlockingCount unblocked).restore,
      Or.inr ⟨.decreaseReleaseCount task caller,
        by simp [Activity.drives, Activity.task],
        by simp [Activity.fits, Task.increaseRemovalBlockingCount]⟩⟩

/-- Leaving the loop early drives nothing. -/
theorem filter_leave (ndebug : Bool) (task other : TaskId) (caller : Caller) :
    (leave ndebug task caller).filter (Activity.drives other) = [] := by
  cases caller <;> cases ndebug <;>
    simp [leave, leaveWaitClause, Activity.drives]

theorem decreaseReleaseCount (inv : Inv system) {caller : Caller}
    (found : system.activities[index]? =
      some (.decreaseReleaseCount task caller))
    (performed : perform ndebug system index accesses
      (.decreaseReleaseCount task caller) = some next) : Inv next := by
  cases performed
  refine inv.goesOn found (by simp [Activity.drives, Activity.task]) _
    rfl rfl rfl rfl ?_ ?_
  · intro other differ
    split
    · simp [Activity.drives, Activity.task, differ]
    · exact filter_leave ndebug task other caller
  · intro stage here fits
    simp only [Activity.fits, Bool.and_eq_true, beq_iff_eq] at fits
    obtain ⟨restored, blocks⟩ := fits
    subst restored
    have decreased := here.decreaseReleaseCount
    have release := here.release
    have limit := here.fits
    rw [here.blocksRelease] at release
    simp only [Stage.blocksRelease, Bool.toNat_true] at release
    rw [System.task_modifyTask, if_pos rfl, System.task_uses]
    by_cases none : (system.task task).events = 0
    · rw [if_pos none] at decreased
      rw [if_pos (by
        simp only [Task.decreaseReleaseCount, wrapInt, beq_iff_eq]
        omega)]
      exact ⟨.fulfilled, decreased, Or.inr
        ⟨.unregisterTaskDataAccesses task caller,
          by simp [Activity.drives, Activity.task],
          by simp [Activity.fits, Task.decreaseReleaseCount, blocks]⟩⟩
    · rw [if_neg none] at decreased
      rw [if_neg (by
        simp only [Task.decreaseReleaseCount, wrapInt, beq_iff_eq]
        omega), filter_leave]
      exact ⟨.awaiting, decreased, Or.inl
        ⟨rfl, by simp [Stage.rests, Task.decreaseReleaseCount, blocks]⟩⟩

theorem unregisterTaskDataAccesses (inv : Inv system) {caller : Caller}
    (found : system.activities[index]? =
      some (.unregisterTaskDataAccesses task caller))
    (performed : perform ndebug system index accesses
      (.unregisterTaskDataAccesses task caller) = some next) : Inv next := by
  cases performed
  refine inv.goesOn found (by simp [Activity.drives, Activity.task]) _
    rfl rfl rfl rfl ?_ ?_
  · intro other differ
    simp [Activity.drives, Activity.task, differ]
  · intro stage here fits
    simp only [Activity.fits, Bool.and_eq_true, beq_iff_eq] at fits
    obtain ⟨fulfilled, blocks⟩ := fits
    subst fulfilled
    exact ⟨.unregistered, here.unregister, Or.inr
      ⟨.markAsReleased task caller, by simp [Activity.drives, Activity.task],
        by simp [Activity.fits, blocks]⟩⟩

theorem markAsReleased (inv : Inv system) {caller : Caller}
    (found : system.activities[index]? = some (.markAsReleased task caller))
    (performed : perform ndebug system index accesses
      (.markAsReleased task caller) = some next) : Inv next := by
  cases performed
  refine inv.goesOn found (by simp [Activity.drives, Activity.task]) _
    rfl rfl rfl rfl ?_ ?_
  · intro other differ
    split
    · cases caller <;> cases ndebug <;>
        simp [dispose, leaveWaitClause, Activity.drives, Activity.task, differ]
    · exact filter_leave ndebug task other caller
  · intro stage here fits
    simp only [Activity.fits, Bool.and_eq_true, beq_iff_eq] at fits
    obtain ⟨unregistered, blocks⟩ := fits
    have zero :=
      countdown_eq_zero (here.decreaseRemovalBlockingCount blocks) rfl
    rw [System.task_modifyTask, if_pos rfl, System.task_uses, zero]
    refine stands_decrease here blocks ?_ (Or.inr (Or.inr unregistered)) ?_ ?_
    · intro young
      rw [unregistered] at young
      cases young
    · intro isOver
      rw [isOver, if_pos rfl]
      cases caller <;> cases ndebug <;>
        simp [dispose, leaveWaitClause, Activity.drives, Activity.task,
          Activity.fits, unregistered, Stage.isCalled]
    · intro waits
      rw [waits]
      exact filter_leave ndebug task task caller

/-- A thread that only reads the task that it drives. -/
theorem reads (inv : Inv system)
    (found : system.activities[index]? = some activity)
    (drives : ∀ other, activity.drives other = true ↔ other = task)
    {successors : List Activity}
    (nextDrives : ∀ other, other ≠ task →
      successors.filter (Activity.drives other) = [])
    (stands : ∀ stage, (system.task task).IsAt stage (system.undisposed task) →
      activity.fits task stage (system.task task).blocksRemoval
        (system.task task).isStarted
        ((system.task task).isOver (system.undisposed task)) = true →
      Stands (successors.filter (Activity.drives task)) task
        (system.undisposed task) (system.task task)) :
    Inv ((system.uses task).goesOn index successors) := by
  have changed :=
    inv.goesOn found drives id rfl rfl rfl rfl nextDrives stands
  have same : (system.uses task).modifyTask task id = system.uses task := by
    simp only [System.modifyTask, id, Function.update_eq_self]
  rw [same] at changed
  exact changed

/-- The thread has a compute place if it completes a wait clause, or the
assertions are left out. -/
theorem disposeOrUnblockTask (inv : Inv system) {hasComputePlace : Bool}
    (found : system.activities[index]? =
      some (.disposeOrUnblockTask task hasComputePlace))
    (present : (system.task task).hasFinished = true →
      (system.task task).mustDelayRelease = true →
        (ndebug || hasComputePlace) = true)
    (performed : perform ndebug system index accesses
      (.disposeOrUnblockTask task hasComputePlace) = some next) :
    Inv next := by
  have drives : ∀ other,
      (Activity.disposeOrUnblockTask task hasComputePlace).drives other =
        true ↔ other = task := by
    simp [Activity.drives, Activity.task]
  have calledOf : ∀ {stage : Stage} {blocks started isOver : Bool},
      (Activity.disposeOrUnblockTask task hasComputePlace).fits task stage
        blocks started isOver = true →
      (blocks = false ∧ isOver = true) ∧
        ((stage = .young ∧ started = true ∨ stage = .delayed) ∨
          stage = .unregistered) := by
    intro stage blocks started isOver fits
    simpa only [Activity.fits, Stage.isCalled, Bool.and_eq_true,
      Bool.not_eq_true', Bool.or_eq_true, beq_iff_eq] using fits
  simp only [Lifecycle.perform] at performed
  split at performed
  · rename_i finished
    split at performed
    · rename_i delays
      rw [if_pos (present finished delays)] at performed
      cases performed
      refine inv.reads found drives ?_ ?_
      · intro other differ
        simp [Activity.drives, Activity.task, differ]
      · intro stage here fits
        obtain ⟨⟨unblocked, isOver⟩, stages⟩ := calledOf fits
        refine ⟨stage, here, Or.inr ⟨_, by
          simp [Activity.drives, Activity.task]; rfl, ?_⟩⟩
        have delayed : stage = .delayed := by
          rcases stages with (⟨rfl, -⟩ | same) | rfl
          · rw [here.finished] at finished
            cases finished
          · exact same
          · rw [here.delays] at delays
            cases delays
        simp [Activity.fits, delayed, unblocked, isOver]
    · rename_i released
      cases performed
      refine inv.reads found drives ?_ ?_
      · intro other differ
        simp [Activity.drives, Activity.task, differ]
      · intro stage here fits
        obtain ⟨⟨unblocked, isOver⟩, stages⟩ := calledOf fits
        refine ⟨stage, here, Or.inr ⟨_, by
          simp [Activity.drives, Activity.task]; rfl, ?_⟩⟩
        have unregistered : stage = .unregistered := by
          rcases stages with (⟨rfl, -⟩ | rfl) | same
          · rw [here.finished] at finished
            cases finished
          · rw [here.delays] at released
            exact absurd rfl released
          · exact same
        simp [Activity.fits, unregistered, unblocked, isOver]
  · rename_i unfinished
    cases performed
    refine inv.reads found drives ?_ ?_
    · intro other differ
      simp [Activity.drives, Activity.task, differ]
    · intro stage here fits
      obtain ⟨⟨unblocked, isOver⟩, stages⟩ := calledOf fits
      refine ⟨stage, here, Or.inr ⟨_, by
        simp [Activity.drives, Activity.task]; rfl, ?_⟩⟩
      rw [here.finished] at unfinished
      rcases stages with (⟨rfl, started⟩ | rfl) | rfl
      · simp [Activity.fits, unblocked, started, isOver]
      · exact absurd rfl unfinished
      · exact absurd rfl unfinished

/-- The assertion reads a task that its thread drives, or one that has not been
freed. -/
theorem assertReleased (inv : Inv system)
    {readyOrDisposable hasComputePlace : Bool}
    (found : system.activities[index]? =
      some (.assertReleased task readyOrDisposable hasComputePlace))
    (notFreed : (system.task task).isFreed = false)
    (performed : perform ndebug system index accesses
      (.assertReleased task readyOrDisposable hasComputePlace) =
        some next) : Inv next := by
  cases performed
  cases readyOrDisposable with
  | true =>
      refine inv.reads found (by simp [Activity.drives]) ?_ ?_
      · intro other differ
        simp [Activity.drives, Activity.task, differ]
      · intro stage here fits
        exact ⟨stage, here, Or.inr ⟨.unlinkFromParent task hasComputePlace,
          by simp [Activity.drives, Activity.task], fits⟩⟩
  | false =>
      have drivers : ∀ other,
          ((system.uses task).goesOn index []).drivers other =
            system.drivers other := fun other =>
        drivers_other found (by simp [Activity.drives]) rfl
      refine
        { mem_children := inv.mem_children
          nodup := inv.nodup
          parent_ne := inv.parent_ne
          stands := ?_
          pristine := ?_
          unused := ?_ }
      · intro other created
        simp only [Bool.false_eq_true, if_false]
        rw [drivers]
        exact inv.stands other created
      · intro other absent
        simp only [Bool.false_eq_true, if_false]
        rw [drivers]
        exact inv.pristine other absent
      · change (system.usedAfterFree || (system.task task).isFreed) = false
        rw [inv.unused, notFreed]
        rfl

end Perform

/-! ## One thing less to wait for -/

/-- The task itself still blocks its removal, so nothing depends on what else
is left. -/
theorem fits_of_blocks {activity : Activity} {task : TaskId} {stage : Stage}
    {started isOver : Bool} (later : Bool)
    (fits : activity.fits task stage true started isOver = true) :
    activity.fits task stage true started later = true := by
  cases activity with
  | free other next =>
      simp only [Activity.fits] at fits
      split at fits <;> simp [Stage.isCalled] at fits
  | _ => simpa [Activity.fits, Stage.isCalled] using fits

theorem rests_of_blocks {stage : Stage} {started isOver : Bool} (later : Bool)
    (rests : stage.rests true started isOver = true) :
    stage.rests true started later = true := by
  cases stage <;> simpa [Stage.rests] using rests

/-- Something that blocked the removal of a task goes.  If it was the last such
thing, no thread drives the task, apart from one that is about to restore the
part of the task itself. -/
theorem stands_less {drivers : List Activity} {id : TaskId}
    {undisposed : Nat} {current : Task} (fewer : Nat) (changed : Task)
    (stands : Stands drivers id undisposed current)
    (notOver : current.isOver undisposed = false)
    (blocks : changed.blocksRemoval = current.blocksRemoval)
    (started : changed.isStarted = current.isStarted)
    (stays : ∀ stage, current.IsAt stage undisposed →
      changed.IsAt stage fewer)
    (notRestoring : changed.countdownToBeWokenUp = 0 →
      ∀ other caller,
        drivers ≠ [.increaseRemovalBlockingCount other caller]) :
    (changed.countdownToBeWokenUp ≠ 0 → Stands drivers id fewer changed) ∧
      (changed.countdownToBeWokenUp = 0 → drivers = [] ∧
        ∃ stage, changed.IsAt stage fewer ∧
          stage.isCalled changed.blocksRemoval changed.isStarted
            (changed.isOver fewer) = true) := by
  obtain ⟨stage, here, situation⟩ := stands
  have after := stays stage here
  have countdown := after.countdown
  rw [notOver] at situation
  constructor
  · intro notZero
    refine ⟨stage, after, ?_⟩
    rw [blocks, started]
    cases blocksRemoval : current.blocksRemoval with
    | true =>
        rw [blocksRemoval] at situation
        exact situation.imp (And.imp_right (rests_of_blocks _))
          (Exists.imp fun _ => And.imp_right (fits_of_blocks _))
    | false =>
        have stillNotOver : changed.isOver fewer = false := by
          rw [Bool.eq_false_iff, Ne, isOver_iff]
          rintro ⟨none, noBlockers⟩
          rw [blocks, blocksRemoval, none, noBlockers] at countdown
          exact notZero countdown
        rw [blocksRemoval] at situation
        rw [stillNotOver]
        exact situation
  · intro zero
    rw [zero] at countdown
    have unblocked : current.blocksRemoval = false := by
      by_contra still
      rw [blocks, Bool.of_not_eq_false still] at countdown
      simp only [Bool.toNat_true] at countdown
      omega
    rw [blocks, unblocked] at countdown
    simp only [Bool.toNat_false] at countdown
    have isOver : changed.isOver fewer = true :=
      isOver_iff.mpr ⟨by omega, by omega⟩
    rw [unblocked] at situation
    rcases situation with ⟨none, rests⟩ | ⟨driver, only, fits⟩
    · refine ⟨none, stage, after, ?_⟩
      rw [blocks, started, unblocked, isOver]
      cases stage <;> simp [Stage.rests, Stage.isCalled] at rests ⊢
      exact rests
    · exfalso
      cases driver with
      | increaseRemovalBlockingCount other caller =>
          exact notRestoring zero other caller only
      | free other next =>
          simp only [Activity.fits] at fits
          split at fits <;> simp [Stage.isCalled] at fits
      | _ => simp [Activity.fits, Stage.isCalled] at fits

theorem created_of_member (inv : Inv system) {child : TaskId}
    (member : child ∈ (system.task task).children) :
    (system.task task).isCreated = true := by
  by_contra absent
  have none := (inv.pristine task (Bool.eq_false_iff.mpr absent)).2.children
  rw [none] at member
  cases member

/-- Removing a task from its parent takes one from the undisposed children of
the parent and of nobody else. -/
theorem undisposed_unlink (inv : Inv system) {next : System}
    (linked : (system.task task).isUnlinked = false)
    (unlinked : (next.task task).isUnlinked = true)
    (others : ∀ other, other ≠ task →
      (next.task other).isUnlinked = (system.task other).isUnlinked)
    (children : ∀ other,
      (next.task other).children = (system.task other).children)
    (parent : TaskId) :
    ((system.task task).parent = some parent →
        system.undisposed parent = next.undisposed parent + 1) ∧
      ((system.task task).parent ≠ some parent →
        next.undisposed parent = system.undisposed parent) := by
  constructor
  · intro parentIs
    have member := (inv.mem_children task parent).mpr parentIs
    have nodup := inv.nodup parent
    obtain ⟨before, after, split⟩ := List.append_of_mem member
    rw [split] at nodup
    have absent : ∀ other, other ∈ before ∨ other ∈ after → other ≠ task := by
      intro other inside same
      subst same
      rcases inside with inBefore | inAfter
      · exact (List.nodup_append.mp nodup).2.2 other inBefore other (by simp)
          rfl
      · exact (List.nodup_cons.mp (List.nodup_append.mp nodup).2.1).1 inAfter
    have same : ∀ part : List TaskId, (∀ other ∈ part, other ≠ task) →
        (part.countP fun child => !(next.task child).isUnlinked) =
          part.countP fun child => !(system.task child).isUnlinked := by
      intro part differ
      refine List.countP_congr fun child inPart => ?_
      rw [others child (differ child inPart)]
    unfold System.undisposed
    rw [children, split, List.countP_append, List.countP_append,
      List.countP_cons, List.countP_cons,
      same before fun other inside => absent other (Or.inl inside),
      same after fun other inside => absent other (Or.inr inside), linked,
      unlinked]
    simp only [Bool.not_true, Bool.not_false, Bool.false_eq_true, if_false,
      if_true]
    omega
  · intro notParent
    refine System.undisposed_congr (children parent) fun child member => ?_
    refine others child ?_
    rintro rfl
    exact notParent ((inv.mem_children child parent).mp member)

theorem unlinkFromParent (inv : Inv system) {hasComputePlace : Bool}
    (found : system.activities[index]? =
      some (.unlinkFromParent task hasComputePlace))
    {next : System} {ndebug : Bool} {accesses : Nat}
    (performed : perform ndebug system index accesses
      (.unlinkFromParent task hasComputePlace) = some next) :
    Inv next := by
  obtain ⟨stage, here, fits, drivers⟩ :=
    inv.driven found (by simp [Activity.drives, Activity.task] :
      (Activity.unlinkFromParent task hasComputePlace).drives task = true)
  simp only [Activity.fits, Bool.and_eq_true, beq_iff_eq,
    Bool.not_eq_true'] at fits
  obtain ⟨⟨unregistered, unblocked⟩, isOver⟩ := fits
  subst unregistered
  have notFreed : (system.task task).isFreed = false := here.isFreed
  have linked : (system.task task).isUnlinked = false := here.unlinked
  have notDriven : ∀ other, other ≠ task →
      (Activity.unlinkFromParent task hasComputePlace).drives other = false := by
    intro other differ
    simp [Activity.drives, Activity.task, differ]
  have ownStands : ∀ following : Option TaskId, following ≠ some task →
      Stands [.free task following hasComputePlace] task (system.undisposed task)
        { system.task task with isUnlinked := true } := by
    intro following differ
    refine ⟨.unlinked, here.unlink, Or.inr ⟨_, rfl, ?_⟩⟩
    simp only [Activity.fits, if_pos, unblocked]
    simpa [Task.isOver, differ] using isOver
  have notOwn := inv.parent_ne task
  cases parentIs : (system.task task).parent with
  | none =>
      obtain ⟨result, resultIs⟩ : ∃ result, result =
          ((system.uses task).modifyTask task fun current =>
            { current with isUnlinked := true }).goesOn index
              [.free task none hasComputePlace] :=
        ⟨_, rfl⟩
      have nextIs : next = result := by
        simp only [perform, parentIs] at performed
        rw [resultIs]
        exact (Option.some.inj performed).symm
      rw [nextIs]
      have tasks : ∀ other, result.task other =
          if other = task then { system.task task with isUnlinked := true }
          else system.task other := by
        intro other
        rw [resultIs, System.task_goesOn, System.task_modifyTask,
          System.task_uses]
      have same : ∀ other,
          (result.task other).parent = (system.task other).parent ∧
            (result.task other).children = (system.task other).children ∧
            (result.task other).isCreated =
              (system.task other).isCreated := by
        intro other
        rw [tasks]
        split
        · rename_i isTask
          rw [isTask]
          exact ⟨rfl, rfl, rfl⟩
        · exact ⟨rfl, rfl, rfl⟩
      have undisposed := fun other =>
        (inv.undisposed_unlink linked (by rw [tasks, if_pos rfl])
          (fun other differ => by rw [tasks, if_neg differ])
          (fun other => (same other).2.1) other).2 (by rw [parentIs]; simp)
      have resultDrivers : ∀ other, result.drivers other =
          (system.goesOn index [.free task none hasComputePlace]).drivers other := by
        intro other
        rw [resultIs]
        rfl
      have others : ∀ other, other ≠ task →
          result.drivers other = system.drivers other := by
        intro other differ
        rw [resultDrivers]
        exact drivers_other found (notDriven other differ)
          (by simp [Activity.drives, differ])
      refine inv.keepsFamily same ?_ ?_ ?_
      · intro other created
        rw [undisposed]
        by_cases isTask : other = task
        · subst isTask
          rw [resultDrivers, drivers, tasks, if_pos rfl]
          simpa [Activity.drives] using ownStands none (by simp)
        · rw [others other isTask, tasks, if_neg isTask]
          exact inv.stands other created
      · intro other absent
        have notTask : other ≠ task := by
          rintro rfl
          rw [here.created] at absent
          cases absent
        rw [tasks, if_neg notTask]
        exact ⟨others other notTask, rfl⟩
      · rw [resultIs]
        change (system.usedAfterFree || (system.task task).isFreed) = false
        rw [inv.unused, notFreed]
        rfl
  | some parent =>
      have differ : parent ≠ task := by
        rintro rfl
        exact notOwn parentIs
      obtain ⟨following, followingIs⟩ : ∃ following, following =
          if (system.task parent).removeChild.countdownToBeWokenUp == 0 then
            some parent
          else none :=
        ⟨_, rfl⟩
      obtain ⟨result, resultIs⟩ : ∃ result, result =
          ((((system.uses task).modifyTask task fun current =>
            { current with isUnlinked := true }).uses parent).modifyTask
              parent Task.removeChild).goesOn index
                [.free task following hasComputePlace] :=
        ⟨_, rfl⟩
      have nextIs : next = result := by
        simp only [perform, parentIs] at performed
        rw [resultIs, followingIs, ← Option.some.inj performed,
          System.task_modifyTask, if_pos rfl, System.task_uses,
          System.task_modifyTask, if_neg differ, System.task_uses]
      rw [nextIs]
      have tasks : ∀ other, result.task other =
          if other = parent then (system.task parent).removeChild
          else if other = task then
            { system.task task with isUnlinked := true }
          else system.task other := by
        intro other
        rw [resultIs, System.task_goesOn, System.task_modifyTask,
          System.task_uses, System.task_modifyTask, if_neg differ,
          System.task_uses, System.task_modifyTask, System.task_uses]
      have parentTask : result.task parent =
          (system.task parent).removeChild := by
        rw [tasks, if_pos rfl]
      have ownTask : result.task task =
          { system.task task with isUnlinked := true } := by
        rw [tasks, if_neg differ.symm, if_pos rfl]
      have otherTask : ∀ other, other ≠ task → other ≠ parent →
          result.task other = system.task other := by
        intro other notTask notParent
        rw [tasks, if_neg notParent, if_neg notTask]
      have same : ∀ other,
          (result.task other).parent = (system.task other).parent ∧
            (result.task other).children = (system.task other).children ∧
            (result.task other).isCreated =
              (system.task other).isCreated := by
        intro other
        by_cases isParent : other = parent
        · rw [isParent, parentTask]
          exact ⟨rfl, rfl, rfl⟩
        · by_cases isTask : other = task
          · rw [isTask, ownTask]
            exact ⟨rfl, rfl, rfl⟩
          · rw [otherTask other isTask isParent]
            exact ⟨rfl, rfl, rfl⟩
      have undisposed := inv.undisposed_unlink linked (by rw [ownTask])
        (fun other notTask => by
          by_cases isParent : other = parent
          · rw [isParent, parentTask]
            rfl
          · rw [otherTask other notTask isParent])
        (fun other => (same other).2.1)
      have fewer := (undisposed parent).1 parentIs
      have created := inv.created_of_member
        ((inv.mem_children task parent).mpr parentIs)
      have parentStands := inv.stands parent created
      -- A thread that restores the part of the parent finds no child left.
      have notRestoring : ∀ other caller, system.drivers parent ≠
          [.increaseRemovalBlockingCount other caller] := by
        intro other caller only
        obtain ⟨stage, parentHere, ⟨none, -⟩ | ⟨driver, one, fits⟩⟩ :=
          parentStands
        · rw [none] at only
          cases only
        · rw [one] at only
          obtain rfl := List.singleton_inj.mp only
          simp only [Activity.fits, Bool.and_eq_true, beq_iff_eq] at fits
          have none := parentHere.childless (by rw [fits.1]; rfl)
            (parentHere.waits (by rw [fits.1]; rfl))
          omega
      obtain ⟨stays, reached⟩ :=
        stands_less (result.undisposed parent)
          (system.task parent).removeChild parentStands
          (by
            rw [Bool.eq_false_iff, Ne, isOver_iff]
            omega)
          rfl rfl
          (fun stage parentHere => by
            rw [fewer] at parentHere
            exact parentHere.removeChild)
          (fun _ => notRestoring)
      have resultDrivers : ∀ other, result.drivers other =
          (system.goesOn index [.free task following hasComputePlace]).drivers other := by
        intro other
        rw [resultIs]
        rfl
      have others : ∀ other, other ≠ task → following ≠ some other →
          result.drivers other = system.drivers other := by
        intro other notTask notNext
        rw [resultDrivers]
        exact drivers_other found (notDriven other notTask)
          (by simp [Activity.drives, notTask, notNext])
      have followingParent : ∀ other, following = some other →
          other = parent ∧
            (system.task parent).removeChild.countdownToBeWokenUp = 0 := by
        intro other isNext
        rw [followingIs] at isNext
        split at isNext
        · rename_i zero
          exact ⟨(Option.some.inj isNext).symm, beq_iff_eq.mp zero⟩
        · cases isNext
      refine inv.keepsFamily same ?_ ?_ ?_
      · intro other isCreated
        by_cases isTask : other = task
        · subst isTask
          rw [(undisposed other).2 notOwn, resultDrivers, drivers, ownTask]
          have notNext : following ≠ some other := by
            intro isNext
            exact differ (followingParent other isNext).1.symm
          simpa [Activity.drives] using ownStands following notNext
        · by_cases isParent : other = parent
          · subst isParent
            rw [parentTask]
            by_cases zero :
                (system.task other).removeChild.countdownToBeWokenUp = 0
            · obtain ⟨none, stage, after, called⟩ := reached zero
              have nextIs : following = some other := by
                rw [followingIs, if_pos (beq_iff_eq.mpr zero)]
              have driverIs : result.drivers other =
                  [.free task following hasComputePlace] := by
                have split := drivers_split found other
                rw [none, List.filter_cons_of_neg
                  (by rw [notDriven other isTask]; simp),
                  List.filter_nil, List.append_nil] at split
                obtain ⟨before, after⟩ :=
                  List.append_eq_nil_iff.mp split.symm
                rw [resultDrivers, drivers_goesOn, before, after]
                simp [Activity.drives, nextIs]
              rw [driverIs]
              refine ⟨stage, after, Or.inr ⟨_, rfl, ?_⟩⟩
              simp only [Activity.fits, if_neg (Ne.symm isTask)]
              exact called
            · have notNext : following ≠ some other := fun isNext =>
                zero (followingParent other isNext).2
              rw [others other isTask notNext]
              exact stays zero
          · have notNext : following ≠ some other := fun isNext =>
              isParent (followingParent other isNext).1
            rw [others other isTask notNext, otherTask other isTask isParent,
              (undisposed other).2 (by
                rw [parentIs]
                exact fun same => isParent (Option.some.inj same).symm)]
            exact inv.stands other isCreated
      · intro other absent
        have notTask : other ≠ task := by
          rintro rfl
          rw [here.created] at absent
          cases absent
        have notParent : other ≠ parent := by
          rintro rfl
          rw [created] at absent
          cases absent
        have notNext : following ≠ some other := fun isNext =>
          notParent (followingParent other isNext).1
        exact ⟨others other notTask notNext,
          otherTask other notTask notParent⟩
      · obtain ⟨stage, parentHere, situation⟩ := parentStands
        have parentAlive : (system.task parent).isFreed = false := by
          rw [parentHere.isFreed]
          by_contra freed
          rw [Bool.not_eq_false, beq_iff_eq] at freed
          subst freed
          rcases situation with ⟨-, rests⟩ | ⟨driver, -, fits⟩
          · simp only [Stage.rests, Bool.and_eq_true, isOver_iff] at rests
            omega
          · exact Activity.fits_ne_freed fits rfl
        rw [resultIs]
        change (system.usedAfterFree || (system.task task).isFreed ||
          (((system.uses task).modifyTask task fun current =>
            { current with isUnlinked := true }).task parent).isFreed) = false
        rw [System.task_modifyTask, if_neg differ, System.task_uses,
          inv.unused, notFreed, parentAlive]
        rfl

theorem free (inv : Inv system) {following : Option TaskId}
    {hasComputePlace : Bool}
    (found : system.activities[index]? =
      some (.free task following hasComputePlace))
    {next : System} {ndebug : Bool} {accesses : Nat}
    (performed : perform ndebug system index accesses
      (.free task following hasComputePlace) = some next) :
    Inv next := by
  obtain ⟨stage, here, fits, drivers⟩ :=
    inv.driven found (by simp [Activity.drives] :
      (Activity.free task following hasComputePlace).drives task = true)
  simp only [Activity.fits, if_pos, Bool.and_eq_true, beq_iff_eq,
    Bool.not_eq_true', bne_iff_ne] at fits
  obtain ⟨⟨⟨unlinked, unblocked⟩, isOver⟩, notOwn⟩ := fits
  subst unlinked
  have callsDrive : ∀ other,
      (continueWith hasComputePlace following).filter (Activity.drives other) =
        if following = some other then
          [.disposeOrUnblockTask other hasComputePlace]
        else [] := by
    intro other
    cases following with
    | none => simp [continueWith]
    | some parent =>
        by_cases same : parent = other
        · subst same
          simp [continueWith, Activity.drives, Activity.task]
        · simp [continueWith, Activity.drives, Activity.task, same,
            Ne.symm same]
  obtain ⟨result, resultIs⟩ : ∃ result, result =
      ((system.uses task).modifyTask task fun current =>
        { current with isFreed := true, frees := current.frees + 1 }).goesOn
          index (continueWith hasComputePlace following) :=
    ⟨_, rfl⟩
  have nextIs : next = result := by
    rw [resultIs]
    exact (Option.some.inj performed).symm
  rw [nextIs]
  have tasks : ∀ other, result.task other =
      if other = task then
        { system.task task with
          isFreed := true
          frees := (system.task task).frees + 1 }
      else system.task other := by
    intro other
    rw [resultIs, System.task_goesOn, System.task_modifyTask,
      System.task_uses]
  have same : ∀ other,
      (result.task other).parent = (system.task other).parent ∧
        (result.task other).children = (system.task other).children ∧
        (result.task other).isUnlinked = (system.task other).isUnlinked ∧
        (result.task other).isCreated = (system.task other).isCreated := by
    intro other
    rw [tasks]
    split
    · rename_i isTask
      rw [isTask]
      exact ⟨rfl, rfl, rfl, rfl⟩
    · exact ⟨rfl, rfl, rfl, rfl⟩
  have undisposed : ∀ other,
      result.undisposed other = system.undisposed other := fun other =>
    System.undisposed_congr (same other).2.1 fun child _ => (same child).2.2.1
  have resultDrivers : ∀ other, result.drivers other =
      (system.goesOn index (continueWith hasComputePlace following)).drivers other := by
    intro other
    rw [resultIs]
    rfl
  have others : ∀ other, other ≠ task → following ≠ some other →
      result.drivers other = system.drivers other := by
    intro other notTask notNext
    rw [resultDrivers]
    refine drivers_other found (by simp [Activity.drives, notTask, notNext]) ?_
    rw [callsDrive, if_neg notNext]
  refine inv.keepsFamily
    (fun other => ⟨(same other).1, (same other).2.1, (same other).2.2.2⟩)
    ?_ ?_ ?_
  · intro other isCreated
    rw [undisposed]
    by_cases isTask : other = task
    · subst isTask
      rw [resultDrivers, drivers, callsDrive, if_neg notOwn, tasks,
        if_pos rfl]
      refine ⟨.freed, here.free, Or.inl ⟨rfl, ?_⟩⟩
      simp only [Stage.rests, unblocked]
      simpa [Task.isOver] using isOver
    · by_cases isNext : following = some other
      · -- The loop goes on with the parent.
        obtain ⟨stage, parentHere, parentFits, parentDrivers⟩ :=
          inv.driven found (by simp [Activity.drives, isNext] :
            (Activity.free task following hasComputePlace).drives other = true)
        simp only [Activity.fits, if_neg (Ne.symm isTask)] at parentFits
        rw [resultDrivers, parentDrivers, callsDrive, if_pos isNext, tasks,
          if_neg isTask]
        exact ⟨stage, parentHere, Or.inr ⟨_, rfl, parentFits⟩⟩
      · rw [others other isTask isNext, tasks, if_neg isTask]
        exact inv.stands other isCreated
  · intro other absent
    have notTask : other ≠ task := by
      rintro rfl
      rw [here.created] at absent
      cases absent
    have notNext : following ≠ some other := by
      intro isNext
      obtain ⟨stage, parentHere, -⟩ :=
        inv.driven found (by simp [Activity.drives, isNext] :
          (Activity.free task following hasComputePlace).drives other = true)
      rw [parentHere.created] at absent
      cases absent
    rw [tasks, if_neg notTask]
    exact ⟨others other notTask notNext, rfl⟩
  · rw [resultIs]
    change (system.usedAfterFree || (system.task task).isFreed) = false
    rw [inv.unused, here.isFreed]
    rfl

/-! ## Steps -/

theorem perform (inv : Inv system)
    (found : system.activities[index]? = some activity)
    {ndebug : Bool}
    (alive : ∀ readyOrDisposable hasComputePlace,
      activity = .assertReleased task readyOrDisposable hasComputePlace →
      (system.task task).isFreed = false)
    (present : ∀ hasComputePlace,
      activity = .disposeOrUnblockTask task hasComputePlace →
      (system.task task).hasFinished = true →
      (system.task task).mustDelayRelease = true →
        (ndebug || hasComputePlace) = true)
    (isTask : activity.task = task) {next : System} {accesses : Nat}
    (performed : Lifecycle.perform ndebug system index accesses activity =
      some next) : Inv next := by
  subst isTask
  cases activity with
  | body other => cases performed
  | markAsBlocked other => exact inv.markAsBlocked found performed
  | markAsUnblocked other => exact inv.markAsUnblocked found performed
  | markAsFinished other => exact inv.markAsFinished found performed
  | delayRelease other => exact inv.delayRelease found performed
  | completeDelayedRelease other caller =>
      exact inv.completeDelayedRelease found performed
  | handleExitTaskwait other caller =>
      exact inv.handleExitTaskwait found performed
  | increaseRemovalBlockingCount other caller =>
      exact inv.increaseRemovalBlockingCount found performed
  | decreaseReleaseCount other caller =>
      exact inv.decreaseReleaseCount found performed
  | unregisterTaskDataAccesses other caller =>
      exact inv.unregisterTaskDataAccesses found performed
  | markAsReleased other caller => exact inv.markAsReleased found performed
  | assertReleased other readyOrDisposable hasComputePlace =>
      exact inv.assertReleased found
        (alive readyOrDisposable hasComputePlace rfl) performed
  | disposeOrUnblockTask other hasComputePlace =>
      exact inv.disposeOrUnblockTask found (present hasComputePlace rfl)
        performed
  | unlinkFromParent other hasComputePlace =>
      exact inv.unlinkFromParent found performed
  | free other following hasComputePlace =>
      exact inv.free found performed

/-- A task changes, and possibly a thread starts that drives it. -/
theorem changesTask (inv : Inv system) (task : TaskId) {next : System}
    (started : List Activity)
    (created : (system.task task).isCreated = true)
    (notFreed : (system.task task).isFreed = false)
    (change : Task → Task)
    (nextIs : next =
      { (system.uses task).modifyTask task change with
        activities := system.activities ++ started })
    (parent : (change (system.task task)).parent = (system.task task).parent)
    (children :
      (change (system.task task)).children = (system.task task).children)
    (unlinked :
      (change (system.task task)).isUnlinked = (system.task task).isUnlinked)
    (stillCreated :
      (change (system.task task)).isCreated = (system.task task).isCreated)
    (startedDrive : ∀ other, other ≠ task →
      started.filter (Activity.drives other) = [])
    (stands : Stands
      (system.drivers task ++ started.filter (Activity.drives task)) task
      (system.undisposed task) (change (system.task task))) :
    Inv next := by
  have tasks : ∀ other, next.task other =
      if other = task then change (system.task task)
      else system.task other := by
    intro other
    rw [nextIs]
    exact System.task_modifyTask (system.uses task) task other change
  have same : ∀ other,
      (next.task other).parent = (system.task other).parent ∧
        (next.task other).children = (system.task other).children ∧
        (next.task other).isUnlinked = (system.task other).isUnlinked ∧
        (next.task other).isCreated = (system.task other).isCreated := by
    intro other
    rw [tasks]
    split
    · rename_i isTask
      rw [isTask]
      exact ⟨parent, children, unlinked, stillCreated⟩
    · exact ⟨rfl, rfl, rfl, rfl⟩
  have drivers : ∀ other, next.drivers other =
      system.drivers other ++ started.filter (Activity.drives other) := by
    intro other
    rw [nextIs]
    exact List.filter_append _ _
  have others : ∀ other, other ≠ task →
      next.drivers other = system.drivers other := by
    intro other differ
    rw [drivers, startedDrive other differ, List.append_nil]
  refine inv.keepsFamily
    (fun other => ⟨(same other).1, (same other).2.1, (same other).2.2.2⟩)
    ?_ ?_ ?_
  · intro other isCreated
    have undisposed : next.undisposed other = system.undisposed other :=
      System.undisposed_congr (same other).2.1 fun child _ =>
        (same child).2.2.1
    rw [undisposed]
    by_cases isTask : other = task
    · subst isTask
      rw [drivers, tasks, if_pos rfl]
      exact stands
    · rw [others other isTask, tasks, if_neg isTask]
      exact inv.stands other isCreated
  · intro other absent
    have notTask : other ≠ task := by
      rintro rfl
      rw [created] at absent
      cases absent
    rw [tasks, if_neg notTask]
    exact ⟨others other notTask, rfl⟩
  · rw [nextIs]
    change (system.usedAfterFree || (system.task task).isFreed) = false
    rw [inv.unused, notFreed]
    rfl

/-- The body of a task runs, so nothing else drives the task. -/
theorem runs (inv : Inv system)
    (member : Activity.body task ∈ system.activities) :
    (system.task task).IsAt .young (system.undisposed task) ∧
      (system.task task).blocksRemoval = true ∧
      (system.task task).isStarted = true ∧
      system.drivers task = [.body task] := by
  obtain ⟨index, found⟩ := List.mem_iff_getElem?.mp member
  have drives : (Activity.body task).drives task = true := by
    simp [Activity.drives, Activity.task]
  obtain ⟨stage, here, fits, drivers⟩ := inv.driven found drives
  simp only [Activity.fits, Bool.and_eq_true, beq_iff_eq] at fits
  obtain ⟨⟨young, blocks⟩, started⟩ := fits
  subst young
  refine ⟨here, blocks, started, ?_⟩
  have own := drivers [.body task]
  rw [List.filter_cons_of_pos drives, List.filter_nil, drivers_goesOn,
    ← drivers_split found] at own
  exact own

/-- A task gets a child, which has not been created before. -/
theorem adopts (inv : Inv system) {parent child : TaskId}
    {hasWaitClause : Bool} {next : System}
    (nextIs : next =
      ((system.uses parent).modifyTask parent
        (Task.addChild child)).modifyTask child fun _ =>
          { parent := some parent
            isCreated := true
            mustDelayRelease := hasWaitClause
            hasWaitClause := hasWaitClause })
    (absent : (system.task child).isCreated = false) (differ : child ≠ parent)
    (created : (system.task parent).isCreated = true)
    (alive : (system.task parent).isFreed = false)
    (stands : Stands (system.drivers parent) parent
      (system.undisposed parent + 1) ((system.task parent).addChild child)) :
    Inv next := by
  obtain ⟨undriven, pristine⟩ := inv.pristine child absent
  have childTask : next.task child =
      { parent := some parent
        isCreated := true
        mustDelayRelease := hasWaitClause
        hasWaitClause := hasWaitClause } := by
    rw [nextIs, System.task_modifyTask, if_pos rfl]
  have parentTask : next.task parent =
      (system.task parent).addChild child := by
    rw [nextIs, System.task_modifyTask, if_neg differ.symm,
      System.task_modifyTask, if_pos rfl, System.task_uses]
  have otherTask : ∀ other, other ≠ child → other ≠ parent →
      next.task other = system.task other := by
    intro other notChild notParent
    rw [nextIs, System.task_modifyTask, if_neg notChild,
      System.task_modifyTask, if_neg notParent, System.task_uses]
  have drivers : ∀ other, next.drivers other = system.drivers other := by
    intro other
    rw [nextIs]
    rfl
  have notMember : ∀ other, child ∉ (system.task other).children := by
    intro other member
    have orphan := pristine.parent
    rw [(inv.mem_children child other).mp member] at orphan
    cases orphan
  have unlinked : ∀ other, other ≠ child →
      (next.task other).isUnlinked = (system.task other).isUnlinked := by
    intro other notChild
    by_cases isParent : other = parent
    · rw [isParent, parentTask]
      rfl
    · rw [otherTask other notChild isParent]
  have sameUndisposed : ∀ other, other ≠ parent → other ≠ child →
      next.undisposed other = system.undisposed other := by
    intro other notParent notChild
    refine System.undisposed_congr
      (by rw [otherTask other notChild notParent]) fun sibling member => ?_
    refine unlinked sibling ?_
    rintro rfl
    exact notMember other member
  refine
    { mem_children := ?_
      nodup := ?_
      parent_ne := ?_
      stands := ?_
      pristine := ?_
      unused := ?_ }
  · intro other registrar
    by_cases isParent : registrar = parent
    · subst isParent
      rw [parentTask]
      simp only [Task.addChild, List.mem_append, List.mem_singleton]
      by_cases isChild : other = child
      · subst isChild
        rw [childTask]
        simp
      · rw [or_iff_left isChild, inv.mem_children]
        by_cases isOwn : other = registrar
        · subst isOwn
          rw [parentTask]
          rfl
        · rw [otherTask other isChild isOwn]
    · have others : (next.task registrar).children =
          (system.task registrar).children ∨
            registrar = child ∧ (next.task registrar).children = [] := by
        by_cases isChild : registrar = child
        · right
          rw [isChild, childTask]
          exact ⟨rfl, rfl⟩
        · left
          rw [otherTask registrar isChild isParent]
      have before := inv.mem_children other registrar
      by_cases isChild : other = child
      · subst isChild
        rw [childTask]
        simp only [Option.some.injEq, Ne.symm isParent, iff_false]
        rcases others with same | ⟨-, none⟩
        · rw [same]
          exact notMember registrar
        · rw [none]
          exact List.not_mem_nil
      · have sameParent : (next.task other).parent =
            (system.task other).parent := by
          by_cases isOwn : other = parent
          · rw [isOwn, parentTask]
            rfl
          · rw [otherTask other isChild isOwn]
        rw [sameParent, ← before]
        rcases others with same | ⟨isChild, none⟩
        · rw [same]
        · rw [none, isChild, pristine.children]
  · intro other
    by_cases isParent : other = parent
    · subst isParent
      rw [parentTask]
      simp only [Task.addChild]
      refine List.Nodup.append (inv.nodup other) (List.nodup_singleton _) ?_
      intro sibling member again
      rw [List.mem_singleton] at again
      subst again
      exact notMember other member
    · by_cases isChild : other = child
      · rw [isChild, childTask]
        exact List.nodup_nil
      · rw [otherTask other isChild isParent]
        exact inv.nodup other
  · intro other
    by_cases isParent : other = parent
    · subst isParent
      rw [parentTask]
      exact inv.parent_ne other
    · by_cases isChild : other = child
      · subst isChild
        rw [childTask]
        simpa using differ.symm
      · rw [otherTask other isChild isParent]
        exact inv.parent_ne other
  · intro other otherCreated
    rw [drivers]
    by_cases isParent : other = parent
    · subst isParent
      have more : next.undisposed other = system.undisposed other + 1 := by
        unfold System.undisposed
        rw [parentTask]
        simp only [Task.addChild, List.countP_append, List.countP_singleton]
        rw [childTask]
        simp only [Bool.not_false, if_true]
        congr 1
        refine List.countP_congr fun sibling member => ?_
        rw [unlinked sibling]
        rintro rfl
        exact notMember other member
      rw [more, parentTask]
      exact stands
    · by_cases isChild : other = child
      · subst isChild
        have none : next.undisposed other = 0 := by
          unfold System.undisposed
          rw [childTask]
          rfl
        rw [none, undriven, childTask]
        refine ⟨.young, ?_, Or.inl ⟨rfl, rfl⟩⟩
        constructor <;> try rfl
        all_goals simp [Stage.waits, Stage.isPastWait, Stage.isFulfilled]
      · rw [otherTask other isChild isParent] at otherCreated
        rw [sameUndisposed other isParent isChild,
          otherTask other isChild isParent]
        exact inv.stands other otherCreated
  · intro other stillAbsent
    rw [drivers]
    by_cases isParent : other = parent
    · subst isParent
      rw [parentTask] at stillAbsent
      simp only [Task.addChild, created] at stillAbsent
      cases stillAbsent
    · by_cases isChild : other = child
      · rw [isChild, childTask] at stillAbsent
        cases stillAbsent
      · rw [otherTask other isChild isParent] at stillAbsent ⊢
        exact inv.pristine other stillAbsent
  · rw [nextIs]
    change (system.usedAfterFree || (system.task parent).isFreed) = false
    rw [inv.unused, alive]
    rfl

theorem submit (inv : Inv system) {parent child : TaskId}
    {hasWaitClause : Bool} {next : System} {ndebug : Bool}
    (submitted : step ndebug system (.submit parent child hasWaitClause) =
      some next) : Inv next := by
  simp only [step] at submitted
  split at submitted
  case isFalse => cases submitted
  case isTrue allowed =>
  obtain ⟨running, absent, differ⟩ := allowed
  obtain ⟨here, blocks, started, only⟩ := inv.runs running
  refine inv.adopts (Option.some.inj submitted).symm absent differ here.created
    here.isFreed ?_
  rw [only]
  refine ⟨.young, here.addChild rfl child, Or.inr ⟨_, rfl, ?_⟩⟩
  simp [Activity.fits, Task.addChild, blocks, started]

theorem start (inv : Inv system) {next : System} {ndebug : Bool}
    (started : step ndebug system (.start task) = some next) : Inv next := by
  simp only [step] at started
  split at started
  case isFalse => cases started
  case isTrue ready =>
  simp only [Bool.and_eq_true, Bool.not_eq_true'] at ready
  obtain ⟨created, notStarted⟩ := ready
  obtain ⟨stage, here, situation⟩ := inv.stands task created
  have young : stage = .young := by
    by_contra later
    rw [here.started later] at notStarted
    cases notStarted
  subst young
  obtain ⟨none, blocks⟩ : system.drivers task = [] ∧
      (system.task task).blocksRemoval = true := by
    rw [notStarted] at situation
    rcases situation with ⟨none, rests⟩ | ⟨driver, -, fits⟩
    · refine ⟨none, ?_⟩
      simpa [Stage.rests] using rests
    · exfalso
      cases driver with
      | free other following =>
          simp only [Activity.fits] at fits
          split at fits <;> simp [Stage.isCalled] at fits
      | _ => simp [Activity.fits, Stage.isCalled] at fits
  refine inv.changesTask task _ created here.isFreed _
    (Option.some.inj started).symm rfl rfl rfl rfl ?_ ?_
  · intro other differ
    simp [Activity.drives, Activity.task, differ]
  · rw [none]
    refine ⟨.young, { here with started := fun _ => rfl },
      Or.inr ⟨.body task, by simp [Activity.drives, Activity.task], ?_⟩⟩
    simp [Activity.fits, blocks]

/-- A thread looks at a task that is alive. -/
theorem uses (inv : Inv system)
    (alive : (system.task task).isFreed = false) : Inv (system.uses task) :=
  { inv with
    unused := by
      change (system.usedAfterFree || (system.task task).isFreed) = false
      rw [inv.unused, alive]
      rfl }

theorem taskwait (inv : Inv system) {next : System} {ndebug : Bool}
    (called : step ndebug system (.taskwait index) = some next) :
    Inv next := by
  simp only [step] at called
  split at called
  case h_2 => cases called
  case h_1 task found =>
  split at called
  · cases called
    exact inv.uses (inv.runs (List.mem_of_getElem? found)).1.isFreed
  · cases called
    refine inv.reads found (by simp [Activity.drives, Activity.task]) ?_ ?_
    · intro other differ
      simp [Activity.drives, Activity.task, differ]
    · intro stage here fits
      exact ⟨stage, here, Or.inr ⟨.markAsBlocked task,
        by simp [Activity.drives, Activity.task], fits⟩⟩

theorem finish (inv : Inv system) {next : System} {ndebug : Bool}
    (finished : step ndebug system (.finish index) = some next) :
    Inv next := by
  simp only [step] at finished
  split at finished
  case h_2 => cases finished
  case h_1 task found =>
  cases finished
  refine inv.reads found (by simp [Activity.drives, Activity.task]) ?_ ?_
  · intro other differ
    simp [Activity.drives, Activity.task, differ]
  · intro stage here fits
    exact ⟨stage, here, Or.inr ⟨.markAsFinished task,
      by simp [Activity.drives, Activity.task], fits⟩⟩

theorem increaseEvents (inv : Inv system) {amount : Nat} {next : System}
    {ndebug : Bool}
    (room : (system.task task).countdownToRelease + amount < 2 ^ 31)
    (increased : step ndebug system (.increaseEvents task amount) =
      some next) : Inv next := by
  simp only [step] at increased
  split at increased
  case isFalse => cases increased
  case isTrue running =>
  obtain ⟨here, blocks, started, only⟩ := inv.runs running.1
  refine inv.changesTask task [] here.created here.isFreed
    (Task.increaseEvents amount) ?_ rfl rfl rfl rfl (fun _ _ => rfl) ?_
  · rw [← Option.some.inj increased, List.append_nil]
    rfl
  · rw [only]
    refine ⟨.young, here.increaseEvents rfl room, Or.inr ⟨_, rfl, ?_⟩⟩
    simp [Activity.fits, Task.increaseEvents, blocks, started]

/-- A task that still has events is alive, and its release waits for them. -/
theorem decreaseEvents (inv : Inv system) {amount : Nat} {next : System}
    {ndebug : Bool}
    (decreased : step ndebug system (.decreaseEvents task amount) =
      some next) : Inv next := by
  simp only [step] at decreased
  split at decreased
  case isFalse => cases decreased
  case isTrue allowed =>
  obtain ⟨positive, -, enough⟩ := allowed
  have created : (system.task task).isCreated = true := by
    by_contra absent
    have none := (inv.pristine task (Bool.eq_false_iff.mpr absent)).2.events
    omega
  obtain ⟨stage, here, situation⟩ := inv.stands task created
  have unfulfilled : stage.isFulfilled = false := by
    by_contra fulfilled
    have none := here.events (Bool.of_not_eq_false fulfilled)
    omega
  have notFreed : (system.task task).isFreed = false := by
    rw [here.isFreed]
    cases stage <;> simp [Stage.isFulfilled] at unfulfilled ⊢
  have release := here.release
  have limit := here.fits
  rw [System.task_modifyTask, if_pos rfl, System.task_uses] at decreased
  split at decreased
  · -- The task has come to its end and this was the last event.
    rename_i zero
    simp only [Task.decreaseEvents, wrapInt, beq_iff_eq] at zero
    have released : (system.task task).blocksRelease = false := by
      by_contra blocks
      rw [Bool.of_not_eq_false blocks] at release
      simp only [Bool.toNat_true] at release
      omega
    have awaiting : stage = .awaiting := by
      rw [here.blocksRelease] at released
      cases stage <;>
        simp [Stage.isFulfilled, Stage.blocksRelease] at unfulfilled released ⊢
    subst awaiting
    have all : amount = (system.task task).events := by
      rw [released] at release
      simp only [Bool.toNat_false] at release
      omega
    subst all
    obtain ⟨none, blocks⟩ : system.drivers task = [] ∧
        (system.task task).blocksRemoval = true := by
      rcases situation with ⟨none, rests⟩ | ⟨driver, -, fits⟩
      · exact ⟨none, rests⟩
      · exfalso
        cases driver with
        | free other following hasComputePlace =>
            simp only [Activity.fits] at fits
            split at fits <;> simp [Stage.isCalled] at fits
        | _ => simp [Activity.fits, Stage.isCalled] at fits
    refine inv.changesTask task _ created notFreed _
      (Option.some.inj decreased).symm rfl rfl rfl rfl ?_ ?_
    · intro other differ
      simp [Activity.drives, Activity.task, differ]
    · rw [none]
      refine ⟨.fulfilled, here.fulfill, Or.inr
        ⟨.unregisterTaskDataAccesses task .decreaseTaskEventCounter,
          by simp [Activity.drives, Activity.task], ?_⟩⟩
      simp [Activity.fits, Task.decreaseEvents, blocks]
  · rename_i notZero
    simp only [Task.decreaseEvents, wrapInt, beq_iff_eq] at notZero
    refine inv.changesTask task [] created notFreed
      (Task.decreaseEvents amount) ?_ rfl rfl rfl rfl (fun _ _ => rfl) ?_
    · rw [← Option.some.inj decreased, List.append_nil]
      rfl
    · rw [List.filter_nil, List.append_nil]
      refine ⟨stage, here.decreaseEvents enough ?_, situation⟩
      intro awaiting
      subst awaiting
      rw [here.blocksRelease] at release
      simp only [Stage.blocksRelease, Bool.toNat_false] at release
      omega

/-- The dependency system blocks the removal of a task only while the task
itself does so. -/
theorem increaseRemovalBlockers (inv : Inv system) {next : System}
    {ndebug : Bool}
    (increased : step ndebug system (.increaseRemovalBlockers task) =
      some next) : Inv next := by
  simp only [step] at increased
  split at increased
  case isFalse => cases increased
  case isTrue allowed =>
  have blocking : (system.task task).isCreated = true ∧
      ∃ stage, (system.task task).IsAt stage (system.undisposed task) ∧
        (system.task task).blocksRemoval = true ∧ stage ≠ .freed ∧
        ∀ isOver,
          (system.drivers task = [] ∧
            stage.rests true (system.task task).isStarted isOver = true) ∨
          ∃ driver, system.drivers task = [driver] ∧
            driver.fits task stage true (system.task task).isStarted isOver =
              true := by
    simp only [Bool.or_eq_true, Bool.and_eq_true, Bool.not_eq_true',
      List.any_eq_true] at allowed
    rcases allowed with ⟨created, notStarted⟩ | ⟨driver, member, may⟩
    · obtain ⟨stage, here, situation⟩ := inv.stands task created
      have young : stage = .young := by
        by_contra later
        rw [here.started later] at notStarted
        cases notStarted
      subst young
      rw [notStarted] at situation
      have rest : system.drivers task = [] ∧
          (system.task task).blocksRemoval = true := by
        rcases situation with ⟨none, rests⟩ | ⟨driver, -, fits⟩
        · exact ⟨none, by simpa [Stage.rests] using rests⟩
        · exfalso
          cases driver with
          | free other following hasComputePlace =>
              simp only [Activity.fits] at fits
              split at fits <;> simp [Stage.isCalled] at fits
          | _ => simp [Activity.fits, Stage.isCalled] at fits
      refine ⟨created, .young, here, rest.2, by simp, fun isOver => ?_⟩
      exact Or.inl ⟨rest.1, by simp [Stage.rests, notStarted]⟩
    · obtain ⟨index, found⟩ := List.mem_iff_getElem?.mp member
      have drives : driver.drives task = true := by
        cases driver <;>
          simp_all [Activity.mayBlockRemoval, Activity.drives, Activity.task]
      obtain ⟨stage, here, fits, drivers⟩ := inv.driven found drives
      have blocks : (system.task task).blocksRemoval = true := by
        cases driver <;>
          simp_all [Activity.mayBlockRemoval, Activity.fits]
      have own := drivers [driver]
      rw [List.filter_cons_of_pos drives, List.filter_nil, drivers_goesOn,
        ← drivers_split found] at own
      rw [blocks] at fits
      exact ⟨here.created, stage, here, blocks, Activity.fits_ne_freed fits,
        fun isOver => Or.inr ⟨driver, own, fits_of_blocks isOver fits⟩⟩
  obtain ⟨created, stage, here, blocks, notFreed, situation⟩ := blocking
  refine inv.changesTask task [] created ?_
    (Task.increaseRemovalBlockers 1) ?_ rfl rfl rfl rfl (fun _ _ => rfl) ?_
  · rw [here.isFreed]
    simpa using notFreed
  · rw [← Option.some.inj increased, List.append_nil]
    rfl
  · rw [List.filter_nil, List.append_nil]
    refine ⟨stage, here.increaseRemovalBlockers 1, ?_⟩
    have same : (Task.increaseRemovalBlockers 1
        (system.task task)).blocksRemoval = true :=
      blocks
    rw [same]
    exact situation _

theorem decreaseRemovalBlockers (inv : Inv system) {next : System}
    {ndebug hasComputePlace : Bool}
    (restored : ∀ caller,
      .increaseRemovalBlockingCount task caller ∈ system.activities →
        (system.task task).countdownToBeWokenUp ≠ 1)
    (decreased : step ndebug system
      (.decreaseRemovalBlockers task hasComputePlace) = some next) : Inv next := by
  simp only [step] at decreased
  split at decreased
  case isFalse => cases decreased
  case isTrue some =>
  have created : (system.task task).isCreated = true := by
    by_contra absent
    have none := (inv.pristine task (Bool.eq_false_iff.mpr absent)).2.blockers
    omega
  have stands := inv.stands task created
  have notOver :
      (system.task task).isOver (system.undisposed task) = false := by
    rw [Bool.eq_false_iff, Ne, isOver_iff]
    omega
  have notFreed : (system.task task).isFreed = false := by
    obtain ⟨stage, here, situation⟩ := stands
    rw [here.isFreed]
    by_contra freed
    rw [Bool.not_eq_false, beq_iff_eq] at freed
    subst freed
    rcases situation with ⟨-, rests⟩ | ⟨driver, -, fits⟩
    · simp only [Stage.rests, Bool.and_eq_true, notOver] at rests
      cases rests.2
    · exact Activity.fits_ne_freed fits rfl
  obtain ⟨stays, reached⟩ :=
    stands_less (system.undisposed task)
      (system.task task).decreaseRemovalBlockers stands notOver rfl rfl
      (fun stage here => here.decreaseRemovalBlockers some)
      (by
        intro zero other caller only
        have member : Activity.increaseRemovalBlockingCount other caller ∈
            system.drivers task := by
          simp [only]
        obtain ⟨inList, drives⟩ := List.mem_filter.mp member
        simp only [Activity.drives, Activity.task, beq_iff_eq] at drives
        subst drives
        simp only [Task.decreaseRemovalBlockers] at zero
        exact restored caller inList (by omega))
  rw [System.task_modifyTask, if_pos rfl, System.task_uses] at decreased
  split at decreased
  · rename_i zero
    obtain ⟨none, stage, after, called⟩ := reached (beq_iff_eq.mp zero)
    refine inv.changesTask task _ created notFreed _
      (Option.some.inj decreased).symm rfl rfl rfl rfl ?_ ?_
    · intro other differ
      simp [Activity.drives, Activity.task, differ]
    · rw [none]
      exact ⟨stage, after, Or.inr ⟨.disposeOrUnblockTask task hasComputePlace,
        by simp [Activity.drives, Activity.task], called⟩⟩
  · rename_i notZero
    refine inv.changesTask task [] created notFreed
      Task.decreaseRemovalBlockers ?_ rfl rfl rfl rfl (fun _ _ => rfl) ?_
    · rw [← Option.some.inj decreased, List.append_nil]
      rfl
    · rw [List.filter_nil, List.append_nil]
      exact stays fun zero => notZero (beq_iff_eq.mpr zero)

end Inv

end Nanos6.Lifecycle
