import Mathlib.Data.List.Nodup
import Nanos6.Foundation.LabelledRun
import Nanos6.Foundation.Ownership

/-!
# User mutexes

`nanos6_user_lock` allocates the mutex in the locked state if nobody has done so
before, then tries the flag once, and at last queues the task under the spin
lock of the queue.  `nanos6_user_unlock` takes the first blocked task out of the
queue and hands the mutex over to it without clearing the flag; it clears the
flag only when the queue is empty.

Each task is at one point of these two functions, and each step is one access to
the handler, to the flag, to the spin lock or to the queue.  The fast path does
not take the spin lock, so it runs beside every critical section.
-/

namespace Nanos6.UserMutex

open Foundation

abbrev TaskId := Nat

/-- Where a task is in `nanos6_user_lock` or `nanos6_user_unlock`. -/
inductive Point where
  /-- The task neither holds the mutex nor asks for it. -/
  | outside
  /-- The handler was null: before its compare and exchange. -/
  | allocating
  /-- Before the `tryLock` of the fast path. -/
  | trying
  /-- Before `lockOrQueue` gets the spin lock. -/
  | queueing
  /-- In `lockOrQueue`, before its `tryLock`. -/
  | retrying
  /-- In `lockOrQueue`, with the mutex. -/
  | acquired
  /-- In `lockOrQueue`, before `push_back`. -/
  | pushing
  /-- In `lockOrQueue`, in the queue. -/
  | pushed
  /-- In the queue, out of the critical section. -/
  | blocked
  /-- Out of the queue, and not resumed yet. -/
  | granted
  /-- Resumed, and not executing yet. -/
  | ready
  /-- Executing with the mutex. -/
  | holding
  /-- Before `dequeueOrUnlock` gets the spin lock. -/
  | unlocking
  /-- In `dequeueOrUnlock`, before it looks at the queue. -/
  | dequeuing
  /-- In `dequeueOrUnlock`, with an empty queue. -/
  | clearing
  /-- In `dequeueOrUnlock`, after the flag has been cleared. -/
  | cleared
  /-- In `dequeueOrUnlock`, with the task that gets the mutex. -/
  | popped (releasedTask : TaskId)
  /-- Out of the critical section, before the task is resumed. -/
  | resuming (releasedTask : TaskId)
  deriving DecidableEq, Repr

namespace Point

/-- The task has the spin lock of the queue. -/
def isInside : Point → Bool
  | .retrying | .acquired | .pushing | .pushed | .dequeuing | .clearing
  | .cleared | .popped _ => true
  | _ => false

/-- The mutex belongs to the task. -/
def holds : Point → Bool
  | .acquired | .granted | .ready | .holding | .unlocking | .dequeuing
  | .clearing => true
  | _ => false

/-- The task is in the queue. -/
def isQueued : Point → Bool
  | .pushed | .blocked => true
  | _ => false

/-- The mutex has been allocated when a task is here. -/
def knowsMutex : Point → Bool
  | .outside | .allocating => false
  | _ => true

def isGranted : Point → Bool
  | .granted => true
  | _ => false

/-- The task that the unlocking task is going to resume. -/
def releasedTask : Point → Option TaskId
  | .popped task | .resuming task => some task
  | _ => none

/-- The task is going to resume another one. -/
def releases (point : Point) : Bool :=
  point.releasedTask.isSome

end Point

structure State where
  /-- The handler is not null. -/
  allocated : Bool := false
  /-- The flag `_userMutex`. -/
  userMutex : Bool := false
  /-- The task that has the spin lock `_blockedTasksLock`. -/
  blockedTasksLock : Option TaskId := none
  blockedTasks : List TaskId := []
  point : TaskId → Point := fun _ => .outside
  /-- The tasks that have been put in the queue so far, in order. -/
  queuedSoFar : List TaskId := []
  /-- The tasks to which an unlock has handed the mutex over, in order. -/
  grantedSoFar : List TaskId := []

namespace State

def setPoint (state : State) (task : TaskId) (point : Point) : State :=
  { state with point := Function.update state.point task point }

/-- The task gets the spin lock if nobody has it. -/
def acquire (state : State) (task : TaskId) (inside : Point) : Option State :=
  match state.blockedTasksLock with
  | none =>
      some { state.setPoint task inside with blockedTasksLock := some task }
  | some _ => none

def release (state : State) (task : TaskId) (after : Point) : State :=
  { state.setPoint task after with blockedTasksLock := none }

/-- The exchange of the flag: the task is at one point if it succeeds and at
another if it fails. -/
def tryLock (state : State) (task : TaskId) (success failure : Point) :
    State :=
  if state.userMutex then
    state.setPoint task failure
  else
    { state.setPoint task success with userMutex := true }

/-- The exchange of the handler; a new mutex is locked and its queue empty. -/
def exchangeHandler (state : State) (task : TaskId) : State :=
  if state.allocated then
    state.setPoint task .trying
  else
    { state.setPoint task .holding with
      allocated := true
      userMutex := true
      blockedTasks := [] }

def pushBack (state : State) (task : TaskId) : State :=
  { state.setPoint task .pushed with
    blockedTasks := state.blockedTasks ++ [task]
    queuedSoFar := state.queuedSoFar ++ [task] }

/-- The first blocked task gets the mutex, if there is one. -/
def popFront (state : State) (task : TaskId) : State :=
  match state.blockedTasks with
  | [] => state.setPoint task .clearing
  | first :: rest =>
      { (state.setPoint task (.popped first)).setPoint first .granted with
        blockedTasks := rest
        grantedSoFar := state.grantedSoFar ++ [first] }

end State

inductive Action where
  /-- The task calls `nanos6_user_lock` and reads the handler. -/
  | lock (task : TaskId)
  /-- The task calls `nanos6_user_unlock`. -/
  | unlock (task : TaskId)
  /-- The next step of the function in which the task is. -/
  | advance (task : TaskId)
  deriving DecidableEq, Repr

/-- The next step of a task, by the point at which it is.  A blocked task and a
granted one are moved by the task that unlocks the mutex. -/
def advance (state : State) (task : TaskId) : Option State :=
  match state.point task with
  | .outside => none
  | .allocating => some (state.exchangeHandler task)
  | .trying => some (state.tryLock task .holding .queueing)
  | .queueing => state.acquire task .retrying
  | .retrying => some (state.tryLock task .acquired .pushing)
  | .acquired => some (state.release task .holding)
  | .pushing => some (state.pushBack task)
  | .pushed => some (state.release task .blocked)
  | .blocked => none
  | .granted => none
  | .ready => some (state.setPoint task .holding)
  | .holding => none
  | .unlocking => state.acquire task .dequeuing
  | .dequeuing => some (state.popFront task)
  | .clearing =>
      some { state.setPoint task .cleared with userMutex := false }
  | .cleared => some (state.release task .outside)
  | .popped releasedTask => some (state.release task (.resuming releasedTask))
  | .resuming releasedTask =>
      some ((state.setPoint task .outside).setPoint releasedTask .ready)

/-- Only a task that executes with the mutex unlocks it. -/
def step (state : State) : Action → Option State
  | .lock task =>
      if state.point task = .outside then
        some (state.setPoint task
          (if state.allocated then .trying else .allocating))
      else none
  | .unlock task =>
      if state.point task = .holding then
        some (state.setPoint task .unlocking)
      else none
  | .advance task => advance state task

/-! ## The invariant -/

/-- The tasks that own something in a state. -/
structure Owners where
  /-- The task to which the mutex belongs. -/
  holder : Option TaskId := none
  /-- The task that is going to resume another one. -/
  unlocker : Option TaskId := none
  /-- The task that is going to be resumed. -/
  granted : Option TaskId := none

/-- Whoever owns anything of the mutex knows it. -/
theorem Point.knowsMutex_of_owns {point : Point}
    (owns : point.holds = true ∨ point.isQueued = true ∨
      point.releases = true) : point.knowsMutex = true := by
  cases point <;>
    simp_all [Point.holds, Point.isQueued, Point.releases,
      Point.releasedTask, Point.knowsMutex]

/-- The two points own the same, apart from the spin lock. -/
structure Point.Alike (before after : Point) : Prop where
  holds : after.holds = before.holds
  isQueued : after.isQueued = before.isQueued
  releasedTask : after.releasedTask = before.releasedTask
  isGranted : after.isGranted = before.isGranted

/-- What the rest of the state is like when a task is at a point. -/
structure Allows (allocated : Bool) (blockedTasks : List TaskId)
    (owners : Owners) (point : Point) : Prop where
  known : point.knowsMutex = true → allocated = true
  pushing : point = .pushing → owners.holder ≠ none
  clearing : point = .clearing → blockedTasks = []
  released : ∀ task, point.releasedTask = some task →
    owners.granted = some task

structure Invariant (state : State) (owners : Owners) : Prop where
  holds : OwnedBy Point.holds state.point owners.holder
  flag : state.userMutex = owners.holder.isSome
  inside : OwnedBy Point.isInside state.point state.blockedTasksLock
  queued : ListedBy Point.isQueued state.point state.blockedTasks
  nodup : state.blockedTasks.Nodup
  order : state.queuedSoFar = state.grantedSoFar ++ state.blockedTasks
  waiting : state.blockedTasks ≠ [] → owners.holder ≠ none
  releases : OwnedBy Point.releases state.point owners.unlocker
  granted : OwnedBy Point.isGranted state.point owners.granted
  paired : owners.granted ≠ none → owners.unlocker ≠ none
  allows : ∀ task, Allows state.allocated state.blockedTasks owners
    (state.point task)

/-- A task moves to a point that is allowed. -/
theorem Allows.update {allocated : Bool} {blockedTasks : List TaskId}
    {owners : Owners} {points : TaskId → Point}
    (allows : ∀ task, Allows allocated blockedTasks owners (points task))
    {point : Point} (new : Allows allocated blockedTasks owners point)
    (task other : TaskId) :
    Allows allocated blockedTasks owners
      (Function.update points task point other) := by
  by_cases same : other = task
  · subst same
    rw [Function.update_self]
    exact new
  · rw [Function.update_of_ne same]
    exact allows other

namespace Invariant

variable {state next : State} {owners : Owners} {task : TaskId}

theorem unowned (invariant : Invariant state owners)
    (clear : state.userMutex = false) : owners.holder = none := by
  have flag := invariant.flag
  rw [clear] at flag
  exact Option.isNone_iff_eq_none.mp (by simpa using flag.symm)

theorem owned (invariant : Invariant state owners)
    (set : state.userMutex = true) : owners.holder ≠ none := by
  have flag := invariant.flag
  rw [set] at flag
  intro none
  simp [none] at flag

/-- A step to a point that owns the same things, apart from the spin lock. -/
theorem move (invariant : Invariant state owners) {before : Point}
    (after : Point) (here : state.point task = before) (alike : before.Alike after)
    {lock : Option TaskId}
    (inside :
      OwnedBy Point.isInside (Function.update state.point task after) lock)
    (known : after.knowsMutex = true → state.allocated = true)
    (pushing : after = .pushing → owners.holder ≠ none)
    (clearing : after = .clearing → state.blockedTasks = []) :
    Invariant { state.setPoint task after with blockedTasksLock := lock }
      owners := by
  subst here
  exact
    { invariant with
      inside := inside
      holds := invariant.holds.keep alike.holds
      queued := invariant.queued.keep alike.isQueued
      releases :=
        invariant.releases.keep (congrArg Option.isSome alike.releasedTask)
      granted := invariant.granted.keep alike.isGranted
      allows := Allows.update invariant.allows
        { known := known
          pushing := pushing
          clearing := clearing
          released := by
            intro other
            rw [alike.releasedTask]
            exact (invariant.allows task).released other } task }

theorem stay (invariant : Invariant state owners) {before after : Point}
    (here : state.point task = before)
    (same : after.isInside = before.isInside) :
    OwnedBy Point.isInside (Function.update state.point task after)
      state.blockedTasksLock := by
  subst here
  exact invariant.inside.keep same

theorem allocated (invariant : Invariant state owners) {point : Point}
    (here : state.point task = point) (known : point.knowsMutex = true) :
    state.allocated = true := by
  apply (invariant.allows task).known
  rw [here]
  exact known

theorem lock (invariant : Invariant state owners)
    (here : state.point task = .outside) :
    Invariant
      (state.setPoint task (if state.allocated then .trying else .allocating))
      owners := by
  split
  · rename_i allocated
    exact invariant.move .trying here ⟨rfl, rfl, rfl, rfl⟩
      (invariant.stay here rfl) (fun _ => allocated) (by simp) (by simp)
  · exact invariant.move .allocating here ⟨rfl, rfl, rfl, rfl⟩
      (invariant.stay here rfl) (by simp [Point.knowsMutex]) (by simp)
      (by simp)

/-- Nobody owns anything of a mutex that has not been allocated. -/
theorem of_unallocated (invariant : Invariant state owners)
    (missing : state.allocated = false) :
    owners.holder = none ∧ owners.unlocker = none ∧ owners.granted = none ∧
      state.blockedTasks = [] := by
  have unknown : ∀ other, (state.point other).knowsMutex ≠ true := by
    intro other known
    rw [(invariant.allows other).known known] at missing
    cases missing
  have unlocker : owners.unlocker = none := by
    rw [Option.eq_none_iff_forall_ne_some]
    intro other owner
    exact unknown other (Point.knowsMutex_of_owns
      (.inr (.inr ((invariant.releases other).mpr owner))))
  refine ⟨?_, unlocker, ?_, ?_⟩
  · rw [Option.eq_none_iff_forall_ne_some]
    intro other owner
    exact unknown other (Point.knowsMutex_of_owns
      (.inl ((invariant.holds other).mpr owner)))
  · by_contra granted
    exact invariant.paired granted unlocker
  · rw [List.eq_nil_iff_forall_not_mem]
    intro other member
    exact unknown other (Point.knowsMutex_of_owns
      (.inr (.inl ((invariant.queued other).mpr member))))

/-- A free mutex is given to the task. -/
theorem takeMutex (invariant : Invariant state owners) {before : Point}
    (after : Point) (here : state.point task = before)
    (free : owners.holder = none) (holds : after.holds = true)
    (inside : after.isInside = before.isInside)
    (isQueued : after.isQueued = before.isQueued)
    (releasedTask : after.releasedTask = none)
    (released : before.releasedTask = none)
    (isGranted : after.isGranted = before.isGranted)
    (allowed : after ≠ .clearing) {allocated : Bool}
    (known : allocated = true) :
    Invariant
      { state.setPoint task after with
        allocated := allocated, userMutex := true }
      { owners with holder := some task } := by
  subst here
  have unowned : OwnedBy Point.holds state.point none := by
    rw [← free]
    exact invariant.holds
  have others : ∀ other, Allows allocated state.blockedTasks
      { owners with holder := some task } (state.point other) :=
    fun other =>
      { known := fun _ => known
        pushing := fun _ => Option.some_ne_none _
        clearing := (invariant.allows other).clearing
        released := (invariant.allows other).released }
  exact
    { invariant with
      holds := unowned.take holds
      flag := rfl
      inside := invariant.inside.keep inside
      queued := invariant.queued.keep isQueued
      waiting := fun _ => Option.some_ne_none _
      releases := invariant.releases.keep (by
        rw [Point.releases, Point.releases, releasedTask, released])
      granted := invariant.granted.keep isGranted
      allows := Allows.update others
        { known := fun _ => known
          pushing := fun _ => Option.some_ne_none _
          clearing := fun same => absurd same allowed
          released := by
            intro other found
            rw [releasedTask] at found
            cases found } task }

/-- The exchange of the handler gives the mutex to the task that succeeds. -/
theorem exchangeHandler (invariant : Invariant state owners)
    (here : state.point task = .allocating) :
    ∃ after, Invariant (state.exchangeHandler task) after := by
  unfold State.exchangeHandler
  split
  · rename_i allocated
    exact ⟨owners, invariant.move .trying here ⟨rfl, rfl, rfl, rfl⟩
      (invariant.stay here rfl) (fun _ => allocated) (by simp) (by simp)⟩
  · rename_i missing
    obtain ⟨free, -, -, empty⟩ :=
      invariant.of_unallocated (Bool.eq_false_iff.mpr missing)
    refine ⟨{ owners with holder := some task }, ?_⟩
    rw [← empty]
    exact invariant.takeMutex .holding here free rfl rfl rfl rfl rfl rfl
      (by simp) rfl

theorem tryLock (invariant : Invariant state owners) {before : Point}
    (success failure : Point) (here : state.point task = before)
    (known : before.knowsMutex = true) (alike : before.Alike failure)
    (inside : success.isInside = before.isInside ∧
      failure.isInside = before.isInside)
    (isQueued : success.isQueued = before.isQueued)
    (holds : success.holds = true)
    (releasedTask : success.releasedTask = none)
    (released : before.releasedTask = none)
    (isGranted : success.isGranted = before.isGranted)
    (allowed : success ≠ .clearing ∧ failure ≠ .clearing) :
    ∃ after, Invariant (state.tryLock task success failure) after := by
  have allocated := invariant.allocated here known
  unfold State.tryLock
  split
  · rename_i set
    exact ⟨owners, invariant.move failure here alike
      (invariant.stay here inside.2) (fun _ => allocated)
      (fun _ => invariant.owned set) (fun same => absurd same allowed.2)⟩
  · rename_i clear
    refine ⟨{ owners with holder := some task }, ?_⟩
    exact invariant.takeMutex success here
      (invariant.unowned (Bool.eq_false_iff.mpr clear)) holds inside.1
      isQueued releasedTask released isGranted allowed.1 allocated

/-- While a task is in a critical section, no other one is. -/
theorem alone (invariant : Invariant state owners) {other : TaskId}
    {point : Point} (here : state.point task = point)
    (inside : point.isInside = true)
    (differ : other ≠ task) : (state.point other).isInside = false := by
  rw [Bool.eq_false_iff]
  intro otherInside
  subst here
  exact differ (invariant.inside.unique otherInside inside)

theorem pushBack (invariant : Invariant state owners)
    (here : state.point task = .pushing) :
    Invariant (state.pushBack task) owners := by
  have holder : owners.holder ≠ none := (invariant.allows task).pushing here
  have fresh : task ∉ state.blockedTasks := by
    intro member
    have queued := (invariant.queued task).mpr member
    rw [here] at queued
    cases queued
  have others : ∀ other, other ≠ task → state.point other ≠ .clearing := by
    intro other differ same
    have outside := invariant.alone here rfl differ
    rw [same] at outside
    cases outside
  have keeps : ∀ (test : Point → Bool) {owner : Option TaskId},
      OwnedBy test state.point owner →
        test .pushed = test .pushing →
          OwnedBy test (Function.update state.point task .pushed) owner := by
    intro test owner owned same
    exact owned.keep (by rw [here, same])
  exact
    { invariant with
      holds := keeps _ invariant.holds rfl
      inside := keeps _ invariant.inside rfl
      queued := invariant.queued.add rfl
      nodup := by
        change (state.blockedTasks ++ [task]).Nodup
        rw [List.nodup_append]
        refine ⟨invariant.nodup, List.nodup_singleton task, ?_⟩
        intro other member last inLast same
        rw [same, List.mem_singleton.mp inLast] at member
        exact fresh member
      order := by
        change state.queuedSoFar ++ [task] = _
        rw [invariant.order, List.append_assoc]
        rfl
      waiting := fun _ => holder
      releases := keeps _ invariant.releases rfl
      granted := keeps _ invariant.granted rfl
      allows := by
        intro other
        change Allows _ (state.blockedTasks ++ [task]) owners
          (Function.update state.point task .pushed other)
        by_cases same : other = task
        · subst same
          rw [Function.update_self]
          exact ⟨fun _ => invariant.allocated here rfl, by simp, by simp,
            fun _ found => by cases found⟩
        · rw [Function.update_of_ne same]
          have allows := invariant.allows other
          exact ⟨allows.known, allows.pushing,
            fun at' => absurd at' (others other same), allows.released⟩ }

theorem clear (invariant : Invariant state owners)
    (here : state.point task = .clearing) :
    Invariant { state.setPoint task .cleared with userMutex := false }
      { owners with holder := none } := by
  have empty := (invariant.allows task).clearing here
  have keeps : ∀ (test : Point → Bool) {owner : Option TaskId},
      OwnedBy test state.point owner →
        test .cleared = test .clearing →
          OwnedBy test (Function.update state.point task .cleared) owner := by
    intro test owner owned same
    exact owned.keep (by rw [here, same])
  exact
    { invariant with
      holds := invariant.holds.drop (by rw [here]; rfl) rfl
      flag := rfl
      inside := keeps _ invariant.inside rfl
      queued := invariant.queued.keep (by rw [here]; rfl)
      waiting := fun nonempty => absurd empty nonempty
      releases := keeps _ invariant.releases rfl
      granted := keeps _ invariant.granted rfl
      allows := by
        intro other
        change Allows _ state.blockedTasks _
          (Function.update state.point task .cleared other)
        by_cases same : other = task
        · subst same
          rw [Function.update_self]
          exact ⟨fun _ => invariant.allocated here rfl, by simp, by simp,
            fun _ found => by cases found⟩
        · rw [Function.update_of_ne same]
          have allows := invariant.allows other
          refine ⟨allows.known, fun at' => ?_, allows.clearing,
            allows.released⟩
          have outside := invariant.alone here rfl same
          rw [at'] at outside
          cases outside }

/-- The task that unlocks the mutex finds nobody that is being resumed. -/
theorem noneReleased (invariant : Invariant state owners)
    (here : state.point task = .dequeuing) :
    owners.unlocker = none ∧ owners.granted = none := by
  have holder : owners.holder = some task :=
    invariant.holds.owner_eq (by rw [here]; rfl)
  have granted : owners.granted = none := by
    rw [Option.eq_none_iff_forall_ne_some]
    intro other owner
    have isGranted := (invariant.granted other).mpr owner
    have holds : (state.point other).holds = true := by
      cases point : state.point other <;>
        simp_all [Point.isGranted, Point.holds]
    have same := invariant.holds.owner_eq holds
    rw [holder] at same
    rw [← Option.some.inj same, here] at isGranted
    cases isGranted
  refine ⟨?_, granted⟩
  rw [Option.eq_none_iff_forall_ne_some]
  intro other owner
  have releases := (invariant.releases other).mpr owner
  obtain ⟨released, found⟩ := Option.isSome_iff_exists.mp releases
  rw [(invariant.allows other).released released found] at granted
  cases granted

theorem popFront (invariant : Invariant state owners)
    (here : state.point task = .dequeuing) :
    ∃ after, Invariant (state.popFront task) after := by
  unfold State.popFront
  split
  · rename_i empty
    exact ⟨owners, invariant.move .clearing here ⟨rfl, rfl, rfl, rfl⟩
      (invariant.stay here rfl) (fun _ => invariant.allocated here rfl)
      (by simp) (fun _ => empty)⟩
  · rename_i first rest queue
    have allocated := invariant.allocated here rfl
    obtain ⟨unlocker, granted⟩ := invariant.noneReleased here
    have nodup := invariant.nodup
    rw [queue, List.nodup_cons] at nodup
    have differ : first ≠ task := by
      rintro rfl
      have queued := (invariant.queued first).mpr (by simp [queue])
      rw [here] at queued
      cases queued
    -- The first task has left its critical section, in which it was queued.
    have blocked : state.point first = .blocked := by
      have queued := (invariant.queued first).mpr (by simp [queue])
      have outside := invariant.alone here rfl differ
      cases point : state.point first <;>
        simp_all [Point.isQueued, Point.isInside]
    have moved : Function.update state.point task (.popped first) first =
        .blocked := by
      rw [Function.update_of_ne differ, blocked]
    have released : OwnedBy Point.releases state.point none := by
      rw [← unlocker]
      exact invariant.releases
    have ungranted : OwnedBy Point.isGranted state.point none := by
      rw [← granted]
      exact invariant.granted
    have queued : ListedBy Point.isQueued state.point (first :: rest) := by
      rw [← queue]
      exact invariant.queued
    refine ⟨⟨some first, some task, some first⟩, ?_⟩
    exact
      { holds := (invariant.holds.drop (by rw [here]; rfl) rfl).take rfl
        flag := by
          change state.userMutex = true
          rw [invariant.flag,
            invariant.holds.owner_eq (by rw [here]; rfl : _ = true)]
          rfl
        inside :=
          (invariant.inside.keep (by rw [here]; rfl)).keep (by
            rw [moved]; rfl)
        queued := (queued.keep (by rw [here]; rfl)).tail nodup.1 rfl
        nodup := nodup.2
        order := by
          change state.queuedSoFar = (state.grantedSoFar ++ [first]) ++ rest
          rw [invariant.order, queue, List.append_assoc]
          rfl
        waiting := fun _ => Option.some_ne_none _
        releases := (released.take rfl).keep (by rw [moved]; rfl)
        granted := (ungranted.keep (by rw [here]; rfl)).take rfl
        paired := fun _ => Option.some_ne_none _
        allows := by
          intro other
          change Allows state.allocated rest _
            (Function.update (Function.update state.point task
              (.popped first)) first .granted other)
          by_cases isFirst : other = first
          · subst isFirst
            rw [Function.update_self]
            exact ⟨fun _ => allocated, by simp, by simp,
              fun _ found => by cases found⟩
          · rw [Function.update_of_ne isFirst]
            by_cases same : other = task
            · subst same
              rw [Function.update_self]
              exact ⟨fun _ => allocated, by simp, by simp, fun _ found => found⟩
            · rw [Function.update_of_ne same]
              have outside := invariant.alone here rfl same
              refine ⟨fun _ => allocated, fun _ => Option.some_ne_none _,
                fun at' => ?_, fun released found => ?_⟩
              · rw [at'] at outside
                cases outside
              · have impossible :=
                  (invariant.allows other).released released found
                rw [granted] at impossible
                cases impossible }

theorem resume (invariant : Invariant state owners) {released : TaskId}
    (here : state.point task = .resuming released) :
    Invariant ((state.setPoint task .outside).setPoint released .ready)
      ⟨owners.holder, none, none⟩ := by
  have granted : owners.granted = some released :=
    (invariant.allows task).released released (by rw [here]; rfl)
  have isGranted : state.point released = .granted := by
    have isGranted := (invariant.granted released).mpr granted
    cases point : state.point released <;> simp_all [Point.isGranted]
  have differ : released ≠ task := by
    rintro rfl
    rw [here] at isGranted
    cases isGranted
  have moved : Function.update state.point task .outside released =
      .granted := by
    rw [Function.update_of_ne differ, isGranted]
  have unlocker : owners.unlocker = some task :=
    invariant.releases.owner_eq (by rw [here]; rfl)
  exact
    { invariant with
      holds := (invariant.holds.keep (by rw [here]; rfl)).keep (by
        rw [moved]; rfl)
      inside := (invariant.inside.keep (by rw [here]; rfl)).keep (by
        rw [moved]; rfl)
      queued := (invariant.queued.keep (by rw [here]; rfl)).keep (by
        rw [moved]; rfl)
      releases := (invariant.releases.drop (by rw [here]; rfl) rfl).keep (by
        rw [moved]; rfl)
      granted := (invariant.granted.keep (by rw [here]; rfl)).drop (by
        rw [moved]; rfl) rfl
      paired := fun impossible => absurd rfl impossible
      allows := by
        intro other
        change Allows state.allocated state.blockedTasks _
          (Function.update (Function.update state.point task .outside)
            released .ready other)
        by_cases isReleased : other = released
        · subst isReleased
          rw [Function.update_self]
          exact ⟨fun _ => invariant.allocated here rfl, by simp, by simp,
            fun _ found => by cases found⟩
        · rw [Function.update_of_ne isReleased]
          by_cases same : other = task
          · subst same
            rw [Function.update_self]
            exact ⟨fun _ => invariant.allocated here rfl, by simp, by simp,
              fun _ found => by cases found⟩
          · rw [Function.update_of_ne same]
            have allows := invariant.allows other
            refine ⟨allows.known, allows.pushing, allows.clearing,
              fun otherReleased found => ?_⟩
            have releases : (state.point other).releases = true := by
              rw [Point.releases, found]
              rfl
            rw [invariant.releases.owner_eq releases] at unlocker
            exact absurd (Option.some.inj unlocker) same }

theorem acquire (invariant : Invariant state owners) {before : Point}
    (after : Point) (here : state.point task = before)
    (known : before.knowsMutex = true) (alike : before.Alike after)
    (inside : after.isInside = true)
    (allowed : after ≠ .pushing ∧ after ≠ .clearing)
    (acquired : state.acquire task after = some next) :
    Invariant next owners := by
  unfold State.acquire at acquired
  split at acquired
  · rename_i free
    have unlocked : OwnedBy Point.isInside state.point none := by
      rw [← free]
      exact invariant.inside
    cases acquired
    exact invariant.move after here alike (unlocked.take inside)
      (fun _ => invariant.allocated here known)
      (fun same => absurd same allowed.1) (fun same => absurd same allowed.2)
  · cases acquired

theorem release (invariant : Invariant state owners) {before : Point}
    (after : Point) (here : state.point task = before)
    (known : before.knowsMutex = true) (alike : before.Alike after)
    (inside : before.isInside = true) (outside : after.isInside = false)
    (allowed : after ≠ .pushing ∧ after ≠ .clearing) :
    Invariant (state.release task after) owners :=
  invariant.move after here alike
    (invariant.inside.drop (by rw [here]; exact inside) outside)
    (fun _ => invariant.allocated here known)
    (fun same => absurd same allowed.1) (fun same => absurd same allowed.2)

theorem advance (invariant : Invariant state owners)
    (advanced : UserMutex.advance state task = some next) :
    ∃ after, Invariant next after := by
  unfold UserMutex.advance at advanced
  split at advanced
  case h_2 here =>
    cases advanced
    exact invariant.exchangeHandler here
  case h_3 here =>
    cases advanced
    exact invariant.tryLock .holding .queueing here rfl ⟨rfl, rfl, rfl, rfl⟩
      ⟨rfl, rfl⟩ rfl rfl rfl rfl rfl (by simp)
  case h_4 here =>
    exact ⟨owners, invariant.acquire .retrying here rfl ⟨rfl, rfl, rfl, rfl⟩
      rfl (by simp) advanced⟩
  case h_5 here =>
    cases advanced
    exact invariant.tryLock .acquired .pushing here rfl ⟨rfl, rfl, rfl, rfl⟩
      ⟨rfl, rfl⟩ rfl rfl rfl rfl rfl (by simp)
  case h_6 here =>
    cases advanced
    exact ⟨owners, invariant.release .holding here rfl ⟨rfl, rfl, rfl, rfl⟩
      rfl rfl (by simp)⟩
  case h_7 here =>
    cases advanced
    exact ⟨owners, invariant.pushBack here⟩
  case h_8 here =>
    cases advanced
    exact ⟨owners, invariant.release .blocked here rfl ⟨rfl, rfl, rfl, rfl⟩
      rfl rfl (by simp)⟩
  case h_11 here =>
    cases advanced
    exact ⟨owners, invariant.move .holding here ⟨rfl, rfl, rfl, rfl⟩
      (invariant.stay here rfl) (fun _ => invariant.allocated here rfl)
      (by simp) (by simp)⟩
  case h_13 here =>
    exact ⟨owners, invariant.acquire .dequeuing here rfl ⟨rfl, rfl, rfl, rfl⟩
      rfl (by simp) advanced⟩
  case h_14 here =>
    cases advanced
    exact invariant.popFront here
  case h_15 here =>
    cases advanced
    exact ⟨_, invariant.clear here⟩
  case h_16 here =>
    cases advanced
    exact ⟨owners, invariant.release .outside here rfl ⟨rfl, rfl, rfl, rfl⟩
      rfl rfl (by simp)⟩
  case h_17 releasedTask here =>
    cases advanced
    exact ⟨owners, invariant.release (.resuming releasedTask) here rfl
      ⟨rfl, rfl, rfl, rfl⟩ rfl rfl (by simp)⟩
  case h_18 releasedTask here =>
    cases advanced
    exact ⟨_, invariant.resume here⟩
  all_goals cases advanced

theorem step (invariant : Invariant state owners) {action : Action}
    (taken : UserMutex.step state action = some next) :
    ∃ after, Invariant next after := by
  cases action with
  | lock task =>
      dsimp only [UserMutex.step] at taken
      split at taken
      · rename_i here
        cases taken
        exact ⟨owners, invariant.lock here⟩
      · cases taken
  | unlock task =>
      dsimp only [UserMutex.step] at taken
      split at taken
      · rename_i here
        cases taken
        exact ⟨owners, invariant.move .unlocking here ⟨rfl, rfl, rfl, rfl⟩
          (invariant.stay here rfl) (fun _ => invariant.allocated here rfl)
          (by simp) (by simp)⟩
      · cases taken
  | advance task => exact invariant.advance taken

theorem initial : Invariant {} {} where
  holds := by simp [OwnedBy, Point.holds]
  flag := rfl
  inside := by simp [OwnedBy, Point.isInside]
  queued := by simp [ListedBy, Point.isQueued]
  nodup := List.nodup_nil
  order := rfl
  waiting := fun nonempty => absurd rfl nonempty
  releases := by simp [OwnedBy, Point.releases, Point.releasedTask]
  granted := by simp [OwnedBy, Point.isGranted]
  paired := fun impossible => absurd rfl impossible
  allows := fun _ =>
    ⟨fun known => (by cases known), by simp, by simp,
      fun _ found => by cases found⟩

end Invariant

/-- A state that some run reaches from the null handler. -/
def Reaches (state : State) : Prop :=
  Run step (fun _ _ => True) {} state

theorem invariant_of_reaches {state : State} (reached : Reaches state) :
    ∃ owners, Invariant state owners := by
  unfold Reaches at reached
  apply reached.invariant ⟨{}, Invariant.initial⟩
  intro state action next known _ taken
  obtain ⟨owners, invariant⟩ := known
  exact invariant.step taken

/-! ## What the mutex guarantees -/

structure State.IsFair (state : State) : Prop where
  exclusive : ∀ first second, (state.point first).holds = true →
    (state.point second).holds = true → first = second
  locked : state.userMutex = true ↔ ∃ task, (state.point task).holds = true
  /-- Nobody waits for a mutex that no task holds. -/
  waiting : state.blockedTasks ≠ [] →
    ∃ task, (state.point task).holds = true
  queued : ∀ task, task ∈ state.blockedTasks ↔
    (state.point task).isQueued = true
  once : state.blockedTasks.Nodup
  apart : ∀ task ∈ state.blockedTasks, (state.point task).holds = false
  /-- The grants are the first insertions in the queue, in their order, and the
  others are still in the queue. -/
  order : state.queuedSoFar = state.grantedSoFar ++ state.blockedTasks
  /-- A granted task is resumed by one unlock. -/
  granted : ∀ task, state.point task = .granted →
    ∃ unlocker, ∀ other,
      (state.point other).releasedTask = some task ↔ other = unlocker
  /-- A free mutex leaves nobody behind. -/
  served : (∀ task, (state.point task).holds = false) →
    state.grantedSoFar = state.queuedSoFar

theorem Point.holds_of_isQueued {point : Point}
    (queued : point.isQueued = true) : point.holds = false := by
  cases point <;> simp_all [Point.isQueued, Point.holds]

theorem isFair_of_reaches {state : State} (reached : Reaches state) :
    state.IsFair := by
  obtain ⟨owners, invariant⟩ := invariant_of_reaches reached
  have held : state.userMutex = true ↔
      ∃ task, (state.point task).holds = true := by
    rw [invariant.flag, Option.isSome_iff_exists]
    exact exists_congr fun task => (invariant.holds task).symm
  have waiting : state.blockedTasks ≠ [] →
      ∃ task, (state.point task).holds = true := by
    intro nonempty
    obtain ⟨holder, owner⟩ :=
      Option.ne_none_iff_exists'.mp (invariant.waiting nonempty)
    exact ⟨holder, (invariant.holds holder).mpr owner⟩
  exact
    { exclusive := fun _ _ first second =>
        invariant.holds.unique first second
      locked := held
      waiting := waiting
      queued := fun task => (invariant.queued task).symm
      once := invariant.nodup
      apart := fun task member =>
        Point.holds_of_isQueued ((invariant.queued task).mpr member)
      order := invariant.order
      granted := by
        intro task here
        have owner : owners.granted = some task :=
          (invariant.granted task).mp (by rw [here]; rfl)
        obtain ⟨unlocker, released⟩ := Option.ne_none_iff_exists'.mp
          (invariant.paired (by rw [owner]; exact Option.some_ne_none _))
        refine ⟨unlocker, fun other => ⟨fun found => ?_, ?_⟩⟩
        · have releases : (state.point other).releases = true := by
            rw [Point.releases, found]
            rfl
          rw [invariant.releases.owner_eq releases] at released
          exact Option.some.inj released
        · rintro rfl
          obtain ⟨target, found⟩ := Option.isSome_iff_exists.mp
            ((invariant.releases other).mpr released)
          rw [found, ← owner]
          exact ((invariant.allows other).released target found).symm
      served := by
        intro free
        have empty : state.blockedTasks = [] := by
          by_contra nonempty
          obtain ⟨task, holds⟩ := waiting nonempty
          rw [free task] at holds
          cases holds
        rw [invariant.order, empty, List.append_nil] }

/-- Task 1 allocates the mutex, task 2 is queued, and the unlock of task 1 hands
the mutex over to it. -/
def handover : List Action :=
  .lock 1 :: .advance 1 :: .lock 2 ::
    List.replicate 5 (.advance 2) ++ .unlock 1 ::
    List.replicate 4 (.advance 1) ++ [.advance 2]

theorem isFair_handover :
    ∃ state, Reaches state ∧ state.point 2 = .holding ∧
      state.queuedSoFar = [2] ∧ state.grantedSoFar = [2] ∧
      state.IsFair := by
  let served (state : State) : Bool :=
    decide (state.point 2 = .holding) && decide (state.queuedSoFar = [2]) &&
      decide (state.grantedSoFar = [2])
  obtain ⟨state, run, holds⟩ :
      ∃ state, Run step (fun _ _ => True) {} state ∧ served state = true :=
    exists_run_of_executeAllowed handover {} served (by decide)
  simp only [served, Bool.and_eq_true, decide_eq_true_eq] at holds
  exact ⟨state, run, holds.1.1, holds.1.2, holds.2, isFair_of_reaches run⟩

end Nanos6.UserMutex
