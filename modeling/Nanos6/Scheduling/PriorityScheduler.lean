import Mathlib.Algebra.Order.Ring.Int
import Mathlib.Data.List.Basic
import Mathlib.Logic.Function.Basic
import Nanos6.Foundation.LabelledRun

/-!
# The priority scheduler

Ready tasks wait in priority classes, in the immediate successor slot of a CPU,
or go straight to a thread that polls a slot of its own.  At most one polling
thread has its slot registered.  A thread that adds a task takes the registered
slot with one atomic operation and stores the task in it with a second one.

Every call is a state machine of its own; a step of it is one atomic operation
or one critical section of the global lock.  The lock is held from one step to
the next only while a task is stored in a slot that was taken under it, and the
lock of a priority class only between the critical section that chooses the
class and the insertion of the task.
-/

namespace Nanos6.Scheduling

open Foundation

abbrev TaskId := Nat

abbrev CPU := Nat

/-- A `polling_slot_t`; each waiting call has one of its own. -/
abbrev SlotId := Nat

abbrev CallId := Nat

inductive ReadyTaskHint where
  | noHint
  | childTask
  | siblingTask
  | busyComputePlaceTask
  | unblockedTask
  deriving DecidableEq, Repr

/-- `-priority`, for a priority of type `long`.  The negation of the least
priority does not fit and wraps around to the least priority. -/
def negated (priority : Int) : Int :=
  (-priority).bmod (2 ^ 64)

/-- A class of `_tasks`, under the negated priority. -/
structure PriorityClass where
  key : Int
  queue : List TaskId := []
  locked : Bool := false
  deriving DecidableEq, Repr

/-- The arguments of `addReadyTask`, with the priority of the task. -/
structure Addition where
  task : TaskId
  computePlace : Option CPU
  hint : ReadyTaskHint
  priority : Int
  doGetIdle : Bool
  deriving DecidableEq, Repr

/-- The hint lets the task go to the immediate successor slot. -/
def ReadyTaskHint.allowsImmediateSuccessor : ReadyTaskHint → Bool
  | .noHint => true
  | .siblingTask => true
  | _ => false

def ReadyTaskHint.pushesFront : ReadyTaskHint → Bool
  | .unblockedTask => true
  | .childTask => true
  | _ => false

/-- A call in progress, at the point of the source that it performs next. -/
inductive Call where
  | addReadyTask (add : Addition)
  | takePollingSlot (add : Addition)
  | lockGlobal (add : Addition)
  /-- The slot has been taken, and the task is not in it yet. -/
  | storeTask (add : Addition) (slot : SlotId) (locked : Bool)
  /-- The lock of the class is held. -/
  | pushTask (computePlace : Option CPU) (task : TaskId) (key : Int)
      (front doGetIdle : Bool)
  | getIdleCPU (computePlace : Option CPU) (task : TaskId)
  | getReadyTask (cpu : CPU)
  | requestPolling (cpu : CPU)
  /-- The head of the polling loop, with the task found so far. -/
  | testTask (cpu : CPU) (slot : SlotId) (task : Option TaskId)
  | testAcceptsWork (cpu : CPU) (slot : SlotId)
  | getTask (cpu : CPU) (slot : SlotId)
  /-- Behind the polling loop. -/
  | testMustExit (cpu : CPU) (slot : SlotId) (task : Option TaskId)
  | releasePolling (cpu : CPU) (slot : SlotId) (task : Option TaskId)
      (exiting : Bool)
  | cpuBecomesIdle (cpu : CPU) (slot : SlotId) (task : Option TaskId)
      (exiting : Bool)
  | checkAcceptsWork (cpu : CPU) (slot : SlotId) (task : Option TaskId)
  | lastGetTask (cpu : CPU) (slot : SlotId) (task : Option TaskId)
  | disableComputePlace (cpu : CPU)
  | queueDisabled (cpu : CPU) (task : TaskId)
  deriving DecidableEq, Repr

/-- The CPU whose thread makes the call; the thread of a CPU makes one call at
a time. -/
def Call.computePlace : Call → Option CPU
  | .addReadyTask add => add.computePlace
  | .takePollingSlot add => add.computePlace
  | .lockGlobal add => add.computePlace
  | .storeTask add _ _ => add.computePlace
  | .pushTask computePlace _ _ _ _ => computePlace
  | .getIdleCPU computePlace _ => computePlace
  | .getReadyTask cpu => some cpu
  | .requestPolling cpu => some cpu
  | .testTask cpu _ _ => some cpu
  | .testAcceptsWork cpu _ => some cpu
  | .getTask cpu _ => some cpu
  | .testMustExit cpu _ _ => some cpu
  | .releasePolling cpu _ _ _ => some cpu
  | .cpuBecomesIdle cpu _ _ _ => some cpu
  | .checkAcceptsWork cpu _ _ => some cpu
  | .lastGetTask cpu _ _ => some cpu
  | .disableComputePlace cpu => some cpu
  | .queueDisabled cpu _ => some cpu

structure System where
  /-- The map `_tasks`, by increasing key. -/
  classes : List PriorityClass := []
  globalLocked : Bool := false
  pollingSlot : Option SlotId := none
  /-- The contents of the polling slots. -/
  slot : SlotId → Option TaskId := fun _ => none
  nextSlot : SlotId := 0
  /-- The immediate successor slots. -/
  schedulerData : CPU → Option TaskId := fun _ => none
  priority : TaskId → Int := fun _ => 0
  idleCPUs : List CPU := []
  acceptsWork : CPU → Bool := fun _ => true
  mustExit : Bool := false
  call : CallId → Option Call := fun _ => none
  nextCall : CallId := 0
  assertionFailed : Bool := false
  /-- The fields below are not in the source; they record the history.  How
  often a task has been added. -/
  adds : TaskId → Nat := fun _ => 0
  /-- How often a task has been returned by `getReadyTask`. -/
  returns : TaskId → Nat := fun _ => 0
  /-- The CPUs that have been idle since before the task was queued. -/
  idleSinceBefore : TaskId → List CPU := fun _ => []
  /-- The call of `addReadyTask` that queued the task has looked for an idle CPU
  and returned none. -/
  unresumed : TaskId → Bool := fun _ => false
  /-- A CPU has become idle for want of tasks while a task was queued. -/
  idledBesideTask : Bool := false

/-! ## Priority classes -/

/-- `_tasks[key]`, changed; the class is created when it is missing. -/
def withClass (key : Int) (change : PriorityClass → PriorityClass) :
    List PriorityClass → List PriorityClass
  | [] => [change { key := key }]
  | first :: rest =>
      if key < first.key then change { key := key } :: first :: rest
      else if key = first.key then change first :: rest
      else first :: withClass key change rest

def PriorityClass.lock (priorityClass : PriorityClass) : PriorityClass :=
  { priorityClass with locked := true }

/-- Insert a task and release the lock. -/
def PriorityClass.push (front : Bool) (task : TaskId)
    (priorityClass : PriorityClass) : PriorityClass :=
  { priorityClass with
    queue :=
      if front then task :: priorityClass.queue
      else priorityClass.queue ++ [task]
    locked := false }

def isLocked (key : Int) (classes : List PriorityClass) : Bool :=
  classes.any fun priorityClass =>
    priorityClass.key == key && priorityClass.locked

/-- The tasks in the classes. -/
def queuedTasks (classes : List PriorityClass) : List TaskId :=
  classes.flatMap PriorityClass.queue

namespace System

def setCall (system : System) (id : CallId) (call : Option Call) : System :=
  { system with call := Function.update system.call id call }

/-- The call goes on. -/
def goesOn (system : System) (id : CallId) (call : Call) : System :=
  system.setCall id (some call)

/-- The call is over. -/
def ends (system : System) (id : CallId) : System :=
  system.setCall id none

/-- A call starts; the thread of the CPU must not be in another one. -/
def isBusy (system : System) (cpu : CPU) : Bool :=
  (List.range system.nextCall).any fun id =>
    (system.call id).any fun call => call.computePlace == some cpu

def starts (system : System) (call : Call) : Option System :=
  if call.computePlace.any system.isBusy then none
  else
    some
      { system.goesOn system.nextCall call with
        nextCall := system.nextCall + 1 }

/-- A call of `getReadyTask` returns what it has. -/
def returnsTask (system : System) (id : CallId) (task : Option TaskId) :
    System :=
  match task with
  | none => system.ends id
  | some task =>
      { system.ends id with
        returns :=
          Function.update system.returns task (system.returns task + 1) }

/-- The task has been inserted in a class. -/
def recordsQueued (system : System) (task : TaskId) : System :=
  { system with
    idleSinceBefore :=
      Function.update system.idleSinceBefore task system.idleCPUs
    unresumed := Function.update system.unresumed task false }

/-- `CPUManager::cpuBecomesIdle`. -/
def becomesIdle (system : System) (cpu : CPU) : System :=
  { system with idleCPUs := system.idleCPUs.insert cpu }

/-- The CPU found by `CPUManager::getIdleCPU`. -/
def firstIdle (system : System) : Option CPU :=
  system.idleCPUs.min?

/-- A CPU leaves the idle set. -/
def leavesIdle (system : System) (cpu : CPU) : System :=
  { system with
    idleCPUs := system.idleCPUs.filter fun other => other != cpu
    idleSinceBefore := fun task =>
      (system.idleSinceBefore task).filter fun other => other != cpu }

/-- The part that `getReadyTask` and `requestPolling` share: choose between the
immediate successor of the CPU and the first task of the first class.  A
successor of lower priority goes to its class.  Nothing is returned while the
call has to wait for the lock of a class. -/
def chooseTask (system : System) (cpu : CPU) :
    Option (System × Option TaskId) :=
  match system.classes with
  | [] =>
      match system.schedulerData cpu with
      | none => some (system, none)
      | some successor =>
          some
            ({ system with
                schedulerData :=
                  Function.update system.schedulerData cpu none },
              some successor)
  | first :: rest =>
      match first.locked, first.queue with
      | false, task :: others =>
          let popped :=
            if others.isEmpty then rest
            else { first with queue := others } :: rest
          match system.schedulerData cpu with
          | none => some ({ system with classes := popped }, some task)
          | some successor =>
              if system.priority successor < system.priority task then
                if isLocked (negated (system.priority successor)) popped
                then none
                else
                  some
                    ({ system.recordsQueued successor with
                        classes :=
                          withClass (negated (system.priority successor))
                            (PriorityClass.push false successor) popped
                        schedulerData :=
                          Function.update system.schedulerData cpu none },
                      some task)
              else
                some
                  ({ system with
                      schedulerData :=
                        Function.update system.schedulerData cpu none },
                    some successor)
      | _, _ => none

/-- The critical section of `addReadyTask` and of `disableComputePlace` that
chooses the class of a task. -/
def locksClass (system : System) (id : CallId) (computePlace : Option CPU)
    (task : TaskId) (key : Int) (front doGetIdle : Bool) : Option System :=
  if isLocked key system.classes then none
  else
    some <|
      { system with
        classes :=
          withClass key PriorityClass.lock system.classes }.goesOn id
        (.pushTask computePlace task key front doGetIdle)

/-- A waiting call has nothing to return and becomes idle. -/
def idles (system : System) (cpu : CPU) : System :=
  { system.becomesIdle cpu with
    idledBesideTask :=
      system.idledBesideTask || !(queuedTasks system.classes).isEmpty }

end System

/-- One step of a call. -/
def perform (system : System) (id : CallId) : Call → Option System
  | .addReadyTask add =>
      match add.computePlace with
      | none => some (system.goesOn id (.takePollingSlot add))
      | some cpu =>
          if add.hint.allowsImmediateSuccessor &&
              (system.schedulerData cpu).isNone then
            some <|
              { system with
                schedulerData :=
                  Function.update system.schedulerData cpu
                    (some add.task) }.ends id
          else
            some (system.goesOn id (.takePollingSlot add))
  | .takePollingSlot add =>
      match system.pollingSlot with
      | some slot =>
          some <|
            { system with pollingSlot := none }.goesOn id
              (.storeTask add slot false)
      | none => some (system.goesOn id (.lockGlobal add))
  | .lockGlobal add =>
      if system.globalLocked then none
      else
        match system.pollingSlot with
        | some slot =>
            some <|
              { system with pollingSlot := none, globalLocked := true }.goesOn
                id (.storeTask add slot true)
        | none =>
            system.locksClass id add.computePlace add.task
              (negated add.priority) add.hint.pushesFront add.doGetIdle
  | .storeTask add slot locked =>
      let stored :=
        if (system.slot slot).isNone then
          { system with
            slot := Function.update system.slot slot (some add.task) }
        else { system with assertionFailed := true }
      some <|
        { stored with
          globalLocked := if locked then false else stored.globalLocked }.ends
            id
  | .pushTask computePlace task key front doGetIdle =>
      let pushed :=
        { system.recordsQueued task with
          classes :=
            withClass key (PriorityClass.push front task) system.classes }
      if doGetIdle then some (pushed.goesOn id (.getIdleCPU computePlace task))
      else some (pushed.ends id)
  | .getIdleCPU _ task =>
      match system.firstIdle with
      | some cpu => some ((system.leavesIdle cpu).ends id)
      | none =>
          some
            { system.ends id with
              unresumed := Function.update system.unresumed task true }
  | .getReadyTask cpu =>
      if system.globalLocked then none
      else
        (system.chooseTask cpu).map fun chosen =>
          match chosen.2 with
          | none => (chosen.1.idles cpu).ends id
          | some task => chosen.1.returnsTask id (some task)
  | .requestPolling cpu =>
      if system.globalLocked then none
      else
        (system.chooseTask cpu).map fun chosen =>
          let slot := chosen.1.nextSlot
          let polls :=
            { chosen.1 with nextSlot := slot + 1 }.goesOn id
              (.testTask cpu slot none)
          match chosen.2 with
          | some task =>
              { polls with
                slot := Function.update polls.slot slot (some task) }
          | none =>
              if chosen.1.pollingSlot.isNone then
                { polls with pollingSlot := some slot }
              else (chosen.1.idles cpu).ends id
  | .testTask cpu slot task =>
      some <| system.goesOn id <|
        if task.isNone && !system.mustExit then .testAcceptsWork cpu slot
        else .testMustExit cpu slot task
  | .testAcceptsWork cpu slot =>
      some <| system.goesOn id <|
        if system.acceptsWork cpu then .getTask cpu slot
        else .testMustExit cpu slot none
  | .getTask cpu slot =>
      some <|
        { system with slot := Function.update system.slot slot none }.goesOn id
          (.testTask cpu slot (system.slot slot))
  | .testMustExit cpu slot task =>
      some <| system.goesOn id <|
        if system.mustExit then .releasePolling cpu slot task true
        else .checkAcceptsWork cpu slot task
  | .releasePolling cpu slot task exiting =>
      if system.pollingSlot = some slot then
        some <|
          { system with pollingSlot := none }.goesOn id
            (.cpuBecomesIdle cpu slot task exiting)
      else
        some <|
          { system with
            assertionFailed := system.assertionFailed || exiting }.goesOn id
            (if exiting then .checkAcceptsWork cpu slot task
            else .lastGetTask cpu slot task)
  | .cpuBecomesIdle cpu slot task exiting =>
      some <| (system.becomesIdle cpu).goesOn id <|
        if exiting then .checkAcceptsWork cpu slot task
        else .lastGetTask cpu slot task
  | .checkAcceptsWork cpu slot task =>
      if system.acceptsWork cpu then some (system.returnsTask id task)
      else some (system.goesOn id (.releasePolling cpu slot task false))
  | .lastGetTask _ slot _ =>
      some <|
        { system with
          slot := Function.update system.slot slot none }.returnsTask id
            (system.slot slot)
  | .disableComputePlace cpu =>
      match system.schedulerData cpu with
      | none => some (system.ends id)
      | some task =>
          some <|
            { system with
              schedulerData :=
                Function.update system.schedulerData cpu none }.goesOn id
              (.queueDisabled cpu task)
  | .queueDisabled cpu task =>
      if system.globalLocked then none
      else
        system.locksClass id (some cpu) task
          (negated (system.priority task)) false false

inductive Action where
  /-- The priority is what `get_priority` gives, if the task has one. -/
  | addReadyTask (task : TaskId) (computePlace : Option CPU)
      (hint : ReadyTaskHint) (priority : Option Int) (doGetIdle : Bool)
  | getReadyTask (cpu : CPU) (doWait : Bool)
  | disableComputePlace (cpu : CPU)
  | getIdleComputePlace (force : Bool)
  | setAcceptsWork (cpu : CPU) (value : Bool)
  | shutdown
  | perform (id : CallId)
  deriving DecidableEq

def step (system : System) : Action → Option System
  | .addReadyTask task computePlace hint priority doGetIdle =>
      if system.adds task = system.returns task then
        { system with
          adds := Function.update system.adds task (system.adds task + 1)
          priority :=
            priority.elim system.priority
              (Function.update system.priority task) }.starts
          (.addReadyTask
            { task := task
              computePlace := computePlace
              hint := hint
              priority := priority.getD 0
              doGetIdle := doGetIdle })
      else none
  | .getReadyTask cpu doWait =>
      system.starts (if doWait then .requestPolling cpu else .getReadyTask cpu)
  | .disableComputePlace cpu => system.starts (.disableComputePlace cpu)
  | .getIdleComputePlace force =>
      if system.globalLocked then none
      else
        match force || !system.classes.isEmpty, system.firstIdle with
        | true, some cpu => some (system.leavesIdle cpu)
        | _, _ => some system
  | .setAcceptsWork cpu value =>
      some
        { system with
          acceptsWork := Function.update system.acceptsWork cpu value }
  | .shutdown => some { system with mustExit := true }
  | .perform id => (system.call id).bind (perform system id)

end Nanos6.Scheduling
