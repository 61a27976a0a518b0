import Mathlib.Logic.Function.Basic
import Nanos6.Foundation.LabelledRun

/-!
# Worker threads

A worker thread looks for tasks on its CPU.  When it finds none, or when its task
blocks, it puts another thread in its place or leaves the CPU idle, and suspends
itself.  Idle threads are listed for each NUMA node and are given to whoever needs a
thread for a CPU: a caller of `resumeIdle`, or a thread that blocks and has got a
task that another thread has to run.  CPUs are enabled and disabled at any time.

A suspended thread is resumed through its condition variable, and may be resumed
before it has got to wait on it.  A task may even be unblocked, and its thread
resumed, before it calls `nanos6_block_current_task`.  The steps are the critical
sections and the atomic operations of these functions.  Of the scheduler only the
answers are modelled.
-/

namespace Nanos6.ThreadManager

abbrev ThreadId := Nat
abbrev CPUId := Nat
abbrev TaskId := Nat
abbrev CallerId := Nat

inductive ActivationStatus where
  | uninitialized
  | starting
  | enabled
  | enabling
  | disabling
  | disabled
  deriving DecidableEq, Repr

/-- `CPUActivation::acceptsWork` -/
def ActivationStatus.acceptsWork : ActivationStatus → Bool
  | .starting | .enabled | .enabling => true
  | .uninitialized | .disabling | .disabled => false

/-- Where a thread goes on after it has been suspended. -/
inductive Resumption where
  /-- In the loops of `activationCheck` and of `body`, which are at the same point
  then. -/
  | loop
  /-- In its task, which has been blocked. -/
  | task
  deriving DecidableEq, Repr

/-- Where a thread is. -/
inductive Point where
  /-- The thread has not been created. -/
  | unborn
  /-- Before `activationCheck` reads the status of the CPU. -/
  | activationCheck
  /-- In `activationCheck`, after it has disabled the CPU. -/
  | migrating
  /-- In `body`, before it looks for a task. -/
  | getReadyTask
  /-- In `body`, without a task. -/
  | handleServices
  /-- In a task. -/
  | running
  /-- In a task that has been unblocked before it blocks. -/
  | unblocked
  /-- At the head of the loop of `taskBlocks`. -/
  | blocking
  /-- In `taskBlocks` or `waitForIf0Task`, before it gets a thread to replace it. -/
  | recruiting (task : Option TaskId)
  /-- Before `addIdler`. -/
  | idling (replacement : Option ThreadId)
  /-- In `switchTo`, before the replacement is resumed. -/
  | switching (replacement : Option ThreadId) (resumption : Resumption)
  /-- In `suspend`. -/
  | suspended (resumption : Resumption)
  deriving DecidableEq, Repr

namespace Point

/-- The thread that is going to be resumed. -/
def replacement : Point → Option ThreadId
  | .idling replacement | .switching replacement _ => replacement
  | _ => none

/-- The task that is going to be given to another thread. -/
def handedOver : Point → Option TaskId
  | .recruiting task => task
  | _ => none

/-- The thread goes on without being resumed. -/
def isActive : Point → Bool
  | .activationCheck | .migrating | .getReadyTask | .handleServices | .running
  | .idling _ => true
  | _ => false

/-- The thread is going to suspend itself, or has done so, with nothing to go back
to. -/
def isResting : Point → Bool
  | .switching _ .loop | .suspended .loop => true
  | _ => false

end Point

def Resumption.point : Resumption → Point
  | .loop => .activationCheck
  | .task => .running

structure Worker where
  cpu : CPUId := 0
  cpuToBeResumedOn : Option CPUId := none
  /-- The flag of the condition variable. -/
  signaled : Bool := false
  task : Option TaskId := none
  /-- The tasks that calls of `handleTask` are going to restore. -/
  saved : List (Option TaskId) := []
  originalNumaNode : Nat := 0
  point : Point := .unborn
  /-- The task is blocked, and `addReadyTask` has not been called for it. -/
  waiting : Bool := false
  /-- The task has been unblocked, and is in the scheduler. -/
  ready : Bool := false

/-- A caller of `resumeIdle`, of `enable` or of `resume`. -/
inductive Caller where
  | free
  /-- With a CPU for which it needs a thread. -/
  | withCPU (cpu : CPUId)
  /-- With a thread to be resumed on a CPU. -/
  | withThread (thread : ThreadId) (cpu : CPUId)
  deriving DecidableEq, Repr

def Caller.thread : Caller → Option ThreadId
  | .withThread thread _ => some thread
  | _ => none

structure State where
  worker : ThreadId → Worker := fun _ => {}
  totalThreads : Nat := 0
  /-- The idle threads of each NUMA node. -/
  idleThreads : Nat → List ThreadId := fun _ => []
  activationStatus : CPUId → ActivationStatus := fun _ => .uninitialized
  idleCPUs : List CPUId := []
  caller : CallerId → Caller := fun _ => .free
  /-- The tasks that have been taken out of the scheduler for the first time are
  numbered. -/
  nextTask : TaskId := 0
  finished : List TaskId := []
  /-- An assertion about the suspension of threads has failed. -/
  resumptionFailed : Bool := false
  /-- An assertion about the task of an idle thread has failed. -/
  assignmentFailed : Bool := false

/-- What `Scheduler::getReadyTask` returns. -/
inductive Reply where
  /-- No task.  Not on every way to this answer has the scheduler marked the CPU as
  idle. -/
  | nothing (idles : Bool)
  /-- The task of the thread itself. -/
  | own
  /-- A task that has no thread; `inline` is what the policy says. -/
  | fresh (inline : Bool)
  /-- A task that has been blocked on another thread. -/
  | assigned (thread : ThreadId)
  deriving DecidableEq, Repr

namespace State

def setWorker (state : State) (thread : ThreadId) (worker : Worker) : State :=
  { state with worker := Function.update state.worker thread worker }

def setPoint (state : State) (thread : ThreadId) (point : Point) : State :=
  state.setWorker thread { state.worker thread with point := point }

def setCaller (state : State) (caller : CallerId) (content : Caller) : State :=
  { state with caller := Function.update state.caller caller content }

def setStatus (state : State) (cpu : CPUId) (status : ActivationStatus) :
    State :=
  { state with
    activationStatus := Function.update state.activationStatus cpu status }

/-- `CPUManager::cpuBecomesIdle` -/
def cpuBecomesIdle (state : State) (cpu : CPUId) : State :=
  { state with
    idleCPUs :=
      if cpu ∈ state.idleCPUs then state.idleCPUs else state.idleCPUs ++ [cpu] }

/-- The scheduler has no task for the CPU. -/
def findsNothing (state : State) (cpu : CPUId) (idles : Bool) : State :=
  if idles then state.cpuBecomesIdle cpu else state

/-- `CPUManager::unidleCPU` of an idle CPU. -/
def unidleCPU (state : State) (cpu : CPUId) : State :=
  { state with idleCPUs := state.idleCPUs.filter fun other => other ≠ cpu }

/-- `WorkerThreadBase::resume` and `ConditionVariable::signal` -/
def resume (state : State) (thread : ThreadId) (cpu : CPUId) : State :=
  { state.setWorker thread
      { state.worker thread with
        cpuToBeResumedOn := some cpu
        signaled := true } with
    resumptionFailed :=
      state.resumptionFailed ||
        (state.worker thread).cpuToBeResumedOn.isSome ||
        (state.worker thread).signaled }

/-- `ThreadManager::addIdler` -/
def addIdler (state : State) (thread : ThreadId) : State :=
  let node := (state.worker thread).originalNumaNode
  { state with
    idleThreads := Function.update state.idleThreads node
      (thread :: state.idleThreads node)
    resumptionFailed :=
      state.resumptionFailed || decide (thread ∈ state.idleThreads node) }

/-- `ThreadManager::createWorkerThread`: the new thread suspends itself. -/
def createWorkerThread (state : State) (numaNode : CPUId → Nat)
    (cpu : CPUId) : State :=
  { state.setWorker state.totalThreads
      { cpu := cpu
        originalNumaNode := numaNode cpu
        point := .suspended .loop } with
    totalThreads := state.totalThreads + 1 }

/-- The first idle thread of a node is taken out of its list. -/
def popIdleThread (state : State) (node : Nat) (thread : ThreadId)
    (rest : List ThreadId) : State :=
  { state with
    idleThreads := Function.update state.idleThreads node rest
    assignmentFailed :=
      state.assignmentFailed || (state.worker thread).task.isSome }

/-- `ThreadManager::getIdleThread` -/
def getIdleThread (state : State) (numaNode : CPUId → Nat) (cpu : CPUId) :
    ThreadId × State :=
  match state.idleThreads (numaNode cpu) with
  | thread :: rest =>
      (thread, state.popIdleThread (numaNode cpu) thread rest)
  | [] => (state.totalThreads, state.createWorkerThread numaNode cpu)

/-- `WorkerThread::setTask`, if there is a task. -/
def setTask (state : State) (thread : ThreadId) : Option TaskId → State
  | none => state
  | some task =>
      { state.setWorker thread
          { state.worker thread with task := some task } with
        assignmentFailed :=
          state.assignmentFailed || (state.worker thread).task.isSome }

/-- The thread runs a task from the scheduler that has no thread. -/
def start (state : State) (thread : ThreadId)
    (saved : List (Option TaskId)) : State :=
  { state.setWorker thread
      { state.worker thread with
        task := some state.nextTask
        saved := saved
        point := .running
        waiting := false } with
    nextTask := state.nextTask + 1 }

/-- The task of a blocked thread is taken out of the scheduler. -/
def claim (state : State) (thread : ThreadId) : State :=
  state.setWorker thread { state.worker thread with ready := false }

end State

inductive Action where
  /-- `CPUManager::initialize` for one CPU. -/
  | initializeCPU (caller : CallerId) (cpu : CPUId)
  /-- `CPUActivation::enable` -/
  | enable (caller : CallerId) (cpu : CPUId)
  /-- `CPUActivation::disable` -/
  | disable (cpu : CPUId)
  /-- `CPUManager::getIdleCPU` -/
  | getIdleCPU (caller : CallerId) (cpu : CPUId)
  /-- `ThreadManager::getIdleThread` -/
  | getIdleThread (caller : CallerId)
  /-- The thread of a task that gets a user mutex is resumed on an idle CPU. -/
  | getReleasedThread (caller : CallerId) (thread : ThreadId)
  /-- `WorkerThreadBase::resume` -/
  | resume (caller : CallerId)
  /-- `addReadyTask` for the task of a thread, which is blocked or is going to call
  `nanos6_block_current_task`. -/
  | addReadyTask (thread : ThreadId)
  /-- One iteration of `CPUActivation::activationCheck`. -/
  | activationCheck (thread : ThreadId)
  /-- `activationCheck` looks for another CPU. -/
  | getIdleComputePlace (thread : ThreadId) (cpu : Option CPUId)
  /-- `Scheduler::getReadyTask` in `body` and in `taskBlocks`. -/
  | getReadyTask (thread : ThreadId) (reply : Reply)
  /-- `body` runs the task that the thread got before it was resumed. -/
  | handleTask (thread : ThreadId)
  /-- `PollingAPI::handleServices` in `body`. -/
  | handleServices (thread : ThreadId)
  | addIdler (thread : ThreadId)
  /-- `switchTo` up to `suspend`. -/
  | switchTo (thread : ThreadId)
  /-- `suspend` returns. -/
  | wake (thread : ThreadId)
  /-- `taskBlocks` or `waitForIf0Task` get an idle thread. -/
  | recruit (thread : ThreadId)
  /-- The task calls `nanos6_block_current_task`. -/
  | blockCurrentTask (thread : ThreadId)
  /-- The task calls `taskBlocks` in a taskwait or for a user mutex. -/
  | taskBlocks (thread : ThreadId)
  /-- The task calls `waitForIf0Task`. -/
  | waitForIf0Task (thread : ThreadId)
  /-- The task calls `executeInline`. -/
  | executeInline (thread : ThreadId)
  /-- The task gives a user mutex and its CPU to the task of another thread. -/
  | preempt (thread released : ThreadId)
  /-- The task ends.  If it has been run within a blocked task, `fulfilled` is what
  `enableScheduling` returns. -/
  | finish (thread : ThreadId) (fulfilled : Bool)
  deriving DecidableEq, Repr

/-- `CPUActivation::enable`.  In the cases without a result the call spins. -/
def enable (state : State) (caller : CallerId) (cpu : CPUId) : Option State :=
  match state.activationStatus cpu, state.caller caller with
  -- `initializeIfNeeded`
  | .uninitialized, _ => some (state.setStatus cpu .starting)
  | .starting, _ => none
  | .enabled, _ => some state
  | .enabling, _ => some state
  | .disabling, _ => some (state.setStatus cpu .enabled)
  | .disabled, .free =>
      some ((state.setStatus cpu .enabling).setCaller caller (.withCPU cpu))
  | .disabled, _ => none

/-- `CPUActivation::disable` -/
def disable (state : State) (cpu : CPUId) : Option State :=
  match state.activationStatus cpu with
  | .uninitialized => none
  | .starting => none
  | .enabled => some (state.setStatus cpu .disabling)
  | .enabling => some (state.setStatus cpu .disabled)
  | .disabling => some state
  | .disabled => some state

/-- One iteration of `activationCheck`.  A failed exchange is one more
iteration. -/
def activationCheck (state : State) (thread : ThreadId) : Option State :=
  let cpu := (state.worker thread).cpu
  match state.activationStatus cpu with
  | .uninitialized => none
  | .starting => some (state.setStatus cpu .enabled)
  | .enabled => some (state.setPoint thread .getReadyTask)
  | .enabling =>
      some ((state.setStatus cpu .enabled).setPoint thread .getReadyTask)
  | .disabling =>
      some ((state.setStatus cpu .disabled).setPoint thread .migrating)
  | .disabled => some (state.setPoint thread (.idling none))

/-- What `body` does with the answer of the scheduler. -/
def getReadyTaskInBody (state : State) (thread : ThreadId) :
    Reply → Option State
  | .nothing idles =>
      some ((state.findsNothing (state.worker thread).cpu idles).setPoint thread
        .handleServices)
  | .own => none
  | .fresh _ => some (state.start thread (state.worker thread).saved)
  | .assigned other =>
      if (state.worker other).ready then
        some ((state.claim other).setPoint thread (.idling (some other)))
      else none

/-- What `taskBlocks` does with the answer of the scheduler. -/
def getReadyTaskInTaskBlocks (state : State) (thread : ThreadId) :
    Reply → Option State
  | .nothing idles =>
      some ((state.findsNothing (state.worker thread).cpu idles).setPoint thread
        (.switching none .task))
  | .own =>
      if (state.worker thread).ready then
        some ((state.claim thread).setPoint thread .running)
      else none
  | .fresh inline =>
      -- `disableScheduling` fails when the task has been put in the scheduler.
      if inline && (state.activationStatus (state.worker thread).cpu).acceptsWork
          && (state.worker thread).waiting then
        some (state.start thread
          ((state.worker thread).task :: (state.worker thread).saved))
      else
        some { state.setPoint thread (.recruiting (some state.nextTask)) with
          nextTask := state.nextTask + 1 }
  | .assigned other =>
      if (state.worker other).ready ∧ other ≠ thread then
        some ((state.claim other).setPoint thread
          (.switching (some other) .task))
      else none

/-- The task of the thread ends. -/
def finish (state : State) (thread : ThreadId) (fulfilled : Bool) : State :=
  let worker := state.worker thread
  let state :=
    { state with finished := state.finished ++ worker.task.toList }
  match worker.saved with
  | [] =>
      state.setWorker thread
        { worker with task := none, point := .activationCheck }
  | old :: rest =>
      state.setWorker thread
        { worker with
          task := old
          saved := rest
          waiting := !fulfilled
          point := if fulfilled then .running else .blocking }

def step (numaNode : CPUId → Nat) (state : State) : Action → Option State
  | .initializeCPU caller cpu =>
      match state.activationStatus cpu, state.caller caller with
      | .uninitialized, .free =>
          some (((state.setStatus cpu .starting).createWorkerThread numaNode
            cpu).setCaller caller (.withThread state.totalThreads cpu))
      | _, _ => none
  | .enable caller cpu => enable state caller cpu
  | .disable cpu => disable state cpu
  | .getIdleCPU caller cpu =>
      if state.caller caller = .free ∧ cpu ∈ state.idleCPUs then
        some ((state.unidleCPU cpu).setCaller caller (.withCPU cpu))
      else none
  | .getIdleThread caller =>
      match state.caller caller with
      | .withCPU cpu =>
          let found := state.getIdleThread numaNode cpu
          some (found.2.setCaller caller (.withThread found.1 cpu))
      | _ => none
  | .getReleasedThread caller thread =>
      match state.caller caller with
      | .withCPU cpu =>
          if (state.worker thread).waiting then
            some ((state.setWorker thread
              { state.worker thread with waiting := false }).setCaller caller
                (.withThread thread cpu))
          else none
      | _ => none
  | .resume caller =>
      match state.caller caller with
      | .withThread thread cpu =>
          some ((state.setCaller caller .free).resume thread cpu)
      | _ => none
  | .addReadyTask thread =>
      if (state.worker thread).waiting then
        some (state.setWorker thread
          { state.worker thread with waiting := false, ready := true })
      else
        match (state.worker thread).point with
        | .running =>
            some (state.setWorker thread
              { state.worker thread with ready := true, point := .unblocked })
        | _ =>
            if (state.worker thread).task.isSome then
              some (state.setWorker thread
                { state.worker thread with ready := true })
            else none
  | .activationCheck thread =>
      match (state.worker thread).point with
      | .activationCheck => activationCheck state thread
      | _ => none
  | .getIdleComputePlace thread cpu =>
      match (state.worker thread).point, cpu with
      | .migrating, none => some (state.setPoint thread (.idling none))
      | .migrating, some cpu =>
          if cpu ∈ state.idleCPUs then
            some ((state.unidleCPU cpu).setWorker thread
              { state.worker thread with
                cpu := cpu
                point := .activationCheck })
          else none
      | _, _ => none
  | .getReadyTask thread reply =>
      match (state.worker thread).point, (state.worker thread).task with
      | .getReadyTask, none => getReadyTaskInBody state thread reply
      | .blocking, _ => getReadyTaskInTaskBlocks state thread reply
      | _, _ => none
  | .handleTask thread =>
      match (state.worker thread).point, (state.worker thread).task with
      | .getReadyTask, some _ => some (state.setPoint thread .running)
      | _, _ => none
  | .handleServices thread =>
      match (state.worker thread).point with
      | .handleServices => some (state.setPoint thread (.idling none))
      | _ => none
  | .addIdler thread =>
      match (state.worker thread).point with
      | .idling replacement =>
          some ((state.setPoint thread (.switching replacement .loop)).addIdler
            thread)
      | _ => none
  | .switchTo thread =>
      match (state.worker thread).point with
      | .switching none resumption =>
          some (state.setPoint thread (.suspended resumption))
      | .switching (some other) resumption =>
          let left := state.setPoint thread (.suspended resumption)
          some
            { left.resume other (state.worker thread).cpu with
              resumptionFailed :=
                (left.resume other (state.worker thread).cpu).resumptionFailed ||
                  decide (other = thread) }
      | _ => none
  | .wake thread =>
      let worker := state.worker thread
      match worker.point, worker.signaled with
      | .suspended resumption, true =>
          some
            { state.setWorker thread
                { worker with
                  cpu := worker.cpuToBeResumedOn.getD worker.cpu
                  cpuToBeResumedOn := none
                  signaled := false
                  point := resumption.point } with
              resumptionFailed :=
                state.resumptionFailed || worker.cpuToBeResumedOn.isNone }
      | _, _ => none
  | .recruit thread =>
      match (state.worker thread).point with
      | .recruiting task =>
          let found := state.getIdleThread numaNode (state.worker thread).cpu
          some ((found.2.setTask found.1 task).setPoint thread
            (.switching (some found.1) .task))
      | _ => none
  | .blockCurrentTask thread =>
      match (state.worker thread).point with
      | .running =>
          some (state.setWorker thread
            { state.worker thread with waiting := true, point := .blocking })
      | .unblocked => some (state.setPoint thread .blocking)
      | _ => none
  | .taskBlocks thread =>
      match (state.worker thread).point with
      | .running | .unblocked =>
          some (state.setWorker thread
            { state.worker thread with waiting := true, point := .blocking })
      | _ => none
  | .waitForIf0Task thread =>
      match (state.worker thread).point with
      | .running | .unblocked =>
          some (state.setWorker thread
            { state.worker thread with
              waiting := true
              point := .recruiting none })
      | _ => none
  | .executeInline thread =>
      match (state.worker thread).point with
      | .running | .unblocked =>
          some (state.start thread
            ((state.worker thread).task :: (state.worker thread).saved))
      | _ => none
  | .preempt thread released =>
      match (state.worker thread).point with
      | .running | .unblocked =>
          if (state.worker released).waiting then
            some ((state.setWorker released
              { state.worker released with waiting := false }).setWorker thread
                { state.worker thread with
                  ready := true
                  point := .switching (some released) .task })
          else none
      | _ => none
  | .finish thread fulfilled =>
      match (state.worker thread).point with
      | .running | .unblocked => some (finish state thread fulfilled)
      | _ => none

/-! ## What a step can do -/

/-- What `getIdleThread` does to the state. -/
theorem getIdleThread_cases (state : State) (numaNode : CPUId → Nat)
    (cpu : CPUId) :
    (∃ rest, state.idleThreads (numaNode cpu) =
        (state.getIdleThread numaNode cpu).1 :: rest ∧
      (state.getIdleThread numaNode cpu).2 =
        state.popIdleThread (numaNode cpu)
          (state.getIdleThread numaNode cpu).1 rest) ∨
      (state.getIdleThread numaNode cpu).1 = state.totalThreads ∧
        (state.getIdleThread numaNode cpu).2 =
          state.createWorkerThread numaNode cpu := by
  unfold State.getIdleThread
  split
  · exact Or.inl ⟨_, ‹_›, rfl⟩
  · exact Or.inr ⟨rfl, rfl⟩

/-- The thread whose task is unblocked. -/
def Action.unblocks : Action → Option ThreadId
  | .addReadyTask thread => some thread
  | _ => none

/-- The thread whose task does something else than to call
`nanos6_block_current_task`. -/
def Action.turnsFrom : Action → Option ThreadId
  | .taskBlocks thread | .waitForIf0Task thread | .executeInline thread
  | .preempt thread _ | .finish thread _ => some thread
  | _ => none

/-- The cases of `step`, with the conditions under which they occur. -/
inductive Steps (numaNode : CPUId → Nat) (state : State) :
    Action → State → Prop
  | initializeCPU {caller : CallerId} {cpu : CPUId}
      (status : state.activationStatus cpu = .uninitialized)
      (free : state.caller caller = .free) :
      Steps numaNode state (.initializeCPU caller cpu)
        (((state.setStatus cpu .starting).createWorkerThread numaNode
          cpu).setCaller caller (.withThread state.totalThreads cpu))
  | enableUninitialized {caller : CallerId} {cpu : CPUId}
      (status : state.activationStatus cpu = .uninitialized) :
      Steps numaNode state (.enable caller cpu) (state.setStatus cpu .starting)
  | enableAgain {caller : CallerId} {cpu : CPUId} :
      Steps numaNode state (.enable caller cpu) state
  | enableDisabling {caller : CallerId} {cpu : CPUId}
      (status : state.activationStatus cpu = .disabling) :
      Steps numaNode state (.enable caller cpu) (state.setStatus cpu .enabled)
  | enableDisabled {caller : CallerId} {cpu : CPUId}
      (status : state.activationStatus cpu = .disabled)
      (free : state.caller caller = .free) :
      Steps numaNode state (.enable caller cpu)
        ((state.setStatus cpu .enabling).setCaller caller (.withCPU cpu))
  | disableEnabled {cpu : CPUId}
      (status : state.activationStatus cpu = .enabled) :
      Steps numaNode state (.disable cpu) (state.setStatus cpu .disabling)
  | disableEnabling {cpu : CPUId}
      (status : state.activationStatus cpu = .enabling) :
      Steps numaNode state (.disable cpu) (state.setStatus cpu .disabled)
  | disableAgain {cpu : CPUId} : Steps numaNode state (.disable cpu) state
  | getIdleCPU {caller : CallerId} {cpu : CPUId}
      (free : state.caller caller = .free) (idle : cpu ∈ state.idleCPUs) :
      Steps numaNode state (.getIdleCPU caller cpu)
        ((state.unidleCPU cpu).setCaller caller (.withCPU cpu))
  | getIdleThread {caller : CallerId} {cpu : CPUId}
      (content : state.caller caller = .withCPU cpu) :
      Steps numaNode state (.getIdleThread caller)
        ((state.getIdleThread numaNode cpu).2.setCaller caller
          (.withThread (state.getIdleThread numaNode cpu).1 cpu))
  | getReleasedThread {caller : CallerId} {thread : ThreadId} {cpu : CPUId}
      (content : state.caller caller = .withCPU cpu)
      (waiting : (state.worker thread).waiting = true) :
      Steps numaNode state (.getReleasedThread caller thread)
        ((state.setWorker thread
          { state.worker thread with waiting := false }).setCaller caller
            (.withThread thread cpu))
  | resume {caller : CallerId} {thread : ThreadId} {cpu : CPUId}
      (content : state.caller caller = .withThread thread cpu) :
      Steps numaNode state (.resume caller)
        ((state.setCaller caller .free).resume thread cpu)
  | addReadyTask {thread : ThreadId}
      (waiting : (state.worker thread).waiting = true) :
      Steps numaNode state (.addReadyTask thread)
        (state.setWorker thread
          { state.worker thread with waiting := false, ready := true })
  | addEarly {thread : ThreadId}
      (point : (state.worker thread).point = .running) :
      Steps numaNode state (.addReadyTask thread)
        (state.setWorker thread
          { state.worker thread with ready := true, point := .unblocked })
  /-- A task is unblocked that has been unblocked before. -/
  | addAgain {thread : ThreadId} {next : State}
      (again : ¬ ((state.worker thread).waiting = true ∨
        (state.worker thread).point = .running)) :
      Steps numaNode state (.addReadyTask thread) next
  /-- A task that has been unblocked does not get to its block. -/
  | turn {action : Action} {thread : ThreadId} {next : State}
      (turns : action.turnsFrom = some thread)
      (point : (state.worker thread).point = .unblocked) :
      Steps numaNode state action next
  | checkStarting {thread : ThreadId}
      (point : (state.worker thread).point = .activationCheck)
      (status : state.activationStatus (state.worker thread).cpu =
        .starting) :
      Steps numaNode state (.activationCheck thread)
        (state.setStatus (state.worker thread).cpu .enabled)
  | checkEnabled {thread : ThreadId}
      (point : (state.worker thread).point = .activationCheck)
      (status : state.activationStatus (state.worker thread).cpu = .enabled) :
      Steps numaNode state (.activationCheck thread)
        (state.setPoint thread .getReadyTask)
  | checkEnabling {thread : ThreadId}
      (point : (state.worker thread).point = .activationCheck)
      (status : state.activationStatus (state.worker thread).cpu =
        .enabling) :
      Steps numaNode state (.activationCheck thread)
        ((state.setStatus (state.worker thread).cpu .enabled).setPoint thread
          .getReadyTask)
  | checkDisabling {thread : ThreadId}
      (point : (state.worker thread).point = .activationCheck)
      (status : state.activationStatus (state.worker thread).cpu =
        .disabling) :
      Steps numaNode state (.activationCheck thread)
        ((state.setStatus (state.worker thread).cpu .disabled).setPoint thread
          .migrating)
  | checkDisabled {thread : ThreadId}
      (point : (state.worker thread).point = .activationCheck)
      (status : state.activationStatus (state.worker thread).cpu =
        .disabled) :
      Steps numaNode state (.activationCheck thread)
        (state.setPoint thread (.idling none))
  | stay {thread : ThreadId}
      (point : (state.worker thread).point = .migrating) :
      Steps numaNode state (.getIdleComputePlace thread none)
        (state.setPoint thread (.idling none))
  | migrate {thread : ThreadId} {cpu : CPUId}
      (point : (state.worker thread).point = .migrating)
      (idle : cpu ∈ state.idleCPUs) :
      Steps numaNode state (.getIdleComputePlace thread (some cpu))
        ((state.unidleCPU cpu).setWorker thread
          { state.worker thread with cpu := cpu, point := .activationCheck })
  | findNothing {thread : ThreadId} {idles : Bool}
      (point : (state.worker thread).point = .getReadyTask)
      (task : (state.worker thread).task = none) :
      Steps numaNode state (.getReadyTask thread (.nothing idles))
        ((state.findsNothing (state.worker thread).cpu idles).setPoint thread
          .handleServices)
  | findFresh {thread : ThreadId} {inline : Bool}
      (point : (state.worker thread).point = .getReadyTask)
      (task : (state.worker thread).task = none) :
      Steps numaNode state (.getReadyTask thread (.fresh inline))
        (state.start thread (state.worker thread).saved)
  | findAssigned {thread other : ThreadId}
      (point : (state.worker thread).point = .getReadyTask)
      (task : (state.worker thread).task = none)
      (ready : (state.worker other).ready = true) :
      Steps numaNode state (.getReadyTask thread (.assigned other))
        ((state.claim other).setPoint thread (.idling (some other)))
  | replaceNothing {thread : ThreadId} {idles : Bool}
      (point : (state.worker thread).point = .blocking) :
      Steps numaNode state (.getReadyTask thread (.nothing idles))
        ((state.findsNothing (state.worker thread).cpu idles).setPoint thread
          (.switching none .task))
  | replaceOwn {thread : ThreadId}
      (point : (state.worker thread).point = .blocking)
      (ready : (state.worker thread).ready = true) :
      Steps numaNode state (.getReadyTask thread .own)
        ((state.claim thread).setPoint thread .running)
  | replaceInline {thread : ThreadId} {inline : Bool}
      (point : (state.worker thread).point = .blocking)
      (waiting : (state.worker thread).waiting = true) :
      Steps numaNode state (.getReadyTask thread (.fresh inline))
        (state.start thread
          ((state.worker thread).task :: (state.worker thread).saved))
  | replaceFresh {thread : ThreadId} {inline : Bool}
      (point : (state.worker thread).point = .blocking) :
      Steps numaNode state (.getReadyTask thread (.fresh inline))
        { state.setPoint thread (.recruiting (some state.nextTask)) with
          nextTask := state.nextTask + 1 }
  | replaceAssigned {thread other : ThreadId}
      (point : (state.worker thread).point = .blocking)
      (ready : (state.worker other).ready = true)
      (different : other ≠ thread) :
      Steps numaNode state (.getReadyTask thread (.assigned other))
        ((state.claim other).setPoint thread (.switching (some other) .task))
  | handleTask {thread : ThreadId}
      (point : (state.worker thread).point = .getReadyTask) :
      Steps numaNode state (.handleTask thread)
        (state.setPoint thread .running)
  | handleServices {thread : ThreadId}
      (point : (state.worker thread).point = .handleServices) :
      Steps numaNode state (.handleServices thread)
        (state.setPoint thread (.idling none))
  | addIdler {thread : ThreadId} {replacement : Option ThreadId}
      (point : (state.worker thread).point = .idling replacement) :
      Steps numaNode state (.addIdler thread)
        ((state.setPoint thread (.switching replacement .loop)).addIdler
          thread)
  | leave {thread : ThreadId} {resumption : Resumption}
      (point : (state.worker thread).point = .switching none resumption) :
      Steps numaNode state (.switchTo thread)
        (state.setPoint thread (.suspended resumption))
  | switchTo {thread other : ThreadId} {resumption : Resumption}
      (point : (state.worker thread).point =
        .switching (some other) resumption) :
      Steps numaNode state (.switchTo thread)
        { (state.setPoint thread (.suspended resumption)).resume other
            (state.worker thread).cpu with
          resumptionFailed :=
            ((state.setPoint thread (.suspended resumption)).resume other
              (state.worker thread).cpu).resumptionFailed ||
                decide (other = thread) }
  | wake {thread : ThreadId} {resumption : Resumption}
      (point : (state.worker thread).point = .suspended resumption)
      (signaled : (state.worker thread).signaled = true) :
      Steps numaNode state (.wake thread)
        { state.setWorker thread
            { state.worker thread with
              cpu := (state.worker thread).cpuToBeResumedOn.getD
                (state.worker thread).cpu
              cpuToBeResumedOn := none
              signaled := false
              point := resumption.point } with
          resumptionFailed :=
            state.resumptionFailed ||
              (state.worker thread).cpuToBeResumedOn.isNone }
  | recruit {thread : ThreadId} {task : Option TaskId}
      (point : (state.worker thread).point = .recruiting task) :
      Steps numaNode state (.recruit thread)
        (((state.getIdleThread numaNode
          (state.worker thread).cpu).2.setTask (state.getIdleThread numaNode
            (state.worker thread).cpu).1 task).setPoint thread
              (.switching (some (state.getIdleThread numaNode
                (state.worker thread).cpu).1) .task))
  | blockCurrentTask {thread : ThreadId}
      (point : (state.worker thread).point = .running) :
      Steps numaNode state (.blockCurrentTask thread)
        (state.setWorker thread
          { state.worker thread with waiting := true, point := .blocking })
  | blockUnblocked {thread : ThreadId}
      (point : (state.worker thread).point = .unblocked) :
      Steps numaNode state (.blockCurrentTask thread)
        (state.setPoint thread .blocking)
  | taskBlocks {thread : ThreadId}
      (point : (state.worker thread).point = .running) :
      Steps numaNode state (.taskBlocks thread)
        (state.setWorker thread
          { state.worker thread with waiting := true, point := .blocking })
  | waitForIf0Task {thread : ThreadId}
      (point : (state.worker thread).point = .running) :
      Steps numaNode state (.waitForIf0Task thread)
        (state.setWorker thread
          { state.worker thread with
            waiting := true
            point := .recruiting none })
  | executeInline {thread : ThreadId}
      (point : (state.worker thread).point = .running) :
      Steps numaNode state (.executeInline thread)
        (state.start thread
          ((state.worker thread).task :: (state.worker thread).saved))
  | preempt {thread released : ThreadId}
      (point : (state.worker thread).point = .running)
      (waiting : (state.worker released).waiting = true) :
      Steps numaNode state (.preempt thread released)
        ((state.setWorker released
          { state.worker released with waiting := false }).setWorker thread
            { state.worker thread with
              ready := true
              point := .switching (some released) .task })
  | finish {thread : ThreadId} {fulfilled : Bool}
      (point : (state.worker thread).point = .running)
      (saved : (state.worker thread).saved = []) :
      Steps numaNode state (.finish thread fulfilled)
        { state.setWorker thread
            { state.worker thread with
              task := none
              point := .activationCheck } with
          finished :=
            state.finished ++ (state.worker thread).task.toList }
  | finishInline {thread : ThreadId} {fulfilled : Bool}
      {old : Option TaskId} {rest : List (Option TaskId)}
      (point : (state.worker thread).point = .running)
      (saved : (state.worker thread).saved = old :: rest) :
      Steps numaNode state (.finish thread fulfilled)
        { state.setWorker thread
            { state.worker thread with
              task := old
              saved := rest
              waiting := !fulfilled
              point := if fulfilled then .running else .blocking } with
          finished :=
            state.finished ++ (state.worker thread).task.toList }

section Inversion

variable {numaNode : CPUId → Nat} {state next : State} {thread : ThreadId}

theorem steps_of_enable {caller : CallerId} {cpu : CPUId}
    (taken : enable state caller cpu = some next) :
    Steps numaNode state (.enable caller cpu) next := by
  unfold enable at taken
  split at taken
  · cases taken
    exact .enableUninitialized ‹_›
  · cases taken
  · cases taken
    exact .enableAgain
  · cases taken
    exact .enableAgain
  · cases taken
    exact .enableDisabling ‹_›
  · cases taken
    exact .enableDisabled ‹_› ‹_›
  · cases taken

theorem steps_of_disable {cpu : CPUId}
    (taken : disable state cpu = some next) :
    Steps numaNode state (.disable cpu) next := by
  unfold disable at taken
  split at taken
  · cases taken
  · cases taken
  · cases taken
    exact .disableEnabled ‹_›
  · cases taken
    exact .disableEnabling ‹_›
  · cases taken
    exact .disableAgain
  · cases taken
    exact .disableAgain

theorem steps_of_activationCheck
    (point : (state.worker thread).point = .activationCheck)
    (taken : activationCheck state thread = some next) :
    Steps numaNode state (.activationCheck thread) next := by
  unfold activationCheck at taken
  dsimp only at taken
  split at taken
  · cases taken
  · cases taken
    exact .checkStarting point ‹_›
  · cases taken
    exact .checkEnabled point ‹_›
  · cases taken
    exact .checkEnabling point ‹_›
  · cases taken
    exact .checkDisabling point ‹_›
  · cases taken
    exact .checkDisabled point ‹_›

theorem steps_of_getReadyTaskInBody {reply : Reply}
    (point : (state.worker thread).point = .getReadyTask)
    (task : (state.worker thread).task = none)
    (taken : getReadyTaskInBody state thread reply = some next) :
    Steps numaNode state (.getReadyTask thread reply) next := by
  unfold getReadyTaskInBody at taken
  split at taken
  · cases taken
    exact .findNothing point task
  · cases taken
  · cases taken
    exact .findFresh point task
  · split at taken
    · cases taken
      exact .findAssigned point task ‹_›
    · cases taken

theorem steps_of_getReadyTaskInTaskBlocks {reply : Reply}
    (point : (state.worker thread).point = .blocking)
    (taken : getReadyTaskInTaskBlocks state thread reply = some next) :
    Steps numaNode state (.getReadyTask thread reply) next := by
  unfold getReadyTaskInTaskBlocks at taken
  split at taken
  · cases taken
    exact .replaceNothing point
  · split at taken
    · cases taken
      exact .replaceOwn point ‹_›
    · cases taken
  · split at taken
    · rename_i inline
      cases taken
      rw [Bool.and_eq_true] at inline
      exact .replaceInline point inline.2
    · cases taken
      exact .replaceFresh point
  · split at taken
    · rename_i claims
      cases taken
      exact .replaceAssigned point claims.1 claims.2
    · cases taken

theorem steps_of_finish {fulfilled : Bool}
    (point : (state.worker thread).point = .running) :
    Steps numaNode state (.finish thread fulfilled)
      (finish state thread fulfilled) := by
  unfold finish
  dsimp only
  split
  · exact .finish point ‹_›
  · exact .finishInline point ‹_›

theorem steps_of_step {action : Action}
    (taken : step numaNode state action = some next) :
    Steps numaNode state action next := by
  cases action with
  | initializeCPU caller cpu =>
      dsimp only [step] at taken
      split at taken
      · cases taken
        exact .initializeCPU ‹_› ‹_›
      · cases taken
  | enable caller cpu => exact steps_of_enable taken
  | disable cpu => exact steps_of_disable taken
  | getIdleCPU caller cpu =>
      dsimp only [step] at taken
      split at taken
      · rename_i isIdle
        cases taken
        exact .getIdleCPU isIdle.1 isIdle.2
      · cases taken
  | getIdleThread caller =>
      dsimp only [step] at taken
      split at taken
      · cases taken
        exact .getIdleThread ‹_›
      · cases taken
  | getReleasedThread caller thread =>
      dsimp only [step] at taken
      split at taken
      · split at taken
        · cases taken
          exact .getReleasedThread ‹_› ‹_›
        · cases taken
      · cases taken
  | resume caller =>
      dsimp only [step] at taken
      split at taken
      · cases taken
        exact .resume ‹_›
      · cases taken
  | addReadyTask thread =>
      dsimp only [step] at taken
      split at taken
      · cases taken
        exact .addReadyTask ‹_›
      · split at taken
        · cases taken
          exact .addEarly ‹_›
        · exact .addAgain (not_or.mpr ⟨‹_›, ‹_›⟩)
  | activationCheck thread =>
      dsimp only [step] at taken
      split at taken
      · exact steps_of_activationCheck ‹_› taken
      · cases taken
  | getIdleComputePlace thread cpu =>
      dsimp only [step] at taken
      split at taken
      · cases taken
        exact .stay ‹_›
      · split at taken
        · cases taken
          exact .migrate ‹_› ‹_›
        · cases taken
      · cases taken
  | getReadyTask thread reply =>
      dsimp only [step] at taken
      split at taken
      · exact steps_of_getReadyTaskInBody ‹_› ‹_› taken
      · exact steps_of_getReadyTaskInTaskBlocks ‹_› taken
      · cases taken
  | handleTask thread =>
      dsimp only [step] at taken
      split at taken
      · cases taken
        exact .handleTask ‹_›
      · cases taken
  | handleServices thread =>
      dsimp only [step] at taken
      split at taken
      · cases taken
        exact .handleServices ‹_›
      · cases taken
  | addIdler thread =>
      dsimp only [step] at taken
      split at taken
      · cases taken
        exact .addIdler ‹_›
      · cases taken
  | switchTo thread =>
      dsimp only [step] at taken
      split at taken
      · cases taken
        exact .leave ‹_›
      · cases taken
        exact .switchTo ‹_›
      · cases taken
  | wake thread =>
      dsimp only [step] at taken
      split at taken
      · cases taken
        exact .wake ‹_› ‹_›
      · cases taken
  | recruit thread =>
      dsimp only [step] at taken
      split at taken
      · cases taken
        exact .recruit ‹_›
      · cases taken
  | blockCurrentTask thread =>
      dsimp only [step] at taken
      split at taken
      · cases taken
        exact .blockCurrentTask ‹_›
      · cases taken
        exact .blockUnblocked ‹_›
      · cases taken
  | taskBlocks thread =>
      dsimp only [step] at taken
      split at taken
      · cases taken
        exact .taskBlocks ‹_›
      · exact .turn rfl ‹_›
      · cases taken
  | waitForIf0Task thread =>
      dsimp only [step] at taken
      split at taken
      · cases taken
        exact .waitForIf0Task ‹_›
      · exact .turn rfl ‹_›
      · cases taken
  | executeInline thread =>
      dsimp only [step] at taken
      split at taken
      · cases taken
        exact .executeInline ‹_›
      · exact .turn rfl ‹_›
      · cases taken
  | preempt thread released =>
      dsimp only [step] at taken
      split at taken
      · split at taken
        · cases taken
          exact .preempt ‹_› ‹_›
        · cases taken
      · exact .turn rfl ‹_›
      · cases taken
  | finish thread fulfilled =>
      dsimp only [step] at taken
      split at taken
      · cases taken
        exact steps_of_finish ‹_›
      · exact .turn rfl ‹_›
      · cases taken

end Inversion

end Nanos6.ThreadManager
