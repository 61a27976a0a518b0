import Nanos6.Foundation.Pending
import Nanos6.Scheduling.Conservation

/-!
# The NUMA hierarchical scheduler

A scheduler over one priority scheduler for each NUMA node.  The wrapper counts,
in `_readyTasks`, the tasks that it hands to each of them and takes back; it
hands a new task to the node with the lowest count and steals from the node with
the highest one.

The schedulers of the nodes share the immediate successor slot of a CPU, which
belongs to the CPU, and each has a polling slot of its own.  Their operations
are single steps here; those of the wrapper are not, and in the loops over the
nodes an iteration is a step.
-/

namespace Nanos6.NUMAHierarchicalScheduler

open Foundation
export Scheduling (TaskId CPU SlotId Addition PriorityClass)

abbrev NUMANode := Nat

structure Machine where
  cpuCount : Nat
  nodeCount : Nat
  numaNodeId : CPU → NUMANode
  /-- Every CPU belongs to a node. -/
  inRange : ∀ cpu, numaNodeId cpu < nodeCount

/-- A call in progress, at the point of the source that it performs next. -/
inductive Call where
  /-- With the CPU of the thread of the task, for a task that is unblocked. -/
  | addReadyTask (add : Addition) (threadCPU : CPU)
  /-- The loop that looks for the least loaded node. -/
  | leastLoaded (add : Addition) (numa : NUMANode) (minLoad : Int)
      (minIdx : Option NUMANode)
  | countTask (add : Addition) (node : NUMANode)
  | handTask (add : Addition) (node : NUMANode)
  | getIdleNUMANodeCPU (node : NUMANode)
  | getIdleCPU
  | getReadyTask (cpu : CPU) (canMarkAsIdle : Bool)
  | askOwnNode (cpu : CPU) (canMarkAsIdle : Bool)
  /-- The loop that looks for the most loaded node. -/
  | mostLoaded (cpu : CPU) (canMarkAsIdle : Bool) (numa : NUMANode)
      (maxLoad : Int) (maxIdx : NUMANode)
  | askMostLoaded (cpu : CPU) (canMarkAsIdle : Bool) (node : NUMANode)
  | discountTask (task : TaskId) (node : NUMANode)
  | cpuBecomesIdle (cpu : CPU)
  | requestPolling (cpu : CPU)
  | releasePolling (cpu : CPU) (slot : SlotId)
  | disableComputePlace (cpu : CPU)
  | disableInNode (cpu : CPU)
  | enableComputePlace (cpu : CPU)
  deriving DecidableEq

/-- The compute place of the call. -/
def Call.computePlace : Call → Option CPU
  | .addReadyTask add _ => add.computePlace
  | .leastLoaded add _ _ _ => add.computePlace
  | .countTask add _ => add.computePlace
  | .handTask add _ => add.computePlace
  | .getIdleNUMANodeCPU _ => none
  | .getIdleCPU => none
  | .getReadyTask cpu _ => some cpu
  | .askOwnNode cpu _ => some cpu
  | .mostLoaded cpu _ _ _ _ => some cpu
  | .askMostLoaded cpu _ _ => some cpu
  | .discountTask _ _ => none
  | .cpuBecomesIdle cpu => some cpu
  | .requestPolling cpu => some cpu
  | .releasePolling cpu _ => some cpu
  | .disableComputePlace cpu => some cpu
  | .disableInNode cpu => some cpu
  | .enableComputePlace cpu => some cpu

structure State where
  readyTasks : NUMANode → Int := fun _ => 0
  enabledCPUs : NUMANode → Int
  /-- The map `_tasks` of each scheduler. -/
  classes : NUMANode → List PriorityClass := fun _ => []
  pollingSlot : NUMANode → Option SlotId := fun _ => none
  slot : SlotId → Option TaskId := fun _ => none
  nextSlot : SlotId := 0
  schedulerData : CPU → Option TaskId := fun _ => none
  priority : TaskId → Int := fun _ => 0
  idleCPUs : List CPU := []
  calls : List Call := []
  /-- Not in the source: the node to whose scheduler the task in the immediate
  successor slot was handed. -/
  successorNode : CPU → NUMANode := fun _ => 0

/-- The constructor counts the CPUs of each node. -/
def initialState (machine : Machine) : State where
  enabledCPUs := fun node =>
    ((List.range machine.cpuCount).filter fun cpu =>
      machine.numaNodeId cpu = node).length

/-- The counters are of type `int`. -/
def wrapInt (value : Int) : Int :=
  value.bmod (2 ^ 32)

namespace State

def goesOn (state : State) (index : Nat) (next : List Call) : State :=
  { state with calls := replaceAt state.calls index next }

def addTo (state : State) (node : NUMANode) (amount : Int) : State :=
  { state with
    readyTasks :=
      Function.update state.readyTasks node
        (wrapInt (state.readyTasks node + amount)) }

/-- One iteration of the loop in `addReadyTask`. -/
def lessLoaded (state : State) (numa : NUMANode)
    (min : Int × Option NUMANode) : Int × Option NUMANode :=
  if 0 < state.enabledCPUs numa ∧
      (min.1 = -1 ∨ state.readyTasks numa < min.1) then
    (state.readyTasks numa, some numa)
  else min

/-- One iteration of the loop in `getReadyTask`. -/
def moreLoaded (state : State) (max : Int × NUMANode) (numa : NUMANode) :
    Int × NUMANode :=
  if max.1 < state.readyTasks numa then (state.readyTasks numa, numa)
  else max

/-- The node that the loop in `getReadyTask` finds. -/
def mostLoadedNode (machine : Machine) (state : State) (cpu : CPU) :
    NUMANode :=
  ((List.range machine.nodeCount).foldl state.moreLoaded
    (state.readyTasks (machine.numaNodeId cpu),
      machine.numaNodeId cpu)).2

/-! ### The schedulers of the nodes -/

/-- The scheduler of a node. -/
def scheduler (state : State) (node : NUMANode) : Scheduling.System :=
  { classes := state.classes node
    pollingSlot := state.pollingSlot node
    schedulerData := state.schedulerData
    priority := state.priority }

def setScheduler (state : State) (node : NUMANode)
    (system : Scheduling.System) : State :=
  { state with
    classes := Function.update state.classes node system.classes
    schedulerData := system.schedulerData }

/-- A task is taken out of the scheduler of a node. -/
def chooseTask (state : State) (node : NUMANode) (cpu : CPU) :
    Option (State × Option TaskId) :=
  ((state.scheduler node).chooseTask cpu).map fun chosen =>
    (state.setScheduler node chosen.1, chosen.2)

/-- The task goes to the immediate successor slot of the CPU. -/
def becomesSuccessor (state : State) (add : Addition) : Option CPU :=
  add.computePlace.filter fun cpu =>
    add.hint.allowsImmediateSuccessor && (state.schedulerData cpu).isNone

def pushTask (state : State) (node : NUMANode) (key : Int) (front : Bool)
    (task : TaskId) : State :=
  { state with
    classes :=
      Function.update state.classes node
        (Scheduling.withClass key
          (Scheduling.PriorityClass.push front task)
          (state.classes node)) }

def setSuccessor (state : State) (node : NUMANode) (cpu : CPU)
    (task : TaskId) : State :=
  { state with
    schedulerData := Function.update state.schedulerData cpu (some task)
    successorNode := Function.update state.successorNode cpu node }

def storeTask (state : State) (node : NUMANode) (slot : SlotId)
    (task : TaskId) : State :=
  { state with
    pollingSlot := Function.update state.pollingSlot node none
    slot := Function.update state.slot slot (some task) }

def setPriority (state : State) (add : Addition) : State :=
  { state with
    priority := Function.update state.priority add.task add.priority }

/-- `PriorityScheduler::addReadyTask`; with the calls that follow. -/
def addReadyTask (state : State) (add : Addition) (node : NUMANode)
    (next : List Call) : State × List Call :=
  match state.becomesSuccessor add, state.pollingSlot node with
  | some cpu, _ =>
      ((state.setPriority add).setSuccessor node cpu add.task, [])
  | none, some slot =>
      ((state.setPriority add).storeTask node slot add.task, [])
  | none, none =>
      ((state.setPriority add).pushTask node (-add.priority)
        add.hint.pushesFront add.task, next)

/-- `PriorityScheduler::disableComputePlace`. -/
def disableInNode (state : State) (node : NUMANode) (cpu : CPU) : State :=
  match state.schedulerData cpu with
  | none => state
  | some task =>
      { state.pushTask node (-state.priority task) false task with
        schedulerData := Function.update state.schedulerData cpu none }

/-- `PriorityScheduler::requestPolling`. -/
def requestPolling (state : State) (node : NUMANode) (cpu : CPU) :
    Option State :=
  (state.chooseTask node cpu).map fun chosen =>
    let slot := chosen.1.nextSlot
    let used := { chosen.1 with nextSlot := slot + 1 }
    match chosen.2 with
    | some task =>
        { used with slot := Function.update used.slot slot (some task) }
    | none =>
        if (used.pollingSlot node).isNone then
          { used with
            pollingSlot := Function.update used.pollingSlot node (some slot) }
        else { used with idleCPUs := used.idleCPUs.insert cpu }

/-- `PriorityScheduler::releasePolling`. -/
def releasePolling (state : State) (node : NUMANode) (cpu : CPU)
    (slot : SlotId) : State :=
  if state.pollingSlot node = some slot then
    { state with
      pollingSlot := Function.update state.pollingSlot node none
      idleCPUs := state.idleCPUs.insert cpu }
  else state

/-- A CPU leaves the idle set, if there is one. -/
def resumes (state : State) (cpu : Option CPU) : State :=
  { state with
    idleCPUs := state.idleCPUs.filter fun other => some other != cpu }

end State

/-- What follows a node that gave no task or one. -/
def takes (node : NUMANode) (task : Option TaskId) (otherwise : List Call) :
    List Call :=
  match task with
  | some task => [.discountTask task node]
  | none => otherwise

/-- The search for an idle CPU: that of the scheduler of the node for an
unblocked task, or else that of the wrapper. -/
def getIdle (add : Addition) (node : NUMANode) : List Call :=
  if add.doGetIdle then
    if add.hint = .unblockedTask then [.getIdleCPU]
    else [.getIdleNUMANodeCPU node]
  else []

/-- One step of a call. -/
def perform (machine : Machine) (state : State) (index : Nat) :
    Call → Option State
  | .addReadyTask add threadCPU =>
      some <| state.goesOn index <|
        if add.hint = .unblockedTask then
          [.countTask add (machine.numaNodeId threadCPU)]
        else [.leastLoaded add 0 (-1) none]
  | .leastLoaded add numa minLoad minIdx =>
      if numa < machine.nodeCount then
        let min := state.lessLoaded numa (minLoad, minIdx)
        some (state.goesOn index [.leastLoaded add (numa + 1) min.1 min.2])
      else
        minIdx.map fun node => state.goesOn index [.countTask add node]
  | .countTask add node =>
      some ((state.addTo node 1).goesOn index [.handTask add node])
  | .handTask add node =>
      let added := state.addReadyTask add node (getIdle add node)
      some <| added.1.goesOn index <|
        if add.hint = .unblockedTask then added.2 else getIdle add node
  | .getIdleNUMANodeCPU node =>
      let idle :=
        (state.idleCPUs.filter fun cpu =>
          machine.numaNodeId cpu = node).min?
      some <| (state.resumes idle).goesOn index <|
        if idle.isSome then [] else [.getIdleCPU]
  | .getIdleCPU =>
      some ((state.resumes state.idleCPUs.min?).goesOn index [])
  | .getReadyTask cpu canMarkAsIdle =>
      let own := machine.numaNodeId cpu
      some <| state.goesOn index <|
        if 0 < state.readyTasks own then [.askOwnNode cpu canMarkAsIdle]
        else
          [.mostLoaded cpu canMarkAsIdle 0 (state.readyTasks own) own]
  | .askOwnNode cpu canMarkAsIdle =>
      let own := machine.numaNodeId cpu
      (state.chooseTask own cpu).map fun chosen =>
        chosen.1.goesOn index
          (takes own chosen.2
            [.mostLoaded cpu canMarkAsIdle 0 (chosen.1.readyTasks own) own])
  | .mostLoaded cpu canMarkAsIdle numa maxLoad maxIdx =>
      some <| state.goesOn index <|
        if numa < machine.nodeCount then
          let max := state.moreLoaded (maxLoad, maxIdx) numa
          [.mostLoaded cpu canMarkAsIdle (numa + 1) max.1 max.2]
        else [.askMostLoaded cpu canMarkAsIdle maxIdx]
  | .askMostLoaded cpu canMarkAsIdle node =>
      (state.chooseTask node cpu).map fun chosen =>
        chosen.1.goesOn index
          (takes node chosen.2
            (if canMarkAsIdle then [.cpuBecomesIdle cpu] else []))
  | .discountTask _ node =>
      some ((state.addTo node (-1)).goesOn index [])
  | .cpuBecomesIdle cpu =>
      some <|
        { state with idleCPUs := state.idleCPUs.insert cpu }.goesOn index []
  | .requestPolling cpu =>
      (state.requestPolling (machine.numaNodeId cpu) cpu).map fun requested =>
        requested.goesOn index []
  | .releasePolling cpu slot =>
      some <| (state.releasePolling (machine.numaNodeId cpu) cpu slot).goesOn
        index []
  | .disableComputePlace cpu =>
      let own := machine.numaNodeId cpu
      if 0 < state.enabledCPUs own then
        some <|
          { state with
            enabledCPUs :=
              Function.update state.enabledCPUs own
                (wrapInt (state.enabledCPUs own - 1)) }.goesOn index
            [.disableInNode cpu]
      else none
  | .disableInNode cpu =>
      some <| (state.disableInNode (machine.numaNodeId cpu) cpu).goesOn index
        []
  | .enableComputePlace cpu =>
      let own := machine.numaNodeId cpu
      some <|
        { state with
          enabledCPUs :=
            Function.update state.enabledCPUs own
              (wrapInt (state.enabledCPUs own + 1)) }.goesOn index []

/-- A call as it is made. -/
def Call.isEntry : Call → Bool
  | .addReadyTask _ _ | .getReadyTask _ _ | .requestPolling _
  | .releasePolling _ _ | .disableComputePlace _ | .enableComputePlace _ =>
      true
  | _ => false

inductive Action where
  | start (call : Call)
  | perform (index : Nat)
  /-- The thread that polls takes the task of its slot. -/
  | getTask (slot : SlotId)
  deriving DecidableEq

def step (machine : Machine) (state : State) : Action → Option State
  | .start call =>
      if call.isEntry = true ∧
          call.computePlace.all (fun cpu => cpu < machine.cpuCount) then
        some { state with calls := state.calls ++ [call] }
      else none
  | .perform index => state.calls[index]?.bind (perform machine state index)
  | .getTask slot =>
      some { state with slot := Function.update state.slot slot none }

/-! ## The tasks of a node -/

/-- The task in the immediate successor slot was handed to the node. -/
def State.isSuccessorOf (state : State) (node : NUMANode) (cpu : CPU) :
    Bool :=
  (state.schedulerData cpu).isSome && state.successorNode cpu == node

def State.queued (state : State) (node : NUMANode) : Nat :=
  (Scheduling.queuedTasks (state.classes node)).length

def State.successors (machine : Machine) (state : State)
    (node : NUMANode) : Nat :=
  ∑ cpu ∈ Finset.range machine.cpuCount, (state.isSuccessorOf node cpu).toNat

/-- The number of tasks handed to the scheduler of a node and not yet taken out
of it. -/
def State.held (machine : Machine) (state : State) (node : NUMANode) : Nat :=
  state.queued node + state.successors machine node

/-- The node has been counted for a task that it does not hold yet, or does not
hold any more. -/
def Call.owes (node : NUMANode) : Call → Nat
  | .handTask _ other => (other == node).toNat
  | .discountTask _ other => (other == node).toNat
  | _ => 0

/-- The task in the immediate successor slot, if there is one, was handed to
the node. -/
def State.ownsSuccessor (state : State) (node : NUMANode) (cpu : CPU) :
    Bool :=
  (state.schedulerData cpu).isNone || state.successorNode cpu == node

/-- No task leaves through a polling slot, a task in an immediate successor slot
leaves through the scheduler that it was handed to, and no counter reaches the
limit of its type. -/
def permitsCall (machine : Machine) (state : State) : Call → Bool
  | .countTask _ node => state.readyTasks node < 2 ^ 31 - 1
  | .handTask add node =>
      (state.becomesSuccessor add).isSome || (state.pollingSlot node).isNone
  | .askOwnNode cpu _ => state.ownsSuccessor (machine.numaNodeId cpu) cpu
  | .askMostLoaded cpu _ node => state.ownsSuccessor node cpu
  | .requestPolling cpu =>
      (state.classes (machine.numaNodeId cpu)).isEmpty &&
        (state.schedulerData cpu).isNone
  | .disableInNode cpu => state.ownsSuccessor (machine.numaNodeId cpu) cpu
  | _ => true

def permits (machine : Machine) (state : State) : Action → Bool
  | .perform index => state.calls[index]?.all (permitsCall machine state)
  | _ => true

def Permitted (machine : Machine) (state : State) (action : Action) : Prop :=
  permits machine state action = true

instance (machine : Machine) (state : State) (action : Action) :
    Decidable (Permitted machine state action) :=
  inferInstanceAs (Decidable (permits machine state action = true))

section Held

variable {machine : Machine} {state next : State} {node : NUMANode}
  {cpu : CPU}

theorem successors_congr (later : State)
    (data : later.schedulerData = state.schedulerData)
    (nodes : later.successorNode = state.successorNode)
    (other : NUMANode) :
    later.successors machine other = state.successors machine other := by
  simp only [State.successors, State.isSuccessorOf, data, nodes]

/-- One immediate successor slot has changed. -/
theorem successors_exchange (inRange : cpu < machine.cpuCount)
    {task : Option TaskId}
    (data : next.schedulerData =
      Function.update state.schedulerData cpu task)
    (nodes : ∀ place, place ≠ cpu →
      next.successorNode place = state.successorNode place)
    (other : NUMANode) :
    next.successors machine other + (state.isSuccessorOf other cpu).toNat =
      state.successors machine other +
        (next.isSuccessorOf other cpu).toNat := by
  apply sum_exchange
    (fun place => (next.isSuccessorOf other place).toNat)
    (fun place => (state.isSuccessorOf other place).toNat)
    (Finset.mem_range.mpr inRange)
  intro place differ
  simp only [State.isSuccessorOf, data, nodes place differ,
    Function.update_of_ne differ]

theorem queued_setScheduler (system : Scheduling.System) (other : NUMANode) :
    (state.setScheduler node system).queued other =
      if other = node then
        (Scheduling.queuedTasks system.classes).length
      else state.queued other := by
  by_cases same : other = node
  · subst same
    simp [State.queued, State.setScheduler]
  · simp [State.queued, State.setScheduler, same]

theorem queued_pushTask (key : Int) (front : Bool) (task : TaskId)
    (other : NUMANode) :
    (state.pushTask node key front task).queued other =
      state.queued other + (node == other).toNat := by
  have pushed := (Scheduling.queuedTasks_push key front task
    (state.classes node)).length_eq
  by_cases same : other = node
  · subst same
    simpa [State.queued, State.pushTask] using pushed
  · have distinct : (node == other) = false := by
      simpa using Ne.symm same
    simp [State.queued, State.pushTask, same, distinct]

/-- A task that leaves the immediate successor slot leaves the node that it was
handed to. -/
theorem successors_remove (later : State)
    (inRange : cpu < machine.cpuCount) {successor : TaskId}
    (present : state.schedulerData cpu = some successor)
    (owns : state.ownsSuccessor node cpu = true)
    (data : later.schedulerData =
      Function.update state.schedulerData cpu none)
    (nodes : later.successorNode = state.successorNode)
    (other : NUMANode) :
    later.successors machine other + (node == other).toNat =
      state.successors machine other := by
  have exchanged := successors_exchange inRange data
    (fun place _ => congrFun nodes place) other
  have here : state.successorNode cpu = node := by
    simpa [State.ownsSuccessor, present] using owns
  have before : state.isSuccessorOf other cpu = (node == other) := by
    simp [State.isSuccessorOf, present, here]
  have after : later.isSuccessorOf other cpu = false := by
    simp [State.isSuccessorOf, data]
  rw [before, after] at exchanged
  exact exchanged

/-- A task comes from the queue, or the immediate successor leaves its slot: for
the caller, or for the queue in exchange. -/
theorem counts_of_chooses {system later : Scheduling.System}
    {task : Option TaskId}
    (chooses : Scheduling.Chooses system cpu later task) :
    (later.schedulerData = system.schedulerData ∧
      (Scheduling.queuedTasks later.classes).length + task.isSome.toNat =
        (Scheduling.queuedTasks system.classes).length) ∨
    (task.isSome = true ∧ system.schedulerData cpu ≠ none ∧
      later.schedulerData = Function.update system.schedulerData cpu none ∧
      (Scheduling.queuedTasks later.classes).length =
        (Scheduling.queuedTasks system.classes).length) := by
  cases chooses with
  | nothing _ _ => exact Or.inl ⟨rfl, rfl⟩
  | successor present =>
      right
      rw [present]
      exact ⟨rfl, Option.some_ne_none _, rfl, rfl⟩
  | queued _ popped => exact Or.inl ⟨rfl, popped.length_eq.symm⟩
  | exchanged present popped =>
      right
      rw [present]
      refine ⟨rfl, Option.some_ne_none _, rfl, ?_⟩
      exact (Scheduling.queuedTasks_push _ false _ _).length_eq.trans
        popped.length_eq.symm

/-- What the scheduler of a node gives is taken out of it, if its immediate
successor was handed to it. -/
theorem held_chooseTask {task : Option TaskId}
    (inRange : cpu < machine.cpuCount)
    (owns : state.ownsSuccessor node cpu = true)
    (chosen : state.chooseTask node cpu = some (next, task))
    (other : NUMANode) :
    next.held machine other + (task.isSome && node == other).toNat =
      state.held machine other := by
  obtain ⟨⟨system, task⟩, found, equal⟩ := Option.map_eq_some_iff.mp chosen
  cases equal
  have queue : other = node → state.queued other =
      (Scheduling.queuedTasks (state.scheduler node).classes).length := by
    rintro rfl
    rfl
  have atNode : other = node → (node == other) = true := by
    rintro rfl
    simp
  have elsewhere : other ≠ node → (node == other) = false := by
    intro differ
    simpa using Ne.symm differ
  unfold State.held
  rw [queued_setScheduler]
  rcases counts_of_chooses (Scheduling.chooses_of_chooseTask found) with
    ⟨data, fewer⟩ | ⟨isSome, present, data, same⟩
  · rw [successors_congr (state.setScheduler node system) data rfl]
    split
    · rename_i here
      rw [queue here, atNode here, Bool.and_true]
      dsimp only at fewer ⊢
      omega
    · rename_i differ
      rw [elsewhere differ, Bool.and_false]
      rfl
  · obtain ⟨successor, holds⟩ := Option.ne_none_iff_exists'.mp present
    have removed := successors_remove (state.setScheduler node system)
      inRange holds owns data rfl other
    dsimp only at isSome ⊢
    rw [isSome, Bool.true_and, Nat.add_assoc, removed]
    split
    · rename_i here
      rw [queue here, same]
    · rfl

theorem held_congr (later : State) (classes : later.classes = state.classes)
    (data : later.schedulerData = state.schedulerData)
    (nodes : later.successorNode = state.successorNode)
    (other : NUMANode) :
    later.held machine other = state.held machine other := by
  unfold State.held
  rw [successors_congr later data nodes]
  simp only [State.queued, classes]

theorem held_setSuccessor (inRange : cpu < machine.cpuCount)
    (empty : state.schedulerData cpu = none) (task : TaskId)
    (other : NUMANode) :
    (state.setSuccessor node cpu task).held machine other =
      state.held machine other + (node == other).toNat := by
  have exchanged : (state.setSuccessor node cpu task).successors machine
      other + (state.isSuccessorOf other cpu).toNat =
        state.successors machine other +
          ((state.setSuccessor node cpu task).isSuccessorOf other
            cpu).toNat :=
    successors_exchange inRange rfl
      (fun place differ => Function.update_of_ne differ _ _) other
  have before : state.isSuccessorOf other cpu = false := by
    simp [State.isSuccessorOf, empty]
  have after : (state.setSuccessor node cpu task).isSuccessorOf other cpu =
      (node == other) := by
    simp [State.isSuccessorOf, State.setSuccessor]
  rw [before, after, Bool.toNat_false, Nat.add_zero] at exchanged
  unfold State.held
  rw [exchanged, ← Nat.add_assoc]
  rfl

theorem held_pushTask (key : Int) (front : Bool) (task : TaskId)
    (other : NUMANode) :
    (state.pushTask node key front task).held machine other =
      state.held machine other + (node == other).toNat := by
  have same : (state.pushTask node key front task).successors machine other =
      state.successors machine other :=
    successors_congr (state.pushTask node key front task) rfl rfl other
  unfold State.held
  rw [queued_pushTask, same]
  omega

/-- A task that the scheduler of a node keeps is held by it. -/
theorem held_addReadyTask {add : Addition} {calls : List Call}
    (inRange : add.computePlace.all fun cpu => cpu < machine.cpuCount)
    (kept : (state.becomesSuccessor add).isSome = true ∨
      state.pollingSlot node = none)
    (other : NUMANode) :
    (state.addReadyTask add node calls).1.held machine other =
      state.held machine other + (node == other).toNat := by
  have known : (state.setPriority add).held machine other =
      state.held machine other :=
    held_congr (state.setPriority add) rfl rfl rfl other
  unfold State.addReadyTask
  split
  · rename_i cpu becomes
    obtain ⟨place, allowed⟩ := Option.filter_eq_some_iff.mp becomes
    rw [Bool.and_eq_true, Option.isNone_iff_eq_none] at allowed
    rw [place, Option.all_some, decide_eq_true_eq] at inRange
    have empty : (state.setPriority add).schedulerData cpu = none :=
      allowed.2
    rw [held_setSuccessor inRange empty, known]
  · rename_i slot refused polled
    rw [refused, polled] at kept
    simp at kept
  · rw [held_pushTask, known]

/-- A CPU that is disabled leaves its immediate successor to its node. -/
theorem held_disableInNode (inRange : cpu < machine.cpuCount)
    (owns : state.ownsSuccessor node cpu = true) (other : NUMANode) :
    (state.disableInNode node cpu).held machine other =
      state.held machine other := by
  unfold State.disableInNode
  split
  · rfl
  · rename_i task present
    have removed := successors_remove (state.disableInNode node cpu) inRange
      present owns
      (by unfold State.disableInNode; rw [present])
      (by unfold State.disableInNode; rw [present]; rfl) other
    unfold State.disableInNode at removed
    rw [present] at removed
    unfold State.held
    change (state.pushTask node (-state.priority task) false task).queued
      other + _ = _
    rw [queued_pushTask, Nat.add_assoc, Nat.add_comm (node == other).toNat,
      removed]

end Held

/-! ## The invariant -/

structure Invariant (machine : Machine) (state : State) : Prop where
  counted : ∀ node, state.readyTasks node =
    ((state.held machine node + total (Call.owes node) state.calls : Nat) :
      Int)
  bounded : ∀ node, state.readyTasks node < 2 ^ 31
  placed : ∀ call ∈ state.calls,
    call.computePlace.all fun cpu => cpu < machine.cpuCount

namespace Invariant

variable {machine : Machine} {state next : State} {index : Nat} {call : Call}

/-- A call goes on, and a counter changes by what the node gets and what is owed
to it. -/
theorem advance (invariant : Invariant machine state) (later : State)
    (calls : List Call) (found : state.calls[index]? = some call)
    (same : later.calls = state.calls)
    (balance : ∀ node, later.readyTasks node +
        (state.held machine node + call.owes node : Nat) =
      state.readyTasks node +
        (later.held machine node + total (Call.owes node) calls : Nat))
    (bounded : ∀ node, later.readyTasks node < 2 ^ 31)
    (placed : ∀ new ∈ calls, new.computePlace = call.computePlace ∨
      new.computePlace = none) :
    Invariant machine (later.goesOn index calls) where
  counted := by
    intro node
    have replaced := total_replaceAt (Call.owes node) calls found
    have heldNow : (later.goesOn index calls).held machine node =
        later.held machine node :=
      held_congr (later.goesOn index calls) rfl rfl rfl node
    have before := invariant.counted node
    have change := balance node
    rw [heldNow]
    change later.readyTasks node =
      ((_ + total _ (replaceAt later.calls index calls) : Nat) : Int)
    rw [same]
    omega
  bounded := bounded
  placed := by
    intro other member
    change other ∈ replaceAt later.calls index calls at member
    rw [same] at member
    rcases mem_replaceAt member with new | old
    · rcases placed other new with equal | empty
      · rw [equal]
        exact invariant.placed call (List.mem_of_getElem? found)
      · rw [empty]
        rfl
    · exact invariant.placed other old

/-- A call goes on without a change of the counters. -/
theorem goesOn (invariant : Invariant machine state) (later : State)
    (calls : List Call) (found : state.calls[index]? = some call)
    (same : later.calls = state.calls)
    (counters : later.readyTasks = state.readyTasks)
    (held : ∀ node, later.held machine node + total (Call.owes node) calls =
      state.held machine node + call.owes node)
    (placed : ∀ new ∈ calls, new.computePlace = call.computePlace ∨
      new.computePlace = none) :
    Invariant machine (later.goesOn index calls) := by
  apply invariant.advance later calls found same _ _ placed
  · intro node
    rw [counters, held]
  · rw [counters]
    exact invariant.bounded

/-- A call goes on with nothing owed and the tasks where they are. -/
theorem moves (invariant : Invariant machine state) (later : State)
    (calls : List Call) (found : state.calls[index]? = some call)
    (same : later.calls = state.calls)
    (counters : later.readyTasks = state.readyTasks)
    (classes : later.classes = state.classes)
    (data : later.schedulerData = state.schedulerData)
    (nodes : later.successorNode = state.successorNode)
    (owes : ∀ node, total (Call.owes node) calls = call.owes node)
    (placed : ∀ new ∈ calls, new.computePlace = call.computePlace ∨
      new.computePlace = none) :
    Invariant machine (later.goesOn index calls) := by
  apply invariant.goesOn later calls found same counters _ placed
  intro node
  rw [held_congr later classes data nodes, owes]

theorem inRange (invariant : Invariant machine state) {cpu : CPU}
    (found : state.calls[index]? = some call)
    (place : call.computePlace = some cpu) : cpu < machine.cpuCount := by
  have all := invariant.placed call (List.mem_of_getElem? found)
  rw [place, Option.all_some, decide_eq_true_eq] at all
  exact all

theorem wrapInt_of_bounds {value : Int} (nonneg : 0 ≤ value)
    (small : value < 2 ^ 31) : wrapInt value = value := by
  unfold wrapInt
  rw [Int.bmod_def]
  omega

theorem nonneg (invariant : Invariant machine state) (node : NUMANode) :
    0 ≤ state.readyTasks node := by
  rw [invariant.counted]
  exact Int.natCast_nonneg _

theorem readyTasks_addTo {node : NUMANode} {amount : Int}
    (nonneg : 0 ≤ state.readyTasks node + amount)
    (small : state.readyTasks node + amount < 2 ^ 31) (other : NUMANode) :
    (state.addTo node amount).readyTasks other =
      state.readyTasks other + amount * ((node == other).toNat : Int) := by
  change Function.update state.readyTasks node
    (wrapInt (state.readyTasks node + amount)) other = _
  by_cases here : other = node
  · subst here
    rw [Function.update_self, wrapInt_of_bounds nonneg small,
      beq_self_eq_true]
    simp
  · have distinct : (node == other) = false := by
      simpa using Ne.symm here
    rw [Function.update_of_ne here, distinct]
    simp

/-- A counter changes by what is owed to its node. -/
theorem counts (invariant : Invariant machine state) {node : NUMANode}
    {amount : Int} (calls : List Call)
    (found : state.calls[index]? = some call)
    (nonneg : 0 ≤ state.readyTasks node + amount)
    (small : state.readyTasks node + amount < 2 ^ 31)
    (owes : ∀ other, ((total (Call.owes other) calls : Nat) : Int) =
      call.owes other + amount * ((node == other).toNat : Int))
    (placed : ∀ new ∈ calls, new.computePlace = call.computePlace ∨
      new.computePlace = none) :
    Invariant machine ((state.addTo node amount).goesOn index calls) := by
  apply invariant.advance (state.addTo node amount) calls found rfl _ _
    placed
  · intro other
    have same : (state.addTo node amount).held machine other =
        state.held machine other :=
      held_congr (state.addTo node amount) rfl rfl rfl other
    have owed := owes other
    rw [same, readyTasks_addTo nonneg small]
    push_cast
    omega
  · intro other
    by_cases here : other = node
    · subst here
      rw [readyTasks_addTo nonneg small, beq_self_eq_true]
      simpa using small
    · have distinct : (node == other) = false := by
        simpa using Ne.symm here
      rw [readyTasks_addTo nonneg small, distinct]
      simpa using invariant.bounded other

theorem countTask (invariant : Invariant machine state) {add : Addition}
    {node : NUMANode}
    (found : state.calls[index]? = some (.countTask add node))
    (small : state.readyTasks node < 2 ^ 31 - 1) :
    Invariant machine
      ((state.addTo node 1).goesOn index [.handTask add node]) := by
  have nonneg := invariant.nonneg node
  apply invariant.counts _ found (by omega) (by omega)
  · intro other
    rw [total_singleton]
    simp [Call.owes]
  · intro new member
    rw [List.mem_singleton.mp member]
    exact Or.inl rfl

theorem discountTask (invariant : Invariant machine state) {task : TaskId}
    {node : NUMANode}
    (found : state.calls[index]? = some (.discountTask task node)) :
    Invariant machine ((state.addTo node (-1)).goesOn index []) := by
  have owed : 1 ≤ total (Call.owes node) state.calls := by
    have replaced := total_replaceAt (Call.owes node) [] found
    rw [Call.owes, beq_self_eq_true, Bool.toNat_true, total_nil] at replaced
    omega
  have counted := invariant.counted node
  have bounded := invariant.bounded node
  apply invariant.counts _ found (by omega) (by omega)
  · intro other
    rw [total_nil]
    simp [Call.owes]
  · intro new member
    cases member

theorem handTask (invariant : Invariant machine state) {add : Addition}
    {node : NUMANode} {follow calls : List Call}
    (found : state.calls[index]? = some (.handTask add node))
    (kept : (state.becomesSuccessor add).isSome = true ∨
      state.pollingSlot node = none)
    (plain : ∀ new ∈ calls, new.computePlace = none ∧
      ∀ other, new.owes other = 0) :
    Invariant machine
      ((state.addReadyTask add node follow).1.goesOn index calls) := by
  have same : (state.addReadyTask add node follow).1.calls = state.calls ∧
      (state.addReadyTask add node follow).1.readyTasks =
        state.readyTasks := by
    unfold State.addReadyTask
    split <;> exact ⟨rfl, rfl⟩
  apply invariant.goesOn _ calls found same.1 same.2
  · intro other
    have inRange := invariant.placed _ (List.mem_of_getElem? found)
    have nothing : total (Call.owes other) calls = 0 := by
      apply List.sum_eq_zero
      intro amount member
      obtain ⟨new, inside, rfl⟩ := List.mem_map.mp member
      exact (plain new inside).2 other
    rw [held_addReadyTask inRange kept, nothing]
    rfl
  · intro new member
    exact Or.inr (plain new member).1

/-- A node is asked for a task. -/
theorem asks (invariant : Invariant machine state) {cpu : CPU}
    {node : NUMANode} {task : Option TaskId} {otherwise : List Call}
    (found : state.calls[index]? = some call)
    (place : call.computePlace = some cpu)
    (owes : ∀ other, call.owes other = 0)
    (owns : state.ownsSuccessor node cpu = true)
    (chosen : state.chooseTask node cpu = some (next, task))
    (plain : ∀ new ∈ otherwise, new.computePlace = some cpu ∧
      ∀ other, new.owes other = 0) :
    Invariant machine (next.goesOn index (takes node task otherwise)) := by
  have same : next.calls = state.calls ∧
      next.readyTasks = state.readyTasks := by
    obtain ⟨_, _, equal⟩ := Option.map_eq_some_iff.mp chosen
    cases equal
    exact ⟨rfl, rfl⟩
  apply invariant.goesOn next _ found same.1 same.2
  · intro other
    have held := held_chooseTask (invariant.inRange found place) owns chosen
      other
    rw [owes]
    cases task with
    | none =>
        have nothing : total (Call.owes other) otherwise = 0 := by
          apply List.sum_eq_zero
          intro amount member
          obtain ⟨new, inside, rfl⟩ := List.mem_map.mp member
          exact (plain new inside).2 other
        rw [takes, nothing]
        simpa using held
    | some task =>
        rw [takes, total_singleton]
        simpa [Call.owes] using held
  · intro new member
    cases task with
    | none => exact Or.inl ((plain new member).1.trans place.symm)
    | some task =>
        rw [takes, List.mem_singleton] at member
        rw [member]
        exact Or.inr rfl

theorem requestPolling (invariant : Invariant machine state) {cpu : CPU}
    {node : NUMANode} {requested : State}
    (found : state.calls[index]? = some (.requestPolling cpu))
    (empty : state.classes node = [])
    (absent : state.schedulerData cpu = none)
    (asked : state.requestPolling node cpu = some requested) :
    Invariant machine (requested.goesOn index []) := by
  have nothing : state.chooseTask node cpu =
      some (state.setScheduler node (state.scheduler node), none) := by
    have chosen : (state.scheduler node).chooseTask cpu =
        some (state.scheduler node, none) := by
      simp [Scheduling.System.chooseTask, State.scheduler, empty, absent]
    rw [State.chooseTask, chosen]
    rfl
  have classes : (state.setScheduler node (state.scheduler node)).classes =
      state.classes :=
    Function.update_eq_self node state.classes
  unfold State.requestPolling at asked
  rw [nothing] at asked
  cases asked
  dsimp only
  split
  · refine invariant.moves _ _ found rfl rfl classes rfl rfl ?_ ?_
    · intro other
      rfl
    · intro new member
      cases member
  · refine invariant.moves _ _ found rfl rfl classes rfl rfl ?_ ?_
    · intro other
      rfl
    · intro new member
      cases member

/-- The search for an idle CPU owes nothing. -/
theorem plain_getIdle {add : Addition} {node : NUMANode} {new : Call}
    (member : new ∈ getIdle add node) :
    new.computePlace = none ∧ ∀ other, new.owes other = 0 := by
  unfold getIdle at member
  split at member
  · split at member <;> rw [List.mem_singleton.mp member] <;>
      exact ⟨rfl, fun _ => rfl⟩
  · cases member

/-- A scheduler of a node looks for an idle CPU only as it is told. -/
theorem mem_of_mem_addReadyTask {add : Addition} {node : NUMANode}
    {follow : List Call} {new : Call}
    (member : new ∈ (state.addReadyTask add node follow).2) :
    new ∈ follow := by
  unfold State.addReadyTask at member
  split at member
  · cases member
  · cases member
  · exact member

theorem perform (invariant : Invariant machine state)
    (found : state.calls[index]? = some call)
    (permitted : permitsCall machine state call = true)
    (performed : perform machine state index call = some next) :
    Invariant machine next := by
  cases call with
  | addReadyTask add threadCPU =>
      cases performed
      apply invariant.moves state _ found rfl rfl rfl rfl rfl
      · intro node
        split <;> simp [Call.owes]
      · intro new member
        split at member <;> rw [List.mem_singleton.mp member] <;>
          exact Or.inl rfl
  | leastLoaded add numa minLoad minIdx =>
      simp only [NUMAHierarchicalScheduler.perform] at performed
      split at performed
      · cases performed
        apply invariant.moves state _ found rfl rfl rfl rfl rfl
        · intro node
          simp [Call.owes]
        · intro new member
          rw [List.mem_singleton.mp member]
          exact Or.inl rfl
      · obtain ⟨node, _, rfl⟩ := Option.map_eq_some_iff.mp performed
        apply invariant.moves state _ found rfl rfl rfl rfl rfl
        · intro other
          simp [Call.owes]
        · intro new member
          rw [List.mem_singleton.mp member]
          exact Or.inl rfl
  | countTask add node =>
      cases performed
      exact invariant.countTask found (of_decide_eq_true permitted)
  | handTask add node =>
      cases performed
      simp only [permitsCall, Bool.or_eq_true,
        Option.isNone_iff_eq_none] at permitted
      apply invariant.handTask found permitted
      intro new member
      split at member
      · exact plain_getIdle (mem_of_mem_addReadyTask member)
      · exact plain_getIdle member
  | getIdleNUMANodeCPU node =>
      cases performed
      apply invariant.moves (state.resumes _) _ found rfl rfl rfl rfl rfl
      · intro other
        split <;> simp [Call.owes]
      · intro new member
        split at member
        · cases member
        · rw [List.mem_singleton.mp member]
          exact Or.inr rfl
  | getIdleCPU =>
      cases performed
      apply invariant.moves (state.resumes _) _ found rfl rfl rfl rfl rfl
      · intro other
        rfl
      · intro new member
        cases member
  | getReadyTask cpu canMarkAsIdle =>
      cases performed
      apply invariant.moves state _ found rfl rfl rfl rfl rfl
      · intro node
        split <;> simp [Call.owes]
      · intro new member
        split at member <;> rw [List.mem_singleton.mp member] <;>
          exact Or.inl rfl
  | askOwnNode cpu canMarkAsIdle =>
      obtain ⟨⟨later, task⟩, chosen, rfl⟩ :=
        Option.map_eq_some_iff.mp performed
      apply invariant.asks found rfl (fun _ => rfl) permitted chosen
      intro new member
      rw [List.mem_singleton.mp member]
      exact ⟨rfl, fun _ => rfl⟩
  | mostLoaded cpu canMarkAsIdle numa maxLoad maxIdx =>
      cases performed
      apply invariant.moves state _ found rfl rfl rfl rfl rfl
      · intro node
        split <;> simp [Call.owes]
      · intro new member
        split at member <;> rw [List.mem_singleton.mp member] <;>
          exact Or.inl rfl
  | askMostLoaded cpu canMarkAsIdle node =>
      obtain ⟨⟨later, task⟩, chosen, rfl⟩ :=
        Option.map_eq_some_iff.mp performed
      apply invariant.asks found rfl (fun _ => rfl) permitted chosen
      intro new member
      split at member
      · rw [List.mem_singleton.mp member]
        exact ⟨rfl, fun _ => rfl⟩
      · cases member
  | discountTask task node =>
      cases performed
      exact invariant.discountTask found
  | cpuBecomesIdle cpu =>
      cases performed
      refine invariant.moves _ _ found rfl rfl rfl rfl rfl ?_ ?_
      · intro other
        rfl
      · intro new member
        cases member
  | requestPolling cpu =>
      simp only [permitsCall, Bool.and_eq_true, List.isEmpty_iff,
        Option.isNone_iff_eq_none] at permitted
      obtain ⟨requested, asked, rfl⟩ := Option.map_eq_some_iff.mp performed
      exact invariant.requestPolling found permitted.1 permitted.2 asked
  | releasePolling cpu slot =>
      cases performed
      unfold State.releasePolling
      split
      · refine invariant.moves _ _ found rfl rfl rfl rfl rfl ?_ ?_
        · intro other
          rfl
        · intro new member
          cases member
      · refine invariant.moves _ _ found rfl rfl rfl rfl rfl ?_ ?_
        · intro other
          rfl
        · intro new member
          cases member
  | disableComputePlace cpu =>
      simp only [NUMAHierarchicalScheduler.perform] at performed
      split at performed
      · cases performed
        refine invariant.moves _ _ found rfl rfl rfl rfl rfl ?_ ?_
        · intro node
          simp [Call.owes]
        · intro new member
          rw [List.mem_singleton.mp member]
          exact Or.inl rfl
      · cases performed
  | disableInNode cpu =>
      cases performed
      have same : (state.disableInNode (machine.numaNodeId cpu) cpu).calls =
            state.calls ∧
          (state.disableInNode (machine.numaNodeId cpu) cpu).readyTasks =
            state.readyTasks := by
        unfold State.disableInNode
        split <;> exact ⟨rfl, rfl⟩
      apply invariant.goesOn _ _ found same.1 same.2
      · intro node
        rw [held_disableInNode (invariant.inRange found rfl) permitted]
        rfl
      · intro new member
        cases member
  | enableComputePlace cpu =>
      cases performed
      refine invariant.moves _ _ found rfl rfl rfl rfl rfl ?_ ?_
      · intro other
        rfl
      · intro new member
        cases member

theorem step (invariant : Invariant machine state) {action : Action}
    (permitted : Permitted machine state action)
    (taken : step machine state action = some next) :
    Invariant machine next := by
  cases action with
  | start call =>
      simp only [NUMAHierarchicalScheduler.step] at taken
      split at taken
      · rename_i entry
        cases taken
        refine ⟨?_, invariant.bounded, ?_⟩
        · intro node
          have nothing : call.owes node = 0 := by
            cases call <;> first | rfl | cases entry.1
          have same : State.held machine
              { state with calls := state.calls ++ [call] } node =
                state.held machine node :=
            held_congr { state with calls := state.calls ++ [call] } rfl rfl
              rfl node
          rw [same, total_append, total_singleton, nothing]
          exact invariant.counted node
        · intro other member
          rcases List.mem_append.mp member with old | new
          · exact invariant.placed other old
          · rw [List.mem_singleton.mp new]
            exact entry.2
      · cases taken
  | perform index =>
      obtain ⟨call, found, performed⟩ := Option.bind_eq_some_iff.mp taken
      unfold Permitted permits at permitted
      dsimp only at permitted
      rw [found, Option.all_some] at permitted
      exact invariant.perform found permitted performed
  | getTask slot =>
      cases taken
      refine ⟨?_, invariant.bounded, invariant.placed⟩
      intro node
      have same : State.held machine
          { state with slot := Function.update state.slot slot none } node =
            state.held machine node :=
        held_congr
          { state with slot := Function.update state.slot slot none } rfl rfl
          rfl node
      rw [same]
      exact invariant.counted node

theorem initial (machine : Machine) :
    Invariant machine (initialState machine) where
  counted := by
    intro node
    simp [initialState, State.held, State.queued, State.successors,
      State.isSuccessorOf, Scheduling.queuedTasks]
  bounded := by
    intro node
    simp [initialState]
  placed := by
    intro call member
    cases member

end Invariant

theorem invariant_of_run {machine : Machine} {state : State}
    (run : Run (step machine) (Permitted machine) (initialState machine)
      state) : Invariant machine state :=
  run.invariant (Invariant.initial machine)
    fun _ _ _ invariant permitted taken => invariant.step permitted taken

/-! ## What the counters say -/

/-- The loop of `getReadyTask` finds a node with the highest counter. -/
theorem foldl_moreLoaded (state : State) (nodes : List NUMANode)
    (max : Int × NUMANode) (exact : max.1 = state.readyTasks max.2) :
    (nodes.foldl state.moreLoaded max).1 =
        state.readyTasks (nodes.foldl state.moreLoaded max).2 ∧
      max.1 ≤ (nodes.foldl state.moreLoaded max).1 ∧
      ∀ node ∈ nodes,
        state.readyTasks node ≤ (nodes.foldl state.moreLoaded max).1 := by
  induction nodes generalizing max with
  | nil => exact ⟨exact, le_rfl, fun _ member => by cases member⟩
  | cons first rest inductionHypothesis =>
      have better : (state.moreLoaded max first).1 =
            state.readyTasks (state.moreLoaded max first).2 ∧
          max.1 ≤ (state.moreLoaded max first).1 ∧
          state.readyTasks first ≤ (state.moreLoaded max first).1 := by
        unfold State.moreLoaded
        split
        · rename_i less
          exact ⟨rfl, le_of_lt less, le_rfl⟩
        · rename_i notLess
          exact ⟨exact, le_rfl, not_lt.mp notLess⟩
      obtain ⟨same, above, covers⟩ :=
        inductionHypothesis (state.moreLoaded max first) better.1
      rw [List.foldl_cons]
      refine ⟨same, better.2.1.trans above, ?_⟩
      intro node member
      rcases List.mem_cons.mp member with rfl | later
      · exact better.2.2.trans above
      · exact covers node later

theorem readyTasks_le_mostLoadedNode (machine : Machine) (state : State)
    (cpu : CPU) {node : NUMANode} (inside : node < machine.nodeCount) :
    state.readyTasks node ≤
      state.readyTasks (state.mostLoadedNode machine cpu) := by
  obtain ⟨same, -, covers⟩ := foldl_moreLoaded state
    (List.range machine.nodeCount)
    (state.readyTasks (machine.numaNodeId cpu), machine.numaNodeId cpu) rfl
  have covered := covers node (List.mem_range.mpr inside)
  rw [same] at covered
  exact covered

structure State.CountsTasks (machine : Machine) (state : State) : Prop where
  exact : ∀ node, state.readyTasks node = state.held machine node
  nonneg : ∀ node, 0 ≤ state.readyTasks node
  /-- As long as some node holds a task, a thread that steals asks a node that
  holds one. -/
  found : ∀ cpu node, node < machine.nodeCount →
    0 < state.held machine node →
      0 < state.held machine (state.mostLoadedNode machine cpu)

theorem countsTasks_of_run {machine : Machine} {state : State}
    (run : Run (step machine) (Permitted machine) (initialState machine)
      state) (quiet : state.calls = []) : state.CountsTasks machine := by
  have invariant := invariant_of_run run
  have exact : ∀ node, state.readyTasks node = state.held machine node := by
    intro node
    rw [invariant.counted node, quiet, total_nil, Nat.add_zero]
  refine ⟨exact, invariant.nonneg, ?_⟩
  intro cpu node inside holds
  have most := readyTasks_le_mostLoadedNode machine state cpu inside
  rw [exact, exact] at most
  omega

/-- Two nodes with a CPU each. -/
def twoNodes : Machine where
  cpuCount := 2
  nodeCount := 2
  numaNodeId := fun cpu => cpu % 2
  inRange := fun cpu => Nat.mod_lt cpu (by decide)

/-- A thread without a compute place adds a task. -/
def addition (task : TaskId) : Call :=
  .addReadyTask
    { task := task, computePlace := none, hint := .noHint, priority := 0,
      doGetIdle := false } 0

/-- Two tasks are added, and CPU 0 takes the one of its node. -/
def balancing : List Action :=
  List.flatten
    [.start (addition 7) :: List.replicate 6 (.perform 0),
      .start (addition 8) :: List.replicate 6 (.perform 0),
      .start (.getReadyTask 0 true) :: List.replicate 3 (.perform 0)]

theorem countsTasks_balancing :
    ∃ state,
      Run (step twoNodes) (Permitted twoNodes) (initialState twoNodes)
        state ∧
      state.readyTasks 0 = 0 ∧ state.readyTasks 1 = 1 ∧
      state.CountsTasks twoNodes := by
  let balanced (state : State) : Bool :=
    decide (state.readyTasks 0 = 0) && decide (state.readyTasks 1 = 1) &&
      decide (state.calls = [])
  obtain ⟨state, run, holds⟩ :
      ∃ state, Run (step twoNodes) (Permitted twoNodes)
        (initialState twoNodes) state ∧ balanced state = true :=
    exists_run_of_executeAllowed balancing _ balanced (by decide)
  simp only [balanced, Bool.and_eq_true, decide_eq_true_eq] at holds
  exact ⟨state, run, holds.1.1, holds.1.2,
    countsTasks_of_run run holds.2⟩

/-- A task is added, and a thread that requests polling gets it. -/
def polling : List Action :=
  (.start (addition 7) :: List.replicate 6 (.perform 0)) ++
    [.start (.requestPolling 0), .perform 0, .getTask 0]

theorem countsTasks_fails :
    ¬ ∀ machine state,
      Run (step machine) (fun _ _ => True) (initialState machine) state →
        state.calls = [] → state.CountsTasks machine := by
  intro holds
  let stale (state : State) : Bool :=
    decide (state.readyTasks 0 = 1) &&
      decide (state.held twoNodes 0 = 0) && decide (state.calls = [])
  obtain ⟨state, run, wrong⟩ :
      ∃ state, Run (step twoNodes) (fun _ _ => True) (initialState twoNodes)
        state ∧ stale state = true :=
    exists_run_of_executeAllowed polling _ stale (by decide)
  simp only [stale, Bool.and_eq_true, decide_eq_true_eq] at wrong
  have exact := (holds twoNodes state run wrong.2).exact 0
  rw [wrong.1.1, wrong.1.2] at exact
  cases exact

end Nanos6.NUMAHierarchicalScheduler
