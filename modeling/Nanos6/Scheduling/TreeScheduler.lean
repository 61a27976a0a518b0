import Nanos6.Foundation.LabelledRun
import Nanos6.Foundation.Pending
import Nanos6.Scheduling.PriorityScheduler

/-!
# The tree scheduler

A tree of schedulers with a leaf for each CPU.  A leaf that overflows moves a
batch of tasks up to its parent, which hands it to an idle child or keeps it; a
leaf without tasks asks its parent, which gives it a batch or registers it as
idle and asks further up.  The topmost node adapts the queue threshold and makes
the whole tree take it over.

A call is a list of operations that are still to be performed.  One operation is
one locked section, one operation on a queue, which has a lock of its own, or one
access to an atomic variable; a call to another scheduler puts the operations of
the callee in front.
-/

namespace Nanos6.TreeScheduler

open Foundation
export Scheduling (TaskId)

/-! ### The queues -/

namespace Queue

def addTask (lifo : Bool) (queue : List TaskId) (task : TaskId) :
    List TaskId :=
  if lifo then task :: queue else queue ++ [task]

/-- The task that should run the earliest is at the end of the batch. -/
def addTaskBatch (lifo : Bool) (queue batch : List TaskId) : List TaskId :=
  if lifo then batch ++ queue else queue ++ batch.reverse

/-- A number of elements is passed as an `int`. -/
def toInt (elements : Nat) : Int :=
  (elements : Int).bmod (2 ^ 32)

/-- The loop of `getTaskBatch`. -/
def popBatch : Nat → List TaskId → List TaskId × List TaskId
  | 0, queue => ([], queue)
  | elements + 1, queue =>
      match queue.getLast? with
      | none => ([], queue)
      | some task =>
          let popped := popBatch elements queue.dropLast
          (task :: popped.1, popped.2)

/-- The number of elements, to which the size of the queue is assigned as an
`int`; a negative number is larger than any size when it is compared with
one. -/
def intElements (queue : List TaskId) (elements : Int) : Int :=
  if elements < 0 ∨ queue.length < elements then toInt queue.length
  else elements

/-- The batch and the queue that stays; none if the vector of the batch cannot
be created for a negative number. -/
def getTaskBatch (queue : List TaskId) (elements : Int) :
    Option (List TaskId × List TaskId) :=
  if intElements queue elements < 0 then none
  else some (popBatch (intElements queue elements).toNat queue)

/-- The batch, where it can be created. -/
def taskBatch (queue : List TaskId) (elements : Int) : List TaskId :=
  (getTaskBatch queue elements).elim [] Prod.fst

/-- The queue that stays. -/
def afterTaskBatch (queue : List TaskId) (elements : Int) : List TaskId :=
  (getTaskBatch queue elements).elim queue Prod.snd

end Queue

/-! ### The tree -/

/-- The schedulers of a tree, numbered as they are created. -/
structure Tree (size : Nat) where
  parent : Fin size → Option (Fin size)
  isLeaf : Fin size → Bool
  /-- The schedulers of the CPUs, with null where there is no such CPU. -/
  cpuScheduler : List (Option (Fin size))
  pollingIterations : Nat
  lifo : Bool
  /-- The assertions are left out. -/
  ndebug : Bool
  /-- A scheduler is created with its parent. -/
  parent_lt : ∀ id up, parent id = some up → up < id
  /-- The parents are nodes. -/
  isLeaf_parent : ∀ id up, parent id = some up → isLeaf up = false
  /-- A leaf has a parent. -/
  hangs : ∀ id, isLeaf id = true → (parent id).isSome
  /-- The schedulers of the CPUs are leaves. -/
  isLeaf_of_mem : ∀ id, some id ∈ cpuScheduler → isLeaf id = true
  /-- There is a CPU. -/
  populated : ∃ id, some id ∈ cpuScheduler

namespace Tree

variable {size : Nat}

def children (tree : Tree size) (id : Fin size) : List (Fin size) :=
  (List.finRange size).filter fun child => tree.parent child = some id

theorem mem_children {tree : Tree size} {id child : Fin size} :
    child ∈ tree.children id ↔ tree.parent child = some id := by
  simp [children]

theorem length_children_le (tree : Tree size) (id : Fin size) :
    (tree.children id).length ≤ size := by
  have bounded := List.length_filter_le
    (fun child => decide (tree.parent child = some id)) (List.finRange size)
  rwa [List.length_finRange] at bounded

end Tree

/-! ### The state -/

/-- A leaf or a node; a leaf has no idle children and a node no polling slot. -/
structure Scheduler (size : Nat) where
  queueThreshold : Nat := 0
  rebalance : Bool := false
  queue : List TaskId := []
  pollingSlot : Option TaskId := none
  idle : Bool := false
  running : Bool := false
  idleChildren : List (Fin size) := []
  enabledChildren : Int := 0

/-- How far the calls that disable and enable a leaf have got. -/
inductive Activation where
  | enabled
  | disabling
  /-- Its queue has been taken. -/
  | emptied
  /-- Its parent no longer counts it. -/
  | discounted
  | disabled
  deriving DecidableEq

/-- What the calls share. -/
structure Memory (size : Nat) where
  schedulers : Fin size → Scheduler size
  schedRRCounter : Nat := 0
  idleCPUs : Fin size → Bool := fun _ => false
  /-- Threads that `resumeIdle` has woken up for a CPU and that have not yet
  asked for a task. -/
  resumed : Fin size → Nat := fun _ => 0
  /-- Not in the source. -/
  activation : Fin size → Activation := fun _ => .enabled
  /-- Not in the source: the tasks that `getTask` has returned. -/
  returned : List TaskId := []

namespace Memory

variable {size : Nat}

/-- One scheduler changes. -/
def modify (memory : Memory size) (id : Fin size)
    (change : Scheduler size → Scheduler size) : Memory size :=
  { memory with
    schedulers :=
      Function.update memory.schedulers id (change (memory.schedulers id)) }

def setQueue (memory : Memory size) (id : Fin size) (queue : List TaskId) :
    Memory size :=
  memory.modify id fun scheduler => { scheduler with queue := queue }

def setSlot (memory : Memory size) (id : Fin size) (task : Option TaskId) :
    Memory size :=
  memory.modify id fun scheduler => { scheduler with pollingSlot := task }

def setRebalance (memory : Memory size) (id : Fin size) (value : Bool) :
    Memory size :=
  memory.modify id fun scheduler => { scheduler with rebalance := value }

def setThreshold (memory : Memory size) (id : Fin size) (value : Nat) :
    Memory size :=
  memory.modify id fun scheduler => { scheduler with queueThreshold := value }

def setIdle (memory : Memory size) (id : Fin size) (value : Bool) :
    Memory size :=
  memory.modify id fun scheduler => { scheduler with idle := value }

def setRunning (memory : Memory size) (id : Fin size) (value : Bool) :
    Memory size :=
  memory.modify id fun scheduler => { scheduler with running := value }

def setIdleChildren (memory : Memory size) (id : Fin size)
    (entries : List (Fin size)) : Memory size :=
  memory.modify id fun scheduler => { scheduler with idleChildren := entries }

def setEnabledChildren (memory : Memory size) (id : Fin size)
    (value : Int) : Memory size :=
  memory.modify id fun scheduler => { scheduler with enabledChildren := value }

def setIdleCPU (memory : Memory size) (leaf : Fin size) (value : Bool) :
    Memory size :=
  { memory with idleCPUs := Function.update memory.idleCPUs leaf value }

def setActivation (memory : Memory size) (leaf : Fin size)
    (value : Activation) : Memory size :=
  { memory with activation := Function.update memory.activation leaf value }

/-- `NodeScheduler::getQueueThreshold`, which climbs to the topmost node; an
upper bound on the number of its ancestors is given. -/
def getQueueThreshold (tree : Tree size) (memory : Memory size) :
    Nat → Fin size → Nat
  | 0, id => (memory.schedulers id).queueThreshold
  | above + 1, id =>
      match tree.parent id with
      | none => (memory.schedulers id).queueThreshold
      | some up => getQueueThreshold tree memory above up

/-- The first idle child that is not the caller; the entries before it are
dropped. -/
def popIdleChild (who : Fin size) (entries : List (Fin size)) :
    Option (Fin size) × List (Fin size) :=
  match entries.dropWhile (· = who) with
  | [] => (none, [])
  | child :: rest => (some child, rest)

end Memory

/-! ### The operations -/

/-- An operation of a call that is still to be performed. -/
inductive Op (size : Nat) where
  /-- `TreeScheduler::addReadyTask`, from a CPU or from outside. -/
  | addReadyTask (task : TaskId) (computePlace : Option (Fin size))
  | addTask (leaf : Fin size) (task : TaskId) (hasComputePlace : Bool)
  /-- The locked section of `addTask`. -/
  | setSlotTask (leaf : Fin size) (task : TaskId)
  | resumeIdle (leaf : Fin size)
  | queueTask (leaf : Fin size) (task : TaskId)
  | compareElements (leaf : Fin size) (elements : Nat)
  | clearRebalance (id : Fin size)
  | handleQueueOverflow (id : Fin size) (handleThreshold : Bool)
  /-- The rest of `handleQueueOverflow`, and `forceRebalance`. -/
  | moveBatch (id : Fin size) (elements : Nat) (handleThreshold : Bool)
  | addTaskBatch (id who : Fin size) (batch : List TaskId)
      (handleThreshold : Bool)
  | queueBatch (leaf : Fin size) (batch : List TaskId)
  | increaseQueueThreshold (id : Fin size)
  | decreaseQueueThreshold (id : Fin size)
  | zeroQueueThreshold (id : Fin size)
  | updateQueueThreshold (id : Fin size)
  | testRebalance (leaf : Fin size)
  | testRunning (leaf : Fin size)
  | compareThreshold (id : Fin size) (queueThreshold : Nat)
  | markRebalance (id : Fin size)
  | assignThreshold (id : Fin size) (queueThreshold : Nat)
  /-- `NodeScheduler::getTask`. -/
  | askNode (node child : Fin size) (force : Bool)
  | takeBatch (node child : Fin size) (force : Bool) (elements : Nat)
  /-- `_rebalance` is exchanged for false; on success the queue is measured. -/
  | exchangeRebalance (id : Fin size)
  | measureQueue (id : Fin size)
  | compareSize (id : Fin size) (elements : Nat)
  /-- `LeafScheduler::getTask`. -/
  | getTask (leaf : Fin size) (doWait : Bool)
  | leaveIdle (leaf : Fin size) (doWait : Bool)
  | unidleCPU (leaf : Fin size)
  | getSlotTask (leaf : Fin size) (doWait : Bool)
  | getQueueTask (leaf : Fin size) (doWait : Bool)
  | poll (leaf : Fin size) (iterations : Nat)
  | pollOnce (leaf : Fin size)
  | timeOut (leaf : Fin size)
  /-- The locked section of `getTask`. -/
  | becomeIdle (leaf : Fin size)
  | returnTask (leaf : Fin size) (task : TaskId)
  | disable (leaf : Fin size)
  /-- `unidleChild` in the parent of the leaf; the rest of `disable` follows. -/
  | unidleLeaf (leaf : Fin size)
  | unidleChild (node child : Fin size)
  | takeQueue (leaf : Fin size)
  | takeSlot (leaf up : Fin size) (batch : List TaskId)
  /-- In the course of the call that disables the leaf. -/
  | disableChild (node child leaf : Fin size)
  /-- The rest of `disableChild` in a node without enabled children. -/
  | emptyNode (node leaf : Fin size)
  | returnDisabled (leaf : Fin size)
  | enable (leaf : Fin size)
  deriving DecidableEq

section Perform

variable {size : Nat}

/-- Half of the threshold, or one. -/
def half (queueThreshold : Nat) : Nat :=
  if queueThreshold / 2 = 0 then 1 else queueThreshold / 2

/-- What is done with the parent, if there is one. -/
def withParent (tree : Tree size) (id : Fin size)
    (next : Fin size → List (Op size)) : List (Op size) :=
  match tree.parent id with
  | some up => next up
  | none => []

/-- A batch goes to the parent, unless it is empty. -/
def sendUp (up id : Fin size) (batch : List TaskId)
    (handleThreshold : Bool) : List (Op size) :=
  if batch = [] then [] else [.addTaskBatch up id batch handleThreshold]

/-- The polling slot is emptied; what follows depends on the task in it. -/
def takeSlotTask (memory : Memory size) (leaf : Fin size)
    (found : TaskId → List (Op size)) (otherwise : List (Op size)) :
    Memory size × List (Op size) :=
  match (memory.schedulers leaf).pollingSlot with
  | some task => (memory.setSlot leaf none, found task)
  | none => (memory, otherwise)

/-- `LeafScheduler::addTaskBatch`, up to the end of its locked section. -/
def addBatchToLeaf (memory : Memory size) (leaf : Fin size)
    (batch : List TaskId) : Memory size × List (Op size) :=
  match (memory.schedulers leaf).pollingSlot, batch.getLast? with
  | none, some task =>
      (memory.setSlot leaf (some task),
        (if (memory.schedulers leaf).idle then [.resumeIdle leaf] else []) ++
          [.queueBatch leaf batch.dropLast])
  | _, _ => (memory, [.queueBatch leaf batch])

/-- `NodeScheduler::addTaskBatch`, up to the end of its locked section. -/
def addBatchToNode (tree : Tree size) (memory : Memory size)
    (id who : Fin size) (batch : List TaskId) (handleThreshold : Bool) :
    Memory size × List (Op size) :=
  match Memory.popIdleChild who (memory.schedulers id).idleChildren with
  | (some child, rest) =>
      (memory.setIdleChildren id rest,
        [.addTaskBatch child id batch handleThreshold, .clearRebalance id])
  | (none, rest) =>
      let queue :=
        Queue.addTaskBatch tree.lifo (memory.schedulers id).queue batch
      ((memory.setIdleChildren id rest).setQueue id queue,
        (if (memory.schedulers id).queueThreshold < queue.length then
          [.handleQueueOverflow id handleThreshold] else []) ++
          [.clearRebalance id])

/-- A node without tasks asks its parent; the topmost one lowers the
threshold. -/
def askFurther (tree : Tree size) (node : Fin size) (force : Bool) :
    List (Op size) :=
  match tree.parent node with
  | some up => [.askNode up node force]
  | none =>
      if force then [.zeroQueueThreshold node]
      else [.decreaseQueueThreshold node]

/-- `NodeScheduler::getTask`, from its locked section on. -/
def giveBatch (tree : Tree size) (memory : Memory size)
    (node child : Fin size) (force : Bool) (elements : Nat) :
    Memory size × List (Op size) :=
  let queue := (memory.schedulers node).queue
  let batch := Queue.taskBatch queue (Queue.toInt elements)
  if batch = [] then
    ((memory.setIdleChildren node
        ((memory.schedulers node).idleChildren ++ [child])).setRebalance
        node false,
      askFurther tree node force)
  else
    (memory.setQueue node
        (Queue.afterTaskBatch queue (Queue.toInt elements)),
      .addTaskBatch child node batch true ::
        (if (tree.parent node).isSome then [.exchangeRebalance node] else []))

theorem giveBatch_of_nil (tree : Tree size) {memory : Memory size}
    {node : Fin size} (child : Fin size) (force : Bool) {elements : Nat}
    (nothing :
      (Queue.taskBatch (memory.schedulers node).queue
        (Queue.toInt elements)) = []) :
    giveBatch tree memory node child force elements =
      ((memory.setIdleChildren node
          ((memory.schedulers node).idleChildren ++ [child])).setRebalance
          node false,
        askFurther tree node force) := by
  unfold giveBatch
  exact if_pos nothing

theorem giveBatch_of_ne (tree : Tree size) {memory : Memory size}
    {node : Fin size} (child : Fin size) (force : Bool) {elements : Nat}
    (something :
      (Queue.taskBatch (memory.schedulers node).queue
        (Queue.toInt elements)) ≠ []) :
    giveBatch tree memory node child force elements =
      (memory.setQueue node
          (Queue.afterTaskBatch (memory.schedulers node).queue
            (Queue.toInt elements)),
        .addTaskBatch child node
            (Queue.taskBatch (memory.schedulers node).queue
              (Queue.toInt elements)) true ::
          (if (tree.parent node).isSome then [.exchangeRebalance node]
            else [])) := by
  unfold giveBatch
  exact if_neg something

/-- `updateQueueThreshold` of a scheduler, with the value that it reads. -/
def takeOverThreshold (tree : Tree size) (id : Fin size)
    (queueThreshold : Nat) : List (Op size) :=
  if tree.isLeaf id then
    [if queueThreshold = 0 then .testRebalance id
      else .compareThreshold id queueThreshold,
      .assignThreshold id queueThreshold]
  else
    (if (tree.parent id).isSome then
      [.compareThreshold id queueThreshold,
        .assignThreshold id queueThreshold] else []) ++
      (tree.children id).map .updateQueueThreshold

/-- An operation is performed; the operations that it calls come next. -/
def perform (tree : Tree size) (memory : Memory size) :
    Op size → Memory size × List (Op size)
  | .addReadyTask task (some leaf) => (memory, [.addTask leaf task true])
  | .addReadyTask task none =>
      let pos := memory.schedRRCounter
      ({ memory with
          schedRRCounter := (pos + 1) % tree.cpuScheduler.length },
        match tree.cpuScheduler[pos]? with
        | some (some leaf) => [.addTask leaf task false]
        | _ => [.addReadyTask task none])
  | .addTask leaf task hasComputePlace =>
      (memory,
        if hasComputePlace ∨ (memory.schedulers leaf).running then
          [.queueTask leaf task, .clearRebalance leaf]
        else [.setSlotTask leaf task, .clearRebalance leaf])
  | .setSlotTask leaf task =>
      if (memory.schedulers leaf).pollingSlot = none then
        (memory.setSlot leaf (some task),
          if (memory.schedulers leaf).idle then [.resumeIdle leaf] else [])
      else (memory, [.queueTask leaf task])
  | .resumeIdle leaf =>
      ({ memory with
          resumed :=
            Function.update memory.resumed leaf (memory.resumed leaf + 1) },
        [])
  | .queueTask leaf task =>
      let queue :=
        Queue.addTask tree.lifo (memory.schedulers leaf).queue task
      (memory.setQueue leaf queue, [.compareElements leaf queue.length])
  | .compareElements leaf elements =>
      (memory,
        if (memory.schedulers leaf).queueThreshold < elements then
          [.handleQueueOverflow leaf true] else [])
  | .clearRebalance id => (memory.setRebalance id false, [])
  | .handleQueueOverflow id handleThreshold =>
      (memory,
        if (tree.parent id).isSome then
          [.moveBatch id (half (memory.schedulers id).queueThreshold)
            handleThreshold]
        else if handleThreshold then [.increaseQueueThreshold id] else [])
  | .moveBatch id elements handleThreshold =>
      match tree.parent id with
      | some up =>
          let queue := (memory.schedulers id).queue
          (memory.setQueue id
            (Queue.afterTaskBatch queue (Queue.toInt elements)),
            sendUp up id (Queue.taskBatch queue (Queue.toInt elements))
              handleThreshold)
      | none => (memory, [])
  | .addTaskBatch id who batch handleThreshold =>
      if tree.isLeaf id then addBatchToLeaf memory id batch
      else addBatchToNode tree memory id who batch handleThreshold
  | .queueBatch leaf batch =>
      (memory.setQueue leaf
        (Queue.addTaskBatch tree.lifo (memory.schedulers leaf).queue batch),
        [])
  | .increaseQueueThreshold id =>
      let expected := (memory.schedulers id).queueThreshold
      (memory.setThreshold id
        (if expected = 0 then 1 else expected * 2 % 2 ^ 64),
        [.updateQueueThreshold id])
  | .decreaseQueueThreshold id =>
      (memory.setThreshold id ((memory.schedulers id).queueThreshold / 2),
        [.updateQueueThreshold id])
  | .zeroQueueThreshold id =>
      (memory.setThreshold id 0, [.updateQueueThreshold id])
  | .updateQueueThreshold id =>
      (memory, takeOverThreshold tree id (memory.getQueueThreshold tree id id))
  | .testRebalance leaf =>
      (memory,
        if (memory.schedulers leaf).rebalance then [.testRunning leaf]
        else [.compareThreshold leaf 0])
  | .testRunning leaf =>
      (memory,
        if (memory.schedulers leaf).running then [.moveBatch leaf 1 false]
        else [.compareThreshold leaf 0])
  | .compareThreshold id queueThreshold =>
      (memory,
        if queueThreshold < (memory.schedulers id).queueThreshold then
          [.markRebalance id] else [])
  | .markRebalance id => (memory.setRebalance id true, [])
  | .assignThreshold id queueThreshold =>
      (memory.setThreshold id queueThreshold, [])
  | .askNode node child force =>
      (memory,
        [.takeBatch node child force
          (half (memory.schedulers node).queueThreshold)])
  | .takeBatch node child force elements =>
      giveBatch tree memory node child force elements
  | .exchangeRebalance id =>
      (memory.setRebalance id false,
        if (memory.schedulers id).rebalance then [.measureQueue id] else [])
  | .measureQueue id =>
      (memory, [.compareSize id (memory.schedulers id).queue.length])
  | .compareSize id elements =>
      (memory,
        if 3 * (memory.schedulers id).queueThreshold < 2 * elements then
          [.handleQueueOverflow id true] else [])
  | .getTask leaf doWait =>
      (memory.setRunning leaf false, [.leaveIdle leaf doWait])
  | .leaveIdle leaf doWait =>
      if (memory.schedulers leaf).idle then
        (memory.setIdle leaf false,
          [.unidleCPU leaf, .getSlotTask leaf doWait])
      else (memory, [.getSlotTask leaf doWait])
  | .unidleCPU leaf => (memory.setIdleCPU leaf false, [])
  | .getSlotTask leaf doWait =>
      takeSlotTask memory leaf
        (fun task => [.clearRebalance leaf, .returnTask leaf task])
        [.getQueueTask leaf doWait]
  | .getQueueTask leaf doWait =>
      match (memory.schedulers leaf).queue with
      | task :: rest =>
          (memory.setQueue leaf rest,
            [.exchangeRebalance leaf, .returnTask leaf task])
      | [] =>
          (memory,
            .clearRebalance leaf ::
              withParent tree leaf (fun up => [.askNode up leaf false]) ++
              [if doWait then .poll leaf 0 else .pollOnce leaf])
  | .poll leaf iterations =>
      if iterations < tree.pollingIterations then
        takeSlotTask memory leaf (fun task => [.returnTask leaf task])
          [.poll leaf ((iterations + 1) % 2 ^ 32)]
      else (memory, [.timeOut leaf])
  | .pollOnce leaf =>
      takeSlotTask memory leaf (fun task => [.returnTask leaf task])
        [.timeOut leaf]
  | .timeOut leaf =>
      (memory,
        (if (memory.schedulers leaf).queueThreshold ≠ 0 then
          withParent tree leaf (fun up => [.askNode up leaf true])
        else []) ++ [.becomeIdle leaf])
  | .becomeIdle leaf =>
      match (memory.schedulers leaf).pollingSlot with
      | some task => (memory.setSlot leaf none, [.returnTask leaf task])
      | none => ((memory.setIdle leaf true).setIdleCPU leaf true, [])
  | .returnTask leaf task =>
      ({ memory.setRunning leaf true with returned := task :: memory.returned },
        [])
  | .disable leaf =>
      if (memory.schedulers leaf).idle then
        (memory.setIdle leaf false, [.unidleLeaf leaf])
      else (memory, [.takeQueue leaf])
  | .unidleLeaf leaf =>
      match tree.parent leaf with
      | some up =>
          (memory.setIdleChildren up
            ((memory.schedulers up).idleChildren.erase leaf),
            withParent tree up (fun above => [.unidleChild above up]) ++
              [.unidleCPU leaf, .takeQueue leaf])
      | none => (memory, [])
  | .unidleChild node child =>
      (memory.setIdleChildren node
        ((memory.schedulers node).idleChildren.erase child),
        withParent tree node fun up => [.unidleChild up node])
  | .takeQueue leaf =>
      match tree.parent leaf with
      | some up =>
          let queue := (memory.schedulers leaf).queue
          ((memory.setQueue leaf
              (Queue.afterTaskBatch queue (-1))).setActivation leaf .emptied,
            [.takeSlot leaf up (Queue.taskBatch queue (-1))])
      | none => (memory, [])
  | .takeSlot leaf up batch =>
      let close (batch : List TaskId) : List (Op size) :=
        sendUp up leaf batch true ++ [.disableChild up leaf leaf]
      takeSlotTask memory leaf (fun task => close (batch ++ [task]))
        (close batch)
  | .disableChild node _ leaf =>
      let enabledChildren := (memory.schedulers node).enabledChildren - 1
      ((memory.setEnabledChildren node enabledChildren).setActivation leaf
          .discounted,
        if enabledChildren = 0 ∧ (tree.parent node).isSome then
          [.emptyNode node leaf] else [.returnDisabled leaf])
  | .emptyNode node leaf =>
      match tree.parent node with
      | some up =>
          let queue := (memory.schedulers node).queue
          (memory.setQueue node (Queue.afterTaskBatch queue (-1)),
            sendUp up node (Queue.taskBatch queue (-1)) true ++
              [.disableChild up node leaf])
      | none => (memory, [])
  | .returnDisabled leaf => (memory.setActivation leaf .disabled, [])
  | .enable leaf =>
      match tree.parent leaf with
      | some up =>
          ((memory.setEnabledChildren up
              ((memory.schedulers up).enabledChildren + 1)).setActivation leaf
            .enabled, [])
      | none => (memory, [])

/-- The call cannot go on: the vector of a batch cannot be created, or the
assertion of `disableChild` fails. -/
def Op.fails (tree : Tree size) (memory : Memory size) : Op size → Bool
  | .moveBatch id elements _ =>
      (Queue.getTaskBatch (memory.schedulers id).queue
        (Queue.toInt elements)).isNone
  | .takeBatch node _ _ elements =>
      (Queue.getTaskBatch (memory.schedulers node).queue
        (Queue.toInt elements)).isNone
  | .takeQueue leaf =>
      (Queue.getTaskBatch (memory.schedulers leaf).queue (-1)).isNone
  | .emptyNode node _ =>
      (Queue.getTaskBatch (memory.schedulers node).queue (-1)).isNone
  | .disableChild node _ _ =>
      !tree.ndebug && decide ((memory.schedulers node).enabledChildren ≤ 0)
  | _ => false

end Perform

/-! ### The system -/

/-- A call in progress, by the thread of a CPU or by another one. -/
structure Call (size : Nat) where
  cpu : Option (Fin size)
  ops : List (Op size)
  deriving DecidableEq

structure State (size : Nat) where
  memory : Memory size
  calls : List (Call size) := []
  /-- An assertion has failed or an exception has been thrown. -/
  aborted : Bool := false
  /-- Not in the source: the tasks that have been added. -/
  added : List TaskId := []

inductive Label (size : Nat) where
  | addReadyTask (task : TaskId) (computePlace : Option (Fin size))
  | getReadyTask (leaf : Fin size) (doWait : Bool)
  | disableComputePlace (leaf : Fin size)
  | enableComputePlace (leaf : Fin size)
  /-- The call at the index performs its next operation. -/
  | perform (index : Nat)
  deriving DecidableEq

section System

variable {size : Nat}

/-- The thread that makes a call has been woken up. -/
def Memory.wakesUp (memory : Memory size) (leaf : Fin size) : Memory size :=
  { memory with resumed := Function.update memory.resumed leaf 0 }

def State.starts (state : State size) (cpu : Option (Fin size))
    (op : Op size) : State size :=
  { state with calls := state.calls ++ [{ cpu := cpu, ops := [op] }] }

/-- A call that is over leaves. -/
def Call.goesOn (call : Call size) (ops : List (Op size)) :
    List (Call size) :=
  if ops = [] then [] else [{ call with ops := ops }]

def State.performs (tree : Tree size) (state : State size) (index : Nat)
    (call : Call size) (op : Op size) (rest : List (Op size)) : State size :=
  let performed := perform tree state.memory op
  { state with
    memory := performed.1
    calls :=
      replaceAt state.calls index (call.goesOn (performed.2 ++ rest)) }

/-- A step of a program that goes on. -/
def proceed (tree : Tree size) (state : State size) :
    Label size → Option (State size)
  | .addReadyTask task computePlace =>
      if computePlace.all tree.isLeaf then
        some
          { state.starts computePlace (.addReadyTask task computePlace) with
            added := task :: state.added }
      else none
  | .getReadyTask leaf doWait =>
      if tree.isLeaf leaf then
        some
          { state.starts (some leaf) (.getTask leaf doWait) with
            memory := state.memory.wakesUp leaf }
      else none
  | .disableComputePlace leaf =>
      if tree.isLeaf leaf then
        some
          { state.starts (some leaf) (.disable leaf) with
            memory :=
              (state.memory.wakesUp leaf).setActivation leaf .disabling }
      else none
  | .enableComputePlace leaf =>
      if tree.isLeaf leaf then
        some (state.starts (some leaf) (.enable leaf))
      else none
  | .perform index =>
      match state.calls[index]? with
      | some call =>
          match call.ops with
          | op :: rest => some (state.performs tree index call op rest)
          | [] => none
      | none => none

/-- The operation that a step performs. -/
def State.operation (state : State size) : Label size → Option (Op size)
  | .perform index => state.calls[index]?.bind fun call => call.ops.head?
  | _ => none

/-- The assertions of `LeafScheduler::addTask` fail, or the operation does.
Only the thread of the CPU changes what these assertions read, so they stand at
the start of its call. -/
def State.fails (tree : Tree size) (state : State size) : Label size → Bool
  | .addReadyTask _ (some leaf) =>
      !tree.ndebug && ((state.memory.schedulers leaf).idle ||
        !(state.memory.schedulers leaf).running)
  | label => (state.operation label).any (Op.fails tree state.memory)

def step (tree : Tree size) (state : State size) (label : Label size) :
    Option (State size) :=
  if state.aborted then none
  else (proceed tree state label).map fun next =>
    if state.fails tree label then { state with aborted := true } else next

/-- The constructors count the children of each node. -/
def initialScheduler (tree : Tree size) (id : Fin size)
    (queueThreshold : Nat) : Scheduler size where
  queueThreshold := queueThreshold
  enabledChildren := (tree.children id).length

/-- The tree with any thresholds, before anything is called. -/
def initialState (tree : Tree size) (queueThreshold : Fin size → Nat) :
    State size where
  memory :=
    { schedulers := fun id => initialScheduler tree id (queueThreshold id) }

/-- A step aborts the program or goes on. -/
theorem step_cases {tree : Tree size} {state next : State size}
    {label : Label size} (taken : step tree state label = some next) :
    state.aborted = false ∧
      (state.fails tree label = true ∧ next = { state with aborted := true } ∨
        state.fails tree label = false ∧
          proceed tree state label = some next) := by
  unfold step at taken
  split at taken
  · cases taken
  · rename_i going
    obtain ⟨result, proceeds, rfl⟩ := Option.map_eq_some_iff.mp taken
    refine ⟨Bool.eq_false_iff.mpr going, ?_⟩
    cases fails : state.fails tree label with
    | true => exact Or.inl ⟨rfl, rfl⟩
    | false => exact Or.inr ⟨rfl, proceeds⟩

theorem step_of_proceed {tree : Tree size} {state next : State size}
    {label : Label size} (going : state.aborted = false)
    (succeeds : state.fails tree label = false)
    (proceeds : proceed tree state label = some next) :
    step tree state label = some next := by
  simp [step, going, succeeds, proceeds]

/-- The step of a call performs its first operation. -/
theorem proceed_perform {tree : Tree size} {state next : State size}
    {index : Nat} (taken : proceed tree state (.perform index) = some next) :
    ∃ call op rest, state.calls[index]? = some call ∧
      call.ops = op :: rest ∧
      next = state.performs tree index call op rest := by
  simp only [proceed] at taken
  split at taken
  · rename_i call found
    split at taken
    · rename_i op rest ops
      cases taken
      exact ⟨call, op, rest, found, ops, rfl⟩
    · cases taken
  · cases taken

/-- A program that goes on is not aborted. -/
theorem aborted_of_step {tree : Tree size} {state next : State size}
    {label : Label size} (going : state.aborted = false)
    (succeeds : state.fails tree label = false)
    (taken : step tree state label = some next) : next.aborted = false := by
  obtain ⟨-, ⟨fails, -⟩ | ⟨-, proceeds⟩⟩ := step_cases taken
  · rw [succeeds] at fails
    cases fails
  · cases label with
    | perform index =>
        obtain ⟨call, op, rest, -, -, rfl⟩ := proceed_perform proceeds
        exact going
    | _ =>
        simp only [proceed] at proceeds
        split at proceeds
        · cases proceeds
          exact going
        · cases proceeds

theorem fails_perform {tree : Tree size} {state : State size} {index : Nat}
    {call : Call size} {op : Op size} {rest : List (Op size)}
    (found : state.calls[index]? = some call) (ops : call.ops = op :: rest) :
    state.fails tree (.perform index) = op.fails tree state.memory := by
  simp [State.fails, State.operation, found, ops]

/-- The smallest tree: a leaf under a node. -/
def smallTree (pollingIterations : Nat) : Tree 2 where
  parent := fun id => if id = 1 then some 0 else none
  isLeaf := fun id => id = 1
  cpuScheduler := [some 1]
  pollingIterations := pollingIterations
  lifo := false
  ndebug := false
  parent_lt := by decide
  isLeaf_parent := by decide
  hangs := by decide
  isLeaf_of_mem := by decide
  populated := ⟨1, by decide⟩

/-- The CPU of the small tree. -/
def smallLeaf : Fin 2 := 1

end System

end Nanos6.TreeScheduler
