import Nanos6.Scheduling.TreeQueues
import Mathlib.Algebra.BigOperators.Fin
import Mathlib.Data.List.Count

/-!
# No task of the tree scheduler is lost or duplicated

A task that has been added is in one queue, in one polling slot, in a batch that
a call moves, or has been returned.  The operations move tasks between these
places one at a time, and the sum over all places stays what has been added.
-/

namespace Nanos6.TreeScheduler

open Foundation

variable {size : Nat}

/-! ### The places of a task -/

/-- How often a scheduler holds the task. -/
def Scheduler.holds (scheduler : Scheduler size) (task : TaskId) : Nat :=
  scheduler.queue.count task + scheduler.pollingSlot.toList.count task

/-- The tasks that an operation carries. -/
def Op.tasks : Op size → List TaskId
  | .addReadyTask task _ => [task]
  | .addTask _ task _ => [task]
  | .setSlotTask _ task => [task]
  | .queueTask _ task => [task]
  | .addTaskBatch _ _ batch _ => batch
  | .queueBatch _ batch => batch
  | .returnTask _ task => [task]
  | .takeSlot _ _ batch => batch
  | _ => []

/-- The tasks that a call moves. -/
def tasksOf (ops : List (Op size)) : List TaskId :=
  ops.flatMap Op.tasks

@[simp]
theorem tasksOf_nil : tasksOf ([] : List (Op size)) = [] :=
  rfl

@[simp]
theorem tasksOf_cons (op : Op size) (rest : List (Op size)) :
    tasksOf (op :: rest) = op.tasks ++ tasksOf rest :=
  rfl

@[simp]
theorem tasksOf_append (first second : List (Op size)) :
    tasksOf (first ++ second) = tasksOf first ++ tasksOf second :=
  List.flatMap_append

theorem tasksOf_addTaskBatch (id who : Fin size) (batch : List TaskId)
    (handleThreshold : Bool) (rest : List (Op size)) :
    tasksOf (.addTaskBatch id who batch handleThreshold :: rest) =
      batch ++ tasksOf rest :=
  rfl

namespace Memory

/-- How often a quantity of the schedulers occurs in the tree. -/
def sum (quantity : Scheduler size → Nat) (memory : Memory size) : Nat :=
  ∑ id, quantity (memory.schedulers id)

/-- One scheduler gives and takes. -/
theorem sum_modify (quantity : Scheduler size → Nat) (memory : Memory size)
    (id : Fin size) (change : Scheduler size → Scheduler size) :
    (memory.modify id change).sum quantity +
        quantity (memory.schedulers id) =
      memory.sum quantity + quantity (change (memory.schedulers id)) := by
  have exchanged := sum_exchange
    (fun other => quantity ((memory.modify id change).schedulers other))
    (fun other => quantity (memory.schedulers other))
    (Finset.mem_univ id)
    (fun other different => by
      simp only [modify, Function.update_of_ne different])
  simpa only [sum, modify, Function.update_self] using exchanged

/-- A change that the quantity does not see. -/
theorem sum_modify_of_eq (quantity : Scheduler size → Nat)
    (memory : Memory size) (id : Fin size)
    (change : Scheduler size → Scheduler size)
    (same : quantity (change (memory.schedulers id)) =
      quantity (memory.schedulers id)) :
    (memory.modify id change).sum quantity = memory.sum quantity := by
  have modified := memory.sum_modify quantity id change
  omega

/-- How often the schedulers hold the task. -/
def inTree (memory : Memory size) (task : TaskId) : Nat :=
  memory.sum fun scheduler => scheduler.holds task

theorem inTree_setQueue (memory : Memory size) (id : Fin size)
    (queue : List TaskId) (task : TaskId) :
    (memory.setQueue id queue).inTree task +
        (memory.schedulers id).queue.count task =
      memory.inTree task + queue.count task := by
  have modified := memory.sum_modify (fun scheduler => scheduler.holds task) id
    (fun scheduler => { scheduler with queue := queue })
  simp only [Scheduler.holds] at modified
  simp only [inTree, setQueue, Scheduler.holds]
  omega

theorem inTree_setSlot (memory : Memory size) (id : Fin size)
    (slot : Option TaskId) (task : TaskId) :
    (memory.setSlot id slot).inTree task +
        (memory.schedulers id).pollingSlot.toList.count task =
      memory.inTree task + slot.toList.count task := by
  have modified := memory.sum_modify (fun scheduler => scheduler.holds task) id
    (fun scheduler => { scheduler with pollingSlot := slot })
  simp only [Scheduler.holds] at modified
  simp only [inTree, setSlot, Scheduler.holds]
  omega

section Unseen

variable (memory : Memory size) (id : Fin size) (task : TaskId)

@[simp]
theorem inTree_setRebalance (value : Bool) :
    (memory.setRebalance id value).inTree task = memory.inTree task :=
  memory.sum_modify_of_eq _ id _ rfl

@[simp]
theorem inTree_setThreshold (value : Nat) :
    (memory.setThreshold id value).inTree task = memory.inTree task :=
  memory.sum_modify_of_eq _ id _ rfl

@[simp]
theorem inTree_setIdle (value : Bool) :
    (memory.setIdle id value).inTree task = memory.inTree task :=
  memory.sum_modify_of_eq _ id _ rfl

@[simp]
theorem inTree_setRunning (value : Bool) :
    (memory.setRunning id value).inTree task = memory.inTree task :=
  memory.sum_modify_of_eq _ id _ rfl

@[simp]
theorem inTree_setIdleChildren (entries : List (Fin size)) :
    (memory.setIdleChildren id entries).inTree task = memory.inTree task :=
  memory.sum_modify_of_eq _ id _ rfl

@[simp]
theorem inTree_setEnabledChildren (value : Int) :
    (memory.setEnabledChildren id value).inTree task = memory.inTree task :=
  memory.sum_modify_of_eq _ id _ rfl

@[simp]
theorem inTree_setIdleCPU (value : Bool) :
    (memory.setIdleCPU id value).inTree task = memory.inTree task :=
  rfl

@[simp]
theorem inTree_setActivation (value : Activation) :
    (memory.setActivation id value).inTree task = memory.inTree task :=
  rfl

end Unseen

/-- The tasks that have left the calls. -/
def settled (memory : Memory size) (task : TaskId) : Nat :=
  memory.inTree task + memory.returned.count task

end Memory

namespace Queue

theorem count_addTask (lifo : Bool) (queue : List TaskId)
    (added task : TaskId) :
    (addTask lifo queue added).count task =
      queue.count task + [added].count task := by
  cases lifo
  · simp [addTask]
  · simp [addTask, List.count_cons]

theorem count_addTaskBatch (lifo : Bool) (queue batch : List TaskId)
    (task : TaskId) :
    (addTaskBatch lifo queue batch).count task =
      queue.count task + batch.count task := by
  cases lifo
  · simp [addTaskBatch]
  · simp [addTaskBatch]
    omega

end Queue

/-! ### One operation -/

section Operation

variable (tree : Tree size) (memory : Memory size) (task : TaskId)

/-- What has been put down and what the operations carry. -/
def accounted (memory : Memory size) (ops : List (Op size)) (task : TaskId) :
    Nat :=
  memory.settled task + (tasksOf ops).count task

theorem settled_setQueue (id : Fin size) (queue : List TaskId) :
    (memory.setQueue id queue).settled task +
        (memory.schedulers id).queue.count task =
      memory.settled task + queue.count task := by
  have moved := memory.inTree_setQueue id queue task
  have returned : (memory.setQueue id queue).returned = memory.returned := rfl
  simp only [Memory.settled, returned]
  omega

theorem settled_setSlot (id : Fin size) (slot : Option TaskId) :
    (memory.setSlot id slot).settled task +
        (memory.schedulers id).pollingSlot.toList.count task =
      memory.settled task + slot.toList.count task := by
  have moved := memory.inTree_setSlot id slot task
  have returned : (memory.setSlot id slot).returned = memory.returned := rfl
  simp only [Memory.settled, returned]
  omega

theorem settled_setActivation (leaf : Fin size) (value : Activation) :
    (memory.setActivation leaf value).settled task = memory.settled task :=
  rfl


theorem accounted_takeQueue (leaf up : Fin size)
    {batch queue : List TaskId}
    (counted : queue.count task + batch.count task =
      (memory.schedulers leaf).queue.count task) :
    accounted ((memory.setQueue leaf queue).setActivation leaf .emptied)
        [.takeSlot leaf up batch] task =
      memory.settled task := by
  have moved := settled_setQueue memory task leaf queue
  simp only [accounted, tasksOf_cons, tasksOf_nil, Op.tasks,
    List.append_nil, settled_setActivation]
  omega

theorem tasksOf_sendUp (up id : Fin size) (batch : List TaskId)
    (handleThreshold : Bool) :
    tasksOf (sendUp up id batch handleThreshold) = batch := by
  unfold sendUp
  by_cases empty : batch = []
  · simp [empty]
  · simp [empty, Op.tasks]

/-- A step that moves no task. -/
theorem accounted_of_unseen {next : Memory size} {ops : List (Op size)}
    (same : next.inTree task = memory.inTree task)
    (returned : next.returned = memory.returned) (carried : tasksOf ops = []) :
    accounted next ops task = memory.settled task := by
  simp only [accounted, Memory.settled, same, returned, carried,
    List.count_nil, Nat.add_zero]

theorem tasksOf_withParent (id : Fin size)
    (next : Fin size → List (Op size)) (nothing : ∀ up, tasksOf (next up) = []) :
    tasksOf (withParent tree id next) = [] := by
  unfold withParent
  split
  · exact nothing _
  · rfl

theorem accounted_takeSlotTask (leaf : Fin size)
    (found : TaskId → List (Op size)) (otherwise : List (Op size))
    (carried : List TaskId)
    (carries : ∀ inside,
      (tasksOf (found inside)).count task =
        carried.count task + [inside].count task)
    (keeps : (tasksOf otherwise).count task = carried.count task) :
    accounted (takeSlotTask memory leaf found otherwise).1
        (takeSlotTask memory leaf found otherwise).2 task =
      memory.settled task + carried.count task := by
  unfold takeSlotTask
  split
  · rename_i inside occupied
    have moved := settled_setSlot memory task leaf none
    rw [occupied] at moved
    simp only [Option.toList, List.count_nil] at moved
    simp only [accounted, carries]
    omega
  · simp only [accounted, keeps]

theorem accounted_addBatchToLeaf (leaf : Fin size) (batch : List TaskId) :
    accounted (addBatchToLeaf memory leaf batch).1
        (addBatchToLeaf memory leaf batch).2 task =
      memory.settled task + batch.count task := by
  unfold addBatchToLeaf
  split
  · rename_i last free final
    have moved := settled_setSlot memory task leaf (some last)
    rw [free] at moved
    simp only [Option.toList, List.count_nil] at moved
    have counted : batch.count task =
        batch.dropLast.count task + [last].count task := by
      rw [← List.count_append,
        List.dropLast_append_getLast? last final]
    have carried :
        tasksOf ((if (memory.schedulers leaf).idle then
          [Op.resumeIdle leaf] else []) ++
            [Op.queueBatch leaf batch.dropLast]) = batch.dropLast := by
      split <;> simp [Op.tasks]
    simp only [accounted, carried]
    omega
  · simp [accounted, Op.tasks]

theorem accounted_addBatchToNode (id who : Fin size) (batch : List TaskId)
    (handleThreshold : Bool) :
    accounted (addBatchToNode tree memory id who batch handleThreshold).1
        (addBatchToNode tree memory id who batch handleThreshold).2 task =
      memory.settled task + batch.count task := by
  unfold addBatchToNode
  split
  · rename_i child rest popped
    simp only [accounted, tasksOf_cons, tasksOf_nil, Op.tasks,
      List.append_nil, Memory.settled, Memory.inTree_setIdleChildren]
    rfl
  · rename_i rest popped
    have moved := settled_setQueue (memory.setIdleChildren id rest) task id
      (Queue.addTaskBatch tree.lifo (memory.schedulers id).queue batch)
    rw [Queue.count_addTaskBatch] at moved
    have unseen : (memory.setIdleChildren id rest).settled task =
        memory.settled task := by
      simp only [Memory.settled, Memory.inTree_setIdleChildren]
      rfl
    have queue : ((memory.setIdleChildren id rest).schedulers id).queue =
        (memory.schedulers id).queue := by
      simp [Memory.setIdleChildren, Memory.modify]
    rw [unseen, queue] at moved
    have carried :
        tasksOf ((if (memory.schedulers id).queueThreshold <
          (Queue.addTaskBatch tree.lifo (memory.schedulers id).queue
            batch).length then
          [Op.handleQueueOverflow id handleThreshold] else []) ++
            [Op.clearRebalance id]) = [] := by
      split <;> simp [Op.tasks]
    simp only [accounted, carried, List.count_nil]
    omega

theorem accounted_giveBatch (node child : Fin size) (force : Bool)
    (elements : Nat) :
    accounted (giveBatch tree memory node child force elements).1
        (giveBatch tree memory node child force elements).2 task =
      memory.settled task := by
  by_cases nothing :
      (Queue.taskBatch (memory.schedulers node).queue
        (Queue.toInt elements)) = []
  · have carried : tasksOf (askFurther tree node force) = [] := by
      unfold askFurther
      split
      · rfl
      · split <;> rfl
    rw [giveBatch_of_nil tree child force nothing]
    simp only [accounted, carried, List.count_nil, Memory.settled,
      Memory.inTree_setRebalance, Memory.inTree_setIdleChildren, Nat.add_zero]
    rfl
  · have carried : tasksOf (if (tree.parent node).isSome then
        [Op.exchangeRebalance node] else []) = [] := by
      split <;> rfl
    have counted := Queue.count_taskBatch (memory.schedulers node).queue
      (Queue.toInt elements) task
    rw [giveBatch_of_ne tree child force nothing]
    have moved := settled_setQueue memory task node
      (Queue.afterTaskBatch (memory.schedulers node).queue
        (Queue.toInt elements))
    rw [accounted, tasksOf_addTaskBatch, carried, List.append_nil]
    dsimp only
    omega

theorem tasksOf_takeOverThreshold (id : Fin size) (queueThreshold : Nat) :
    tasksOf (takeOverThreshold tree id queueThreshold) = [] := by
  unfold takeOverThreshold
  split
  · split <;> rfl
  · rw [tasksOf_append]
    have updates : tasksOf ((tree.children id).map Op.updateQueueThreshold) =
        [] := by
      simp [tasksOf, Op.tasks]
    rw [updates, List.append_nil]
    split <;> rfl

/-- An operation loses no task and makes none. -/
theorem accounted_perform (op : Op size) :
    accounted (perform tree memory op).1 (perform tree memory op).2 task =
      memory.settled task + op.tasks.count task := by
  cases op with
  | addReadyTask added computePlace =>
      cases computePlace with
      | some leaf => simp [perform, accounted, Op.tasks]
      | none =>
          simp only [perform, accounted, Op.tasks]
          split <;> simp [Op.tasks, Memory.settled, Memory.inTree, Memory.sum]
  | addTask leaf added hasComputePlace =>
      simp only [perform, accounted]
      split <;> simp [Op.tasks]
  | setSlotTask leaf added =>
      simp only [perform]
      split
      · rename_i free
        have moved := settled_setSlot memory task leaf (some added)
        rw [free] at moved
        simp only [Option.toList, List.count_nil] at moved
        have carried : tasksOf (if (memory.schedulers leaf).idle then
            [Op.resumeIdle leaf] else []) = [] := by
          split <;> rfl
        simp only [accounted, carried, Op.tasks, List.count_nil]
        omega
      · simp [accounted, Op.tasks]
  | queueTask leaf added =>
      have moved := settled_setQueue memory task leaf
        (Queue.addTask tree.lifo (memory.schedulers leaf).queue added)
      rw [Queue.count_addTask] at moved
      simp only [perform, accounted, tasksOf_cons, tasksOf_nil, Op.tasks,
        List.append_nil, List.count_nil]
      omega
  | moveBatch id elements handleThreshold =>
      simp only [perform]
      split
      · rename_i up above
        have counted := Queue.count_taskBatch (memory.schedulers id).queue
          (Queue.toInt elements) task
        have moved := settled_setQueue memory task id
          (Queue.afterTaskBatch (memory.schedulers id).queue
            (Queue.toInt elements))
        simp only [accounted, tasksOf_sendUp, Op.tasks, List.count_nil]
        omega
      · simp [accounted, Op.tasks]
  | addTaskBatch id who batch handleThreshold =>
      simp only [perform]
      split
      · exact accounted_addBatchToLeaf memory task id batch
      · exact accounted_addBatchToNode tree memory task id who batch _
  | queueBatch leaf batch =>
      have moved := settled_setQueue memory task leaf
        (Queue.addTaskBatch tree.lifo (memory.schedulers leaf).queue batch)
      rw [Queue.count_addTaskBatch] at moved
      simp only [perform, accounted, tasksOf_nil, Op.tasks, List.count_nil]
      omega
  | takeBatch node child force elements =>
      exact accounted_giveBatch tree memory task node child force elements
  | updateQueueThreshold id =>
      simp [perform, accounted, tasksOf_takeOverThreshold, Op.tasks]
  | getSlotTask leaf doWait =>
      exact accounted_takeSlotTask memory task leaf _ _ []
        (fun inside => by simp [Op.tasks]) (by simp [Op.tasks])
  | getQueueTask leaf doWait =>
      simp only [perform]
      split
      · rename_i first rest queue
        have moved := settled_setQueue memory task leaf rest
        rw [queue, List.count_cons] at moved
        simp only [accounted, tasksOf_cons, tasksOf_nil, Op.tasks,
          List.append_nil, List.nil_append, List.count_cons, List.count_nil]
        omega
      · have asks := tasksOf_withParent tree leaf
          (fun up => [Op.askNode up leaf false]) (fun up => rfl)
        cases doWait <;>
          simp [accounted, asks, Op.tasks]
  | poll leaf iterations =>
      simp only [perform]
      split
      · exact accounted_takeSlotTask memory task leaf _ _ []
          (fun inside => by simp [Op.tasks]) (by simp [Op.tasks])
      · simp [accounted, Op.tasks]
  | pollOnce leaf =>
      exact accounted_takeSlotTask memory task leaf _ _ []
        (fun inside => by simp [Op.tasks]) (by simp [Op.tasks])
  | timeOut leaf =>
      have asks := tasksOf_withParent tree leaf
        (fun up => [Op.askNode up leaf true]) (fun up => rfl)
      simp only [perform, accounted, tasksOf_append]
      split <;> simp [asks, Op.tasks]
  | becomeIdle leaf =>
      simp only [perform]
      split
      · rename_i inside occupied
        have moved := settled_setSlot memory task leaf none
        rw [occupied] at moved
        simp only [Option.toList, List.count_nil] at moved
        simp only [accounted, tasksOf_cons, tasksOf_nil, Op.tasks,
          List.append_nil, List.count_nil]
        omega
      · simp only [accounted, tasksOf_nil, Op.tasks, Memory.settled,
          Memory.inTree_setIdleCPU, Memory.inTree_setIdle]
        rfl
  | returnTask leaf finished =>
      have unseen := memory.inTree_setRunning leaf task true
      simp only [perform, accounted, tasksOf_nil, Op.tasks, List.count_nil,
        Memory.settled, List.count_cons]
      change (memory.setRunning leaf true).inTree task + _ + 0 = _
      omega
  | disable leaf =>
      simp only [perform]
      split
      · exact accounted_of_unseen memory task (by simp) rfl rfl
      · exact accounted_of_unseen memory task rfl rfl rfl
  | unidleLeaf leaf =>
      simp only [perform]
      split
      · rename_i up above
        have climbs := tasksOf_withParent tree up
          (fun above => [Op.unidleChild above up]) (fun above => rfl)
        simp only [accounted, tasksOf_append, climbs, Op.tasks,
          Memory.settled, Memory.inTree_setIdleChildren, tasksOf_cons,
          tasksOf_nil]
        rfl
      · simp [accounted, Op.tasks]
  | unidleChild node child =>
      have climbs := tasksOf_withParent tree node
        (fun up => [Op.unidleChild up node]) (fun up => rfl)
      simp only [perform, accounted, climbs, Op.tasks, Memory.settled,
        Memory.inTree_setIdleChildren]
      rfl
  | takeQueue leaf =>
      simp only [perform]
      split
      · rename_i up above
        exact accounted_takeQueue memory task leaf up
          (Queue.count_taskBatch _ _ task)
      · simp [accounted, Op.tasks]
  | takeSlot leaf up batch =>
      have closes : ∀ batch : List TaskId,
          (tasksOf (sendUp up leaf batch true ++
            [Op.disableChild up leaf leaf])).count task =
          batch.count task := by
        intro batch
        simp [tasksOf_sendUp, Op.tasks]
      exact accounted_takeSlotTask memory task leaf _ _ batch
        (fun inside => by rw [closes, List.count_append]) (closes batch)
  | disableChild node child leaf =>
      simp only [perform]
      refine accounted_of_unseen memory task ?_ rfl ?_
      · simp
      · split <;> rfl
  | emptyNode node leaf =>
      simp only [perform]
      split
      · rename_i up above
        have counted := Queue.count_taskBatch
          (memory.schedulers node).queue (-1) task
        have moved := settled_setQueue memory task node
          (Queue.afterTaskBatch (memory.schedulers node).queue (-1))
        simp only [accounted, tasksOf_append, tasksOf_sendUp, tasksOf_cons,
          tasksOf_nil, Op.tasks, List.append_nil, List.count_nil]
        omega
      · simp [accounted, Op.tasks]
  | enable leaf =>
      simp only [perform]
      split
      · rename_i up above
        exact accounted_of_unseen memory task (by simp) rfl rfl
      · simp [accounted, Op.tasks]
  | leaveIdle leaf doWait =>
      simp only [perform]
      split
      · exact accounted_of_unseen memory task (by simp) rfl rfl
      · exact accounted_of_unseen memory task rfl rfl rfl
  | handleQueueOverflow id handleThreshold =>
      simp only [perform]
      refine accounted_of_unseen memory task rfl rfl ?_
      split
      · rfl
      · split <;> rfl
  | compareElements leaf elements
  | testRebalance leaf
  | testRunning leaf
  | compareThreshold id queueThreshold
  | compareSize id elements =>
      simp only [perform]
      refine accounted_of_unseen memory task rfl rfl ?_
      split <;> rfl
  | exchangeRebalance id =>
      simp only [perform]
      refine accounted_of_unseen memory task ?_ rfl ?_
      · simp
      · split <;> rfl
  | clearRebalance id
  | increaseQueueThreshold id
  | decreaseQueueThreshold id
  | zeroQueueThreshold id
  | markRebalance id
  | assignThreshold id queueThreshold
  | getTask leaf doWait
  | unidleCPU leaf
  | returnDisabled leaf =>
      exact accounted_of_unseen memory task (by simp [perform]) rfl rfl
  | resumeIdle leaf
  | askNode node child force
  | measureQueue id =>
      exact accounted_of_unseen memory task rfl rfl rfl

end Operation

/-! ### Runs -/

/-- How often the calls in progress move the task. -/
def State.moving (state : State size) (task : TaskId) : Nat :=
  total (fun call => (tasksOf call.ops).count task) state.calls

/-- Every addition of a task is accounted for once: by a queue, by a polling
slot, by a call that moves the task, or by the `getTask` that returned it. -/
def State.Conserves (state : State size) : Prop :=
  ∀ task,
    state.memory.inTree task + state.moving task +
      state.memory.returned.count task = state.added.count task

/-- Any run. -/
def Runs (tree : Tree size) : State size → State size → Prop :=
  Run (step tree) fun _ _ => True

theorem total_goesOn {Amount : Type} [AddCommMonoid Amount]
    (amount : List (Op size) → Amount) (nothing : amount [] = 0)
    (call : Call size) (ops : List (Op size)) :
    total (fun call => amount call.ops) (call.goesOn ops) = amount ops := by
  unfold Call.goesOn
  split
  · rename_i isOver
    rw [isOver, nothing, total_nil]
  · rw [total_singleton]

theorem moving_starts (state : State size) (cpu : Option (Fin size))
    (op : Op size) (task : TaskId) :
    (state.starts cpu op).moving task =
      state.moving task + op.tasks.count task := by
  simp [State.moving, State.starts, total_append]

theorem moving_performs (tree : Tree size) {state : State size} {index : Nat}
    {call : Call size} {op : Op size} {rest : List (Op size)}
    (found : state.calls[index]? = some call) (ops : call.ops = op :: rest)
    (task : TaskId) :
    (state.performs tree index call op rest).moving task +
        op.tasks.count task =
      state.moving task +
        (tasksOf (perform tree state.memory op).2).count task := by
  have replaced := total_replaceAt
    (fun call : Call size => (tasksOf call.ops).count task)
    (call.goesOn ((perform tree state.memory op).2 ++ rest)) found
  rw [total_goesOn (fun ops => (tasksOf ops).count task) rfl, ops,
    tasksOf_cons, tasksOf_append, List.count_append, List.count_append]
    at replaced
  simp only [State.moving, State.performs]
  omega

/-- A step of a call keeps the account. -/
theorem State.Conserves.proceed {tree : Tree size} {state next : State size}
    {label : Label size} (conserves : state.Conserves)
    (taken : proceed tree state label = some next) : next.Conserves := by
  intro task
  have before := conserves task
  cases label with
  | addReadyTask added computePlace =>
      simp only [TreeScheduler.proceed] at taken
      split at taken
      · cases taken
        have moving := moving_starts state computePlace
          (.addReadyTask added computePlace) task
        simp only [Op.tasks, List.count_cons, List.count_nil] at moving
        change state.memory.inTree task +
          (state.starts computePlace _).moving task +
            state.memory.returned.count task = _
        rw [List.count_cons]
        omega
      · cases taken
  | getReadyTask leaf doWait =>
      simp only [TreeScheduler.proceed] at taken
      split at taken
      · cases taken
        have moving := moving_starts state (some leaf)
          (.getTask leaf doWait) task
        change state.memory.inTree task +
          (state.starts (some leaf) _).moving task + _ = _
        rw [moving]
        exact before
      · cases taken
  | disableComputePlace leaf =>
      simp only [TreeScheduler.proceed] at taken
      split at taken
      · cases taken
        have moving := moving_starts state (some leaf) (.disable leaf) task
        change state.memory.inTree task +
          (state.starts (some leaf) _).moving task + _ = _
        rw [moving]
        exact before
      · cases taken
  | enableComputePlace leaf =>
      simp only [TreeScheduler.proceed] at taken
      split at taken
      · cases taken
        rw [moving_starts]
        exact before
      · cases taken
  | perform index =>
      obtain ⟨call, op, rest, found, ops, rfl⟩ := proceed_perform taken
      have moving := moving_performs tree found ops task
      have kept := accounted_perform tree state.memory task op
      simp only [accounted, Memory.settled] at kept
      simp only [State.performs] at moving ⊢
      omega

/-- One step keeps the account. -/
theorem State.Conserves.step {tree : Tree size} {state next : State size}
    {label : Label size} (conserves : state.Conserves)
    (taken : step tree state label = some next) : next.Conserves := by
  obtain ⟨-, ⟨-, rfl⟩ | ⟨-, proceeds⟩⟩ := step_cases taken
  · exact conserves
  · exact conserves.proceed proceeds

theorem inTree_initialState (tree : Tree size)
    (queueThreshold : Fin size → Nat) (task : TaskId) :
    (initialState tree queueThreshold).memory.inTree task = 0 := by
  simp [initialState, initialScheduler, Memory.inTree, Memory.sum,
    Scheduler.holds]

/-- Every run keeps the account. -/
theorem conserves_of_run {tree : Tree size} {queueThreshold : Fin size → Nat}
    {state : State size}
    (run : Runs tree (initialState tree queueThreshold) state) :
    state.Conserves := by
  refine run.invariant (fun task => ?_) fun _ _ _ conserves _ taken =>
    conserves.step taken
  rw [inTree_initialState]
  rfl

end Nanos6.TreeScheduler
