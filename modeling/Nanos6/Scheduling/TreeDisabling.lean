import Nanos6.Scheduling.TreeLeaves
import Nanos6.Scheduling.TreeTermination

/-!
# Disabled CPUs of the tree scheduler

A CPU that is disabled empties its leaf; the last leaf of a node empties the
node too.  Neither looks at the calls that are on their way to the leaf or to the
node, and a leaf that is registered as idle more than once, or that is registered
and no longer idle, stays registered.  The condition below excludes these cases,
and then every task is in reach of a CPU that is enabled.
-/

namespace Nanos6.TreeScheduler

open Foundation

variable {size : Nat}

/-- The tree that `TreeScheduler` builds: the leaves hang from the topmost node,
or from nodes that hang from it. -/
structure CPUTree (size : Nat) extends Tree size where
  top : Fin size
  parent_eq_none : ∀ id, parent id = none ↔ id = top
  eq_top_of_node : ∀ id up, parent id = some up → isLeaf id = false → up = top

namespace Activation

/-- The queue of the leaf has been taken. -/
def isClosed : Activation → Bool
  | .enabled => false
  | .disabling => false
  | _ => true

/-- The parent of the leaf does not count it. -/
def isPassed : Activation → Bool
  | .discounted => true
  | .disabled => true
  | _ => false

theorem isClosed_of_isPassed {activation : Activation}
    (passed : activation.isPassed = true) : activation.isClosed = true := by
  cases activation <;> first
    | rfl
    | cases passed

end Activation

namespace Op

/-- What is known of the operations of a call while they wait: whose call it is,
and how far the leaf is disabled. -/
def Fits (tree : Tree size) (cpu : Option (Fin size))
    (activation : Fin size → Activation) : Op size → Prop
  | .addReadyTask _ (some leaf) =>
      cpu = some leaf ∧ activation leaf = .enabled ∧ tree.isLeaf leaf = true
  | .addTask leaf _ _ => tree.isLeaf leaf = true
  | .setSlotTask leaf _ => tree.isLeaf leaf = true
  | .getTask leaf _ => cpu = some leaf ∧ activation leaf = .enabled
  | .leaveIdle leaf _ => cpu = some leaf ∧ activation leaf = .enabled
  | .getSlotTask leaf _ => cpu = some leaf ∧ activation leaf = .enabled
  | .getQueueTask leaf _ => cpu = some leaf ∧ activation leaf = .enabled
  | .poll leaf _ => cpu = some leaf ∧ activation leaf = .enabled
  | .pollOnce leaf => cpu = some leaf ∧ activation leaf = .enabled
  | .timeOut leaf => cpu = some leaf ∧ activation leaf = .enabled
  | .becomeIdle leaf => cpu = some leaf ∧ activation leaf = .enabled
  | .askNode node child _ =>
      tree.parent child = some node ∧ ∃ leaf, cpu = some leaf ∧
        activation leaf = .enabled ∧
        (child = leaf ∨ tree.parent leaf = some child)
  | .takeBatch node child _ _ =>
      tree.parent child = some node ∧ ∃ leaf, cpu = some leaf ∧
        activation leaf = .enabled ∧
        (child = leaf ∨ tree.parent leaf = some child)
  | .disable leaf => cpu = some leaf ∧ activation leaf = .disabling
  | .unidleLeaf leaf => cpu = some leaf ∧ activation leaf = .disabling
  | .takeQueue leaf => cpu = some leaf ∧ activation leaf = .disabling
  | .takeSlot leaf up _ =>
      cpu = some leaf ∧ tree.parent leaf = some up ∧
        activation leaf = .emptied
  | .disableChild node child leaf =>
      cpu = some leaf ∧ tree.parent child = some node ∧
        (child = leaf ∧ activation leaf = .emptied ∨
          tree.parent leaf = some child ∧ activation leaf = .discounted)
  | .emptyNode node leaf =>
      cpu = some leaf ∧ tree.parent leaf = some node ∧
        activation leaf = .discounted
  | .returnDisabled leaf => cpu = some leaf ∧ activation leaf = .discounted
  | .enable leaf => cpu = some leaf ∧ activation leaf = .disabled
  | _ => True

/-- The call by the CPU of the leaf that is in progress, to its end. -/
def occupies (leaf : Fin size) : Op size → Bool
  | .getTask other _ => other = leaf
  | .leaveIdle other _ => other = leaf
  | .getSlotTask other _ => other = leaf
  | .getQueueTask other _ => other = leaf
  | .poll other _ => other = leaf
  | .pollOnce other => other = leaf
  | .timeOut other => other = leaf
  | .becomeIdle other => other = leaf
  | .disable other => other = leaf
  | .unidleLeaf other => other = leaf
  | .takeQueue other => other = leaf
  | .takeSlot other _ _ => other = leaf
  | .disableChild _ _ other => other = leaf
  | .emptyNode _ other => other = leaf
  | .returnDisabled other => other = leaf
  | .enable other => other = leaf
  | _ => false

/-- The operation is on its way to put tasks into the scheduler. -/
def delivers (id : Fin size) : Op size → Bool
  | .addTask leaf _ _ => leaf = id
  | .setSlotTask leaf _ => leaf = id
  | .queueTask leaf _ => leaf = id
  | .addTaskBatch other _ _ _ => other = id
  | .queueBatch leaf batch => leaf = id ∧ batch ≠ []
  | _ => false

def begins (leaf : Fin size) : Op size → Bool
  | .disable other => other = leaf
  | _ => false

def unidles (leaf : Fin size) : Op size → Bool
  | .unidleLeaf other => other = leaf
  | _ => false

def takesSlot (leaf : Fin size) : Op size → Bool
  | .takeSlot other _ _ => other = leaf
  | _ => false

def empties (node : Fin size) : Op size → Bool
  | .emptyNode other _ => other = node
  | _ => false

/-- The operation carries a task that has been dealt to a leaf. -/
def carries (op : Op size) : Bool :=
  !op.tasks.isEmpty && !op.deals

end Op

/-! ### What an operation does to a scheduler -/

/-- Tasks have left the scheduler, if anything. -/
structure Memory.Shrinks (memory next : Memory size) (id : Fin size) :
    Prop where
  queue : (memory.schedulers id).queue = [] →
    (next.schedulers id).queue = []
  slot : (memory.schedulers id).pollingSlot = none →
    (next.schedulers id).pollingSlot = none

section Shrinks

variable (memory : Memory size) (id other : Fin size)

theorem shrinks_of_seen {memory next : Memory size} {id : Fin size}
    (same : next.seen id = memory.seen id) : memory.Shrinks next id := by
  simp only [Memory.seen, Prod.mk.injEq] at same
  obtain ⟨-, slot, queue⟩ := same
  exact ⟨fun empty => queue.trans empty, fun free => slot.trans free⟩

theorem shrinks_setSlot :
    memory.Shrinks (memory.setSlot other none) id := by
  by_cases same : other = id
  · subst same
    exact ⟨by simp [Memory.setSlot, Memory.modify],
      by simp [Memory.setSlot, Memory.modify]⟩
  · exact shrinks_of_seen (memory.seen_setSlot same none)

theorem shrinks_setIdle (value : Bool) :
    memory.Shrinks (memory.setIdle other value) id := by
  by_cases same : other = id
  · subst same
    exact ⟨by simp [Memory.setIdle, Memory.modify],
      by simp [Memory.setIdle, Memory.modify]⟩
  · exact shrinks_of_seen (memory.seen_setIdle same value)

theorem shrinks_setQueue {queue : List TaskId}
    (shorter : (memory.schedulers other).queue = [] → queue = []) :
    memory.Shrinks (memory.setQueue other queue) id := by
  by_cases same : other = id
  · subst same
    exact ⟨by simpa [Memory.setQueue, Memory.modify] using shorter,
      by simp [Memory.setQueue, Memory.modify]⟩
  · exact shrinks_of_seen (memory.seen_setQueue same queue)

theorem shrinks_takeBatch (elements : Int) :
    memory.Shrinks (memory.setQueue other
      (Queue.afterTaskBatch (memory.schedulers other).queue elements)) id :=
  shrinks_setQueue memory id other fun empty => by
    rw [empty, Queue.afterTaskBatch_nil]

end Shrinks

/-- Only an operation that delivers to a scheduler fills it. -/
theorem shrinks_perform (tree : Tree size) (memory : Memory size)
    {id : Fin size} {op : Op size} (apart : op.delivers id = false) :
    memory.Shrinks (perform tree memory op).1 id := by
  cases op with
  | addReadyTask task computePlace =>
      cases computePlace <;> exact shrinks_of_seen rfl
  | setSlotTask leaf task =>
      have different : leaf ≠ id := of_decide_eq_false apart
      simp only [perform]
      split
      · exact shrinks_of_seen (memory.seen_setSlot different _)
      · exact shrinks_of_seen rfl
  | queueTask leaf task =>
      exact shrinks_of_seen (memory.seen_setQueue (of_decide_eq_false apart) _)
  | addTaskBatch other who batch handleThreshold =>
      have different : other ≠ id := of_decide_eq_false apart
      refine shrinks_of_seen ?_
      simp only [perform, addBatchToLeaf, addBatchToNode]
      repeat' split
      all_goals simp [Memory.seen_setQueue, Memory.seen_setSlot, different]
  | queueBatch leaf batch =>
      by_cases empty : batch = []
      · refine shrinks_setQueue memory id leaf fun nothing => ?_
        simp [empty, nothing, Queue.addTaskBatch]
      · have different : leaf ≠ id := fun same =>
          of_decide_eq_false apart ⟨same, empty⟩
        exact shrinks_of_seen (memory.seen_setQueue different _)
  | moveBatch other elements handleThreshold =>
      simp only [perform]
      split
      · exact shrinks_takeBatch memory id other _
      · exact shrinks_of_seen rfl
  | takeBatch node child force elements =>
      simp only [perform, giveBatch]
      split
      · exact shrinks_of_seen (by simp)
      · exact shrinks_takeBatch memory id node _
  | getSlotTask leaf doWait | pollOnce leaf | takeSlot leaf up batch =>
      simp only [perform, takeSlotTask]
      split
      · exact shrinks_setSlot memory id leaf
      · exact shrinks_of_seen rfl
  | poll leaf iterations =>
      simp only [perform, takeSlotTask]
      repeat' split
      · exact shrinks_setSlot memory id leaf
      · exact shrinks_of_seen rfl
      · exact shrinks_of_seen rfl
  | getQueueTask leaf doWait =>
      simp only [perform]
      split
      · rename_i task rest queue
        refine shrinks_setQueue memory id leaf fun empty => ?_
        rw [empty] at queue
        cases queue
      · exact shrinks_of_seen rfl
  | leaveIdle leaf doWait =>
      simp only [perform]
      split
      · exact shrinks_setIdle memory id leaf _
      · exact shrinks_of_seen rfl
  | becomeIdle leaf =>
      simp only [perform]
      split
      · exact shrinks_setSlot memory id leaf
      · have kept := shrinks_setIdle memory id leaf true
        exact ⟨kept.queue, kept.slot⟩
  | disable leaf =>
      simp only [perform]
      split
      · exact shrinks_setIdle memory id leaf _
      · exact shrinks_of_seen rfl
  | unidleLeaf leaf =>
      refine shrinks_of_seen ?_
      simp only [perform]
      split <;> simp
  | takeQueue leaf =>
      simp only [perform]
      split
      · have kept := shrinks_takeBatch memory id leaf (-1)
        exact ⟨kept.queue, kept.slot⟩
      · exact shrinks_of_seen rfl
  | emptyNode node leaf =>
      simp only [perform]
      split
      · exact shrinks_takeBatch memory id node _
      · exact shrinks_of_seen rfl
  | returnTask leaf task =>
      exact shrinks_of_seen (memory.seen_setRunning true)
  | enable leaf =>
      refine shrinks_of_seen ?_
      simp only [perform]
      split <;> simp
  | resumeIdle leaf => exact shrinks_of_seen rfl
  | _ =>
      refine shrinks_of_seen ?_
      simp [perform]

/-- How an operation comes to deliver to a scheduler. -/
inductive Reaches (tree : Tree size) (memory : Memory size) (id : Fin size) :
    Op size → Prop
  /-- It was on its way already. -/
  | delivers {op : Op size} (already : op.delivers id = true) :
      Reaches tree memory id op
  | deals {task : TaskId}
      (dealt : tree.cpuScheduler[memory.schedRRCounter]? = some (some id)) :
      Reaches tree memory id (.addReadyTask task none)
  | adds {task : TaskId} : Reaches tree memory id (.addReadyTask task (some id))
  | moves {child : Fin size} {elements : Nat} {handleThreshold : Bool}
      (above : tree.parent child = some id)
      (something : (memory.schedulers child).queue ≠ []) :
      Reaches tree memory id (.moveBatch child elements handleThreshold)
  | takesSlot {leaf : Fin size} {batch : List TaskId} :
      Reaches tree memory id (.takeSlot leaf id batch)
  | empties {child leaf : Fin size} (above : tree.parent child = some id)
      (something : (memory.schedulers child).queue ≠ []) :
      Reaches tree memory id (.emptyNode child leaf)
  | pops {node who : Fin size} {batch : List TaskId} {handleThreshold : Bool}
      (registered : id ∈ (memory.schedulers node).idleChildren) :
      Reaches tree memory id (.addTaskBatch node who batch handleThreshold)
  | gives {node : Fin size} {force : Bool} {elements : Nat} :
      Reaches tree memory id (.takeBatch node id force elements)

theorem mem_of_popIdleChild {who child : Fin size}
    {entries rest : List (Fin size)}
    (popped : Memory.popIdleChild who entries = (some child, rest)) :
    child ∈ entries ∧ rest.Sublist entries := by
  unfold Memory.popIdleChild at popped
  split at popped
  · cases popped
  · rename_i first others dropped
    cases popped
    have suffix := List.dropWhile_suffix (l := entries) (· = who)
    rw [dropped] at suffix
    exact ⟨suffix.subset List.mem_cons_self,
      (List.sublist_cons_self _ _).trans suffix.sublist⟩

theorem reaches_sendUp {tree : Tree size} {memory : Memory size}
    {op called : Op size} {id up child : Fin size} {batch : List TaskId}
    {handleThreshold : Bool}
    (member : called ∈ sendUp up child batch handleThreshold)
    (delivers : called.delivers id = true)
    (reaches : batch ≠ [] → Reaches tree memory up op) :
    Reaches tree memory id op := by
  unfold sendUp at member
  split at member
  · cases member
  · rename_i something
    obtain rfl := List.mem_singleton.mp member
    obtain rfl := of_decide_eq_true delivers
    exact reaches something

theorem reaches_perform {tree : Tree size} {memory : Memory size}
    {id : Fin size} {op called : Op size}
    (member : called ∈ (perform tree memory op).2)
    (delivers : called.delivers id = true) :
    Reaches tree memory id op := by
  cases op with
  | addReadyTask task computePlace =>
      cases computePlace with
      | some leaf =>
          obtain rfl := List.mem_singleton.mp member
          obtain rfl := of_decide_eq_true delivers
          exact .adds
      | none =>
          simp only [perform] at member
          split at member
          · rename_i leaf dealt
            obtain rfl := List.mem_singleton.mp member
            obtain rfl := of_decide_eq_true delivers
            exact .deals dealt
          · obtain rfl := List.mem_singleton.mp member
            cases delivers
  | addTask leaf task hasComputePlace =>
      simp only [perform] at member
      split at member <;> simp only [List.mem_cons, List.not_mem_nil,
        or_false] at member <;> rcases member with rfl | rfl <;>
        first
          | exact .delivers delivers
          | cases delivers
  | setSlotTask leaf task =>
      simp only [perform] at member
      split at member
      · split at member
        · obtain rfl := List.mem_singleton.mp member
          cases delivers
        · cases member
      · obtain rfl := List.mem_singleton.mp member
        exact .delivers delivers
  | moveBatch child elements handleThreshold =>
      simp only [perform] at member
      split at member
      · rename_i up above
        dsimp only at member
        refine reaches_sendUp member delivers fun something =>
          .moves above fun empty => something ?_
        rw [empty, Queue.taskBatch_nil]
      · cases member
  | addTaskBatch node who batch handleThreshold =>
      simp only [perform] at member
      split at member
      · refine .delivers ?_
        have only : called = .resumeIdle node ∨
            ∃ tasks, called = .queueBatch node tasks := by
          unfold addBatchToLeaf at member
          split at member
          · rcases List.mem_append.mp member with resumes | queues
            · split at resumes
              · exact Or.inl (List.mem_singleton.mp resumes)
              · cases resumes
            · exact Or.inr ⟨_, List.mem_singleton.mp queues⟩
          · exact Or.inr ⟨_, List.mem_singleton.mp member⟩
        rcases only with rfl | ⟨tasks, rfl⟩
        · cases delivers
        · exact decide_eq_true (of_decide_eq_true delivers).1
      · unfold addBatchToNode at member
        split at member
        · rename_i child rest popped
          rcases List.mem_cons.mp member with rfl | clears
          · obtain rfl := of_decide_eq_true delivers
            exact .pops (mem_of_popIdleChild popped).1
          · obtain rfl := List.mem_singleton.mp clears
            cases delivers
        · rcases List.mem_append.mp member with overflows | clears
          · split at overflows
            · obtain rfl := List.mem_singleton.mp overflows
              cases delivers
            · cases overflows
          · obtain rfl := List.mem_singleton.mp clears
            cases delivers
  | takeBatch node child force elements =>
      by_cases nothing :
          (Queue.taskBatch (memory.schedulers node).queue
            (Queue.toInt elements)) = []
      · rw [perform, giveBatch_of_nil tree child force nothing] at member
        unfold askFurther at member
        repeat' split at member
        all_goals
          obtain rfl := List.mem_singleton.mp member
          cases delivers
      · rw [perform, giveBatch_of_ne tree child force nothing] at member
        rcases List.mem_cons.mp member with rfl | exchanges
        · obtain rfl := of_decide_eq_true delivers
          exact .gives
        · split at exchanges
          · obtain rfl := List.mem_singleton.mp exchanges
            cases delivers
          · cases exchanges
  | takeSlot leaf up batch =>
      have closes : ∀ tasks, called ∈ sendUp up leaf tasks true ++
          [.disableChild up leaf leaf] →
          Reaches tree memory id (.takeSlot leaf up batch) := by
        intro tasks inside
        rcases List.mem_append.mp inside with sends | discounts
        · exact reaches_sendUp sends delivers fun _ => .takesSlot
        · obtain rfl := List.mem_singleton.mp discounts
          cases delivers
      simp only [perform, takeSlotTask] at member
      split at member
      · exact closes _ member
      · exact closes _ member
  | emptyNode node leaf =>
      simp only [perform] at member
      split at member
      · rename_i up above
        rcases List.mem_append.mp member with sends | discounts
        · refine reaches_sendUp sends delivers fun something =>
            .empties above fun empty => something ?_
          rw [empty, Queue.taskBatch_nil]
        · obtain rfl := List.mem_singleton.mp discounts
          cases delivers
      · cases member
  | updateQueueThreshold other =>
      refine absurd delivers ?_
      rw [Bool.not_eq_true]
      clear delivers
      revert called
      simp only [perform, takeOverThreshold]
      repeat' split
      all_goals simp [Op.delivers]
  | _ =>
      refine absurd delivers ?_
      rw [Bool.not_eq_true]
      clear delivers
      revert called
      simp only [perform, withParent, takeSlotTask]
      repeat' split
      all_goals simp [Op.delivers]

/-! ### The children of a node -/

namespace Memory

/-- What a node knows of its children. -/
def family (memory : Memory size) (id : Fin size) : List (Fin size) × Int :=
  ((memory.schedulers id).idleChildren,
    (memory.schedulers id).enabledChildren)

variable (memory : Memory size) (id other : Fin size)

theorem family_modify (change : Scheduler size → Scheduler size)
    (idleChildren : ∀ scheduler,
      (change scheduler).idleChildren = scheduler.idleChildren)
    (enabledChildren : ∀ scheduler,
      (change scheduler).enabledChildren = scheduler.enabledChildren) :
    (memory.modify other change).family id = memory.family id := by
  by_cases same : other = id
  · subst same
    simp only [family, modify, Function.update_self, idleChildren,
      enabledChildren]
  · simp only [family, modify, Function.update_of_ne (Ne.symm same)]

@[simp]
theorem family_setQueue (queue : List TaskId) :
    (memory.setQueue other queue).family id = memory.family id :=
  memory.family_modify id other _ (fun _ => rfl) fun _ => rfl

@[simp]
theorem family_setSlot (slot : Option TaskId) :
    (memory.setSlot other slot).family id = memory.family id :=
  memory.family_modify id other _ (fun _ => rfl) fun _ => rfl

@[simp]
theorem family_setRebalance (value : Bool) :
    (memory.setRebalance other value).family id = memory.family id :=
  memory.family_modify id other _ (fun _ => rfl) fun _ => rfl

@[simp]
theorem family_setThreshold (value : Nat) :
    (memory.setThreshold other value).family id = memory.family id :=
  memory.family_modify id other _ (fun _ => rfl) fun _ => rfl

@[simp]
theorem family_setIdle (value : Bool) :
    (memory.setIdle other value).family id = memory.family id :=
  memory.family_modify id other _ (fun _ => rfl) fun _ => rfl

@[simp]
theorem family_setRunning (value : Bool) :
    (memory.setRunning other value).family id = memory.family id :=
  memory.family_modify id other _ (fun _ => rfl) fun _ => rfl

@[simp]
theorem family_setIdleCPU (value : Bool) :
    (memory.setIdleCPU other value).family id = memory.family id :=
  rfl

@[simp]
theorem family_setActivation (value : Activation) :
    (memory.setActivation other value).family id = memory.family id :=
  rfl

theorem idleChildren_setIdleChildren (entries : List (Fin size)) :
    ((memory.setIdleChildren other entries).schedulers id).idleChildren =
      if id = other then entries else
        (memory.schedulers id).idleChildren := by
  by_cases same : id = other
  · subst same
    simp [setIdleChildren, modify]
  · simp only [setIdleChildren, modify, Function.update_of_ne same,
      if_neg same]

theorem enabledChildren_setIdleChildren (entries : List (Fin size)) :
    ((memory.setIdleChildren other entries).schedulers id).enabledChildren =
      (memory.schedulers id).enabledChildren := by
  by_cases same : id = other
  · subst same
    simp [setIdleChildren, modify]
  · simp only [setIdleChildren, modify, Function.update_of_ne same]

theorem idleChildren_setEnabledChildren (value : Int) :
    ((memory.setEnabledChildren other value).schedulers id).idleChildren =
      (memory.schedulers id).idleChildren := by
  by_cases same : id = other
  · subst same
    simp [setEnabledChildren, modify]
  · simp only [setEnabledChildren, modify, Function.update_of_ne same]

theorem enabledChildren_setEnabledChildren (value : Int) :
    ((memory.setEnabledChildren other value).schedulers id).enabledChildren =
      if id = other then value else (memory.schedulers id).enabledChildren := by
  by_cases same : id = other
  · subst same
    simp [setEnabledChildren, modify]
  · simp only [setEnabledChildren, modify, Function.update_of_ne same,
      if_neg same]

end Memory

/-- The operation may change what a node knows of its children. -/
def Op.counts : Op size → Bool
  | .addTaskBatch _ _ _ _ => true
  | .takeBatch _ _ _ _ => true
  | .unidleLeaf _ => true
  | .unidleChild _ _ => true
  | .disableChild _ _ _ => true
  | .enable _ => true
  | _ => false

theorem family_perform (tree : Tree size) (memory : Memory size)
    (id : Fin size) {op : Op size} (apart : op.counts = false) :
    (perform tree memory op).1.family id = memory.family id := by
  cases op with
  | addReadyTask task computePlace => cases computePlace <;> rfl
  | addTaskBatch | takeBatch | unidleLeaf | unidleChild | disableChild
  | enable =>
      cases apart
  | resumeIdle leaf => rfl
  | returnTask leaf task => exact memory.family_setRunning id leaf true
  | _ =>
      simp only [perform, takeSlotTask]
      repeat' split
      all_goals simp

theorem idleChildren_of_family {memory next : Memory size} {id : Fin size}
    (same : next.family id = memory.family id) :
    (next.schedulers id).idleChildren =
      (memory.schedulers id).idleChildren :=
  congrArg Prod.fst same

theorem enabledChildren_of_family {memory next : Memory size} {id : Fin size}
    (same : next.family id = memory.family id) :
    (next.schedulers id).enabledChildren =
      (memory.schedulers id).enabledChildren :=
  congrArg Prod.snd same

theorem giveBatch_memory (tree : Tree size) (memory : Memory size)
    (node child : Fin size) (force : Bool) (elements : Nat) :
    (giveBatch tree memory node child force elements).1 =
        (memory.setIdleChildren node
          ((memory.schedulers node).idleChildren ++ [child])).setRebalance
          node false ∨
      ∃ queue, (giveBatch tree memory node child force elements).1 =
        memory.setQueue node queue := by
  by_cases nothing :
      (Queue.taskBatch (memory.schedulers node).queue
        (Queue.toInt elements)) = []
  · rw [giveBatch_of_nil tree child force nothing]
    exact Or.inl rfl
  · rw [giveBatch_of_ne tree child force nothing]
    exact Or.inr ⟨_, rfl⟩

/-- What `addTaskBatch` does to the children of a node. -/
theorem addTaskBatch_memory (tree : Tree size) (memory : Memory size)
    (id other who : Fin size) (batch : List TaskId) (handleThreshold : Bool) :
    ((perform tree memory (.addTaskBatch other who batch
        handleThreshold)).1.schedulers id).idleChildren.Sublist
      (memory.schedulers id).idleChildren ∧
    ((perform tree memory (.addTaskBatch other who batch
        handleThreshold)).1.schedulers id).enabledChildren =
      (memory.schedulers id).enabledChildren := by
  simp only [perform]
  split
  · have same : (addBatchToLeaf memory other batch).1.family id =
        memory.family id := by
      unfold addBatchToLeaf
      split <;> simp
    rw [idleChildren_of_family same]
    exact ⟨List.Sublist.refl _, enabledChildren_of_family same⟩
  · unfold addBatchToNode
    split
    · rename_i first rest popped
      refine ⟨?_, memory.enabledChildren_setIdleChildren id other rest⟩
      rw [Memory.idleChildren_setIdleChildren]
      split
      · rename_i same
        rw [same]
        exact (mem_of_popIdleChild popped).2
      · exact List.Sublist.refl _
    · rename_i rest popped
      dsimp only
      generalize Queue.addTaskBatch tree.lifo (memory.schedulers other).queue
        batch = queue
      have same := (memory.setIdleChildren other rest).family_setQueue id other
        queue
      rw [idleChildren_of_family same, enabledChildren_of_family same,
        Memory.idleChildren_setIdleChildren, length_popIdleChild_none popped]
      refine ⟨?_, memory.enabledChildren_setIdleChildren id other _⟩
      split
      · exact List.nil_sublist _
      · exact List.Sublist.refl _

/-- A child that leaves is registered at most as often as before. -/
theorem count_erase_idleChildren (memory : Memory size)
    (id other left child : Fin size) :
    ((memory.setIdleChildren other
        ((memory.schedulers other).idleChildren.erase left)).schedulers
        id).idleChildren.count child ≤
      (memory.schedulers id).idleChildren.count child := by
  rw [memory.idleChildren_setIdleChildren]
  split
  · rename_i same
    rw [same]
    exact List.erase_sublist.count_le _
  · exact le_rfl

/-- A child is registered only by its own request. -/
theorem count_idleChildren_perform (tree : Tree size) (memory : Memory size)
    (op : Op size) (id child : Fin size) :
    ((perform tree memory op).1.schedulers id).idleChildren.count child ≤
        (memory.schedulers id).idleChildren.count child ∨
      ∃ force elements, op = .takeBatch id child force elements := by
  cases apart : op.counts with
  | false =>
      refine Or.inl (le_of_eq ?_)
      rw [idleChildren_of_family (family_perform tree memory id apart)]
  | true =>
      cases op with
      | addTaskBatch other who batch handleThreshold =>
          exact Or.inl ((addTaskBatch_memory tree memory id other who batch
            handleThreshold).1.count_le _)
      | takeBatch node other force elements =>
          rw [perform]
          rcases giveBatch_memory tree memory node other force elements with
            registers | ⟨queue, takes⟩
          · rw [registers, idleChildren_of_family
              ((memory.setIdleChildren node
                ((memory.schedulers node).idleChildren ++
                  [other])).family_setRebalance id node false),
              Memory.idleChildren_setIdleChildren]
            split
            · rename_i same
              subst same
              by_cases own : other = child
              · subst own
                exact Or.inr ⟨force, elements, rfl⟩
              · refine Or.inl (le_of_eq ?_)
                rw [List.count_append, List.count_singleton]
                simp [own]
            · exact Or.inl le_rfl
          · refine Or.inl (le_of_eq ?_)
            rw [takes, idleChildren_of_family
              (memory.family_setQueue id node queue)]
      | unidleChild node other =>
          exact Or.inl (count_erase_idleChildren memory id node other child)
      | unidleLeaf leaf =>
          refine Or.inl ?_
          simp only [perform]
          split
          · rename_i up above
            exact count_erase_idleChildren memory id up leaf child
          · exact le_rfl
      | disableChild node other leaf =>
          refine Or.inl (le_of_eq ?_)
          rw [← memory.idleChildren_setEnabledChildren id node]
          rfl
      | enable leaf =>
          refine Or.inl (le_of_eq ?_)
          simp only [perform]
          split
          · rename_i up above
            rw [← memory.idleChildren_setEnabledChildren id up]
            rfl
          · rfl
      | _ => cases apart

theorem mem_idleChildren_perform {tree : Tree size} {memory : Memory size}
    {op : Op size} {id child : Fin size}
    (member :
      child ∈ ((perform tree memory op).1.schedulers id).idleChildren) :
    child ∈ (memory.schedulers id).idleChildren ∨
      ∃ force elements, op = .takeBatch id child force elements := by
  refine (count_idleChildren_perform tree memory op id child).imp_left
    fun fewer => ?_
  exact List.count_pos_iff.mp ((List.count_pos_iff.mpr member).trans_le fewer)

/-- The counter of a node changes with its children only. -/
theorem enabledChildren_perform (tree : Tree size) (memory : Memory size)
    (id : Fin size) (op : Op size) :
    ((perform tree memory op).1.schedulers id).enabledChildren =
        (memory.schedulers id).enabledChildren ∨
      (∃ child leaf, op = .disableChild id child leaf) ∨
      ∃ leaf, op = .enable leaf ∧ tree.parent leaf = some id := by
  cases apart : op.counts with
  | false =>
      exact Or.inl (enabledChildren_of_family
        (family_perform tree memory id apart))
  | true =>
      cases op with
      | addTaskBatch other who batch handleThreshold =>
          exact Or.inl (addTaskBatch_memory tree memory id other who batch
            handleThreshold).2
      | takeBatch node other force elements =>
          refine Or.inl ?_
          rw [perform]
          rcases giveBatch_memory tree memory node other force elements with
            registers | ⟨queue, takes⟩
          · rw [registers, enabledChildren_of_family
              ((memory.setIdleChildren node
                ((memory.schedulers node).idleChildren ++
                  [other])).family_setRebalance id node false),
              memory.enabledChildren_setIdleChildren]
          · rw [takes, enabledChildren_of_family
              (memory.family_setQueue id node queue)]
      | unidleChild node other =>
          exact Or.inl (memory.enabledChildren_setIdleChildren id node _)
      | unidleLeaf leaf =>
          refine Or.inl ?_
          simp only [perform]
          split
          · exact memory.enabledChildren_setIdleChildren id _ _
          · rfl
      | disableChild node child leaf =>
          by_cases same : id = node
          · subst same
            exact Or.inr (Or.inl ⟨child, leaf, rfl⟩)
          · refine Or.inl ?_
            have unseen := memory.enabledChildren_setEnabledChildren id node
              ((memory.schedulers node).enabledChildren - 1)
            rw [if_neg same] at unseen
            exact unseen
      | enable leaf =>
          cases above : tree.parent leaf with
          | none =>
              refine Or.inl ?_
              simp [perform, above]
          | some up =>
              by_cases same : id = up
              · subst same
                exact Or.inr (Or.inr ⟨leaf, rfl, above⟩)
              · refine Or.inl ?_
                have unseen := memory.enabledChildren_setEnabledChildren id up
                  ((memory.schedulers up).enabledChildren + 1)
                rw [if_neg same] at unseen
                simpa [perform, above, Memory.setActivation] using unseen
      | _ => cases apart

/-! ### The calls of the CPUs -/

theorem activation_modify (memory : Memory size) (id : Fin size)
    (change : Scheduler size → Scheduler size) :
    (memory.modify id change).activation = memory.activation :=
  rfl

/-- The operation is a step of disabling or enabling a leaf. -/
def Op.activates : Op size → Bool
  | .takeQueue _ => true
  | .disableChild _ _ _ => true
  | .returnDisabled _ => true
  | .enable _ => true
  | _ => false

theorem activation_perform_of_apart (tree : Tree size) (memory : Memory size)
    {op : Op size} (apart : op.activates = false) :
    (perform tree memory op).1.activation = memory.activation := by
  cases op with
  | addReadyTask task computePlace => cases computePlace <;> rfl
  | takeQueue | disableChild | returnDisabled | enable => cases apart
  | takeBatch node child force elements =>
      rw [perform]
      rcases giveBatch_memory tree memory node child force elements with
        registers | ⟨queue, takes⟩
      · rw [registers]
        rfl
      · rw [takes]
        rfl
  | _ =>
      simp only [perform, takeSlotTask, addBatchToLeaf, addBatchToNode]
      repeat' split
      all_goals simp only [Memory.setQueue, Memory.setSlot,
        Memory.setRebalance, Memory.setThreshold, Memory.setIdle,
        Memory.setRunning, Memory.setIdleChildren, Memory.setIdleCPU,
        activation_modify]

/-- The state of a leaf changes by the operations of its CPU, and not while it
looks for tasks. -/
theorem activation_perform {tree : Tree size} {memory : Memory size}
    {op : Op size} {cpu : Option (Fin size)}
    (fits : op.Fits tree cpu memory.activation) :
    (perform tree memory op).1.activation = memory.activation ∨
      ∃ leaf value, op.occupies leaf = true ∧
        memory.activation leaf ≠ .enabled ∧ value ≠ .disabling ∧
        (perform tree memory op).1.activation =
          Function.update memory.activation leaf value := by
  cases apart : op.activates with
  | false => exact Or.inl (activation_perform_of_apart tree memory apart)
  | true =>
      cases op with
      | takeQueue leaf =>
          simp only [perform]
          split
          · refine Or.inr ⟨leaf, .emptied, by simp [Op.occupies], ?_,
              by decide, rfl⟩
            rw [fits.2]
            decide
          · exact Or.inl rfl
      | disableChild node child leaf =>
          refine Or.inr ⟨leaf, .discounted, by simp [Op.occupies], ?_,
            by decide, rfl⟩
          rcases fits.2.2 with ⟨-, stage⟩ | ⟨-, stage⟩ <;> rw [stage] <;> decide
      | returnDisabled leaf =>
          refine Or.inr ⟨leaf, .disabled, by simp [Op.occupies], ?_,
            by decide, rfl⟩
          rw [fits.2]
          decide
      | enable leaf =>
          simp only [perform]
          split
          · refine Or.inr ⟨leaf, .enabled, by simp [Op.occupies], ?_,
              by decide, rfl⟩
            rw [fits.2]
            decide
          · exact Or.inl rfl
      | _ => cases apart

theorem countP_occupies_perform (tree : Tree size) (memory : Memory size)
    (leaf : Fin size) (op : Op size) :
    (perform tree memory op).2.countP (Op.occupies leaf) ≤
      (op.occupies leaf).toNat := by
  cases op with
  | addReadyTask task computePlace =>
      cases computePlace with
      | some other => exact le_rfl
      | none =>
          simp only [perform]
          split <;> exact le_rfl
  | updateQueueThreshold id =>
      simp only [perform, takeOverThreshold]
      repeat' split
      all_goals simp [Op.occupies]
  | _ =>
      simp only [perform, withParent, sendUp, takeSlotTask, addBatchToLeaf,
        addBatchToNode, giveBatch, askFurther]
      repeat' split
      all_goals simp [Op.occupies, Bool.toNat, Bool.cond_decide]

/-- An operation of another CPU does not mind the change. -/
theorem Op.Fits.update {tree : Tree size} {cpu : Option (Fin size)}
    {activation : Fin size → Activation} {op : Op size} {leaf : Fin size}
    (fits : op.Fits tree cpu activation) (apart : op.occupies leaf = false)
    (closing : activation leaf ≠ .enabled) (value : Activation) :
    op.Fits tree cpu (Function.update activation leaf value) := by
  have other : ∀ {some}, some ≠ leaf →
      Function.update activation leaf value some = activation some :=
    fun different => Function.update_of_ne different _ _
  have enabled : ∀ {some}, activation some = .enabled → some ≠ leaf := by
    rintro some isEnabled rfl
    exact closing isEnabled
  cases op with
  | addReadyTask task computePlace =>
      cases computePlace with
      | none => exact fits
      | some own =>
          exact ⟨fits.1, (other (enabled fits.2.1)).trans fits.2.1, fits.2.2⟩
  | askNode node child force =>
      obtain ⟨above, own, isOwn, isEnabled, under⟩ := fits
      refine ⟨above, own, isOwn, ?_, under⟩
      rw [other (enabled isEnabled)]
      exact isEnabled
  | takeBatch node child force elements =>
      obtain ⟨above, own, isOwn, isEnabled, under⟩ := fits
      refine ⟨above, own, isOwn, ?_, under⟩
      rw [other (enabled isEnabled)]
      exact isEnabled
  | takeSlot own up batch =>
      have different : own ≠ leaf := of_decide_eq_false apart
      exact ⟨fits.1, fits.2.1, (other different).trans fits.2.2⟩
  | disableChild node child own =>
      have different : own ≠ leaf := of_decide_eq_false apart
      refine ⟨fits.1, fits.2.1, ?_⟩
      rw [other different]
      exact fits.2.2
  | emptyNode node own =>
      have different : own ≠ leaf := of_decide_eq_false apart
      exact ⟨fits.1, fits.2.1, (other different).trans fits.2.2⟩
  | getTask own _ | leaveIdle own _ | getSlotTask own _ | getQueueTask own _
  | poll own _ | pollOnce own | timeOut own | becomeIdle own | disable own
  | unidleLeaf own | takeQueue own | returnDisabled own | enable own =>
      have different : own ≠ leaf := of_decide_eq_false apart
      exact ⟨fits.1, (other different).trans fits.2⟩
  | addTask | setSlotTask => exact fits
  | _ => trivial

theorem fits_sendUp {tree : Tree size} {cpu : Option (Fin size)}
    {activation : Fin size → Activation} {up id : Fin size}
    {batch : List TaskId} {handleThreshold : Bool} {called : Op size}
    (member : called ∈ sendUp up id batch handleThreshold) :
    called.Fits tree cpu activation := by
  unfold sendUp at member
  split at member
  · cases member
  · obtain rfl := List.mem_singleton.mp member
    trivial

theorem fits_askParent {tree : Tree size} {leaf : Fin size}
    {activation : Fin size → Activation} {force : Bool} {called : Op size}
    (enabled : activation leaf = .enabled)
    (member : called ∈
      withParent tree leaf fun up => [.askNode up leaf force]) :
    called.Fits tree (some leaf) activation := by
  unfold withParent at member
  split at member
  · rename_i up above
    obtain rfl := List.mem_singleton.mp member
    exact ⟨above, leaf, rfl, enabled, Or.inl rfl⟩
  · cases member

/-- The operations that are called belong to the same CPU and follow the state
of its leaf. -/
theorem fits_perform {tree : CPUTree size} {memory : Memory size}
    {op : Op size} {cpu : Option (Fin size)}
    (fits : op.Fits tree.toTree cpu memory.activation) {called : Op size}
    (member : called ∈ (perform tree.toTree memory op).2) :
    called.Fits tree.toTree cpu
      (perform tree.toTree memory op).1.activation := by
  cases apart : op.activates with
  | false =>
      rw [activation_perform_of_apart tree.toTree memory apart]
      cases op with
      | takeQueue | disableChild | returnDisabled | enable => cases apart
      | addReadyTask task computePlace =>
          cases computePlace with
          | some leaf =>
              obtain rfl := List.mem_singleton.mp member
              exact fits.2.2
          | none =>
              simp only [perform] at member
              split at member
              · rename_i leaf dealt
                obtain rfl := List.mem_singleton.mp member
                exact tree.isLeaf_of_mem leaf (List.mem_of_getElem? dealt)
              · obtain rfl := List.mem_singleton.mp member
                trivial
      | addTask leaf task hasComputePlace =>
          simp only [perform] at member
          split at member <;> simp only [List.mem_cons, List.not_mem_nil,
            or_false] at member <;> rcases member with rfl | rfl <;>
            first
              | exact fits
              | trivial
      | getTask leaf doWait =>
          obtain rfl := List.mem_singleton.mp member
          exact fits
      | leaveIdle leaf doWait =>
          simp only [perform] at member
          split at member
          · rcases List.mem_cons.mp member with rfl | last
            · trivial
            · obtain rfl := List.mem_singleton.mp last
              exact fits
          · obtain rfl := List.mem_singleton.mp member
            exact fits
      | getSlotTask leaf doWait =>
          simp only [perform, takeSlotTask] at member
          split at member
          · simp only [List.mem_cons, List.not_mem_nil, or_false] at member
            rcases member with rfl | rfl <;> trivial
          · obtain rfl := List.mem_singleton.mp member
            exact fits
      | getQueueTask leaf doWait =>
          obtain ⟨rfl, enabled⟩ := fits
          simp only [perform] at member
          split at member
          · simp only [List.mem_cons, List.not_mem_nil, or_false] at member
            rcases member with rfl | rfl <;> trivial
          · rcases List.mem_append.mp member with first | last
            · rcases List.mem_cons.mp first with rfl | asks
              · trivial
              · exact fits_askParent enabled asks
            · obtain rfl := List.mem_singleton.mp last
              split <;> exact ⟨rfl, enabled⟩
      | poll leaf iterations =>
          simp only [perform, takeSlotTask] at member
          repeat' split at member
          · obtain rfl := List.mem_singleton.mp member
            trivial
          · obtain rfl := List.mem_singleton.mp member
            exact fits
          · obtain rfl := List.mem_singleton.mp member
            exact fits
      | pollOnce leaf =>
          simp only [perform, takeSlotTask] at member
          split at member
          · obtain rfl := List.mem_singleton.mp member
            trivial
          · obtain rfl := List.mem_singleton.mp member
            exact fits
      | timeOut leaf =>
          obtain ⟨rfl, enabled⟩ := fits
          rcases List.mem_append.mp member with first | last
          · split at first
            · exact fits_askParent enabled first
            · cases first
          · obtain rfl := List.mem_singleton.mp last
            exact ⟨rfl, enabled⟩
      | askNode node child force =>
          obtain rfl := List.mem_singleton.mp member
          exact fits
      | takeBatch node child force elements =>
          obtain ⟨above, leaf, own, enabled, under⟩ := fits
          by_cases nothing :
              (Queue.taskBatch (memory.schedulers node).queue
                (Queue.toInt elements)) = []
          · rw [perform, giveBatch_of_nil _ child force nothing] at member
            unfold askFurther at member
            split at member
            · rename_i up further
              obtain rfl := List.mem_singleton.mp member
              refine ⟨further, leaf, own, enabled, Or.inr ?_⟩
              rcases under with rfl | below
              · exact above
              · have isNode := tree.isLeaf_parent leaf child below
                obtain rfl := tree.eq_top_of_node child node above isNode
                rw [(tree.parent_eq_none tree.top).mpr rfl] at further
                cases further
            · split at member <;>
                (obtain rfl := List.mem_singleton.mp member; trivial)
          · rw [perform, giveBatch_of_ne _ child force nothing] at member
            rcases List.mem_cons.mp member with rfl | exchanges
            · trivial
            · split at exchanges
              · obtain rfl := List.mem_singleton.mp exchanges
                trivial
              · cases exchanges
      | disable leaf =>
          simp only [perform] at member
          split at member
          · obtain rfl := List.mem_singleton.mp member
            exact fits
          · obtain rfl := List.mem_singleton.mp member
            exact fits
      | unidleLeaf leaf =>
          simp only [perform, withParent] at member
          repeat' split at member
          · simp only [List.mem_append, List.mem_cons, List.not_mem_nil,
              or_false] at member
            rcases member with rfl | rfl | rfl
            · trivial
            · trivial
            · exact fits
          · simp only [List.mem_append, List.mem_cons, List.not_mem_nil,
              or_false, false_or] at member
            rcases member with rfl | rfl
            · trivial
            · exact fits
          · cases member
      | takeSlot leaf up batch =>
          obtain ⟨own, above, emptied⟩ := fits
          have closes : ∀ tasks, called ∈ sendUp up leaf tasks true ++
              [Op.disableChild up leaf leaf] →
              called.Fits tree.toTree cpu memory.activation := by
            intro tasks inside
            rcases List.mem_append.mp inside with sends | discounts
            · exact fits_sendUp sends
            · obtain rfl := List.mem_singleton.mp discounts
              exact ⟨own, above, Or.inl ⟨rfl, emptied⟩⟩
          simp only [perform, takeSlotTask] at member
          split at member
          · exact closes _ member
          · exact closes _ member
      | emptyNode node leaf =>
          obtain ⟨own, under, discounted⟩ := fits
          simp only [perform] at member
          split at member
          · rename_i up above
            rcases List.mem_append.mp member with sends | discounts
            · exact fits_sendUp sends
            · obtain rfl := List.mem_singleton.mp discounts
              exact ⟨own, above, Or.inr ⟨under, discounted⟩⟩
          · cases member
      | updateQueueThreshold id =>
          revert called
          simp only [perform, takeOverThreshold]
          repeat' split
          all_goals simp [Op.Fits]
      | _ =>
          revert called
          simp only [perform, withParent, sendUp, takeSlotTask,
            addBatchToLeaf, addBatchToNode]
          repeat' split
          all_goals simp [Op.Fits]
  | true =>
      cases op with
      | takeQueue leaf =>
          cases above : tree.parent leaf with
          | none =>
              simp only [perform, above] at member
              cases member
          | some up =>
              simp only [perform, above] at member ⊢
              obtain rfl := List.mem_singleton.mp member
              exact ⟨fits.1, above, Function.update_self ..⟩
      | disableChild node child leaf =>
          obtain ⟨own, above, stage⟩ := fits
          have discounted : (perform tree.toTree memory
              (.disableChild node child leaf)).1.activation leaf =
              .discounted := Function.update_self ..
          simp only [perform] at member
          split at member
          · rename_i last
            obtain rfl := List.mem_singleton.mp member
            rcases stage with ⟨rfl, -⟩ | ⟨under, -⟩
            · exact ⟨own, above, discounted⟩
            · have isNode := tree.isLeaf_parent leaf child under
              obtain rfl := tree.eq_top_of_node child node above isNode
              rw [(tree.parent_eq_none tree.top).mpr rfl] at last
              cases last.2
          · obtain rfl := List.mem_singleton.mp member
            exact ⟨own, discounted⟩
      | returnDisabled leaf => cases member
      | enable leaf =>
          simp only [perform] at member
          split at member <;> cases member
      | _ => cases apart

/-! ### The invariant -/

/-- A leaf whose queue has been taken. -/
structure Closed (tree : Tree size) (state : State size) (leaf : Fin size) :
    Prop where
  queue : (state.memory.schedulers leaf).queue = []
  unregistered : ∀ up, tree.parent leaf = some up →
    leaf ∉ (state.memory.schedulers up).idleChildren
  nobody : state.count (Op.delivers leaf) = 0
  slot : (state.memory.schedulers leaf).pollingSlot = none ∨
    0 < state.count (Op.takesSlot leaf)

/-- A node that has been emptied. -/
structure Emptied (state : State size) (node up : Fin size) : Prop where
  queue : (state.memory.schedulers node).queue = []
  unregistered : node ∉ (state.memory.schedulers up).idleChildren
  nobody : state.count (Op.delivers node) = 0

/-- The children that a node counts. -/
def enabledOf (tree : Tree size) (activation : Fin size → Activation)
    (node : Fin size) : List (Fin size) :=
  (tree.children node).filter fun child => !(activation child).isPassed

/-- What holds in every run with permitted steps. -/
structure Orderly (tree : CPUTree size) (state : State size) : Prop where
  fits : ∀ call ∈ state.calls, ∀ op ∈ call.ops,
    op.Fits tree.toTree call.cpu state.memory.activation
  cpus : ∀ call ∈ state.calls, ∀ leaf ∈ call.cpu, tree.isLeaf leaf = true
  single : ∀ leaf, state.count (Op.occupies leaf) ≤ 1
  slots : ∀ node, tree.isLeaf node = false →
    (state.memory.schedulers node).pollingSlot = none
  registered : ∀ id, ∀ child ∈ (state.memory.schedulers id).idleChildren,
    tree.parent child = some id
  /-- What is left of the entries of a leaf that is being disabled. -/
  leaving : ∀ leaf up, tree.parent leaf = some up →
    tree.isLeaf leaf = true →
    state.memory.activation leaf = .disabling →
    0 < state.count (Op.occupies leaf) →
    state.count (Op.begins leaf) = 0 →
    (state.memory.schedulers up).idleChildren.count leaf ≤
      state.count (Op.unidles leaf)
  closed : ∀ leaf, tree.isLeaf leaf = true →
    (state.memory.activation leaf).isClosed = true →
    Closed tree.toTree state leaf
  counted : ∀ node up, tree.parent node = some up →
    tree.isLeaf node = false →
    (state.memory.schedulers node).enabledChildren =
      (enabledOf tree.toTree state.memory.activation node).length
  emptied : ∀ node up, tree.parent node = some up →
    tree.isLeaf node = false →
    enabledOf tree.toTree state.memory.activation node = [] →
    state.count (Op.empties node) = 0 → Emptied state node up
  vacant : (∀ leaf, tree.isLeaf leaf = true →
      state.memory.activation leaf = .disabled) →
    (∀ task, state.memory.inTree task = 0) ∧ state.count Op.carries = 0

/-- Under the operation every task stays in reach of an enabled CPU. -/
def Op.KeepsEnabled (tree : CPUTree size) (state : State size) :
    Op size → Prop
  | .addReadyTask _ none =>
      ∀ leaf,
        tree.cpuScheduler[state.memory.schedRRCounter]? = some (some leaf) →
        (state.memory.activation leaf).isClosed = false
  | .disable leaf =>
      ∀ up ∈ tree.parent leaf,
        (state.memory.schedulers up).idleChildren.count leaf ≤
          (state.memory.schedulers leaf).idle.toNat
  | .takeQueue leaf =>
      (state.memory.schedulers leaf).queue.length < 2 ^ 31 ∧
        state.count (Op.delivers leaf) = 0
  | .emptyNode node _ =>
      (state.memory.schedulers node).queue.length < 2 ^ 31 ∧
        (∀ up ∈ tree.parent node,
          node ∉ (state.memory.schedulers up).idleChildren) ∧
        state.count (Op.delivers node) = 0
  | .returnDisabled leaf =>
      (∀ other, tree.isLeaf other = true → other ≠ leaf →
        state.memory.activation other = .disabled) →
      (state.memory.schedulers tree.top).queue = [] ∧
        state.count Op.carries = 0
  | _ => True

/-- A CPU is disabled while it is enabled and enabled while it is disabled, and
calls the scheduler only while it is enabled. -/
def FollowsActivation (state : State size) : Label size → Prop
  | .addReadyTask _ computePlace =>
      ∀ leaf ∈ computePlace, state.memory.activation leaf = .enabled
  | .getReadyTask leaf _ => state.memory.activation leaf = .enabled
  | .disableComputePlace leaf => state.memory.activation leaf = .enabled
  | .enableComputePlace leaf => state.memory.activation leaf = .disabled
  | .perform _ => True

/-- The threads of the CPUs behave. -/
def Behaves (state : State size) (label : Label size) : Prop :=
  MakesOneCall state label ∧ FollowsActivation state label

/-- The steps that do not fail and leave every task in reach of an enabled
CPU. -/
def KeepsEnabled (tree : CPUTree size) (state : State size)
    (label : Label size) : Prop :=
  Behaves state label ∧ state.fails tree.toTree label = false ∧
    ∀ op ∈ state.operation label, op.KeepsEnabled tree state

/-! ### One operation of a call -/

/-- The state with the operation taken out of its call. -/
def State.without (state : State size) (index : Nat) (call : Call size)
    (rest : List (Op size)) : State size :=
  { state with
    calls := replaceAt state.calls index [{ call with ops := rest }] }

section Performs

variable {tree : CPUTree size} {state : State size} {index : Nat}
  {call : Call size} {op : Op size} {rest : List (Op size)}

theorem count_without (test : Op size → Bool)
    (found : state.calls[index]? = some call)
    (ops : call.ops = op :: rest) :
    (state.without index call rest).count test + (test op).toNat =
      state.count test := by
  have replaced := total_replaceAt
    (fun call : Call size => call.ops.countP test) [{ call with ops := rest }]
    found
  rw [total_singleton, ops, countP_cons_toNat] at replaced
  dsimp only at replaced
  simp only [State.count, State.without]
  omega

/-- The operations after a step are new or were there before. -/
theorem mem_ops_performs (tree : Tree size) {other : Call size}
    (member : other ∈ (state.performs tree index call op rest).calls)
    {waiting : Op size} (inside : waiting ∈ other.ops) :
    (waiting ∈ (perform tree state.memory op).2 ∧ other.cpu = call.cpu) ∨
      ∃ before ∈ (state.without index call rest).calls,
        before.cpu = other.cpu ∧ waiting ∈ before.ops := by
  rcases mem_replaceAt_or member with new | old
  · unfold Call.goesOn at new
    split at new
    · cases new
    · obtain rfl := List.mem_singleton.mp new
      rcases List.mem_append.mp inside with called | kept
      · exact Or.inl ⟨called, rfl⟩
      · refine Or.inr ⟨{ call with ops := rest }, ?_, rfl, kept⟩
        simp [State.without, replaceAt]
  · refine Or.inr ⟨other, ?_, rfl, inside⟩
    rw [List.eraseIdx_eq_take_drop_succ, List.mem_append] at old
    simp only [State.without, replaceAt, List.mem_append]
    rcases old with before | after
    · exact Or.inl (Or.inl before)
    · exact Or.inr after

theorem mem_without (found : state.calls[index]? = some call)
    (ops : call.ops = op :: rest) {before : Call size}
    (member : before ∈ (state.without index call rest).calls) :
    ∃ original ∈ state.calls, original.cpu = before.cpu ∧
      ∀ waiting ∈ before.ops, waiting ∈ original.ops := by
  rcases mem_replaceAt member with new | old
  · obtain rfl := List.mem_singleton.mp new
    refine ⟨call, List.mem_of_getElem? found, rfl, fun waiting inside => ?_⟩
    rw [ops]
    exact List.mem_cons_of_mem _ inside
  · exact ⟨before, old, rfl, fun waiting inside => inside⟩

theorem count_eq_zero_iff {test : Op size → Bool} :
    state.count test = 0 ↔
      ∀ call ∈ state.calls, ∀ op ∈ call.ops, test op = false := by
  rw [State.count, total, List.sum_eq_zero_iff_forall_eq_nat]
  constructor
  · intro nothing call member op inside
    have zero := nothing _ (List.mem_map_of_mem member)
    rw [List.countP_eq_zero] at zero
    exact Bool.eq_false_iff.mpr (zero op inside)
  · intro fails amount member
    obtain ⟨call, inside, rfl⟩ := List.mem_map.mp member
    rw [List.countP_eq_zero]
    intro op op_mem
    rw [fails call inside op op_mem]
    exact Bool.false_ne_true

namespace Orderly

theorem fits_head (orderly : Orderly tree state)
    (found : state.calls[index]? = some call) (ops : call.ops = op :: rest) :
    op.Fits tree.toTree call.cpu state.memory.activation :=
  orderly.fits call (List.mem_of_getElem? found) op
    (by rw [ops]; exact List.mem_cons_self)

/-- The operations fit what has changed. -/
theorem fits_performs (orderly : Orderly tree state)
    (found : state.calls[index]? = some call) (ops : call.ops = op :: rest) :
    ∀ other ∈ (state.performs tree.toTree index call op rest).calls,
      ∀ waiting ∈ other.ops, waiting.Fits tree.toTree other.cpu
        (perform tree.toTree state.memory op).1.activation := by
  have fits := orderly.fits_head found ops
  intro other member waiting inside
  rcases mem_ops_performs tree.toTree member inside with ⟨called, own⟩ |
    ⟨before, kept, own, there⟩
  · rw [own]
    exact fits_perform fits called
  · obtain ⟨original, originally, cpu, all⟩ := mem_without found ops kept
    have was := orderly.fits original originally waiting (all waiting there)
    rw [cpu, own] at was
    rcases activation_perform fits with same | ⟨leaf, value, occupies,
      closing, -, changed⟩
    · rw [same]
      exact was
    · rw [changed]
      refine was.update ?_ closing value
      have counted := count_without (Op.occupies leaf) found ops
      have single := orderly.single leaf
      rw [occupies, Bool.toNat_true] at counted
      exact count_eq_zero_iff.mp (by omega) before kept waiting there

theorem cpus_performs (orderly : Orderly tree state)
    (found : state.calls[index]? = some call) :
    ∀ other ∈ (state.performs tree.toTree index call op rest).calls,
      ∀ leaf ∈ other.cpu, tree.isLeaf leaf = true := by
  intro other member
  rcases mem_performs tree.toTree member with rfl | old
  · exact orderly.cpus call (List.mem_of_getElem? found)
  · exact orderly.cpus other old

theorem single_performs (orderly : Orderly tree state)
    (found : state.calls[index]? = some call) (ops : call.ops = op :: rest)
    (leaf : Fin size) :
    (state.performs tree.toTree index call op rest).count
      (Op.occupies leaf) ≤ 1 := by
  have called := countP_occupies_perform tree.toTree state.memory leaf op
  have counted := count_performs (Op.occupies leaf) tree.toTree found ops
  have single := orderly.single leaf
  omega

theorem registered_performs (orderly : Orderly tree state)
    (found : state.calls[index]? = some call) (ops : call.ops = op :: rest) :
    ∀ id, ∀ child ∈
      ((perform tree.toTree state.memory op).1.schedulers id).idleChildren,
      tree.parent child = some id := by
  intro id child member
  rcases mem_idleChildren_perform member with old | ⟨force, elements, rfl⟩
  · exact orderly.registered id child old
  · exact (orderly.fits_head found ops).1

/-- The slot of a node is never used. -/
theorem slots_performs (orderly : Orderly tree state)
    (found : state.calls[index]? = some call) (ops : call.ops = op :: rest)
    {node : Fin size} (isNode : tree.isLeaf node = false) :
    ((perform tree.toTree state.memory op).1.schedulers node).pollingSlot =
      none := by
  have free := orderly.slots node isNode
  cases delivers : op.delivers node with
  | false =>
      exact (shrinks_perform tree.toTree state.memory delivers).slot free
  | true =>
      have fits := orderly.fits_head found ops
      cases op with
      | addTask leaf task hasComputePlace => exact free
      | setSlotTask leaf task =>
          obtain rfl := of_decide_eq_true delivers
          rw [Op.Fits, isNode] at fits
          cases fits
      | queueTask leaf task =>
          obtain rfl := of_decide_eq_true delivers
          simpa [perform, Memory.setQueue, Memory.modify] using free
      | addTaskBatch other who batch handleThreshold =>
          obtain rfl := of_decide_eq_true delivers
          rw [perform, isNode, if_neg Bool.false_ne_true]
          unfold addBatchToNode
          split
          · simpa [Memory.setIdleChildren, Memory.modify] using free
          · simpa [Memory.setIdleChildren, Memory.setQueue, Memory.modify]
              using free
      | queueBatch leaf batch =>
          obtain ⟨rfl, -⟩ := of_decide_eq_true delivers
          simpa [perform, Memory.setQueue, Memory.modify] using free
      | _ => cases delivers

/-- Nobody comes to deliver what does not reach the scheduler. -/
theorem nobody_performs (found : state.calls[index]? = some call)
    (ops : call.ops = op :: rest) {id : Fin size}
    (nobody : state.count (Op.delivers id) = 0)
    (apart : ¬ Reaches tree.toTree state.memory id op) :
    (state.performs tree.toTree index call op rest).count
      (Op.delivers id) = 0 := by
  have counted := count_performs (Op.delivers id) tree.toTree found ops
  have none : (perform tree.toTree state.memory op).2.countP
      (Op.delivers id) = 0 := by
    rw [List.countP_eq_zero]
    exact fun called member delivers => apart (reaches_perform member delivers)
  omega

theorem delivers_eq_false (found : state.calls[index]? = some call)
    (ops : call.ops = op :: rest) {id : Fin size}
    (nobody : state.count (Op.delivers id) = 0) :
    op.delivers id = false := by
  have counted := count_without (Op.delivers id) found ops
  cases delivers : op.delivers id with
  | false => rfl
  | true =>
      rw [delivers, Bool.toNat_true] at counted
      omega

/-! #### Leaves -/

section Leaf

variable {leaf : Fin size}

/-- A leaf that is not enabled does not ask for tasks. -/
theorem not_asks_of_ne (orderly : Orderly tree state)
    (isLeaf : tree.isLeaf leaf = true)
    (apart : state.memory.activation leaf ≠ .enabled)
    {node : Fin size} {force : Bool} {elements : Nat}
    (found : state.calls[index]? = some call)
    (ops : call.ops = .takeBatch node leaf force elements :: rest) :
    False := by
  obtain ⟨-, own, -, enabled, rfl | below⟩ := orderly.fits_head found ops
  · exact apart enabled
  · rw [tree.isLeaf_parent own leaf below] at isLeaf
    cases isLeaf

theorem ne_enabled_of_isClosed {activation : Activation}
    (closed : activation.isClosed = true) : activation ≠ .enabled := by
  rintro rfl
  cases closed

/-- No operation comes to deliver to a closed leaf. -/
theorem not_reaches_of_closed (orderly : Orderly tree state)
    (isLeaf : tree.isLeaf leaf = true)
    (closed : (state.memory.activation leaf).isClosed = true)
    (found : state.calls[index]? = some call) (ops : call.ops = op :: rest)
    (keeps : op.KeepsEnabled tree state) :
    ¬ Reaches tree.toTree state.memory leaf op := by
  have shut := orderly.closed leaf isLeaf closed
  have fits := orderly.fits_head found ops
  intro reaches
  cases reaches with
  | delivers already =>
      rw [delivers_eq_false found ops shut.nobody] at already
      cases already
  | deals dealt =>
      rw [keeps leaf dealt] at closed
      cases closed
  | adds =>
      rw [fits.2.1] at closed
      cases closed
  | moves above =>
      rw [tree.isLeaf_parent _ leaf above] at isLeaf
      cases isLeaf
  | takesSlot =>
      rw [tree.isLeaf_parent _ leaf fits.2.1] at isLeaf
      cases isLeaf
  | empties above =>
      rw [tree.isLeaf_parent _ leaf above] at isLeaf
      cases isLeaf
  | @pops node who batch handleThreshold registered =>
      exact shut.unregistered node (orderly.registered node leaf registered)
        registered
  | gives =>
      exact orderly.not_asks_of_ne isLeaf (ne_enabled_of_isClosed closed) found
        ops

/-- A leaf that is closed after an operation was closed before, or its queue is
taken by it. -/
theorem closed_before (orderly : Orderly tree state)
    (found : state.calls[index]? = some call) (ops : call.ops = op :: rest)
    (closed : ((perform tree.toTree state.memory op).1.activation
      leaf).isClosed = true) :
    (state.memory.activation leaf).isClosed = true ∨
      op = .takeQueue leaf := by
  have fits := orderly.fits_head found ops
  cases apart : op.activates with
  | false =>
      rw [activation_perform_of_apart tree.toTree state.memory apart] at closed
      exact Or.inl closed
  | true =>
      cases op with
      | takeQueue other =>
          by_cases same : other = leaf
          · exact Or.inr (by rw [same])
          · refine Or.inl ?_
            simp only [perform] at closed
            split at closed
            · simpa [Memory.setActivation, Memory.setQueue, Memory.modify,
                Function.update_of_ne (Ne.symm same)] using closed
            · exact closed
      | disableChild node child other =>
          refine Or.inl ?_
          by_cases same : other = leaf
          · subst same
            rcases fits.2.2 with ⟨-, stage⟩ | ⟨-, stage⟩ <;> rw [stage] <;> rfl
          · simpa [perform, Memory.setActivation, Memory.setEnabledChildren,
              Memory.modify, Function.update_of_ne (Ne.symm same)] using closed
      | returnDisabled other =>
          refine Or.inl ?_
          by_cases same : other = leaf
          · subst same
            rw [fits.2]
            rfl
          · simpa [perform, Memory.setActivation,
              Function.update_of_ne (Ne.symm same)] using closed
      | enable other =>
          refine Or.inl ?_
          by_cases same : other = leaf
          · subst same
            rw [fits.2]
            rfl
          · simp only [perform] at closed
            split at closed
            · simpa [Memory.setActivation, Memory.setEnabledChildren,
                Memory.modify, Function.update_of_ne (Ne.symm same)]
                using closed
            · exact closed
      | _ => cases apart

/-- No operation makes a leaf one that is being disabled. -/
theorem disabling_before (orderly : Orderly tree state)
    (found : state.calls[index]? = some call) (ops : call.ops = op :: rest)
    (disabling : (perform tree.toTree state.memory op).1.activation leaf =
      .disabling) :
    state.memory.activation leaf = .disabling := by
  rcases activation_perform (orderly.fits_head found ops) with same |
    ⟨other, value, -, -, different, changed⟩
  · rwa [same] at disabling
  · rw [changed] at disabling
    by_cases own : leaf = other
    · rw [own, Function.update_self] at disabling
      exact absurd disabling different
    · rwa [Function.update_of_ne own] at disabling

/-- The parent has an entry for a leaf that leaves it only if the leaf is about
to take it away. -/
theorem leaving_performs (orderly : Orderly tree state) {up : Fin size}
    (above : tree.parent leaf = some up) (isLeaf : tree.isLeaf leaf = true)
    (found : state.calls[index]? = some call) (ops : call.ops = op :: rest)
    (keeps : op.KeepsEnabled tree state)
    (disabling : (perform tree.toTree state.memory op).1.activation leaf =
      .disabling)
    (inProgress : 0 < (state.performs tree.toTree index call op rest).count
      (Op.occupies leaf))
    (begun : (state.performs tree.toTree index call op rest).count
      (Op.begins leaf) = 0) :
    ((perform tree.toTree state.memory op).1.schedulers
        up).idleChildren.count leaf ≤
      (state.performs tree.toTree index call op rest).count
        (Op.unidles leaf) := by
  have before := orderly.disabling_before found ops disabling
  have called := countP_occupies_perform tree.toTree state.memory leaf op
  have callCount := count_performs (Op.occupies leaf) tree.toTree found ops
  have beginCount := count_performs (Op.begins leaf) tree.toTree found ops
  have unidleCount := count_performs (Op.unidles leaf) tree.toTree found ops
  cases begins : op.begins leaf with
  | true =>
      cases op with
      | disable other =>
          obtain rfl := of_decide_eq_true begins
          have entries := keeps up above
          have called : (perform tree.toTree state.memory
              (.disable other)).2.countP (Op.unidles other) =
              (state.memory.schedulers other).idle.toNat := by
            simp only [perform]
            split <;> simp_all [Op.unidles]
          rw [idleChildren_of_family
            (family_perform tree.toTree state.memory up rfl)]
          rw [called] at unidleCount
          simp only [Op.unidles, Bool.toNat_false] at unidleCount
          omega
      | _ => cases begins
  | false =>
      rw [begins, Bool.toNat_false] at beginCount
      have entries := orderly.leaving leaf up above isLeaf before (by omega)
        (by omega)
      cases unidles : op.unidles leaf with
      | true =>
          cases op with
          | unidleLeaf other =>
              obtain rfl := of_decide_eq_true unidles
              rw [unidles, Bool.toNat_true] at unidleCount
              have erased : ((perform tree.toTree state.memory
                  (.unidleLeaf other)).1.schedulers up).idleChildren =
                  (state.memory.schedulers up).idleChildren.erase other := by
                simp [perform, above, Memory.setIdleChildren, Memory.modify]
              rw [erased, List.count_erase_self]
              omega
          | _ => cases unidles
      | false =>
          rw [unidles, Bool.toNat_false] at unidleCount
          rcases count_idleChildren_perform tree.toTree state.memory op up leaf
            with fewer | ⟨force, elements, rfl⟩
          · omega
          · exact (orderly.not_asks_of_ne isLeaf
              (by rw [before]; decide) found ops).elim

/-- `disable` takes the queue. -/
theorem closed_takeQueue (orderly : Orderly tree state)
    (isLeaf : tree.isLeaf leaf = true)
    (found : state.calls[index]? = some call)
    (ops : call.ops = .takeQueue leaf :: rest)
    (keeps : Op.KeepsEnabled tree state (.takeQueue leaf)) :
    Closed tree.toTree
      (state.performs tree.toTree index call (.takeQueue leaf) rest)
      leaf := by
  obtain ⟨up, above⟩ := Option.isSome_iff_exists.mp (tree.hangs leaf isLeaf)
  have result : perform tree.toTree state.memory (.takeQueue leaf) =
      ((state.memory.setQueue leaf []).setActivation leaf .emptied,
        [.takeSlot leaf up
          (Queue.taskBatch (state.memory.schedulers leaf).queue (-1))]) := by
    simp only [perform, above, Queue.afterTaskBatch_all keeps.1]
  have apart : ¬ Reaches tree.toTree state.memory leaf (.takeQueue leaf) := by
    intro reaches
    cases reaches with
    | delivers already => cases already
  have alone : ∀ stronger : Op size → Bool,
      (∀ op, stronger op = true → op.occupies leaf = true) →
      stronger (.takeQueue leaf) = false → state.count stronger = 0 :=
    fun stronger implies fails =>
      count_eq_zero_of_single (orderly.single leaf) implies found ops
        (by simp [Op.occupies]) fails
  have entries := orderly.leaving leaf up above isLeaf
    (orderly.fits_head found ops).2
    (count_pos found ops (by simp [Op.occupies]))
    (alone _ (fun op begins => by cases op <;> first
      | exact begins
      | cases begins) rfl)
  rw [alone (Op.unidles leaf) (fun op unidles => by cases op <;> first
    | exact unidles
    | cases unidles) rfl] at entries
  have taken := count_performs (Op.takesSlot leaf) tree.toTree found ops
  constructor
  · change ((perform _ _ _).1.schedulers leaf).queue = []
    rw [result]
    simp [Memory.setActivation, Memory.setQueue, Memory.modify]
  · intro other hangs registered
    rw [above] at hangs
    cases hangs
    rcases mem_idleChildren_perform registered with old | ⟨_, _, absurd⟩
    · exact Nat.ne_of_gt (List.count_pos_iff.mpr old)
        (Nat.le_zero.mp entries)
    · cases absurd
  · exact nobody_performs found ops keeps.2 apart
  · refine Or.inr ?_
    rw [result] at taken
    simp only [Op.takesSlot, Bool.toNat_false, List.countP_cons,
      decide_true, List.countP_nil, if_true] at taken
    omega

/-- A closed leaf stays closed. -/
theorem closed_kept (orderly : Orderly tree state)
    (isLeaf : tree.isLeaf leaf = true)
    (closed : (state.memory.activation leaf).isClosed = true)
    (found : state.calls[index]? = some call) (ops : call.ops = op :: rest)
    (keeps : op.KeepsEnabled tree state) :
    Closed tree.toTree (state.performs tree.toTree index call op rest)
      leaf := by
  have shut := orderly.closed leaf isLeaf closed
  have shrinks := shrinks_perform tree.toTree state.memory
    (delivers_eq_false found ops shut.nobody)
  constructor
  · exact shrinks.queue shut.queue
  · intro up above registered
    rcases mem_idleChildren_perform registered with old | ⟨_, _, rfl⟩
    · exact shut.unregistered up above old
    · exact orderly.not_asks_of_ne isLeaf (ne_enabled_of_isClosed closed)
        found ops
  · exact nobody_performs found ops shut.nobody
      (orderly.not_reaches_of_closed isLeaf closed found ops keeps)
  · rcases shut.slot with free | pending
    · exact Or.inl (shrinks.slot free)
    · cases takes : op.takesSlot leaf with
      | false =>
          have counted := count_performs (Op.takesSlot leaf) tree.toTree found
            ops
          rw [takes, Bool.toNat_false] at counted
          exact Or.inr (by omega)
      | true =>
          refine Or.inl ?_
          cases op with
          | takeSlot other up batch =>
              obtain rfl := of_decide_eq_true takes
              change ((perform _ _ _).1.schedulers other).pollingSlot = none
              simp only [perform, takeSlotTask]
              split
              · simp [Memory.setSlot, Memory.modify]
              · assumption
          | _ => cases takes

theorem closed_performs (orderly : Orderly tree state)
    (isLeaf : tree.isLeaf leaf = true)
    (found : state.calls[index]? = some call) (ops : call.ops = op :: rest)
    (keeps : op.KeepsEnabled tree state)
    (closed : ((perform tree.toTree state.memory op).1.activation
      leaf).isClosed = true) :
    Closed tree.toTree (state.performs tree.toTree index call op rest)
      leaf := by
  rcases orderly.closed_before found ops closed with before | rfl
  · exact orderly.closed_kept isLeaf before found ops keeps
  · exact orderly.closed_takeQueue isLeaf found ops keeps

end Leaf

/-! #### Nodes -/

section Node

variable {node up : Fin size}

theorem nodup_children (tree : Tree size) (id : Fin size) :
    (tree.children id).Nodup :=
  (List.nodup_finRange size).filter _

/-- A leaf of another node, or a change that the node does not see. -/
theorem enabledOf_update (tree : Tree size)
    (activation : Fin size → Activation) (leaf node : Fin size)
    (value : Activation)
    (unseen : tree.parent leaf ≠ some node ∨
      value.isPassed = (activation leaf).isPassed) :
    enabledOf tree (Function.update activation leaf value) node =
      enabledOf tree activation node := by
  refine List.filter_congr fun child member => ?_
  by_cases same : child = leaf
  · subst same
    rw [Function.update_self]
    rcases unseen with elsewhere | equal
    · exact absurd (Tree.mem_children.mp member) elsewhere
    · rw [equal]
  · rw [Function.update_of_ne same]

theorem length_enabledOf_update {tree : Tree size}
    (activation : Fin size → Activation) {leaf node : Fin size}
    (above : tree.parent leaf = some node) (value : Activation) :
    (enabledOf tree (Function.update activation leaf value) node).length +
        (!(activation leaf).isPassed).toNat =
      (enabledOf tree activation node).length +
        (!value.isPassed).toNat := by
  have exchanged := countP_exchange
    (fun child => !(activation child).isPassed)
    (fun child => !(Function.update activation leaf value child).isPassed)
    (nodup_children tree node) (Tree.mem_children.mpr above)
    (fun other different => by rw [Function.update_of_ne different])
  simpa only [enabledOf, Function.update_self, List.countP_eq_length_filter]
    using exchanged

end Node

end Orderly

end Performs

end Nanos6.TreeScheduler
