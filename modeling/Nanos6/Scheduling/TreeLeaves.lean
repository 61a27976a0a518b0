import Nanos6.Scheduling.TreeConservation
import Mathlib.Algebra.Order.BigOperators.Group.List
import Mathlib.Algebra.Order.Ring.Nat

/-!
# Leaves of the tree scheduler that sleep

A CPU that finds no task marks its leaf as idle and sleeps until it is resumed.
Before that it looks at the polling slot under the lock, so a task in the slot
always has somebody who wakes the CPU up.  The queue is looked at only once, long
before, and a task that is put there afterwards may be left to a sleeping CPU: an
addition from outside reads `_running` and chooses the queue, and the leaf passes
its test of the queue in between.
-/

namespace Nanos6.TreeScheduler

open Foundation

variable {size : Nat}

/-! ### The operations of the calls in progress -/

/-- How many operations of the calls in progress pass a test. -/
def State.count (test : Op size → Bool) (state : State size) : Nat :=
  total (fun call => call.ops.countP test) state.calls

section Count

variable {state : State size} {test : Op size → Bool}

theorem count_starts (test : Op size → Bool) (state : State size)
    (cpu : Option (Fin size)) (op : Op size) :
    (state.starts cpu op).count test =
      state.count test + (test op).toNat := by
  cases tested : test op <;>
    simp [State.count, State.starts, total_append, tested]

theorem countP_cons_toNat (test : Op size → Bool) (op : Op size)
    (rest : List (Op size)) :
    (op :: rest).countP test = (test op).toNat + rest.countP test := by
  cases tested : test op
  · simp [tested]
  · simp [tested, Nat.add_comm]

theorem count_performs (test : Op size → Bool) (tree : Tree size)
    {index : Nat} {call : Call size} {op : Op size} {rest : List (Op size)}
    (found : state.calls[index]? = some call)
    (ops : call.ops = op :: rest) :
    (state.performs tree index call op rest).count test + (test op).toNat =
      state.count test + (perform tree state.memory op).2.countP test := by
  have replaced := total_replaceAt
    (fun call : Call size => call.ops.countP test)
    (call.goesOn ((perform tree state.memory op).2 ++ rest)) found
  rw [total_goesOn (fun ops => ops.countP test) rfl, ops, countP_cons_toNat,
    List.countP_append] at replaced
  simp only [State.count, State.performs]
  omega

theorem countP_le_count {call : Call size} (member : call ∈ state.calls) :
    call.ops.countP test ≤ state.count test :=
  List.le_sum_of_mem (List.mem_map_of_mem member)

/-- The operation that is performed next counts. -/
theorem count_pos {call : Call size} {op : Op size} {rest : List (Op size)}
    {index : Nat} (found : state.calls[index]? = some call)
    (ops : call.ops = op :: rest) (passes : test op = true) :
    0 < state.count test := by
  have bounded : call.ops.countP test ≤ state.count test :=
    countP_le_count (List.mem_of_getElem? found)
  rw [ops, countP_cons_toNat, passes, Bool.toNat_true] at bounded
  omega

theorem count_mono {stronger : Op size → Bool}
    (implies : ∀ op, stronger op = true → test op = true) :
    state.count stronger ≤ state.count test := by
  unfold State.count total
  induction state.calls with
  | nil => exact le_rfl
  | cons call rest inductionHypothesis =>
      have first : call.ops.countP stronger ≤ call.ops.countP test :=
        List.countP_mono_left fun op _ => implies op
      simp only [List.map_cons, List.sum_cons]
      omega

/-- The only operation that passes a test leaves none for a stronger test that
it fails. -/
theorem count_eq_zero_of_single {stronger : Op size → Bool}
    (single : state.count test ≤ 1)
    (implies : ∀ op, stronger op = true → test op = true)
    {call : Call size} {op : Op size} {rest : List (Op size)} {index : Nat}
    (found : state.calls[index]? = some call) (ops : call.ops = op :: rest)
    (passes : test op = true) (fails : stronger op = false) :
    state.count stronger = 0 := by
  have replaced := total_replaceAt
    (fun call : Call size => call.ops.countP test) [{ call with ops := rest }]
    found
  have strongly := total_replaceAt
    (fun call : Call size => call.ops.countP stronger)
    [{ call with ops := rest }] found
  have bounded :
      { state with
        calls := replaceAt state.calls index
          [{ call with ops := rest }] }.count stronger ≤ _ :=
    count_mono implies
  rw [total_singleton, ops, countP_cons_toNat, passes] at replaced
  rw [total_singleton, ops, countP_cons_toNat, fails] at strongly
  simp only [State.count, Bool.toNat_true, Bool.toNat_false] at *
  omega

end Count

/-! ### What the operations are to a leaf -/

namespace Op

/-- The CPU of the leaf looks for a task or empties the leaf; it is not idle. -/
def searches (leaf : Fin size) : Op size → Bool
  | .getSlotTask other _ => other = leaf
  | .getQueueTask other _ => other = leaf
  | .poll other _ => other = leaf
  | .pollOnce other => other = leaf
  | .timeOut other => other = leaf
  | .becomeIdle other => other = leaf
  | .unidleLeaf other => other = leaf
  | .takeQueue other => other = leaf
  | .takeSlot other _ _ => other = leaf
  | _ => false

/-- The CPU of the leaf has found the queue empty and waits for the polling
slot. -/
def waits (leaf : Fin size) : Op size → Bool
  | .poll other _ => other = leaf
  | .pollOnce other => other = leaf
  | .timeOut other => other = leaf
  | .becomeIdle other => other = leaf
  | _ => false

/-- The call by the CPU of the leaf that is in progress. -/
def owns (leaf : Fin size) : Op size → Bool
  | .getTask other _ => other = leaf
  | .leaveIdle other _ => other = leaf
  | .disable other => other = leaf
  | op => op.searches leaf

/-- The leaf will not stay idle. -/
def wakes (leaf : Fin size) : Op size → Bool
  | .resumeIdle other => other = leaf
  | .getTask other _ => other = leaf
  | .leaveIdle other _ => other = leaf
  | .disable other => other = leaf
  | _ => false

/-- A task will be moved out of the queue of the leaf. -/
def owes (leaf : Fin size) : Op size → Bool
  | .compareElements other _ => other = leaf
  | .handleQueueOverflow other _ => other = leaf
  | .moveBatch other elements _ => other = leaf ∧ Queue.toInt elements ≠ 0
  | _ => false

/-- The operation may change the slot, the queue or the state of the leaf. -/
def concerns (leaf : Fin size) : Op size → Bool
  | .setSlotTask other _ => other = leaf
  | .resumeIdle other => other = leaf
  | .queueTask other _ => other = leaf
  | .compareElements other _ => other = leaf
  | .handleQueueOverflow other _ => other = leaf
  | .moveBatch other _ _ => other = leaf
  | .addTaskBatch other _ _ _ => other = leaf
  | .queueBatch other _ => other = leaf
  | op => op.owns leaf

end Op

/-- The leaf sleeps or has already found its queue empty. -/
def State.isDormant (state : State size) (leaf : Fin size) : Bool :=
  (state.memory.schedulers leaf).idle ||
    decide (0 < state.count (Op.waits leaf))

/-! ### What an operation does to a leaf -/

section Leaf

variable {leaf : Fin size}

theorem owns_of_searches (op : Op size) (searching : op.searches leaf = true) :
    op.owns leaf = true := by
  cases op <;> first
    | exact searching
    | cases searching

theorem owns_of_waits (op : Op size) (waiting : op.waits leaf = true) :
    op.owns leaf = true := by
  cases op <;> first
    | exact waiting
    | cases waiting

theorem searches_of_waits (op : Op size) (waiting : op.waits leaf = true) :
    op.searches leaf = true := by
  cases op <;> first
    | exact waiting
    | cases waiting

/-- A call of the CPU of a leaf is never made by another call. -/
theorem countP_owns_perform (tree : Tree size) (memory : Memory size)
    (leaf : Fin size) (op : Op size) :
    (perform tree memory op).2.countP (Op.owns leaf) ≤
      (op.owns leaf).toNat := by
  cases op with
  | addReadyTask task computePlace =>
      cases computePlace with
      | some other => exact le_rfl
      | none =>
          simp only [perform]
          split <;> exact le_rfl
  | updateQueueThreshold id =>
      simp only [perform, takeOverThreshold]
      repeat' split
      all_goals simp [Op.owns, Op.searches]
  | _ =>
      simp only [perform, withParent, sendUp, takeSlotTask, addBatchToLeaf,
        addBatchToNode, giveBatch, askFurther]
      repeat' split
      all_goals simp [Op.owns, Op.searches, Bool.toNat, Bool.cond_decide]

/-- What a leaf is seen to have: whether it is idle, its slot and its queue. -/
def Memory.seen (memory : Memory size) (leaf : Fin size) :
    Bool × Option TaskId × List TaskId :=
  ((memory.schedulers leaf).idle, (memory.schedulers leaf).pollingSlot,
    (memory.schedulers leaf).queue)

namespace Memory

variable (memory : Memory size) {id leaf : Fin size}

theorem seen_modify_of_ne (different : id ≠ leaf)
    (change : Scheduler size → Scheduler size) :
    (memory.modify id change).seen leaf = memory.seen leaf := by
  simp only [seen, modify, Function.update_of_ne different.symm]

/-- A change that cannot be seen. -/
theorem seen_modify_of_eq (id leaf : Fin size)
    (change : Scheduler size → Scheduler size)
    (idle : ∀ scheduler, (change scheduler).idle = scheduler.idle)
    (slot : ∀ scheduler,
      (change scheduler).pollingSlot = scheduler.pollingSlot)
    (queue : ∀ scheduler, (change scheduler).queue = scheduler.queue) :
    (memory.modify id change).seen leaf = memory.seen leaf := by
  by_cases same : id = leaf
  · subst same
    simp only [seen, modify, Function.update_self, idle, slot, queue]
  · exact memory.seen_modify_of_ne same change

@[simp]
theorem seen_setRebalance (value : Bool) :
    (memory.setRebalance id value).seen leaf = memory.seen leaf :=
  memory.seen_modify_of_eq id leaf _ (fun _ => rfl) (fun _ => rfl)
    fun _ => rfl

@[simp]
theorem seen_setThreshold (value : Nat) :
    (memory.setThreshold id value).seen leaf = memory.seen leaf :=
  memory.seen_modify_of_eq id leaf _ (fun _ => rfl) (fun _ => rfl)
    fun _ => rfl

@[simp]
theorem seen_setRunning (value : Bool) :
    (memory.setRunning id value).seen leaf = memory.seen leaf :=
  memory.seen_modify_of_eq id leaf _ (fun _ => rfl) (fun _ => rfl)
    fun _ => rfl

@[simp]
theorem seen_setIdleChildren (entries : List (Fin size)) :
    (memory.setIdleChildren id entries).seen leaf = memory.seen leaf :=
  memory.seen_modify_of_eq id leaf _ (fun _ => rfl) (fun _ => rfl)
    fun _ => rfl

@[simp]
theorem seen_setEnabledChildren (value : Int) :
    (memory.setEnabledChildren id value).seen leaf = memory.seen leaf :=
  memory.seen_modify_of_eq id leaf _ (fun _ => rfl) (fun _ => rfl)
    fun _ => rfl

@[simp]
theorem seen_setIdleCPU (value : Bool) :
    (memory.setIdleCPU id value).seen leaf = memory.seen leaf :=
  rfl

@[simp]
theorem seen_setActivation (value : Activation) :
    (memory.setActivation id value).seen leaf = memory.seen leaf :=
  rfl

theorem seen_setQueue (different : id ≠ leaf) (queue : List TaskId) :
    (memory.setQueue id queue).seen leaf = memory.seen leaf :=
  memory.seen_modify_of_ne different _

theorem seen_setSlot (different : id ≠ leaf) (slot : Option TaskId) :
    (memory.setSlot id slot).seen leaf = memory.seen leaf :=
  memory.seen_modify_of_ne different _

theorem seen_setIdle (different : id ≠ leaf) (value : Bool) :
    (memory.setIdle id value).seen leaf = memory.seen leaf :=
  memory.seen_modify_of_ne different _

end Memory

/-- The leaf is as it was, up to tasks that have left its queue. -/
structure Memory.Keeps (memory next : Memory size) (leaf : Fin size) :
    Prop where
  idle : (next.schedulers leaf).idle = (memory.schedulers leaf).idle
  slot : (next.schedulers leaf).pollingSlot =
    (memory.schedulers leaf).pollingSlot
  queue : (next.schedulers leaf).queue.length ≤
    (memory.schedulers leaf).queue.length

theorem keeps_of_seen {memory next : Memory size} {leaf : Fin size}
    (same : next.seen leaf = memory.seen leaf) : memory.Keeps next leaf := by
  simp only [Memory.seen, Prod.mk.injEq] at same
  obtain ⟨idle, slot, queue⟩ := same
  exact ⟨idle, slot, by rw [queue]⟩

theorem keeps_setQueue (memory : Memory size) (id leaf : Fin size)
    (elements : Int) :
    memory.Keeps (memory.setQueue id
      (Queue.afterTaskBatch (memory.schedulers id).queue elements)) leaf := by
  by_cases same : id = leaf
  · subst same
    have shorter := Queue.length_afterTaskBatch_le
      (memory.schedulers id).queue elements
    constructor <;>
      simp only [Memory.setQueue, Memory.modify, Function.update_self]
    exact shorter
  · exact keeps_of_seen (memory.seen_setQueue same _)

/-- An operation that does not concern a leaf keeps it. -/
theorem keeps_perform (tree : Tree size) (memory : Memory size)
    {leaf : Fin size} {op : Op size} (apart : op.concerns leaf = false) :
    memory.Keeps (perform tree memory op).1 leaf := by
  cases op with
  | addReadyTask task computePlace =>
      cases computePlace <;> exact keeps_of_seen rfl
  | takeBatch node child force elements =>
      simp only [perform, giveBatch]
      split
      · exact keeps_of_seen (by simp)
      · exact keeps_setQueue memory node leaf _
  | emptyNode node other =>
      simp only [perform]
      split
      · exact keeps_setQueue memory node leaf _
      · exact keeps_of_seen rfl
  | returnTask other task =>
      exact keeps_of_seen (memory.seen_setRunning true)
  | resumeIdle other => exact keeps_of_seen rfl
  | _ =>
      simp only [Op.concerns, Op.owns, Op.searches, decide_eq_false_iff_not]
        at apart
      refine keeps_of_seen ?_
      simp only [perform, takeSlotTask, addBatchToLeaf, addBatchToNode]
      repeat' split
      all_goals simp_all [Memory.seen_setQueue, Memory.seen_setSlot,
        Memory.seen_setIdle]

theorem resumed_modify (memory : Memory size) (id : Fin size)
    (change : Scheduler size → Scheduler size) :
    (memory.modify id change).resumed = memory.resumed :=
  rfl

theorem resumed_perform (tree : Tree size) (memory : Memory size)
    {leaf : Fin size} {op : Op size} (apart : op.concerns leaf = false) :
    (perform tree memory op).1.resumed leaf = memory.resumed leaf := by
  cases op with
  | addReadyTask task computePlace => cases computePlace <;> rfl
  | resumeIdle other =>
      simp only [Op.concerns, decide_eq_false_iff_not] at apart
      simp [perform, Function.update_of_ne (Ne.symm apart)]
  | takeBatch node child force elements =>
      by_cases nothing :
          (Queue.taskBatch (memory.schedulers node).queue
            (Queue.toInt elements)) = []
      · rw [perform, giveBatch_of_nil tree child force nothing]
        rfl
      · rw [perform, giveBatch_of_ne tree child force nothing,
          Memory.setQueue, resumed_modify]
  | _ =>
      simp only [perform, takeSlotTask, addBatchToLeaf, addBatchToNode]
      repeat' split
      all_goals simp only [Memory.setQueue, Memory.setSlot,
        Memory.setRebalance, Memory.setThreshold, Memory.setIdle,
        Memory.setRunning, Memory.setIdleChildren, Memory.setEnabledChildren,
        Memory.setIdleCPU, Memory.setActivation, resumed_modify]

theorem owns_eq_false {leaf : Fin size} {op : Op size}
    (apart : op.concerns leaf = false) : op.owns leaf = false := by
  cases op <;> first
    | exact apart
    | rfl

theorem wakes_eq_false {leaf : Fin size} {op : Op size}
    (apart : op.concerns leaf = false) : op.wakes leaf = false := by
  cases op <;> first
    | exact apart
    | rfl

theorem owes_eq_false {leaf : Fin size} {op : Op size}
    (apart : op.concerns leaf = false) : op.owes leaf = false := by
  cases op with
  | moveBatch other elements handleThreshold =>
      simp only [Op.concerns, decide_eq_false_iff_not] at apart
      simp [Op.owes, apart]
  | _ => first
    | exact apart
    | rfl

/-- An operation that does not concern a leaf wakes nobody up there. -/
theorem countP_wakes_perform (tree : Tree size) (memory : Memory size)
    {leaf : Fin size} {op : Op size} (apart : op.concerns leaf = false) :
    (perform tree memory op).2.countP (Op.wakes leaf) = 0 := by
  cases op with
  | addReadyTask task computePlace =>
      cases computePlace with
      | some other => rfl
      | none =>
          simp only [perform]
          split <;> rfl
  | updateQueueThreshold id =>
      simp only [perform, takeOverThreshold]
      repeat' split
      all_goals simp [Op.wakes]
  | _ =>
      simp only [Op.concerns, Op.owns, Op.searches, decide_eq_false_iff_not]
        at apart
      simp only [perform, withParent, sendUp, takeSlotTask, addBatchToLeaf,
        addBatchToNode, giveBatch, askFurther]
      repeat' split
      all_goals simp_all [Op.wakes]

end Leaf

/-! ### The invariant -/

/-- What holds of a leaf in every run with permitted steps. -/
structure Wakeful (state : State size) (leaf : Fin size) : Prop where
  /-- The CPU of the leaf makes the call. -/
  owned : ∀ call ∈ state.calls, 0 < call.ops.countP (Op.owns leaf) →
    call.cpu = some leaf
  single : state.count (Op.owns leaf) ≤ 1
  awake : 0 < state.count (Op.searches leaf) →
    (state.memory.schedulers leaf).idle = false
  /-- A task in the slot of an idle leaf is not forgotten. -/
  slot : (state.memory.schedulers leaf).idle = true →
    (state.memory.schedulers leaf).pollingSlot ≠ none →
    0 < state.memory.resumed leaf + state.count (Op.wakes leaf)
  /-- Every task that a dormant leaf has in its queue will be moved out. -/
  queue : state.isDormant leaf = true →
    (state.memory.schedulers leaf).pollingSlot = none →
    (state.memory.schedulers leaf).queue.length ≤ state.count (Op.owes leaf)

/-- Under the operation no task is left in the queue of a dormant leaf: a task
or a batch may stay there if the leaf has yet to look at its queue or at a task
in its slot, and neither what an overflow moves nor the size of the queue
vanishes in the conversion to `int`. -/
def Op.StaysAwake (tree : Tree size) (state : State size) : Op size → Prop
  | .compareElements leaf elements =>
      (state.memory.schedulers leaf).queueThreshold < elements ∨
        state.isDormant leaf = false ∨
        (state.memory.schedulers leaf).pollingSlot ≠ none
  | .queueBatch leaf batch =>
      batch = [] ∨ state.isDormant leaf = false ∨
        (state.memory.schedulers leaf).pollingSlot ≠ none
  | .handleQueueOverflow leaf _ =>
      tree.isLeaf leaf = true →
        Queue.toInt (half (state.memory.schedulers leaf).queueThreshold) ≠ 0
  | .moveBatch leaf _ _ =>
      tree.isLeaf leaf = true →
        Queue.toInt (state.memory.schedulers leaf).queue.length = 0 →
        (state.memory.schedulers leaf).queue = []
  | _ => True

/-- The thread of the CPU is not in a call. -/
def State.IsFree (state : State size) (leaf : Fin size) : Prop :=
  ∀ call ∈ state.calls, call.cpu ≠ some leaf

/-- The thread of a CPU makes one call at a time. -/
def MakesOneCall (state : State size) : Label size → Prop
  | .addReadyTask _ computePlace => ∀ leaf ∈ computePlace, state.IsFree leaf
  | .getReadyTask leaf _ => state.IsFree leaf
  | .disableComputePlace leaf => state.IsFree leaf
  | .enableComputePlace leaf => state.IsFree leaf
  | .perform _ => True

/-- The steps that leave no task to a dormant leaf. -/
def StaysAwake (tree : Tree size) (state : State size) (label : Label size) :
    Prop :=
  MakesOneCall state label ∧
    ∀ op ∈ state.operation label, op.StaysAwake tree state

section Step

variable {tree : Tree size} {state : State size} {leaf : Fin size}
  {index : Nat} {call : Call size} {op : Op size} {rest : List (Op size)}

theorem isDormant_eq_true :
    state.isDormant leaf = true ↔
      (state.memory.schedulers leaf).idle = true ∨
        0 < state.count (Op.waits leaf) := by
  simp [State.isDormant]

theorem mem_performs (tree : Tree size) {other : Call size}
    (member :
      other ∈ (state.performs tree index call op rest).calls) :
    other = { call with ops := (perform tree state.memory op).2 ++ rest } ∨
      other ∈ state.calls := by
  rcases mem_replaceAt member with new | old
  · unfold Call.goesOn at new
    split at new
    · cases new
    · exact Or.inl (List.mem_singleton.mp new)
  · exact Or.inr old

namespace Wakeful

/-- The calls of the CPU stay in order; the rest is left to be shown. -/
theorem performs_of (wakeful : Wakeful state leaf)
    (found : state.calls[index]? = some call) (ops : call.ops = op :: rest)
    (awake :
      0 < (state.performs tree index call op rest).count
        (Op.searches leaf) →
      ((perform tree state.memory op).1.schedulers leaf).idle = false)
    (slot :
      ((perform tree state.memory op).1.schedulers leaf).idle = true →
      ((perform tree state.memory op).1.schedulers leaf).pollingSlot ≠ none →
      0 < (perform tree state.memory op).1.resumed leaf +
        (state.performs tree index call op rest).count (Op.wakes leaf))
    (queue :
      ((perform tree state.memory op).1.schedulers leaf).idle = true ∨
        0 < (state.performs tree index call op rest).count
          (Op.waits leaf) →
      ((perform tree state.memory op).1.schedulers leaf).pollingSlot = none →
      ((perform tree state.memory op).1.schedulers leaf).queue.length ≤
        (state.performs tree index call op rest).count (Op.owes leaf)) :
    Wakeful (state.performs tree index call op rest) leaf := by
  have called := countP_owns_perform tree state.memory leaf op
  have counted := count_performs (Op.owns leaf) tree found ops
  have before := wakeful.single
  refine ⟨?_, by omega, awake, slot, fun dormant =>
    queue (isDormant_eq_true.mp dormant)⟩
  intro other member owns
  rcases mem_performs tree member with rfl | old
  · refine wakeful.owned call (List.mem_of_getElem? found) ?_
    rw [List.countP_append] at owns
    rw [ops, countP_cons_toNat]
    omega
  · exact wakeful.owned other old owns

theorem performs_of_apart (wakeful : Wakeful state leaf)
    (found : state.calls[index]? = some call) (ops : call.ops = op :: rest)
    (apart : op.concerns leaf = false) :
    Wakeful (state.performs tree index call op rest) leaf := by
  have kept := keeps_perform tree state.memory apart
  have resumed := resumed_perform tree state.memory apart
  have owns := countP_owns_perform tree state.memory leaf op
  rw [owns_eq_false apart] at owns
  have searches : (perform tree state.memory op).2.countP
      (Op.searches leaf) ≤ (perform tree state.memory op).2.countP
        (Op.owns leaf) :=
    List.countP_mono_left fun op _ => owns_of_searches op
  have waits : (perform tree state.memory op).2.countP
      (Op.waits leaf) ≤ (perform tree state.memory op).2.countP
        (Op.owns leaf) :=
    List.countP_mono_left fun op _ => owns_of_waits op
  have searchCount := count_performs (Op.searches leaf) tree found ops
  have waitCount := count_performs (Op.waits leaf) tree found ops
  have wakeCount := count_performs (Op.wakes leaf) tree found ops
  have oweCount := count_performs (Op.owes leaf) tree found ops
  rw [countP_wakes_perform tree state.memory apart, wakes_eq_false apart]
    at wakeCount
  rw [owes_eq_false apart] at oweCount
  simp only [Bool.toNat_false] at *
  refine wakeful.performs_of found ops ?_ ?_ ?_
  · rw [kept.idle]
    intro some
    exact wakeful.awake (by omega)
  · rw [kept.idle, kept.slot, resumed]
    intro idle occupied
    have before := wakeful.slot idle occupied
    omega
  · rw [kept.idle, kept.slot]
    intro dormant free
    have before := wakeful.queue (isDormant_eq_true.mpr
      (dormant.imp_right fun some => by omega)) free
    have shorter := kept.queue
    omega

/-- The same with the result of the operation given. -/
theorem performs_as (wakeful : Wakeful state leaf)
    (found : state.calls[index]? = some call) (ops : call.ops = op :: rest)
    {next : Memory size} {called : List (Op size)}
    (result : perform tree state.memory op = (next, called))
    (awake : 0 < state.count (Op.searches leaf) +
        called.countP (Op.searches leaf) - (op.searches leaf).toNat →
      (next.schedulers leaf).idle = false)
    (slot : (next.schedulers leaf).idle = true →
      (next.schedulers leaf).pollingSlot ≠ none →
      0 < next.resumed leaf + (state.count (Op.wakes leaf) +
        called.countP (Op.wakes leaf) - (op.wakes leaf).toNat))
    (queue : (next.schedulers leaf).idle = true ∨
        0 < state.count (Op.waits leaf) + called.countP (Op.waits leaf) -
          (op.waits leaf).toNat →
      (next.schedulers leaf).pollingSlot = none →
      (next.schedulers leaf).queue.length ≤ state.count (Op.owes leaf) +
        called.countP (Op.owes leaf) - (op.owes leaf).toNat) :
    Wakeful (state.performs tree index call op rest) leaf := by
  have searchCount := count_performs (Op.searches leaf) tree found ops
  have waitCount := count_performs (Op.waits leaf) tree found ops
  have wakeCount := count_performs (Op.wakes leaf) tree found ops
  have oweCount := count_performs (Op.owes leaf) tree found ops
  rw [result] at searchCount waitCount wakeCount oweCount
  dsimp only at searchCount waitCount wakeCount oweCount
  refine wakeful.performs_of found ops ?_ ?_ ?_ <;> rw [result]
  · intro some
    exact awake (by omega)
  · intro idle occupied
    have before := slot idle occupied
    dsimp only
    omega
  · intro dormant free
    have before := queue (dormant.imp_right fun some => by omega) free
    dsimp only
    omega

/-! #### Tasks that come to the leaf -/

theorem performs_setSlotTask (wakeful : Wakeful state leaf) {task : TaskId}
    (found : state.calls[index]? = some call)
    (ops : call.ops = .setSlotTask leaf task :: rest) :
    Wakeful (state.performs tree index call (.setSlotTask leaf task) rest)
      leaf := by
  by_cases free : (state.memory.schedulers leaf).pollingSlot = none
  · refine wakeful.performs_as found ops (if_pos free) ?_ ?_ ?_
    · intro some
      have before := wakeful.awake (by split at some <;> simpa [Op.searches] using some)
      simpa [Memory.setSlot, Memory.modify] using before
    · intro idle _
      have isIdle : (state.memory.schedulers leaf).idle = true := by
        simpa [Memory.setSlot, Memory.modify] using idle
      simp [isIdle, Op.wakes]
    · intro _ none
      simp [Memory.setSlot, Memory.modify] at none
  · refine wakeful.performs_as found ops (if_neg free) ?_ ?_ ?_
    · simpa [Op.searches] using wakeful.awake
    · simpa [Op.wakes] using wakeful.slot
    · exact fun _ none => absurd none free

theorem performs_queueTask (wakeful : Wakeful state leaf) {task : TaskId}
    (found : state.calls[index]? = some call)
    (ops : call.ops = .queueTask leaf task :: rest) :
    Wakeful (state.performs tree index call (.queueTask leaf task) rest)
      leaf := by
  refine wakeful.performs_as found ops rfl ?_ ?_ ?_
  · simpa [Op.searches, Memory.setQueue, Memory.modify] using wakeful.awake
  · simpa [Op.wakes, Memory.setQueue, Memory.modify] using wakeful.slot
  · intro dormant free
    have before := wakeful.queue (isDormant_eq_true.mpr (by
      simpa [Op.waits, Memory.setQueue, Memory.modify] using dormant))
      (by simpa [Memory.setQueue, Memory.modify] using free)
    have longer : (Queue.addTask tree.lifo
        (state.memory.schedulers leaf).queue task).length =
        (state.memory.schedulers leaf).queue.length + 1 := by
      unfold Queue.addTask
      split <;> simp
    simp only [Memory.setQueue, Memory.modify, Function.update_self, longer]
    simp [Op.owes, before]

theorem performs_addTaskBatch (wakeful : Wakeful state leaf)
    (isLeaf : tree.isLeaf leaf = true) {who : Fin size}
    {batch : List TaskId} {handleThreshold : Bool}
    (found : state.calls[index]? = some call)
    (ops : call.ops = .addTaskBatch leaf who batch handleThreshold :: rest) :
    Wakeful (state.performs tree index call
      (.addTaskBatch leaf who batch handleThreshold) rest) leaf := by
  cases free : (state.memory.schedulers leaf).pollingSlot with
  | none =>
      cases last : batch.getLast? with
      | none =>
          have result : perform tree state.memory
              (.addTaskBatch leaf who batch handleThreshold) =
              (state.memory, [.queueBatch leaf batch]) := by
            simp [perform, isLeaf, addBatchToLeaf, free, last]
          refine wakeful.performs_as found ops result ?_ ?_ ?_
          · simpa [Op.searches] using wakeful.awake
          · simpa [Op.wakes] using wakeful.slot
          · intro dormant _
            have before := wakeful.queue (isDormant_eq_true.mpr (by
              simpa [Op.waits] using dormant)) free
            simpa [Op.owes] using before
      | some task =>
          have result : perform tree state.memory
              (.addTaskBatch leaf who batch handleThreshold) =
              (state.memory.setSlot leaf (some task),
                (if (state.memory.schedulers leaf).idle then
                  [.resumeIdle leaf] else []) ++
                  [.queueBatch leaf batch.dropLast]) := by
            simp [perform, isLeaf, addBatchToLeaf, free, last]
          refine wakeful.performs_as found ops result ?_ ?_ ?_
          · intro some
            have before := wakeful.awake (by
              split at some <;> simpa [Op.searches] using some)
            simpa [Memory.setSlot, Memory.modify] using before
          · intro idle _
            have isIdle : (state.memory.schedulers leaf).idle = true := by
              simpa [Memory.setSlot, Memory.modify] using idle
            simp [isIdle, Op.wakes]
          · intro _ none
            simp [Memory.setSlot, Memory.modify] at none
  | some inside =>
      have result : perform tree state.memory
          (.addTaskBatch leaf who batch handleThreshold) =
          (state.memory, [.queueBatch leaf batch]) := by
        simp [perform, isLeaf, addBatchToLeaf, free]
      refine wakeful.performs_as found ops result ?_ ?_ ?_
      · simpa [Op.searches] using wakeful.awake
      · simpa [Op.wakes] using wakeful.slot
      · intro _ none
        rw [free] at none
        cases none

theorem performs_queueBatch (wakeful : Wakeful state leaf)
    {batch : List TaskId} (found : state.calls[index]? = some call)
    (ops : call.ops = .queueBatch leaf batch :: rest)
    (stays : batch = [] ∨ state.isDormant leaf = false ∨
      (state.memory.schedulers leaf).pollingSlot ≠ none) :
    Wakeful (state.performs tree index call (.queueBatch leaf batch) rest)
      leaf := by
  refine wakeful.performs_as found ops rfl ?_ ?_ ?_
  · simpa [Op.searches, Memory.setQueue, Memory.modify] using wakeful.awake
  · simpa [Op.wakes, Memory.setQueue, Memory.modify] using wakeful.slot
  · intro dormant free
    have wasDormant : state.isDormant leaf = true :=
      isDormant_eq_true.mpr (by
        simpa [Op.waits, Memory.setQueue, Memory.modify] using dormant)
    have wasFree : (state.memory.schedulers leaf).pollingSlot = none := by
      simpa [Memory.setQueue, Memory.modify] using free
    have before := wakeful.queue wasDormant wasFree
    rcases stays with empty | awake | occupied
    · simpa [Op.owes, Memory.setQueue, Memory.modify, empty,
        Queue.addTaskBatch] using before
    · rw [wasDormant] at awake
      cases awake
    · exact absurd wasFree occupied

theorem performs_resumeIdle (wakeful : Wakeful state leaf)
    (found : state.calls[index]? = some call)
    (ops : call.ops = .resumeIdle leaf :: rest) :
    Wakeful (state.performs tree index call (.resumeIdle leaf) rest)
      leaf := by
  refine wakeful.performs_as found ops rfl ?_ ?_ ?_
  · simpa [Op.searches] using wakeful.awake
  · intro _ _
    simp
  · intro dormant free
    have before := wakeful.queue (isDormant_eq_true.mpr (by
      simpa [Op.waits] using dormant)) free
    simpa [Op.owes] using before

/-! #### Tasks that leave the queue -/

theorem performs_compareElements (wakeful : Wakeful state leaf)
    {elements : Nat} (found : state.calls[index]? = some call)
    (ops : call.ops = .compareElements leaf elements :: rest)
    (stays :
      (state.memory.schedulers leaf).queueThreshold < elements ∨
        state.isDormant leaf = false ∨
        (state.memory.schedulers leaf).pollingSlot ≠ none) :
    Wakeful (state.performs tree index call (.compareElements leaf elements)
      rest) leaf := by
  by_cases overflows :
      (state.memory.schedulers leaf).queueThreshold < elements
  · have result : perform tree state.memory (.compareElements leaf elements) =
        (state.memory, [.handleQueueOverflow leaf true]) := by
      simp [perform, overflows]
    refine wakeful.performs_as found ops result ?_ ?_ ?_
    · simpa [Op.searches] using wakeful.awake
    · simpa [Op.wakes] using wakeful.slot
    · intro dormant free
      have before := wakeful.queue (isDormant_eq_true.mpr (by
        simpa [Op.waits] using dormant)) free
      simpa [Op.owes] using before
  · have result : perform tree state.memory (.compareElements leaf elements) =
        (state.memory, []) := by
      simp [perform, overflows]
    refine wakeful.performs_as found ops result ?_ ?_ ?_
    · simpa [Op.searches] using wakeful.awake
    · simpa [Op.wakes] using wakeful.slot
    · intro dormant free
      have wasDormant : state.isDormant leaf = true :=
        isDormant_eq_true.mpr (by simpa [Op.waits] using dormant)
      rcases stays with isOver | awake | occupied
      · exact absurd isOver overflows
      · rw [wasDormant] at awake
        cases awake
      · exact absurd free occupied

theorem performs_handleQueueOverflow (wakeful : Wakeful state leaf)
    (isLeaf : tree.isLeaf leaf = true) {handleThreshold : Bool}
    (found : state.calls[index]? = some call)
    (ops : call.ops = .handleQueueOverflow leaf handleThreshold :: rest)
    (stays : Queue.toInt
      (half (state.memory.schedulers leaf).queueThreshold) ≠ 0) :
    Wakeful (state.performs tree index call
      (.handleQueueOverflow leaf handleThreshold) rest) leaf := by
  have result : perform tree state.memory
      (.handleQueueOverflow leaf handleThreshold) =
      (state.memory, [.moveBatch leaf
        (half (state.memory.schedulers leaf).queueThreshold)
        handleThreshold]) := by
    simp [perform, tree.hangs leaf isLeaf]
  refine wakeful.performs_as found ops result ?_ ?_ ?_
  · simpa [Op.searches] using wakeful.awake
  · simpa [Op.wakes] using wakeful.slot
  · intro dormant free
    have before := wakeful.queue (isDormant_eq_true.mpr (by
      simpa [Op.waits] using dormant)) free
    simpa [Op.owes, stays] using before

/-- An overflow that owes a task moves one. -/
theorem length_moveBatch (leaf : Fin size) {queue : List TaskId}
    {elements : Nat} (handleThreshold : Bool)
    (counts : Queue.toInt queue.length = 0 → queue = [])
    (created :
      (Queue.getTaskBatch queue (Queue.toInt elements)).isNone = false) :
    (Queue.afterTaskBatch queue (Queue.toInt elements)).length ≤
      queue.length -
        (Op.owes leaf (.moveBatch leaf elements handleThreshold)).toNat := by
  cases owes : Op.owes leaf (.moveBatch leaf elements handleThreshold) with
  | false => exact Queue.length_afterTaskBatch_le _ _
  | true =>
      exact Queue.length_afterTaskBatch_lt (of_decide_eq_true owes).2 counts
        created

theorem performs_moveBatch (wakeful : Wakeful state leaf)
    (isLeaf : tree.isLeaf leaf = true) {elements : Nat}
    {handleThreshold : Bool} (found : state.calls[index]? = some call)
    (ops : call.ops = .moveBatch leaf elements handleThreshold :: rest)
    (counts : Queue.toInt (state.memory.schedulers leaf).queue.length = 0 →
      (state.memory.schedulers leaf).queue = [])
    (created : (Queue.getTaskBatch (state.memory.schedulers leaf).queue
      (Queue.toInt elements)).isNone = false) :
    Wakeful (state.performs tree index call
      (.moveBatch leaf elements handleThreshold) rest) leaf := by
  obtain ⟨up, above⟩ := Option.isSome_iff_exists.mp (tree.hangs leaf isLeaf)
  have fewer := length_moveBatch leaf handleThreshold counts created
  generalize taken : Queue.taskBatch (state.memory.schedulers leaf).queue
    (Queue.toInt elements) = batch
  generalize left : Queue.afterTaskBatch (state.memory.schedulers leaf).queue
    (Queue.toInt elements) = queue at fewer
  have result : perform tree state.memory
      (.moveBatch leaf elements handleThreshold) =
      (state.memory.setQueue leaf queue,
        sendUp up leaf batch handleThreshold) := by
    simp only [perform, above, taken, left]
  have nothing : ∀ test : Op size → Bool,
      (∀ other who tasks handle,
        test (.addTaskBatch other who tasks handle) = false) →
      (sendUp up leaf batch handleThreshold).countP test = 0 := by
    intro test fails
    unfold sendUp
    split <;> simp [fails]
  refine wakeful.performs_as found ops result ?_ ?_ ?_
  · rw [nothing _ fun _ _ _ _ => rfl]
    simpa [Op.searches, Memory.setQueue, Memory.modify] using wakeful.awake
  · rw [nothing _ fun _ _ _ _ => rfl]
    simpa [Op.wakes, Memory.setQueue, Memory.modify] using wakeful.slot
  · rw [nothing _ fun _ _ _ _ => rfl, nothing _ fun _ _ _ _ => rfl]
    intro dormant free
    have before := wakeful.queue (isDormant_eq_true.mpr (by
      simpa [Op.waits, Memory.setQueue, Memory.modify] using dormant))
      (by simpa [Memory.setQueue, Memory.modify] using free)
    simp only [Memory.setQueue, Memory.modify, Function.update_self]
    omega

/-! #### Calls by the CPU of the leaf -/

theorem idle_eq_false (wakeful : Wakeful state leaf)
    (found : state.calls[index]? = some call) (ops : call.ops = op :: rest)
    (searching : op.searches leaf = true) :
    (state.memory.schedulers leaf).idle = false :=
  wakeful.awake (count_pos found ops searching)

/-- No other operation of the CPU waits. -/
theorem count_waits (wakeful : Wakeful state leaf)
    (found : state.calls[index]? = some call) (ops : call.ops = op :: rest)
    (own : op.owns leaf = true) :
    state.count (Op.waits leaf) = (op.waits leaf).toNat := by
  cases waiting : op.waits leaf with
  | false =>
      exact count_eq_zero_of_single wakeful.single owns_of_waits found ops own
        waiting
  | true =>
      have atLeast := count_pos found ops waiting
      have atMost : state.count (Op.waits leaf) ≤ state.count (Op.owns leaf) :=
        count_mono owns_of_waits
      have single := wakeful.single
      simp only [Bool.toNat_true]
      omega

/-- The CPU is awake and does not wait after its operation. -/
theorem performs_awake (wakeful : Wakeful state leaf)
    (found : state.calls[index]? = some call) (ops : call.ops = op :: rest)
    (own : op.owns leaf = true) {next : Memory size}
    {called : List (Op size)}
    (result : perform tree state.memory op = (next, called))
    (awake : (next.schedulers leaf).idle = false)
    (active : called.countP (Op.waits leaf) = 0) :
    Wakeful (state.performs tree index call op rest) leaf := by
  have waiting := wakeful.count_waits found ops own
  refine wakeful.performs_as found ops result ?_ ?_ ?_
  · exact fun _ => awake
  · intro idle
    rw [awake] at idle
    cases idle
  · rintro (idle | some) _
    · rw [awake] at idle
      cases idle
    · omega

/-- The CPU goes on waiting. -/
theorem performs_waiting (wakeful : Wakeful state leaf)
    (found : state.calls[index]? = some call) (ops : call.ops = op :: rest)
    (waiting : op.waits leaf = true) {called : List (Op size)}
    (result : perform tree state.memory op = (state.memory, called))
    (owing : op.owes leaf = false) :
    Wakeful (state.performs tree index call op rest) leaf := by
  have own := owns_of_waits op waiting
  have awake := wakeful.idle_eq_false found ops (searches_of_waits op waiting)
  have some := count_pos found ops waiting
  refine wakeful.performs_as found ops result ?_ ?_ ?_
  · exact fun _ => awake
  · intro idle
    rw [awake] at idle
    cases idle
  · intro _ free
    have before := wakeful.queue (isDormant_eq_true.mpr (Or.inr some)) free
    rw [owing, Bool.toNat_false]
    omega

theorem performs_getTask (wakeful : Wakeful state leaf) {doWait : Bool}
    (found : state.calls[index]? = some call)
    (ops : call.ops = .getTask leaf doWait :: rest) :
    Wakeful (state.performs tree index call (.getTask leaf doWait) rest)
      leaf := by
  refine wakeful.performs_as found ops rfl ?_ ?_ ?_
  · simpa [Op.searches, Memory.setRunning, Memory.modify] using wakeful.awake
  · simpa [Op.wakes, Memory.setRunning, Memory.modify] using wakeful.slot
  · intro dormant free
    have before := wakeful.queue (isDormant_eq_true.mpr (by
      simpa [Op.waits, Memory.setRunning, Memory.modify] using dormant))
      (by simpa [Memory.setRunning, Memory.modify] using free)
    simpa [Op.owes, Memory.setRunning, Memory.modify] using before

theorem performs_leaveIdle (wakeful : Wakeful state leaf) {doWait : Bool}
    (found : state.calls[index]? = some call)
    (ops : call.ops = .leaveIdle leaf doWait :: rest) :
    Wakeful (state.performs tree index call (.leaveIdle leaf doWait) rest)
      leaf := by
  cases idle : (state.memory.schedulers leaf).idle with
  | true =>
      refine wakeful.performs_awake found ops (by simp [Op.owns])
        (if_pos idle) ?_ (by simp [Op.waits])
      simp [Memory.setIdle, Memory.modify]
  | false =>
      exact wakeful.performs_awake found ops (by simp [Op.owns])
        (if_neg (by simp [idle])) idle (by simp [Op.waits])

/-- The CPU takes what is in the slot, or goes on. -/
theorem performs_takeSlotTask (wakeful : Wakeful state leaf)
    (found : state.calls[index]? = some call) (ops : call.ops = op :: rest)
    (searching : op.searches leaf = true)
    {taken : TaskId → List (Op size)} {otherwise : List (Op size)}
    (result : perform tree state.memory op =
      takeSlotTask state.memory leaf taken otherwise)
    (active : ∀ task, (taken task).countP (Op.waits leaf) = 0)
    (passes : otherwise.countP (Op.waits leaf) = 0 ∨
      op.waits leaf = true ∧ op.owes leaf = false) :
    Wakeful (state.performs tree index call op rest) leaf := by
  have own := owns_of_searches op searching
  have awake := wakeful.idle_eq_false found ops searching
  unfold takeSlotTask at result
  split at result
  · rename_i task occupied
    refine wakeful.performs_awake found ops own result ?_ (active task)
    simpa [Memory.setSlot, Memory.modify] using awake
  · rcases passes with nobody | ⟨waiting, owing⟩
    · exact wakeful.performs_awake found ops own result awake nobody
    · exact wakeful.performs_waiting found ops waiting result owing

theorem performs_getQueueTask (wakeful : Wakeful state leaf) {doWait : Bool}
    (found : state.calls[index]? = some call)
    (ops : call.ops = .getQueueTask leaf doWait :: rest) :
    Wakeful (state.performs tree index call (.getQueueTask leaf doWait) rest)
      leaf := by
  have awake := wakeful.idle_eq_false found ops (by simp [Op.searches])
  cases queue : (state.memory.schedulers leaf).queue with
  | cons task others =>
      have result : perform tree state.memory (.getQueueTask leaf doWait) =
          (state.memory.setQueue leaf others,
            [.exchangeRebalance leaf, .returnTask leaf task]) := by
        simp [perform, queue]
      refine wakeful.performs_awake found ops (by simp [Op.owns, Op.searches])
        result ?_ (by simp [Op.waits])
      simpa [Memory.setQueue, Memory.modify] using awake
  | nil =>
      have result : perform tree state.memory (.getQueueTask leaf doWait) =
          (state.memory, .clearRebalance leaf ::
            withParent tree leaf (fun up => [.askNode up leaf false]) ++
            [if doWait then .poll leaf 0 else .pollOnce leaf]) := by
        simp [perform, queue]
      refine wakeful.performs_as found ops result ?_ ?_ ?_
      · exact fun _ => awake
      · intro idle
        rw [awake] at idle
        cases idle
      · intro _ _
        rw [queue]
        exact Nat.zero_le _

theorem performs_becomeIdle (wakeful : Wakeful state leaf)
    (found : state.calls[index]? = some call)
    (ops : call.ops = .becomeIdle leaf :: rest) :
    Wakeful (state.performs tree index call (.becomeIdle leaf) rest)
      leaf := by
  have awake := wakeful.idle_eq_false found ops (by simp [Op.searches])
  cases slot : (state.memory.schedulers leaf).pollingSlot with
  | some task =>
      have result : perform tree state.memory (.becomeIdle leaf) =
          (state.memory.setSlot leaf none, [.returnTask leaf task]) := by
        simp [perform, slot]
      refine wakeful.performs_awake found ops (by simp [Op.owns, Op.searches])
        result ?_ (by simp [Op.waits])
      simpa [Memory.setSlot, Memory.modify] using awake
  | none =>
      have result : perform tree state.memory (.becomeIdle leaf) =
          ((state.memory.setIdle leaf true).setIdleCPU leaf true, []) := by
        simp [perform, slot]
      have some : 0 < state.count (Op.waits leaf) :=
        count_pos found ops (by simp [Op.waits])
      have before := wakeful.queue (isDormant_eq_true.mpr (Or.inr some)) slot
      have searching : state.count (Op.searches leaf) ≤ 1 :=
        (count_mono owns_of_searches).trans wakeful.single
      refine wakeful.performs_as found ops result ?_ ?_ ?_
      · simp only [Op.searches, decide_true, Bool.toNat_true,
          List.countP_nil]
        omega
      · intro _ occupied
        exact absurd slot (by
          simpa [Memory.setIdle, Memory.setIdleCPU, Memory.modify]
            using occupied)
      · intro _ _
        simpa [Op.owes, Memory.setIdle, Memory.setIdleCPU, Memory.modify]
          using before

theorem performs_disable (wakeful : Wakeful state leaf)
    (found : state.calls[index]? = some call)
    (ops : call.ops = .disable leaf :: rest) :
    Wakeful (state.performs tree index call (.disable leaf) rest) leaf := by
  cases idle : (state.memory.schedulers leaf).idle with
  | true =>
      refine wakeful.performs_awake found ops (by simp [Op.owns])
        (if_pos idle) ?_ (by simp [Op.waits])
      simp [Memory.setIdle, Memory.modify]
  | false =>
      exact wakeful.performs_awake found ops (by simp [Op.owns])
        (if_neg (by simp [idle])) idle (by simp [Op.waits])

theorem performs_unidleLeaf (wakeful : Wakeful state leaf)
    (found : state.calls[index]? = some call)
    (ops : call.ops = .unidleLeaf leaf :: rest) :
    Wakeful (state.performs tree index call (.unidleLeaf leaf) rest)
      leaf := by
  have awake := wakeful.idle_eq_false found ops (by simp [Op.searches])
  have own : Op.owns leaf (.unidleLeaf leaf) = true := by
    simp [Op.owns, Op.searches]
  cases above : tree.parent leaf with
  | none =>
      have result : perform tree state.memory (.unidleLeaf leaf) =
          (state.memory, []) := by
        simp [perform, above]
      exact wakeful.performs_awake found ops own result awake rfl
  | some up =>
      have result : perform tree state.memory (.unidleLeaf leaf) =
          (state.memory.setIdleChildren up
            ((state.memory.schedulers up).idleChildren.erase leaf),
            withParent tree up (fun above => [.unidleChild above up]) ++
              [.unidleCPU leaf, .takeQueue leaf]) := by
        simp [perform, above]
      refine wakeful.performs_awake found ops own result ?_ ?_
      · have same : (state.memory.setIdleChildren up
            ((state.memory.schedulers up).idleChildren.erase leaf)).seen leaf =
            state.memory.seen leaf :=
          state.memory.seen_setIdleChildren _
        exact (congrArg Prod.fst same).trans awake
      · unfold withParent
        split <;> simp [Op.waits]

theorem performs_takeQueue (wakeful : Wakeful state leaf)
    (found : state.calls[index]? = some call)
    (ops : call.ops = .takeQueue leaf :: rest) :
    Wakeful (state.performs tree index call (.takeQueue leaf) rest) leaf := by
  have awake := wakeful.idle_eq_false found ops (by simp [Op.searches])
  cases above : tree.parent leaf with
  | none =>
      have result : perform tree state.memory (.takeQueue leaf) =
          (state.memory, []) := by
        simp [perform, above]
      exact wakeful.performs_awake found ops (by simp [Op.owns, Op.searches])
        result awake rfl
  | some up =>
      generalize taken : Queue.taskBatch
        (state.memory.schedulers leaf).queue (-1) = batch
      generalize left : Queue.afterTaskBatch
        (state.memory.schedulers leaf).queue (-1) = queue
      have result : perform tree state.memory (.takeQueue leaf) =
          ((state.memory.setQueue leaf queue).setActivation leaf .emptied,
            [.takeSlot leaf up batch]) := by
        simp [perform, above, taken, left]
      refine wakeful.performs_awake found ops (by simp [Op.owns, Op.searches])
        result ?_ (by simp [Op.waits])
      simpa [Memory.setQueue, Memory.setActivation, Memory.modify] using awake

/-- One operation of a call. -/
theorem performs (wakeful : Wakeful state leaf)
    (isLeaf : tree.isLeaf leaf = true)
    (found : state.calls[index]? = some call) (ops : call.ops = op :: rest)
    (stays : op.StaysAwake tree state)
    (succeeds : op.fails tree state.memory = false) :
    Wakeful (state.performs tree index call op rest) leaf := by
  cases concerned : op.concerns leaf with
  | false => exact wakeful.performs_of_apart found ops concerned
  | true =>
      cases op with
      | setSlotTask other task =>
          obtain rfl := of_decide_eq_true concerned
          exact wakeful.performs_setSlotTask found ops
      | resumeIdle other =>
          obtain rfl := of_decide_eq_true concerned
          exact wakeful.performs_resumeIdle found ops
      | queueTask other task =>
          obtain rfl := of_decide_eq_true concerned
          exact wakeful.performs_queueTask found ops
      | compareElements other elements =>
          obtain rfl := of_decide_eq_true concerned
          exact wakeful.performs_compareElements found ops stays
      | handleQueueOverflow other handleThreshold =>
          obtain rfl := of_decide_eq_true concerned
          exact wakeful.performs_handleQueueOverflow isLeaf found ops
            (stays isLeaf)
      | moveBatch other elements handleThreshold =>
          obtain rfl := of_decide_eq_true concerned
          exact wakeful.performs_moveBatch isLeaf found ops (stays isLeaf)
            succeeds
      | addTaskBatch other who batch handleThreshold =>
          obtain rfl := of_decide_eq_true concerned
          exact wakeful.performs_addTaskBatch isLeaf found ops
      | queueBatch other batch =>
          obtain rfl := of_decide_eq_true concerned
          exact wakeful.performs_queueBatch found ops stays
      | getTask other doWait =>
          obtain rfl := of_decide_eq_true concerned
          exact wakeful.performs_getTask found ops
      | leaveIdle other doWait =>
          obtain rfl := of_decide_eq_true concerned
          exact wakeful.performs_leaveIdle found ops
      | getSlotTask other doWait =>
          obtain rfl := of_decide_eq_true concerned
          exact wakeful.performs_takeSlotTask found ops
            (by simp [Op.searches]) rfl (fun task => by simp [Op.waits])
            (Or.inl (by simp [Op.waits]))
      | getQueueTask other doWait =>
          obtain rfl := of_decide_eq_true concerned
          exact wakeful.performs_getQueueTask found ops
      | poll other iterations =>
          obtain rfl := of_decide_eq_true concerned
          by_cases more : iterations < tree.pollingIterations
          · exact wakeful.performs_takeSlotTask found ops
              (by simp [Op.searches]) (if_pos more)
              (fun task => by simp [Op.waits])
              (Or.inr ⟨by simp [Op.waits], rfl⟩)
          · exact wakeful.performs_waiting found ops (by simp [Op.waits])
              (if_neg more) rfl
      | pollOnce other =>
          obtain rfl := of_decide_eq_true concerned
          exact wakeful.performs_takeSlotTask found ops
            (by simp [Op.searches]) rfl (fun task => by simp [Op.waits])
            (Or.inr ⟨by simp [Op.waits], rfl⟩)
      | timeOut other =>
          obtain rfl := of_decide_eq_true concerned
          exact wakeful.performs_waiting found ops (by simp [Op.waits]) rfl rfl
      | becomeIdle other =>
          obtain rfl := of_decide_eq_true concerned
          exact wakeful.performs_becomeIdle found ops
      | disable other =>
          obtain rfl := of_decide_eq_true concerned
          exact wakeful.performs_disable found ops
      | unidleLeaf other =>
          obtain rfl := of_decide_eq_true concerned
          exact wakeful.performs_unidleLeaf found ops
      | takeQueue other =>
          obtain rfl := of_decide_eq_true concerned
          exact wakeful.performs_takeQueue found ops
      | takeSlot other up batch =>
          obtain rfl := of_decide_eq_true concerned
          have nobody : ∀ batch : List TaskId,
              (sendUp up other batch true ++
                [Op.disableChild up other other]).countP (Op.waits other) =
              0 := by
            intro batch
            unfold sendUp
            split <;> simp [Op.waits]
          exact wakeful.performs_takeSlotTask found ops
            (by simp [Op.searches]) rfl (fun task => nobody _)
            (Or.inl (nobody _))
      | _ => cases concerned

/-- A call that does not belong to the CPU starts. -/
theorem starts_of_apart (wakeful : Wakeful state leaf)
    {cpu : Option (Fin size)} (apart : op.concerns leaf = false) :
    Wakeful (state.starts cpu op) leaf := by
  have own := owns_eq_false apart
  have searching : op.searches leaf = false := by
    cases found : op.searches leaf with
    | false => rfl
    | true => rw [owns_of_searches op found] at own; cases own
  have waiting : op.waits leaf = false := by
    cases found : op.waits leaf with
    | false => rfl
    | true => rw [owns_of_waits op found] at own; cases own
  have dormant : (state.starts cpu op).isDormant leaf =
      state.isDormant leaf := by
    simp only [State.isDormant, count_starts, waiting, Bool.toNat_false,
      Nat.add_zero]
    rfl
  constructor
  · intro call member owns
    rcases List.mem_append.mp member with old | new
    · exact wakeful.owned call old owns
    · rw [List.mem_singleton.mp new] at owns
      simp [own] at owns
  · rw [count_starts, own]
    exact wakeful.single
  · rw [count_starts, searching]
    exact wakeful.awake
  · rw [count_starts, wakes_eq_false apart]
    exact wakeful.slot
  · rw [dormant, count_starts, owes_eq_false apart]
    exact wakeful.queue

/-- The CPU of the leaf starts a call; it has been woken up. -/
theorem starts_own (wakeful : Wakeful state leaf) (free : state.IsFree leaf)
    (own : op.owns leaf = true) (waking : op.wakes leaf = true)
    (before : op.searches leaf = false) (owing : op.owes leaf = false)
    {memory : Memory size}
    (schedulers : memory.schedulers = state.memory.schedulers) :
    Wakeful { state.starts (some leaf) op with memory := memory } leaf := by
  have nothing : state.count (Op.owns leaf) = 0 := by
    rw [State.count, total, List.sum_eq_zero_iff_forall_eq_nat]
    intro amount member
    obtain ⟨call, inside, rfl⟩ := List.mem_map.mp member
    by_contra some
    exact free call inside
      (wakeful.owned call inside (Nat.pos_of_ne_zero some))
  have waiting : op.waits leaf = false := by
    cases found : op.waits leaf with
    | false => rfl
    | true => rw [searches_of_waits op found] at before; cases before
  have counts : ∀ test : Op size → Bool,
      State.count test { state.starts (some leaf) op with memory := memory } =
        state.count test + (test op).toNat :=
    fun test => count_starts test state (some leaf) op
  constructor
  · intro call member owns
    rcases List.mem_append.mp member with old | new
    · exact wakeful.owned call old owns
    · rw [List.mem_singleton.mp new]
  · rw [counts, nothing, own]
    exact le_rfl
  · rw [counts, before, schedulers]
    exact wakeful.awake
  · intro _ _
    rw [counts, waking, Bool.toNat_true]
    omega
  · rw [State.isDormant, counts, waiting, counts, owing, schedulers]
    exact wakeful.queue

/-- What the leaf does not see. -/
theorem congr (wakeful : Wakeful state leaf) {memory : Memory size}
    (schedulers : memory.schedulers = state.memory.schedulers)
    (resumed : memory.resumed leaf = state.memory.resumed leaf)
    (added : List TaskId) :
    Wakeful { state with memory := memory, added := added } leaf := by
  constructor
  · exact wakeful.owned
  · exact wakeful.single
  · rw [schedulers]
    exact wakeful.awake
  · rw [schedulers, resumed]
    exact wakeful.slot
  · rw [State.isDormant, schedulers]
    exact wakeful.queue

theorem proceed {next : State size} {label : Label size}
    (wakeful : Wakeful state leaf) (isLeaf : tree.isLeaf leaf = true)
    (stays : StaysAwake tree state label)
    (succeeds : state.fails tree label = false)
    (taken : TreeScheduler.proceed tree state label = some next) :
    Wakeful next leaf := by
  cases label with
  | perform index =>
      obtain ⟨call, op, rest, found, ops, rfl⟩ := proceed_perform taken
      rw [fails_perform found ops] at succeeds
      refine wakeful.performs isLeaf found ops (stays.2 op ?_) succeeds
      simp [State.operation, found, ops]
  | addReadyTask task computePlace =>
      simp only [TreeScheduler.proceed] at taken
      split at taken
      · cases taken
        exact (wakeful.starts_of_apart (by rfl)).congr rfl rfl _
      · cases taken
  | enableComputePlace other =>
      simp only [TreeScheduler.proceed] at taken
      split at taken
      · cases taken
        exact wakeful.starts_of_apart (by rfl)
      · cases taken
  | getReadyTask other doWait =>
      simp only [TreeScheduler.proceed] at taken
      split at taken
      · cases taken
        by_cases same : other = leaf
        · subst same
          exact wakeful.starts_own stays.1 (by simp [Op.owns])
            (by simp [Op.wakes]) rfl rfl rfl
        · have apart : Op.concerns leaf (.getTask other doWait) = false := by
            simp [Op.concerns, Op.owns, same]
          have resumed : (state.memory.wakesUp other).resumed leaf =
              state.memory.resumed leaf := by
            simp [Memory.wakesUp, Function.update_of_ne (Ne.symm same)]
          have started : Wakeful (state.starts (some other) _) leaf :=
            wakeful.starts_of_apart apart
          exact started.congr
            (rfl : (state.memory.wakesUp other).schedulers = _) resumed _
      · cases taken
  | disableComputePlace other =>
      simp only [TreeScheduler.proceed] at taken
      split at taken
      · cases taken
        by_cases same : other = leaf
        · subst same
          exact wakeful.starts_own stays.1 (by simp [Op.owns])
            (by simp [Op.wakes]) rfl rfl rfl
        · have apart : Op.concerns leaf (.disable other) = false := by
            simp [Op.concerns, Op.owns, same]
          have resumed : ((state.memory.wakesUp other).setActivation other
              .disabling).resumed leaf = state.memory.resumed leaf := by
            simp [Memory.wakesUp, Memory.setActivation,
              Function.update_of_ne (Ne.symm same)]
          have started : Wakeful (state.starts (some other) _) leaf :=
            wakeful.starts_of_apart apart
          exact started.congr
            (rfl : ((state.memory.wakesUp other).setActivation other
              .disabling).schedulers = _) resumed _
      · cases taken

/-- One permitted step. -/
theorem step {next : State size} {label : Label size}
    (wakeful : Wakeful state leaf) (isLeaf : tree.isLeaf leaf = true)
    (stays : StaysAwake tree state label)
    (taken : TreeScheduler.step tree state label = some next) :
    Wakeful next leaf := by
  obtain ⟨-, ⟨-, rfl⟩ | ⟨succeeds, proceeds⟩⟩ := step_cases taken
  · exact ⟨wakeful.owned, wakeful.single, wakeful.awake, wakeful.slot,
      wakeful.queue⟩
  · exact wakeful.proceed isLeaf stays succeeds proceeds

theorem initial (tree : Tree size) (queueThreshold : Fin size → Nat)
    (leaf : Fin size) : Wakeful (initialState tree queueThreshold) leaf := by
  constructor
  · intro call member
    cases member
  · exact Nat.zero_le _
  · intro some
    cases some
  · intro idle
    cases idle
  · intro _ _
    exact Nat.zero_le _

end Wakeful

end Step

/-! ### Runs -/

/-- The scheduler that an operation works on. -/
def Op.scheduler : Op size → Option (Fin size)
  | .addReadyTask _ _ => none
  | .addTask leaf _ _ => leaf
  | .setSlotTask leaf _ => leaf
  | .resumeIdle leaf => leaf
  | .queueTask leaf _ => leaf
  | .compareElements leaf _ => leaf
  | .clearRebalance id => id
  | .handleQueueOverflow id _ => id
  | .moveBatch id _ _ => id
  | .addTaskBatch id _ _ _ => id
  | .queueBatch leaf _ => leaf
  | .increaseQueueThreshold id => id
  | .decreaseQueueThreshold id => id
  | .zeroQueueThreshold id => id
  | .updateQueueThreshold id => id
  | .testRebalance leaf => leaf
  | .testRunning leaf => leaf
  | .compareThreshold id _ => id
  | .markRebalance id => id
  | .assignThreshold id _ => id
  | .askNode node _ _ => node
  | .takeBatch node _ _ _ => node
  | .exchangeRebalance id => id
  | .measureQueue id => id
  | .compareSize id _ => id
  | .getTask leaf _ => leaf
  | .leaveIdle leaf _ => leaf
  | .unidleCPU leaf => leaf
  | .getSlotTask leaf _ => leaf
  | .getQueueTask leaf _ => leaf
  | .poll leaf _ => leaf
  | .pollOnce leaf => leaf
  | .timeOut leaf => leaf
  | .becomeIdle leaf => leaf
  | .returnTask leaf _ => leaf
  | .disable leaf => leaf
  | .unidleLeaf leaf => leaf
  | .unidleChild node _ => node
  | .takeQueue leaf => leaf
  | .takeSlot leaf _ _ => leaf
  | .disableChild node _ _ => node
  | .emptyNode node _ => node
  | .returnDisabled leaf => leaf
  | .enable leaf => leaf

/-- A call on the scheduler is in progress.  An update of the threshold that has
not begun is none. -/
def State.isCalled (state : State size) (id : Fin size) : Bool :=
  state.calls.any fun call => call.ops.any fun op =>
    op.scheduler = some id ∧ op ≠ .updateQueueThreshold id

/-- The leaf is idle: nothing is called on it, its CPU is in the idle set and
has not been resumed. -/
def State.Sleeps (state : State size) (leaf : Fin size) : Prop :=
  state.isCalled leaf = false ∧
    (state.memory.schedulers leaf).idle = true ∧
    state.memory.idleCPUs leaf = true ∧ state.memory.resumed leaf = 0

/-- A leaf that sleeps has no task. -/
def State.SleepsWithoutWork (tree : Tree size) (state : State size) : Prop :=
  ∀ leaf, tree.isLeaf leaf = true → state.Sleeps leaf →
    (state.memory.schedulers leaf).queue = [] ∧
      (state.memory.schedulers leaf).pollingSlot = none

theorem count_eq_zero_of_isCalled {state : State size} {leaf : Fin size}
    (quiet : state.isCalled leaf = false) {test : Op size → Bool}
    (there : ∀ op, test op = true →
      op.scheduler = some leaf ∧ op ≠ .updateQueueThreshold leaf) :
    state.count test = 0 := by
  rw [State.count, total, List.sum_eq_zero_iff_forall_eq_nat]
  intro amount member
  obtain ⟨call, inside, rfl⟩ := List.mem_map.mp member
  rw [List.countP_eq_zero]
  intro op op_mem passes
  have called : state.isCalled leaf = true := by
    refine List.any_eq_true.mpr ⟨call, inside, ?_⟩
    refine List.any_eq_true.mpr ⟨op, op_mem, ?_⟩
    exact decide_eq_true (there op passes)
  rw [quiet] at called
  cases called

theorem Wakeful.sleepsWithoutWork {state : State size} {leaf : Fin size}
    (wakeful : Wakeful state leaf) (sleeps : state.Sleeps leaf) :
    (state.memory.schedulers leaf).queue = [] ∧
      (state.memory.schedulers leaf).pollingSlot = none := by
  obtain ⟨quiet, idle, -, asleep⟩ := sleeps
  have waking : state.count (Op.wakes leaf) = 0 :=
    count_eq_zero_of_isCalled quiet fun op passes => by
      cases op <;> simp_all [Op.wakes, Op.scheduler]
  have owing : state.count (Op.owes leaf) = 0 :=
    count_eq_zero_of_isCalled quiet fun op passes => by
      cases op <;> simp_all [Op.owes, Op.scheduler]
  have slot : (state.memory.schedulers leaf).pollingSlot = none := by
    by_contra occupied
    have someone := wakeful.slot idle occupied
    omega
  have queue := wakeful.queue (isDormant_eq_true.mpr (Or.inl idle)) slot
  rw [owing] at queue
  exact ⟨List.eq_nil_of_length_eq_zero (Nat.le_zero.mp queue), slot⟩

def State.IsWakeful (tree : Tree size) (state : State size) : Prop :=
  ∀ leaf, tree.isLeaf leaf = true → Wakeful state leaf

/-- In every run in which a CPU makes one call at a time and nothing is left in
the queue of a dormant leaf, the leaves that sleep have no task. -/
theorem sleepsWithoutWork_of_run {tree : Tree size}
    {queueThreshold : Fin size → Nat} {state : State size}
    (run : Run (step tree) (StaysAwake tree)
      (initialState tree queueThreshold) state) :
    state.SleepsWithoutWork tree := by
  have wakeful : state.IsWakeful tree :=
    run.invariant
      (fun leaf _ => Wakeful.initial tree queueThreshold leaf)
      fun _ _ _ wakeful stays taken leaf isLeaf =>
        (wakeful leaf isLeaf).step isLeaf stays taken
  intro leaf isLeaf sleeps
  exact (wakeful leaf isLeaf).sleepsWithoutWork sleeps

instance (state : State size) (leaf : Fin size) :
    Decidable (state.IsFree leaf) :=
  inferInstanceAs (Decidable (∀ call ∈ state.calls, call.cpu ≠ some leaf))

instance (state : State size) (label : Label size) :
    Decidable (MakesOneCall state label) :=
  match label with
  | .addReadyTask _ computePlace =>
      inferInstanceAs (Decidable (∀ leaf ∈ computePlace, state.IsFree leaf))
  | .getReadyTask leaf _ => inferInstanceAs (Decidable (state.IsFree leaf))
  | .disableComputePlace leaf =>
      inferInstanceAs (Decidable (state.IsFree leaf))
  | .enableComputePlace leaf =>
      inferInstanceAs (Decidable (state.IsFree leaf))
  | .perform _ => inferInstanceAs (Decidable True)

instance (tree : Tree size) (state : State size) (op : Op size) :
    Decidable (op.StaysAwake tree state) := by
  cases op <;> unfold Op.StaysAwake <;> infer_instance

instance (tree : Tree size) (state : State size) (label : Label size) :
    Decidable (StaysAwake tree state label) :=
  inferInstanceAs (Decidable (MakesOneCall state label ∧
    ∀ op ∈ state.operation label, op.StaysAwake tree state))

instance (state : State size) (leaf : Fin size) :
    Decidable (state.Sleeps leaf) :=
  inferInstanceAs (Decidable (state.isCalled leaf = false ∧
    (state.memory.schedulers leaf).idle = true ∧
    state.memory.idleCPUs leaf = true ∧ state.memory.resumed leaf = 0))

/-- The call at the index performs so many operations. -/
def performsAll (index operations : Nat) : List (Label size) :=
  List.replicate operations (.perform index)

/-- A CPU that finds nothing sleeps, is woken up for a task, and sleeps
again. -/
def wokenUp : List (Label 2) :=
  .getReadyTask smallLeaf false :: performsAll 0 16 ++
    .addReadyTask 7 none :: performsAll 0 5 ++
    .getReadyTask smallLeaf false :: performsAll 0 6 ++
    .getReadyTask smallLeaf false :: performsAll 0 16

theorem sleepsWithoutWork_wokenUp :
    ∃ state,
      Run (step (smallTree 100000)) (StaysAwake (smallTree 100000))
        (initialState (smallTree 100000) fun _ => 0) state ∧
      state.Sleeps 1 ∧ state.SleepsWithoutWork (smallTree 100000) := by
  have executed :
      (executeAllowed (step (smallTree 100000))
        (StaysAwake (smallTree 100000))
        (initialState (smallTree 100000) fun _ => 0) wokenUp).any
        (fun state => decide (state.Sleeps 1)) = true := by
    decide +kernel
  obtain ⟨state, run, sleeps⟩ :=
    exists_run_of_executeAllowed wokenUp _ _ executed
  exact ⟨state, run, of_decide_eq_true sleeps, sleepsWithoutWork_of_run run⟩

/-- A task from outside finds the CPU running and is to be queued; the CPU
finishes its tasks and looks at its queue; then the task is queued, and the CPU
goes to sleep. -/
def leftBehind : List (Label 2) :=
  .addReadyTask 1 none :: performsAll 0 4 ++
    .getReadyTask smallLeaf false :: performsAll 0 5 ++
    .addReadyTask 2 none :: performsAll 0 15 ++
    .addReadyTask 3 none :: performsAll 0 2 ++
    .getReadyTask smallLeaf false :: performsAll 1 11 ++
    .getReadyTask smallLeaf false :: performsAll 1 4 ++
    performsAll 0 3 ++ performsAll 0 13

theorem sleepsWithoutWork_fails :
    ¬ ∀ state,
      Run (step (smallTree 100000)) MakesOneCall
        (initialState (smallTree 100000) fun _ => 0) state →
      state.SleepsWithoutWork (smallTree 100000) := by
  intro holds
  have executed :
      (executeAllowed (step (smallTree 100000)) MakesOneCall
        (initialState (smallTree 100000) fun _ => 0) leftBehind).any
        (fun state => decide (state.Sleeps 1 ∧
          (state.memory.schedulers 1).queue = [3])) = true := by
    decide +kernel
  obtain ⟨state, run, left⟩ :=
    exists_run_of_executeAllowed leftBehind _ _ executed
  obtain ⟨sleeps, queue⟩ := of_decide_eq_true left
  have empty := (holds state run 1 rfl sleeps).1
  rw [queue] at empty
  cases empty

end Nanos6.TreeScheduler
