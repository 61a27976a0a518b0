import Mathlib.Data.List.Palindrome
import Nanos6.Scheduling.TreeScheduler

/-!
# The run order of the queues

A queue of the tree scheduler is a deque from whose front `getTask` takes the
next task.  Tasks are moved between queues in batches, in which the task that
should run the earliest is at the end: `getTaskBatch` pops the tasks that would
run the latest from the back, and `addTaskBatch` pushes a batch from its end to
its beginning, to the back of a `FIFOQueue` and to the front of a `LIFOQueue`.
-/

namespace Nanos6.TreeScheduler.Queue

/-! ### The loops of the queues -/

def getTask : List TaskId → Option TaskId × List TaskId
  | [] => (none, [])
  | task :: rest => (some task, rest)

/-- The tasks that calls of `getTask` return, up to the first one that returns
none. -/
def drain : Nat → List TaskId → List TaskId
  | 0, _ => []
  | calls + 1, queue =>
      match getTask queue with
      | (none, _) => []
      | (some task, rest) => task :: drain calls rest

theorem popBatch_append (queue taken : List TaskId) :
    popBatch taken.length (queue ++ taken) = (taken.reverse, queue) := by
  induction taken using List.reverseRecOn generalizing queue with
  | nil => simp [popBatch]
  | append_singleton taken task inductionHypothesis =>
      rw [List.length_append, List.length_singleton, popBatch,
        ← List.append_assoc, List.getLast?_concat]
      dsimp only
      rw [List.dropLast_concat, inductionHypothesis]
      simp

/-- The closed form of `getTaskBatch` is its loop. -/
theorem popBatch_eq {queue : List TaskId} {elements : Nat}
    (within : elements ≤ queue.length) :
    popBatch elements queue =
      ((queue.drop (queue.length - elements)).reverse,
        queue.take (queue.length - elements)) := by
  have popped := popBatch_append (queue.take (queue.length - elements))
    (queue.drop (queue.length - elements))
  rw [List.take_append_drop, List.length_drop] at popped
  rwa [Nat.sub_sub_self within] at popped

/-- A queue is drained from its front. -/
theorem drain_eq {calls : Nat} {queue : List TaskId}
    (enough : queue.length ≤ calls) : drain calls queue = queue := by
  induction calls generalizing queue with
  | zero =>
      rw [List.eq_nil_of_length_eq_zero (Nat.le_zero.mp enough)]
      rfl
  | succ calls inductionHypothesis =>
      cases queue with
      | nil => rfl
      | cons task rest =>
          rw [List.length_cons] at enough
          simp only [drain, getTask]
          rw [inductionHypothesis (Nat.le_of_succ_le_succ enough)]

/-! ### The size of a queue as an `int` -/

theorem toInt_of_lt {elements : Nat} (small : elements < 2 ^ 31) :
    toInt elements = elements := by
  unfold toInt
  rw [Int.bmod_def]
  omega

theorem toInt_lt (elements : Nat) : toInt elements < 2 ^ 31 := by
  have bound := Int.bmod_lt (x := (elements : Int)) (m := 2 ^ 32) (by decide)
  unfold toInt
  omega

/-- How many tasks a batch is asked to have. -/
def requested (queue : List TaskId) (elements : Int) : Nat :=
  if elements < 0 then queue.length else min elements.toNat queue.length

theorem requested_le (queue : List TaskId) (elements : Int) :
    requested queue elements ≤ queue.length := by
  unfold requested
  split
  · exact le_rfl
  · exact min_le_right _ _

theorem getTaskBatch_of_lt {queue : List TaskId}
    (small : queue.length < 2 ^ 31) (elements : Int) :
    getTaskBatch queue elements =
      some (popBatch (requested queue elements) queue) := by
  have number : intElements queue elements = requested queue elements := by
    unfold intElements requested
    rw [toInt_of_lt small]
    by_cases negative : elements < 0
    · rw [if_pos (Or.inl negative), if_pos negative]
    · rw [if_neg negative]
      split
      · omega
      · omega
  unfold getTaskBatch
  rw [number, if_neg (by omega), Int.toNat_natCast]

theorem isNone_getTaskBatch {queue : List TaskId}
    (small : queue.length < 2 ^ 31) (elements : Int) :
    (getTaskBatch queue elements).isNone = false := by
  rw [getTaskBatch_of_lt small]
  rfl

/-! ### What a batch takes -/

theorem toInt_le (elements : Nat) : toInt elements ≤ elements := by
  unfold toInt
  rw [Int.bmod_def]
  omega

theorem intElements_le (queue : List TaskId) (elements : Int) :
    intElements queue elements ≤ queue.length := by
  unfold intElements
  split
  · exact toInt_le queue.length
  · omega

/-- The batch is the end of the queue, back to front. -/
theorem taskBatch_eq (queue : List TaskId) (elements : Int) :
    taskBatch queue elements =
      (queue.drop
        (queue.length - (intElements queue elements).toNat)).reverse := by
  have within := intElements_le queue elements
  unfold taskBatch getTaskBatch
  split
  · rw [Int.toNat_of_nonpos (by omega), Nat.sub_zero, List.drop_length]
    rfl
  · rw [popBatch_eq (by omega)]
    rfl

theorem afterTaskBatch_eq (queue : List TaskId) (elements : Int) :
    afterTaskBatch queue elements =
      queue.take (queue.length - (intElements queue elements).toNat) := by
  have within := intElements_le queue elements
  unfold afterTaskBatch getTaskBatch
  split
  · rw [Int.toNat_of_nonpos (by omega), Nat.sub_zero, List.take_length]
    rfl
  · rw [popBatch_eq (by omega)]
    rfl

theorem count_taskBatch (queue : List TaskId) (elements : Int)
    (task : TaskId) :
    (afterTaskBatch queue elements).count task +
        (taskBatch queue elements).count task =
      queue.count task := by
  rw [afterTaskBatch_eq, taskBatch_eq, List.count_reverse,
    ← List.count_append, List.take_append_drop]

theorem length_afterTaskBatch_le (queue : List TaskId) (elements : Int) :
    (afterTaskBatch queue elements).length ≤ queue.length := by
  rw [afterTaskBatch_eq]
  exact List.length_take_le' _ _

@[simp]
theorem taskBatch_nil (elements : Int) : taskBatch [] elements = [] := by
  simp [taskBatch_eq]

@[simp]
theorem afterTaskBatch_nil (elements : Int) :
    afterTaskBatch [] elements = [] := by
  simp [afterTaskBatch_eq]

/-- A batch that is asked for has a task, if there is one and its number does
not vanish in the conversion to `int`. -/
theorem length_afterTaskBatch_lt {queue : List TaskId} {elements : Int}
    (asked : elements ≠ 0) (counts : toInt queue.length = 0 → queue = [])
    (created : (getTaskBatch queue elements).isNone = false) :
    (afterTaskBatch queue elements).length ≤ queue.length - 1 := by
  by_cases empty : queue = []
  · simp [empty]
  · have some : intElements queue elements ≠ 0 := by
      unfold intElements
      split
      · exact fun vanishes => empty (counts vanishes)
      · exact asked
    have positive : ¬ intElements queue elements < 0 := by
      intro negative
      rw [getTaskBatch, if_pos negative] at created
      cases created
    rw [afterTaskBatch_eq, List.length_take]
    omega

/-- A queue with a size that is an `int` is taken as a whole. -/
theorem afterTaskBatch_all {queue : List TaskId}
    (small : queue.length < 2 ^ 31) : afterTaskBatch queue (-1) = [] := by
  have number : intElements queue (-1) = queue.length := by
    unfold intElements
    rw [if_pos (Or.inl (by decide)), toInt_of_lt small]
  rw [afterTaskBatch_eq, number, Int.toNat_natCast, Nat.sub_self,
    List.take_zero]

/-! ### The run order across batches -/

/-- What the operations do to the order in which `getTask` returns the tasks of
a queue, with the convention for batches. -/
structure KeepsRunOrder (lifo : Bool) (queue : List TaskId) (elements : Int)
    (batch : List TaskId) : Prop where
  /-- The batch has the tasks that would be returned last. -/
  taken : ∃ taken rest, getTaskBatch queue elements = some (taken, rest) ∧
    taken.length = requested queue elements ∧
    drain queue.length queue = drain rest.length rest ++ taken.reverse
  /-- A batch runs from its end to its beginning. -/
  added : drain batch.length (addTaskBatch lifo [] batch) = batch.reverse
  /-- A queue that is moved as a whole keeps its order. -/
  moved : ∃ taken, getTaskBatch queue (-1) = some (taken, []) ∧
    drain queue.length (addTaskBatch lifo [] taken) =
      drain queue.length queue

theorem length_addTaskBatch (lifo : Bool) (batch : List TaskId) :
    (addTaskBatch lifo [] batch).length = batch.length := by
  cases lifo <;> simp [addTaskBatch]

theorem drain_addTaskBatch (lifo : Bool) (batch : List TaskId) :
    drain batch.length (addTaskBatch lifo [] batch) =
      if lifo then batch else batch.reverse := by
  rw [drain_eq (length_addTaskBatch lifo batch).le]
  cases lifo <;> simp [addTaskBatch]

/-- A queue that is moved as a whole by `getTaskBatch(-1)` has to have a size
that is an `int`. -/
theorem length_lt_of_getTaskBatch {queue taken : List TaskId}
    (whole : getTaskBatch queue (-1) = some (taken, [])) :
    queue.length < 2 ^ 31 := by
  unfold getTaskBatch at whole
  split at whole
  · cases whole
  · have number : intElements queue (-1) = toInt queue.length := by
      simp [intElements]
    rw [number] at whole
    have bound := toInt_lt queue.length
    by_contra large
    rw [popBatch_eq (by omega)] at whole
    injection whole with pair
    injection pair with _ rest
    rw [List.take_eq_nil_iff] at rest
    rcases rest with short | empty
    · omega
    · rw [empty] at large
      exact large (by decide)

theorem palindrome_iff {tasks : List TaskId} :
    tasks = tasks.reverse ↔ tasks.Palindrome := by
  rw [List.Palindrome.iff_reverse_eq]
  exact eq_comm

theorem keepsRunOrder_iff (lifo : Bool) (queue : List TaskId)
    (elements : Int) (batch : List TaskId) :
    KeepsRunOrder lifo queue elements batch ↔
      queue.length < 2 ^ 31 ∧
        (lifo = false ∨ batch.Palindrome ∧ queue.Palindrome) := by
  constructor
  · rintro ⟨-, added, whole, popped, moved⟩
    have small := length_lt_of_getTaskBatch popped
    refine ⟨small, ?_⟩
    rw [getTaskBatch_of_lt small, popBatch_eq (requested_le _ _)] at popped
    injection popped with pair
    injection pair with taken rest
    have all : requested queue (-1) = queue.length := rfl
    rw [all, Nat.sub_self, List.drop_zero] at taken
    subst taken
    rw [drain_addTaskBatch] at added
    have moves := drain_addTaskBatch lifo queue.reverse
    rw [List.length_reverse] at moves
    rw [moves, drain_eq le_rfl] at moved
    cases lifo with
    | false => exact Or.inl rfl
    | true =>
        exact Or.inr ⟨palindrome_iff.mp added, palindrome_iff.mp moved.symm⟩
  · rintro ⟨small, order⟩
    refine ⟨?_, ?_, ?_⟩
    · have popped := getTaskBatch_of_lt small elements
      rw [popBatch_eq (requested_le _ _)] at popped
      refine ⟨_, _, popped, ?_, ?_⟩
      · rw [List.length_reverse, List.length_drop,
          Nat.sub_sub_self (requested_le _ _)]
      · rw [drain_eq le_rfl, drain_eq le_rfl, List.reverse_reverse,
          List.take_append_drop]
    · rw [drain_addTaskBatch]
      rcases order with rfl | ⟨same, -⟩
      · rfl
      · cases lifo with
        | false => rfl
        | true => exact palindrome_iff.mpr same
    · have all : requested queue (-1) = queue.length := rfl
      refine ⟨queue.reverse, ?_, ?_⟩
      · rw [getTaskBatch_of_lt small, popBatch_eq (requested_le _ _), all,
          Nat.sub_self, List.drop_zero, List.take_zero]
      · have moves := drain_addTaskBatch lifo queue.reverse
        rw [List.length_reverse] at moves
        rw [moves, drain_eq le_rfl, List.reverse_reverse]
        rcases order with rfl | ⟨-, same⟩
        · rfl
        · cases lifo with
          | false => rfl
          | true => exact (palindrome_iff.mpr same).symm

/-- A `LIFOQueue` runs a batch of two tasks from its beginning. -/
theorem keepsRunOrder_fails :
    ¬ ∀ lifo queue elements batch,
      KeepsRunOrder lifo queue elements batch := by
  intro keeps
  have order := (keeps true [] (-1) [1, 2]).added
  exact absurd order (by decide)

end Nanos6.TreeScheduler.Queue
