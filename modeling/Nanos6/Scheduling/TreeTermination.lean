import Nanos6.Scheduling.TreeConservation
import Mathlib.Algebra.Order.BigOperators.Group.List
import Mathlib.Algebra.Order.BigOperators.Group.Finset
import Mathlib.Algebra.Order.Ring.Nat
import Mathlib.Tactic.GCongr
import Mathlib.Tactic.Linarith
import Mathlib.Tactic.Ring

/-!
# The calls of the tree scheduler come to an end

A batch that overflows goes up, towards the topmost node; it comes down again
only to a child that was registered as idle, and the entry is used up.  A call
registers a child at most once in each node above its leaf, and twice at that.
The topmost node updates the thresholds of the whole tree, and what the leaves
then give back no longer changes the threshold.  The weights below follow this
argument: those of the operations that are called are together less than that of
the operation that calls them.
-/

namespace Nanos6.TreeScheduler

open Foundation

variable {size : Nat}

/-- The call comes to an end when nothing interferes. -/
inductive Finishes (tree : Tree size) : Memory size → List (Op size) → Prop
  | done (memory : Memory size) : Finishes tree memory []
  | next {memory : Memory size} {op : Op size} {rest : List (Op size)} :
      op.fails tree memory = false →
      Finishes tree (perform tree memory op).1
        ((perform tree memory op).2 ++ rest) →
      Finishes tree memory (op :: rest)

/-- The operation belongs to a call that disables a leaf. -/
def Op.disables : Op size → Bool
  | .disable _ => true
  | .unidleLeaf _ => true
  | .takeQueue _ => true
  | .takeSlot _ _ _ => true
  | .disableChild _ _ _ => true
  | .emptyNode _ _ => true
  | _ => false

/-- The calls come to an end; one that disables a leaf only if the assertion of
`disableChild` is left out. -/
def State.Terminates (tree : Tree size) (state : State size) : Prop :=
  ∀ call ∈ state.calls,
    (tree.ndebug = true ∨ ∀ op ∈ call.ops, op.disables = false) →
    Finishes tree state.memory call.ops

/-! ### Weights -/

section Weights

variable (size)

/-- A bound for the way of a batch, with so many idle children at most. -/
def hop (idle : Nat) : Nat :=
  8 * ((idle + 1) * (size + 1))

/-- A bound for an update of the thresholds of a whole tree. -/
def raise (idle : Nat) : Nat :=
  (size + 1) ^ size * (hop size idle + 8) + 2

/-- A bound for the request of a node. -/
def ask (idle : Nat) : Nat :=
  2 * (hop size idle + raise size idle + 8)

end Weights

/-- The way up from a scheduler. -/
def climb (idle : Nat) (id : Fin size) : Nat :=
  8 * (idle * (size + 1) + id)

def raiseIf (size : Nat) (handleThreshold : Bool) (idle : Nat) : Nat :=
  if handleThreshold then raise size idle else 0

/-- The weight of an operation, with so many idle children at most. -/
def Op.weight (tree : Tree size) (idle : Nat) : Op size → Nat
  | .addReadyTask _ _ => hop size idle + raise size idle + 12
  | .addTask leaf _ _ => climb idle leaf + raise size idle + 10
  | .setSlotTask leaf _ => climb idle leaf + raise size idle + 8
  | .resumeIdle _ => 1
  | .queueTask leaf _ => climb idle leaf + raise size idle + 7
  | .compareElements leaf _ => climb idle leaf + raise size idle + 6
  | .clearRebalance _ => 1
  | .handleQueueOverflow id handleThreshold =>
      climb idle id + raiseIf size handleThreshold idle + 5
  | .moveBatch id _ handleThreshold =>
      climb idle id + raiseIf size handleThreshold idle + 4
  | .addTaskBatch id _ _ handleThreshold =>
      climb idle id + raiseIf size handleThreshold idle + 8
  | .queueBatch _ _ => 1
  | .increaseQueueThreshold _ => raise size idle - 1
  | .decreaseQueueThreshold _ => raise size idle - 1
  | .zeroQueueThreshold _ => raise size idle - 1
  | .updateQueueThreshold id =>
      (size + 1) ^ (size - id) * (hop size idle + 8)
  | .testRebalance leaf => climb idle leaf + 6
  | .testRunning leaf => climb idle leaf + 5
  | .compareThreshold _ _ => 2
  | .markRebalance _ => 1
  | .assignThreshold _ _ => 1
  | .askNode node _ _ => ask size idle + 4 * node + 4
  | .takeBatch node _ _ _ => ask size idle + 4 * node + 3
  | .exchangeRebalance id => climb idle id + raise size idle + 8
  | .measureQueue id => climb idle id + raise size idle + 7
  | .compareSize id _ => climb idle id + raise size idle + 6
  | .getTask _ _ =>
      2 * ask size idle + 8 * size + tree.pollingIterations + 25
  | .leaveIdle _ _ =>
      2 * ask size idle + 8 * size + tree.pollingIterations + 24
  | .unidleCPU _ => 1
  | .getSlotTask _ _ =>
      2 * ask size idle + 8 * size + tree.pollingIterations + 22
  | .getQueueTask _ _ =>
      2 * ask size idle + 8 * size + tree.pollingIterations + 20
  | .poll _ iterations =>
      ask size idle + 4 * size + (tree.pollingIterations - iterations) + 9
  | .pollOnce _ => ask size idle + 4 * size + 9
  | .timeOut _ => ask size idle + 4 * size + 8
  | .becomeIdle _ => 2
  | .returnTask _ _ => 1
  | .disable _ =>
      (size + 1) * (hop size idle + raise size idle + 8) + size + 5
  | .unidleLeaf _ =>
      (size + 1) * (hop size idle + raise size idle + 8) + size + 4
  | .unidleChild node _ => node + 1
  | .takeQueue _ => (size + 1) * (hop size idle + raise size idle + 8) + 2
  | .takeSlot _ _ _ => (size + 1) * (hop size idle + raise size idle + 8) + 1
  | .disableChild node _ _ =>
      (node + 1) * (hop size idle + raise size idle + 8) + 1
  | .emptyNode node _ => (node + 1) * (hop size idle + raise size idle + 8)
  | .returnDisabled _ => 1
  | .enable _ => 1

/-- How often the operation may register an idle child. -/
def Op.registrations : Op size → Nat
  | .askNode node _ _ => node + 1
  | .takeBatch node _ _ _ => node + 1
  | .getTask _ _ => 2 * size
  | .leaveIdle _ _ => 2 * size
  | .getSlotTask _ _ => 2 * size
  | .getQueueTask _ _ => 2 * size
  | .poll _ _ => size
  | .pollOnce _ => size
  | .timeOut _ => size
  | _ => 0

def weigh (tree : Tree size) (idle : Nat) (ops : List (Op size)) : Nat :=
  total (Op.weight tree idle) ops

def registrations (ops : List (Op size)) : Nat :=
  total Op.registrations ops

/-- The children that are registered as idle. -/
def Memory.idleEntries (memory : Memory size) : Nat :=
  memory.sum fun scheduler => scheduler.idleChildren.length

section Monotone

variable (size)

@[gcongr]
theorem hop_mono {idle more : Nat} (le : idle ≤ more) :
    hop size idle ≤ hop size more := by
  unfold hop
  gcongr

@[gcongr]
theorem raise_mono {idle more : Nat} (le : idle ≤ more) :
    raise size idle ≤ raise size more := by
  unfold raise
  gcongr

@[gcongr]
theorem ask_mono {idle more : Nat} (le : idle ≤ more) :
    ask size idle ≤ ask size more := by
  unfold ask
  gcongr

end Monotone

@[gcongr]
theorem climb_mono {idle more : Nat} (id : Fin size) (le : idle ≤ more) :
    climb idle id ≤ climb more id := by
  unfold climb
  gcongr

@[gcongr]
theorem raiseIf_mono (size : Nat) {idle more : Nat} (handleThreshold : Bool)
    (le : idle ≤ more) :
    raiseIf size handleThreshold idle ≤ raiseIf size handleThreshold more := by
  cases handleThreshold
  · exact le_rfl
  · exact raise_mono size le

/-- With more idle children every operation weighs more. -/
theorem Op.weight_mono (tree : Tree size) {idle more : Nat}
    (le : idle ≤ more) (op : Op size) :
    op.weight tree idle ≤ op.weight tree more := by
  cases op <;> simp only [Op.weight] <;> first
    | exact le_rfl
    | gcongr

theorem weigh_mono (tree : Tree size) {idle more : Nat} (le : idle ≤ more)
    (ops : List (Op size)) : weigh tree idle ops ≤ weigh tree more ops := by
  induction ops with
  | nil => exact le_rfl
  | cons op rest inductionHypothesis =>
      have first := op.weight_mono tree le
      simp only [weigh, total, List.map_cons, List.sum_cons] at *
      omega

section Sums

variable (tree : Tree size) (idle : Nat) (op : Op size)

@[simp]
theorem weigh_nil : weigh tree idle [] = 0 :=
  rfl

@[simp]
theorem weigh_cons (rest : List (Op size)) :
    weigh tree idle (op :: rest) =
      op.weight tree idle + weigh tree idle rest := by
  simp [weigh, total]

@[simp]
theorem weigh_append (first second : List (Op size)) :
    weigh tree idle (first ++ second) =
      weigh tree idle first + weigh tree idle second :=
  total_append _ first second

@[simp]
theorem registrations_nil : registrations ([] : List (Op size)) = 0 :=
  rfl

@[simp]
theorem registrations_cons (rest : List (Op size)) :
    registrations (op :: rest) = op.registrations + registrations rest := by
  simp [registrations, total]

@[simp]
theorem registrations_append (first second : List (Op size)) :
    registrations (first ++ second) =
      registrations first + registrations second :=
  total_append _ first second

end Sums

namespace Memory

variable (memory : Memory size) (id : Fin size)

theorem idleEntries_setIdleChildren (entries : List (Fin size)) :
    (memory.setIdleChildren id entries).idleEntries +
        (memory.schedulers id).idleChildren.length =
      memory.idleEntries + entries.length :=
  memory.sum_modify (fun scheduler => scheduler.idleChildren.length) id _

@[simp]
theorem idleEntries_setQueue (queue : List TaskId) :
    (memory.setQueue id queue).idleEntries = memory.idleEntries :=
  memory.sum_modify_of_eq _ id _ rfl

@[simp]
theorem idleEntries_setSlot (slot : Option TaskId) :
    (memory.setSlot id slot).idleEntries = memory.idleEntries :=
  memory.sum_modify_of_eq _ id _ rfl

@[simp]
theorem idleEntries_setRebalance (value : Bool) :
    (memory.setRebalance id value).idleEntries = memory.idleEntries :=
  memory.sum_modify_of_eq _ id _ rfl

@[simp]
theorem idleEntries_setThreshold (value : Nat) :
    (memory.setThreshold id value).idleEntries = memory.idleEntries :=
  memory.sum_modify_of_eq _ id _ rfl

@[simp]
theorem idleEntries_setIdle (value : Bool) :
    (memory.setIdle id value).idleEntries = memory.idleEntries :=
  memory.sum_modify_of_eq _ id _ rfl

@[simp]
theorem idleEntries_setRunning (value : Bool) :
    (memory.setRunning id value).idleEntries = memory.idleEntries :=
  memory.sum_modify_of_eq _ id _ rfl

@[simp]
theorem idleEntries_setEnabledChildren (value : Int) :
    (memory.setEnabledChildren id value).idleEntries = memory.idleEntries :=
  memory.sum_modify_of_eq _ id _ rfl

@[simp]
theorem idleEntries_setIdleCPU (value : Bool) :
    (memory.setIdleCPU id value).idleEntries = memory.idleEntries :=
  rfl

@[simp]
theorem idleEntries_setActivation (value : Activation) :
    (memory.setActivation id value).idleEntries = memory.idleEntries :=
  rfl

end Memory

/-! ### Bounds -/

theorem climb_add_le_hop (idle : Nat) (id : Fin size) :
    climb idle id + 16 ≤ hop size idle := by
  have inside := id.isLt
  have expanded : (idle + 1) * (size + 1) = idle * (size + 1) + (size + 1) := by
    ring
  unfold climb hop
  omega

/-- A step up is lighter. -/
theorem climb_parent {tree : Tree size} {id up : Fin size}
    (above : tree.parent id = some up) (idle : Nat) :
    climb idle up + 8 ≤ climb idle id := by
  have lower : up.val < id.val := tree.parent_lt id up above
  unfold climb
  omega

/-- A step down, for which an idle child is used up, is lighter too. -/
theorem climb_child (idle : Nat) (child id : Fin size) :
    climb idle child + 16 ≤ climb (idle + 1) id := by
  have inside := child.isLt
  have expanded : (idle + 1) * (size + 1) = idle * (size + 1) + (size + 1) := by
    ring
  unfold climb
  omega

theorem update_add_le_raise (idle : Nat) (id : Fin size) :
    (size + 1) ^ (size - id) * (hop size idle + 8) + 2 ≤ raise size idle := by
  unfold raise
  have fewer : size - id.val ≤ size := Nat.sub_le _ _
  gcongr
  omega

theorem hop_add_le_ask (size idle : Nat) :
    2 * hop size idle + 2 * raise size idle + 16 = ask size idle := by
  unfold ask
  ring

theorem weigh_sendUp (tree : Tree size) (idle : Nat) (up id : Fin size)
    (batch : List TaskId) (handleThreshold : Bool) :
    weigh tree idle (sendUp up id batch handleThreshold) ≤
      climb idle up + raiseIf size handleThreshold idle + 8 := by
  unfold sendUp
  split
  · simp
  · simp [Op.weight]

theorem registrations_sendUp (up id : Fin size) (batch : List TaskId)
    (handleThreshold : Bool) :
    registrations (sendUp up id batch handleThreshold) = 0 := by
  unfold sendUp
  split <;> rfl

/-- The updates of the children together. -/
theorem weigh_updates (tree : Tree size) (idle bound : Nat)
    (children : List (Fin size))
    (below : ∀ child ∈ children,
      (size + 1) ^ (size - child.val) * (hop size idle + 8) ≤ bound) :
    weigh tree idle (children.map .updateQueueThreshold) ≤
      children.length * bound := by
  induction children with
  | nil => simp
  | cons child rest inductionHypothesis =>
      have first := below child List.mem_cons_self
      have others := inductionHypothesis fun other member =>
        below other (List.mem_cons_of_mem _ member)
      simp only [List.map_cons, weigh_cons, Op.weight, List.length_cons]
      have expanded : (rest.length + 1) * bound =
          rest.length * bound + bound := by
        ring
      omega

theorem weigh_takeOverThreshold (tree : Tree size) (idle : Nat)
    (id : Fin size) (queueThreshold : Nat) :
    weigh tree idle (takeOverThreshold tree id queueThreshold) <
      (size + 1) ^ (size - id) * (hop size idle + 8) := by
  unfold takeOverThreshold
  split
  · have climbs := climb_add_le_hop idle id
    have power : 1 ≤ (size + 1) ^ (size - id.val) := Nat.one_le_pow _ _ (by omega)
    have least : 1 * (hop size idle + 8) ≤
        (size + 1) ^ (size - id.val) * (hop size idle + 8) := by
      gcongr
    split <;> simp only [weigh_cons, weigh_nil, Op.weight] <;> omega
  · generalize bound : (size + 1) ^ (size - id.val - 1) * (hop size idle + 8) =
      each
    have inside := id.isLt
    have power : (size + 1) ^ (size - id.val) =
        (size + 1) ^ (size - id.val - 1) * (size + 1) := by
      rw [← pow_succ]
      congr 1
      omega
    have least : 1 * 8 ≤ each := by
      rw [← bound]
      gcongr
      · exact Nat.one_le_pow _ _ (by omega)
      · omega
    have updates := weigh_updates tree idle each (tree.children id)
      fun child member => by
        have lower : id.val < child.val :=
          tree.parent_lt child id (Tree.mem_children.mp member)
        have shorter : size - child.val ≤ size - id.val - 1 := by omega
        have smaller : (size + 1) ^ (size - child.val) ≤
            (size + 1) ^ (size - id.val - 1) :=
          Nat.pow_le_pow_right (by omega) shorter
        rw [← bound]
        exact Nat.mul_le_mul_right _ smaller
    have few : (tree.children id).length * each ≤ size * each := by
      gcongr
      exact tree.length_children_le id
    have whole : (size + 1) ^ (size - id.val) * (hop size idle + 8) =
        size * each + each := by
      rw [power, ← bound]
      ring
    have own : weigh tree idle (if (tree.parent id).isSome then
        [Op.compareThreshold id queueThreshold,
          Op.assignThreshold id queueThreshold] else []) ≤ 3 := by
      split <;> simp [Op.weight]
    rw [weigh_append, whole]
    omega

theorem registrations_takeOverThreshold (tree : Tree size) (id : Fin size)
    (queueThreshold : Nat) :
    registrations (takeOverThreshold tree id queueThreshold) = 0 := by
  unfold takeOverThreshold
  split
  · split <;> rfl
  · have updates : registrations
        ((tree.children id).map Op.updateQueueThreshold) = 0 := by
      induction tree.children id with
      | nil => rfl
      | cons child rest inductionHypothesis =>
          rw [List.map_cons, registrations_cons, inductionHypothesis]
          rfl
    rw [registrations_append, updates]
    split <;> rfl

/-! ### One operation -/

/-- The operations that follow are lighter than the one performed, as they are
or because an idle child has been used up. -/
def Lighter (tree : Tree size) (memory : Memory size) (op : Op size)
    (next : Memory size × List (Op size)) : Prop :=
  (next.1.idleEntries + registrations next.2 ≤
      memory.idleEntries + op.registrations ∧
    ∀ idle, weigh tree idle next.2 < op.weight tree idle) ∨
  (next.1.idleEntries + registrations next.2 <
      memory.idleEntries + op.registrations ∧
    ∀ idle, weigh tree idle next.2 < op.weight tree (idle + 1))

/-- The operation is looking for a leaf for a task from outside. -/
def Op.deals : Op size → Bool
  | .addReadyTask _ none => true
  | _ => false

section Lighter

variable {tree : Tree size} {memory : Memory size} {op : Op size}

theorem Lighter.intro {next : Memory size} {ops : List (Op size)}
    (same : next.idleEntries = memory.idleEntries)
    (registers : registrations ops ≤ op.registrations)
    (weighs : ∀ idle, weigh tree idle ops < op.weight tree idle) :
    Lighter tree memory op (next, ops) := by
  refine Or.inl ⟨?_, weighs⟩
  dsimp only
  omega

theorem lighter_takeSlotTask {leaf : Fin size}
    {found : TaskId → List (Op size)} {otherwise : List (Op size)}
    (taken : ∀ task, registrations (found task) ≤ op.registrations ∧
      ∀ idle, weigh tree idle (found task) < op.weight tree idle)
    (nothing : registrations otherwise ≤ op.registrations ∧
      ∀ idle, weigh tree idle otherwise < op.weight tree idle) :
    Lighter tree memory op (takeSlotTask memory leaf found otherwise) := by
  unfold takeSlotTask
  split
  · rename_i task occupied
    exact Lighter.intro (by simp) (taken task).1 (taken task).2
  · exact Lighter.intro rfl nothing.1 nothing.2

theorem registrations_askParent (tree : Tree size) (leaf : Fin size)
    (force : Bool) :
    registrations (withParent tree leaf fun up => [.askNode up leaf force]) ≤
      size := by
  unfold withParent
  split
  · rename_i up above
    have inside := up.isLt
    simp only [registrations_cons, registrations_nil, Op.registrations]
    omega
  · exact Nat.zero_le _

theorem weigh_askParent (tree : Tree size) (idle : Nat) (leaf : Fin size)
    (force : Bool) :
    weigh tree idle (withParent tree leaf fun up => [.askNode up leaf force]) ≤
      ask size idle + 4 * size := by
  unfold withParent
  split
  · rename_i up above
    have inside := up.isLt
    simp only [weigh_cons, weigh_nil, Op.weight]
    omega
  · exact Nat.zero_le _

theorem lighter_addBatchToLeaf (leaf who : Fin size) (batch : List TaskId)
    (handleThreshold : Bool) :
    Lighter tree memory (.addTaskBatch leaf who batch handleThreshold)
      (addBatchToLeaf memory leaf batch) := by
  unfold addBatchToLeaf
  split
  · refine Lighter.intro (by simp) ?_ fun idle => ?_
    · split <;> simp [Op.registrations]
    · split <;> simp only [List.nil_append, List.cons_append, weigh_cons,
        weigh_nil, Op.weight] <;> omega
  · refine Lighter.intro rfl (by simp [Op.registrations]) fun idle => ?_
    simp only [weigh_cons, weigh_nil, Op.weight]
    omega

theorem length_popIdleChild_none {who : Fin size}
    {entries rest : List (Fin size)}
    (popped : Memory.popIdleChild who entries = (none, rest)) : rest = [] := by
  unfold Memory.popIdleChild at popped
  split at popped
  · cases popped
    rfl
  · cases popped

theorem length_popIdleChild_some {who child : Fin size}
    {entries rest : List (Fin size)}
    (popped : Memory.popIdleChild who entries = (some child, rest)) :
    rest.length < entries.length := by
  unfold Memory.popIdleChild at popped
  split at popped
  · cases popped
  · rename_i first others dropped
    cases popped
    have suffix := List.dropWhile_suffix (l := entries) (· = who)
    have bounded := suffix.length_le
    rw [dropped, List.length_cons] at bounded
    exact bounded

theorem lighter_addBatchToNode (id who : Fin size) (batch : List TaskId)
    (handleThreshold : Bool) :
    Lighter tree memory (.addTaskBatch id who batch handleThreshold)
      (addBatchToNode tree memory id who batch handleThreshold) := by
  unfold addBatchToNode
  split
  · rename_i child rest popped
    have fewer := length_popIdleChild_some popped
    have entries := memory.idleEntries_setIdleChildren id rest
    refine Or.inr ⟨?_, fun idle => ?_⟩
    · simp only [registrations_cons, registrations_nil, Op.registrations]
      omega
    · have climbs := climb_child idle child id
      have raises := raiseIf_mono size handleThreshold
        (Nat.le_add_right idle 1)
      simp only [weigh_cons, weigh_nil, Op.weight]
      omega
  · rename_i rest popped
    have nothing := length_popIdleChild_none popped
    have entries := memory.idleEntries_setIdleChildren id rest
    rw [nothing, List.length_nil] at entries
    dsimp only
    refine Or.inl ⟨?_, fun idle => ?_⟩
    · rw [Memory.idleEntries_setQueue, nothing]
      split <;> simp [Op.registrations] <;> omega
    · split <;> simp only [List.nil_append, List.cons_append, weigh_cons,
        weigh_nil, Op.weight] <;> omega

theorem lighter_giveBatch (node child : Fin size) (force : Bool)
    (elements : Nat) :
    Lighter tree memory (.takeBatch node child force elements)
      (giveBatch tree memory node child force elements) := by
  by_cases nothing :
      (Queue.taskBatch (memory.schedulers node).queue
        (Queue.toInt elements)) = []
  · rw [giveBatch_of_nil tree child force nothing]
    have entries := memory.idleEntries_setIdleChildren node
      ((memory.schedulers node).idleChildren ++ [child])
    rw [List.length_append, List.length_singleton] at entries
    refine Or.inl ⟨?_, fun idle => ?_⟩
    · rw [Memory.idleEntries_setRebalance]
      unfold askFurther
      split
      · rename_i up above
        have lower : up.val < node.val := tree.parent_lt node up above
        simp only [registrations_cons, registrations_nil, Op.registrations]
        omega
      · split <;> simp only [registrations_cons, registrations_nil,
          Op.registrations] <;> omega
    · have asks := hop_add_le_ask size idle
      unfold askFurther
      split
      · rename_i up above
        have lower : up.val < node.val := tree.parent_lt node up above
        simp only [weigh_cons, weigh_nil, Op.weight]
        omega
      · split <;> simp only [weigh_cons, weigh_nil, Op.weight] <;> omega
  · rw [giveBatch_of_ne tree child force nothing]
    refine Lighter.intro (by simp) ?_ fun idle => ?_
    · split <;> simp [Op.registrations]
    · have asks := hop_add_le_ask size idle
      have fromChild := climb_add_le_hop idle child
      have fromNode := climb_add_le_hop idle node
      split <;> simp only [weigh_cons, weigh_nil, Op.weight, raiseIf,
        if_true] <;> omega

/-- Every operation calls lighter ones; a loop that polls ends because its
counter reaches the bound. -/
theorem lighter_perform (short : tree.pollingIterations < 2 ^ 32)
    (memory : Memory size) (op : Op size) (dealt : op.deals = false) :
    Lighter tree memory op (perform tree memory op) := by
  cases op with
  | addReadyTask task computePlace =>
      cases computePlace with
      | none => cases dealt
      | some leaf =>
          refine Lighter.intro rfl le_rfl fun idle => ?_
          have climbs := climb_add_le_hop idle leaf
          simp only [weigh_cons, weigh_nil, Op.weight]
          omega
  | addTask leaf task hasComputePlace =>
      refine Lighter.intro rfl ?_ fun idle => ?_
      · split <;> exact le_rfl
      · split <;> simp only [weigh_cons, weigh_nil, Op.weight] <;> omega
  | setSlotTask leaf task =>
      simp only [perform]
      split
      · refine Lighter.intro (by simp) ?_ fun idle => ?_
        · split <;> exact le_rfl
        · split <;> simp only [weigh_cons, weigh_nil, Op.weight] <;> omega
      · refine Lighter.intro rfl le_rfl fun idle => ?_
        simp only [weigh_cons, weigh_nil, Op.weight]
        omega
  | queueTask leaf task =>
      refine Lighter.intro (by simp) le_rfl fun idle => ?_
      simp only [weigh_cons, weigh_nil, Op.weight]
      omega
  | compareElements leaf elements =>
      refine Lighter.intro rfl ?_ fun idle => ?_
      · split <;> exact le_rfl
      · split <;> simp only [weigh_cons, weigh_nil, Op.weight, raiseIf,
          if_true] <;> omega
  | handleQueueOverflow id handleThreshold =>
      refine Lighter.intro rfl ?_ fun idle => ?_
      · split
        · exact le_rfl
        · split <;> exact le_rfl
      · split
        · simp only [weigh_cons, weigh_nil, Op.weight]
          omega
        · split
          · rename_i handles
            simp only [weigh_cons, weigh_nil, Op.weight, raiseIf, handles,
              if_true]
            omega
          · simp only [weigh_nil, Op.weight]
            omega
  | moveBatch id elements handleThreshold =>
      simp only [perform]
      split
      · rename_i up above
        refine Lighter.intro (by simp) ?_ fun idle => ?_
        · rw [registrations_sendUp]
          exact Nat.zero_le _
        · have climbs := climb_parent above idle
          have sends := weigh_sendUp tree idle up id
            (Queue.taskBatch (memory.schedulers id).queue
              (Queue.toInt elements)) handleThreshold
          simp only [Op.weight]
          omega
      · refine Lighter.intro rfl le_rfl fun idle => ?_
        simp only [weigh_nil, Op.weight]
        omega
  | addTaskBatch id who batch handleThreshold =>
      simp only [perform]
      split
      · exact lighter_addBatchToLeaf id who batch handleThreshold
      · exact lighter_addBatchToNode id who batch handleThreshold
  | increaseQueueThreshold id
  | decreaseQueueThreshold id
  | zeroQueueThreshold id =>
      refine Lighter.intro (by simp) le_rfl fun idle => ?_
      have updates := update_add_le_raise idle id
      simp only [weigh_cons, weigh_nil, Op.weight]
      omega
  | updateQueueThreshold id =>
      refine Lighter.intro rfl ?_ fun idle => ?_
      · rw [registrations_takeOverThreshold]
        exact Nat.zero_le _
      · exact weigh_takeOverThreshold tree idle id _
  | testRebalance leaf
  | testRunning leaf =>
      refine Lighter.intro rfl ?_ fun idle => ?_
      · split <;> exact le_rfl
      · split <;> simp only [weigh_cons, weigh_nil, Op.weight, raiseIf,
          Bool.false_eq_true, if_false] <;> omega
  | compareThreshold id queueThreshold =>
      refine Lighter.intro rfl ?_ fun idle => ?_
      · split <;> exact le_rfl
      · split <;> simp [Op.weight]
  | askNode node child force =>
      refine Lighter.intro rfl le_rfl fun idle => ?_
      simp only [weigh_cons, weigh_nil, Op.weight]
      omega
  | takeBatch node child force elements =>
      exact lighter_giveBatch node child force elements
  | exchangeRebalance id =>
      refine Lighter.intro (by simp) ?_ fun idle => ?_
      · split <;> exact le_rfl
      · split <;> simp only [weigh_cons, weigh_nil, Op.weight] <;> omega
  | measureQueue id =>
      refine Lighter.intro rfl le_rfl fun idle => ?_
      simp only [weigh_cons, weigh_nil, Op.weight]
      omega
  | compareSize id elements =>
      refine Lighter.intro rfl ?_ fun idle => ?_
      · split <;> exact le_rfl
      · split <;> simp only [weigh_cons, weigh_nil, Op.weight, raiseIf,
          if_true] <;> omega
  | getTask leaf doWait =>
      refine Lighter.intro (by simp) (by simp [Op.registrations])
        fun idle => ?_
      simp only [weigh_cons, weigh_nil, Op.weight]
      omega
  | leaveIdle leaf doWait =>
      simp only [perform]
      split
      · refine Lighter.intro (by simp) (by simp [Op.registrations])
          fun idle => ?_
        simp only [weigh_cons, weigh_nil, Op.weight]
        omega
      · refine Lighter.intro rfl (by simp [Op.registrations]) fun idle => ?_
        simp only [weigh_cons, weigh_nil, Op.weight]
        omega
  | getSlotTask leaf doWait =>
      refine lighter_takeSlotTask (fun task => ⟨by simp [Op.registrations],
        fun idle => ?_⟩) ⟨by simp [Op.registrations], fun idle => ?_⟩ <;>
        simp only [weigh_cons, weigh_nil, Op.weight] <;> omega
  | getQueueTask leaf doWait =>
      simp only [perform]
      split
      · refine Lighter.intro (by simp) (by simp [Op.registrations])
          fun idle => ?_
        have climbs := climb_add_le_hop idle leaf
        have asks := hop_add_le_ask size idle
        simp only [weigh_cons, weigh_nil, Op.weight]
        omega
      · have registers := registrations_askParent tree leaf false
        refine Lighter.intro rfl ?_ fun idle => ?_
        · cases doWait <;>
            simp [Op.registrations] <;> omega
        · have asks := weigh_askParent tree idle leaf false
          cases doWait <;>
            simp only [weigh_cons, weigh_append, weigh_nil, Op.weight,
              Bool.false_eq_true, if_false, if_true] <;> omega
  | poll leaf iterations =>
      simp only [perform]
      split
      · rename_i more
        have noWrap : (iterations + 1) % 2 ^ 32 = iterations + 1 :=
          Nat.mod_eq_of_lt (by omega)
        rw [noWrap]
        refine lighter_takeSlotTask (fun task => ⟨by simp [Op.registrations],
          fun idle => ?_⟩) ⟨by simp [Op.registrations], fun idle => ?_⟩ <;>
          simp only [weigh_cons, weigh_nil, Op.weight] <;> omega
      · refine Lighter.intro rfl le_rfl fun idle => ?_
        simp only [weigh_cons, weigh_nil, Op.weight]
        omega
  | pollOnce leaf =>
      refine lighter_takeSlotTask (fun task => ⟨by simp [Op.registrations],
        fun idle => ?_⟩) ⟨by simp [Op.registrations], fun idle => ?_⟩ <;>
        simp only [weigh_cons, weigh_nil, Op.weight] <;> omega
  | timeOut leaf =>
      have registers := registrations_askParent tree leaf true
      refine Lighter.intro rfl ?_ fun idle => ?_
      · split <;> simp [Op.registrations] <;> omega
      · have asks := weigh_askParent tree idle leaf true
        split <;> simp only [weigh_cons, weigh_append, weigh_nil,
          Op.weight] <;> omega
  | becomeIdle leaf =>
      simp only [perform]
      split
      · exact Lighter.intro (by simp) le_rfl fun idle => by simp [Op.weight]
      · exact Lighter.intro (by simp) le_rfl fun idle => by simp [Op.weight]
  | disable leaf =>
      simp only [perform]
      split
      · refine Lighter.intro (by simp) le_rfl fun idle => ?_
        simp only [weigh_cons, weigh_nil, Op.weight]
        omega
      · refine Lighter.intro rfl le_rfl fun idle => ?_
        simp only [weigh_cons, weigh_nil, Op.weight]
        omega
  | unidleLeaf leaf =>
      simp only [perform]
      split
      · rename_i up above
        have entries := memory.idleEntries_setIdleChildren up
          ((memory.schedulers up).idleChildren.erase leaf)
        have fewer := List.length_erase_le
          (a := leaf) (l := (memory.schedulers up).idleChildren)
        refine Or.inl ⟨?_, fun idle => ?_⟩
        · unfold withParent
          split <;> simp only [registrations_append, registrations_cons,
            registrations_nil, Op.registrations] <;> omega
        · unfold withParent
          split
          · rename_i grand further
            have inside := grand.isLt
            simp only [weigh_cons, weigh_append, weigh_nil, Op.weight]
            omega
          · simp only [weigh_cons, weigh_append, weigh_nil, Op.weight]
            omega
      · refine Lighter.intro rfl le_rfl fun idle => ?_
        simp [Op.weight]
  | unidleChild node child =>
      have entries := memory.idleEntries_setIdleChildren node
        ((memory.schedulers node).idleChildren.erase child)
      have fewer := List.length_erase_le
        (a := child) (l := (memory.schedulers node).idleChildren)
      refine Or.inl ⟨?_, fun idle => ?_⟩
      · simp only [perform]
        unfold withParent
        split <;> simp only [registrations_cons, registrations_nil,
          Op.registrations] <;> omega
      · simp only [perform]
        unfold withParent
        split
        · rename_i up above
          have lower : up.val < node.val := tree.parent_lt node up above
          simp only [weigh_cons, weigh_nil, Op.weight]
          omega
        · simp [Op.weight]
  | takeQueue leaf =>
      simp only [perform]
      split
      · refine Lighter.intro (by simp) le_rfl fun idle => ?_
        simp only [weigh_cons, weigh_nil, Op.weight]
        omega
      · refine Lighter.intro rfl le_rfl fun idle => ?_
        simp only [weigh_nil, Op.weight]
        omega
  | takeSlot leaf up batch =>
      have closes : ∀ batch idle,
          weigh tree idle (sendUp up leaf batch true ++
            [.disableChild up leaf leaf]) <
          Op.weight tree idle (.takeSlot leaf up batch) := by
        intro batch idle
        have sends := weigh_sendUp tree idle up leaf batch true
        have climbs := climb_add_le_hop idle up
        have inside : (up.val + 1) * (hop size idle + raise size idle + 8) ≤
            size * (hop size idle + raise size idle + 8) :=
          Nat.mul_le_mul_right _ up.isLt
        have expanded : (size + 1) * (hop size idle + raise size idle + 8) =
            size * (hop size idle + raise size idle + 8) +
              (hop size idle + raise size idle + 8) := by
          ring
        simp only [raiseIf, if_true] at sends
        simp only [weigh_append, weigh_cons, weigh_nil, Op.weight]
        omega
      refine lighter_takeSlotTask (fun task => ⟨?_, closes (batch ++ [task])⟩)
        ⟨?_, closes batch⟩
      · simp [registrations_sendUp, Op.registrations]
      · simp [registrations_sendUp, Op.registrations]
  | disableChild node child leaf =>
      refine Lighter.intro (by simp) ?_ fun idle => ?_
      · split <;> exact le_rfl
      · have positive : 0 <
            (node.val + 1) * (hop size idle + raise size idle + 8) := by
          positivity
        split <;> simp only [weigh_cons, weigh_nil, Op.weight] <;> omega
  | emptyNode node leaf =>
      simp only [perform]
      split
      · rename_i up above
        refine Lighter.intro (by simp) ?_ fun idle => ?_
        · simp [registrations_sendUp, Op.registrations]
        · have sends := weigh_sendUp tree idle up node
            (Queue.taskBatch (memory.schedulers node).queue (-1)) true
          have climbs := climb_add_le_hop idle up
          have lower : up.val < node.val := tree.parent_lt node up above
          have above :
              (up.val + 1) * (hop size idle + raise size idle + 8) ≤
                node.val * (hop size idle + raise size idle + 8) :=
            Nat.mul_le_mul_right _ lower
          have expanded :
              (node.val + 1) * (hop size idle + raise size idle + 8) =
                node.val * (hop size idle + raise size idle + 8) +
                  (hop size idle + raise size idle + 8) := by
            ring
          simp only [raiseIf, if_true] at sends
          simp only [weigh_append, weigh_cons, weigh_nil, Op.weight]
          omega
      · refine Lighter.intro rfl le_rfl fun idle => ?_
        have positive : 0 <
            (node.val + 1) * (hop size idle + raise size idle + 8) := by
          positivity
        simpa only [weigh_nil, Op.weight] using positive
  | enable leaf =>
      simp only [perform]
      split
      · exact Lighter.intro (by simp) le_rfl fun idle => by simp [Op.weight]
      · exact Lighter.intro rfl le_rfl fun idle => by simp [Op.weight]
  | resumeIdle leaf =>
      exact Lighter.intro rfl le_rfl fun idle => by simp [Op.weight]
  | returnTask leaf task =>
      refine Lighter.intro ?_ le_rfl fun idle => by simp [Op.weight]
      exact memory.idleEntries_setRunning leaf true
  | clearRebalance id
  | queueBatch leaf batch
  | markRebalance id
  | assignThreshold id queueThreshold
  | unidleCPU leaf
  | returnDisabled leaf =>
      exact Lighter.intro (by simp) le_rfl fun idle => by simp [Op.weight]

end Lighter

/-! ### A call on its own -/

/-- What the operations are called with has less weight all together. -/
theorem Lighter.weigh_lt {tree : Tree size} {memory : Memory size}
    {op : Op size} {next : Memory size × List (Op size)}
    (lighter : Lighter tree memory op next) (rest : List (Op size)) :
    weigh tree (next.1.idleEntries + registrations (next.2 ++ rest))
        (next.2 ++ rest) <
      weigh tree (memory.idleEntries + registrations (op :: rest))
        (op :: rest) := by
  rw [weigh_append, weigh_cons, registrations_append, registrations_cons]
  rcases lighter with ⟨registers, weighs⟩ | ⟨registers, weighs⟩
  · have fewer : next.1.idleEntries +
        (registrations next.2 + registrations rest) ≤
        memory.idleEntries + (op.registrations + registrations rest) := by
      omega
    have first := (weigh_mono tree fewer next.2).trans_lt
      (weighs (memory.idleEntries + (op.registrations + registrations rest)))
    have others := weigh_mono tree fewer rest
    omega
  · have fewer : next.1.idleEntries +
        (registrations next.2 + registrations rest) + 1 ≤
        memory.idleEntries + (op.registrations + registrations rest) := by
      omega
    have first := (weighs (next.1.idleEntries +
      (registrations next.2 + registrations rest))).trans_le
        (op.weight_mono tree fewer)
    have others := weigh_mono tree ((Nat.le_succ _).trans fewer) rest
    omega

/-- Only the search for a leaf goes on as one. -/
theorem deals_perform {tree : Tree size} {memory : Memory size} {op : Op size}
    (dealt : op.deals = false) :
    ∀ called ∈ (perform tree memory op).2, called.deals = false := by
  cases op with
  | addReadyTask task computePlace =>
      cases computePlace with
      | none => cases dealt
      | some leaf => simp [perform, Op.deals]
  | updateQueueThreshold id =>
      simp only [perform, takeOverThreshold]
      repeat' split
      all_goals simp [Op.deals]
  | _ =>
      simp only [perform, withParent, sendUp, takeSlotTask, addBatchToLeaf,
        addBatchToNode, giveBatch, askFurther]
      repeat' split
      all_goals simp [Op.deals]

/-- Only a call that disables a leaf goes on as one. -/
theorem disables_perform {tree : Tree size} {memory : Memory size}
    {op : Op size} (apart : op.disables = false) :
    ∀ called ∈ (perform tree memory op).2, called.disables = false := by
  cases op with
  | addReadyTask task computePlace =>
      cases computePlace with
      | none =>
          simp only [perform]
          split <;> simp [Op.disables]
      | some leaf => simp [perform, Op.disables]
  | updateQueueThreshold id =>
      simp only [perform, takeOverThreshold]
      repeat' split
      all_goals simp [Op.disables]
  | disable | unidleLeaf | takeQueue | takeSlot | disableChild | emptyNode =>
      cases apart
  | _ =>
      simp only [perform, withParent, sendUp, takeSlotTask, addBatchToLeaf,
        addBatchToNode, giveBatch, askFurther]
      repeat' split
      all_goals simp [Op.disables]

/-! #### Batches that can be created -/

theorem count_returned_perform (tree : Tree size) (memory : Memory size)
    (op : Op size) (task : TaskId) :
    memory.returned.count task ≤
      (perform tree memory op).1.returned.count task := by
  cases op with
  | addReadyTask added computePlace => cases computePlace <;> exact le_rfl
  | returnTask leaf returned => exact List.count_le_count_cons
  | _ =>
      simp only [perform, takeSlotTask, addBatchToLeaf, addBatchToNode,
        giveBatch]
      repeat' split
      all_goals exact le_rfl

/-- The scheduler and the operations have few enough tasks for an `int`. -/
def Bounded (memory : Memory size) (ops : List (Op size)) : Prop :=
  ∃ tasks : List TaskId, tasks.length < 2 ^ 31 ∧
    ∀ task, memory.inTree task + (tasksOf ops).count task ≤ tasks.count task

theorem Bounded.length_lt {memory : Memory size} {ops : List (Op size)}
    (bounded : Bounded memory ops) (id : Fin size) :
    (memory.schedulers id).queue.length < 2 ^ 31 := by
  obtain ⟨tasks, few, counts⟩ := bounded
  have inside : ∀ task, (memory.schedulers id).queue.count task ≤
      tasks.count task := by
    intro task
    have held : (memory.schedulers id).holds task ≤ memory.inTree task :=
      Finset.single_le_sum
        (f := fun id => (memory.schedulers id).holds task)
        (fun _ _ => Nat.zero_le _) (Finset.mem_univ id)
    have counted := counts task
    unfold Scheduler.holds at held
    omega
  exact (List.subperm_ext_iff.mpr fun task _ => inside task).length_le.trans_lt
    few

/-- An operation brings no task. -/
theorem Bounded.perform (tree : Tree size) {memory : Memory size}
    {op : Op size} {rest : List (Op size)}
    (bounded : Bounded memory (op :: rest)) :
    Bounded (perform tree memory op).1
      ((perform tree memory op).2 ++ rest) := by
  obtain ⟨tasks, few, counts⟩ := bounded
  refine ⟨tasks, few, fun task => ?_⟩
  have kept := accounted_perform tree memory task op
  have returned := count_returned_perform tree memory op task
  have counted := counts task
  rw [tasksOf_cons, List.count_append] at counted
  rw [tasksOf_append, List.count_append]
  simp only [accounted, Memory.settled] at kept
  omega

theorem fails_eq_false {tree : Tree size} {memory : Memory size}
    {op : Op size}
    (small : ∀ id, (memory.schedulers id).queue.length < 2 ^ 31)
    (asserts : tree.ndebug = true ∨ op.disables = false) :
    op.fails tree memory = false := by
  cases op with
  | moveBatch id elements handleThreshold =>
      rw [Op.fails]
      exact Queue.isNone_getTaskBatch (small id) _
  | takeBatch node child force elements =>
      rw [Op.fails]
      exact Queue.isNone_getTaskBatch (small node) _
  | takeQueue leaf =>
      rw [Op.fails]
      exact Queue.isNone_getTaskBatch (small leaf) _
  | emptyNode node leaf =>
      rw [Op.fails]
      exact Queue.isNone_getTaskBatch (small node) _
  | disableChild node child leaf =>
      rcases asserts with ndebug | apart
      · simp [Op.fails, ndebug]
      · cases apart
  | _ => rfl

/-- A call that has found its leaf finishes. -/
theorem finishes_of_dealt {tree : Tree size}
    (short : tree.pollingIterations < 2 ^ 32) (memory : Memory size)
    (ops : List (Op size)) (dealt : ∀ op ∈ ops, op.deals = false)
    (asserts : tree.ndebug = true ∨ ∀ op ∈ ops, op.disables = false)
    (bounded : Bounded memory ops) : Finishes tree memory ops := by
  generalize bound :
    weigh tree (memory.idleEntries + registrations ops) ops = weight
  induction weight using Nat.strong_induction_on generalizing memory ops with
  | _ weight inductionHypothesis =>
      cases ops with
      | nil => exact .done memory
      | cons op rest =>
          have dealtFirst := dealt op List.mem_cons_self
          have less := (lighter_perform short memory op dealtFirst).weigh_lt
            rest
          rw [bound] at less
          have fails := fails_eq_false bounded.length_lt
            (asserts.imp_right fun apart => apart op List.mem_cons_self)
          refine .next fails (inductionHypothesis _ less _ _
            (fun called member => ?_) (asserts.imp_right fun apart called
              member => ?_) (bounded.perform tree) rfl)
          · rcases List.mem_append.mp member with new | old
            · exact deals_perform dealtFirst called new
            · exact dealt called (List.mem_cons_of_mem _ old)
          · rcases List.mem_append.mp member with new | old
            · exact disables_perform (apart op List.mem_cons_self) called new
            · exact apart called (List.mem_cons_of_mem _ old)

section Dealing

variable {tree : Tree size} {task : TaskId}

/-- The next position of the search. -/
def Memory.advance (tree : Tree size) (memory : Memory size) : Memory size :=
  { memory with
    schedRRCounter :=
      (memory.schedRRCounter + 1) % tree.cpuScheduler.length }

theorem finishes_advance (short : tree.pollingIterations < 2 ^ 32)
    {memory : Memory size} (bounded : Bounded memory [.addReadyTask task none])
    (later : Finishes tree (memory.advance tree) [.addReadyTask task none]) :
    Finishes tree memory [.addReadyTask task none] := by
  refine .next rfl ?_
  simp only [perform]
  split
  · rename_i leaf found
    exact finishes_of_dealt short _ _ (by simp [Op.deals])
      (Or.inr (by simp [Op.disables])) bounded
  · exact later

/-- The search reaches a CPU that is not behind it. -/
theorem finishes_before (short : tree.pollingIterations < 2 ^ 32)
    {cpu : Nat} {leaf : Fin size}
    (present : tree.cpuScheduler[cpu]? = some (some leaf)) (distance : Nat)
    {memory : Memory size} (bounded : Bounded memory [.addReadyTask task none])
    (before : memory.schedRRCounter + distance = cpu) :
    Finishes tree memory [.addReadyTask task none] := by
  induction distance generalizing memory with
  | zero =>
      have here : memory.schedRRCounter = cpu := before
      refine .next rfl ?_
      simp only [perform, here, present]
      exact finishes_of_dealt short _ _ (by simp [Op.deals])
        (Or.inr (by simp [Op.disables])) bounded
  | succ distance inductionHypothesis =>
      have inside : cpu < tree.cpuScheduler.length :=
        (List.getElem?_eq_some_iff.mp present).1
      refine finishes_advance short bounded (inductionHypothesis bounded ?_)
      have noWrap : (memory.schedRRCounter + 1) % tree.cpuScheduler.length =
          memory.schedRRCounter + 1 :=
        Nat.mod_eq_of_lt (by omega)
      simp only [Memory.advance, noWrap]
      omega

/-- Behind the last CPU the search starts again. -/
theorem finishes_inside (short : tree.pollingIterations < 2 ^ 32)
    {cpu : Nat} {leaf : Fin size}
    (present : tree.cpuScheduler[cpu]? = some (some leaf)) (left : Nat)
    {memory : Memory size} (bounded : Bounded memory [.addReadyTask task none])
    (inside : memory.schedRRCounter + left + 1 = tree.cpuScheduler.length) :
    Finishes tree memory [.addReadyTask task none] := by
  induction left generalizing memory with
  | zero =>
      refine finishes_advance short bounded
        (finishes_before short present cpu bounded ?_)
      have wraps : memory.schedRRCounter + 1 = tree.cpuScheduler.length :=
        inside
      simp [Memory.advance, wraps]
  | succ left inductionHypothesis =>
      refine finishes_advance short bounded (inductionHypothesis bounded ?_)
      have noWrap : (memory.schedRRCounter + 1) % tree.cpuScheduler.length =
          memory.schedRRCounter + 1 :=
        Nat.mod_eq_of_lt (by omega)
      simp only [Memory.advance, noWrap]
      omega

/-- A task from outside finds a leaf. -/
theorem finishes_addReadyTask (short : tree.pollingIterations < 2 ^ 32)
    {memory : Memory size}
    (bounded : Bounded memory [.addReadyTask task none]) :
    Finishes tree memory [.addReadyTask task none] := by
  obtain ⟨leaf, member⟩ := tree.populated
  obtain ⟨cpu, present⟩ := List.mem_iff_getElem?.mp member
  have inside : cpu < tree.cpuScheduler.length :=
    (List.getElem?_eq_some_iff.mp present).1
  have within : (memory.schedRRCounter + 1) % tree.cpuScheduler.length <
      tree.cpuScheduler.length :=
    Nat.mod_lt _ (by omega)
  refine finishes_advance short bounded (finishes_inside short present
    (tree.cpuScheduler.length - 1 -
      (memory.schedRRCounter + 1) % tree.cpuScheduler.length) bounded ?_)
  simp only [Memory.advance]
  omega

end Dealing

/-! ### Runs -/

/-- A call is looking for a leaf, or all its operations have one. -/
def Call.Deals (call : Call size) : Prop :=
  (∃ task, call.ops = [.addReadyTask task none]) ∨
    ∀ op ∈ call.ops, op.deals = false

theorem Call.Deals.finishes {tree : Tree size} {call : Call size}
    (deals : call.Deals) (short : tree.pollingIterations < 2 ^ 32)
    {memory : Memory size} (bounded : Bounded memory call.ops)
    (asserts : tree.ndebug = true ∨ ∀ op ∈ call.ops, op.disables = false) :
    Finishes tree memory call.ops := by
  rcases deals with ⟨task, ops⟩ | dealt
  · rw [ops] at bounded ⊢
    exact finishes_addReadyTask short bounded
  · exact finishes_of_dealt short memory call.ops dealt asserts bounded

theorem Call.Deals.performs {tree : Tree size} {memory : Memory size}
    {call next : Call size} {op : Op size} {rest : List (Op size)}
    (deals : call.Deals) (ops : call.ops = op :: rest)
    (member : next ∈ call.goesOn ((perform tree memory op).2 ++ rest)) :
    next.Deals := by
  have goesOn : next.ops = (perform tree memory op).2 ++ rest := by
    unfold Call.goesOn at member
    split at member
    · cases member
    · rw [List.mem_singleton.mp member]
  rcases deals with ⟨task, only⟩ | dealt
  · rw [ops] at only
    injection only with first others
    subst first others
    rw [List.append_nil] at goesOn
    simp only [perform] at goesOn
    split at goesOn
    · exact Or.inr (by simp [goesOn, Op.deals])
    · exact Or.inl ⟨task, goesOn⟩
  · rw [ops] at dealt
    refine Or.inr fun called called_mem => ?_
    rw [goesOn] at called_mem
    rcases List.mem_append.mp called_mem with new | old
    · exact deals_perform (dealt op List.mem_cons_self) called new
    · exact dealt called (List.mem_cons_of_mem _ old)

theorem mem_starts {state : State size} {cpu : Option (Fin size)}
    {op : Op size} {call : Call size}
    (member : call ∈ (state.starts cpu op).calls) :
    call ∈ state.calls ∨ call = { cpu := cpu, ops := [op] } := by
  rcases List.mem_append.mp member with old | new
  · exact Or.inl old
  · exact Or.inr (List.mem_singleton.mp new)

/-- The calls of a step: those of the state, with one that goes on or one that
is new. -/
theorem calls_of_proceed {tree : Tree size} {state next : State size}
    {label : Label size} (taken : proceed tree state label = some next)
    {call : Call size} (member : call ∈ next.calls) :
    call ∈ state.calls ∨ (∃ op, call.ops = [op]) ∨
      ∃ before op rest, before ∈ state.calls ∧ before.ops = op :: rest ∧
        call ∈ before.goesOn ((perform tree state.memory op).2 ++ rest) := by
  cases label with
  | perform index =>
      obtain ⟨before, op, rest, found, ops, rfl⟩ := proceed_perform taken
      rcases mem_replaceAt member with new | old
      · exact Or.inr (Or.inr ⟨before, op, rest,
          List.mem_of_getElem? found, ops, new⟩)
      · exact Or.inl old
  | _ =>
      simp only [proceed] at taken
      split at taken
      · cases taken
        rcases mem_starts member with old | rfl
        · exact Or.inl old
        · exact Or.inr (Or.inl ⟨_, rfl⟩)
      · cases taken

/-- Every call in progress is in order. -/
def State.Deals (state : State size) : Prop :=
  ∀ call ∈ state.calls, call.Deals

theorem deals_of_run {tree : Tree size} {queueThreshold : Fin size → Nat}
    {state : State size}
    (run : Runs tree (initialState tree queueThreshold) state) :
    state.Deals := by
  refine run.invariant (fun call member => by cases member) ?_
  intro state label next deals _ taken call member
  obtain ⟨-, ⟨-, rfl⟩ | ⟨-, proceeds⟩⟩ := step_cases taken
  · exact deals call member
  rcases calls_of_proceed proceeds member with old | ⟨op, ops⟩ | ⟨before, op, rest, old,
    ops, new⟩
  · exact deals call old
  · by_cases dealt : op.deals = false
    · exact Or.inr (by simp [ops, dealt])
    · cases op with
      | addReadyTask task computePlace =>
          cases computePlace with
          | none => exact Or.inl ⟨task, ops⟩
          | some leaf => exact absurd rfl dealt
      | _ => exact absurd rfl dealt
  · exact (deals before old).performs ops new

/-- A task is added only while there are fewer than `2 ^ 31` tasks in the tree,
and by a CPU only while it runs one, as `addTask` asserts. -/
def Admits (tree : Tree size) (state : State size) : Label size → Prop
  | .addReadyTask task computePlace =>
      state.added.length + 1 < state.memory.returned.length + 2 ^ 31 ∧
        state.fails tree (.addReadyTask task computePlace) = false
  | _ => True

/-- Tasks that have been returned stay returned. -/
theorem length_returned_perform (tree : Tree size) (memory : Memory size)
    (op : Op size) :
    memory.returned.length ≤ (perform tree memory op).1.returned.length :=
  (List.subperm_ext_iff.mpr fun task _ =>
    count_returned_perform tree memory op task).length_le

def State.HasFewTasks (state : State size) : Prop :=
  state.added.length < state.memory.returned.length + 2 ^ 31

theorem State.HasFewTasks.step {tree : Tree size} {state next : State size}
    {label : Label size} (few : state.HasFewTasks)
    (admits : Admits tree state label)
    (taken : step tree state label = some next) : next.HasFewTasks := by
  obtain ⟨-, ⟨-, rfl⟩ | ⟨-, proceeds⟩⟩ := step_cases taken
  · exact few
  cases label with
  | addReadyTask task computePlace =>
      simp only [proceed] at proceeds
      split at proceeds
      · cases proceeds
        exact admits.1
      · cases proceeds
  | perform index =>
      obtain ⟨call, op, rest, -, -, rfl⟩ := proceed_perform proceeds
      exact few.trans_le (Nat.add_le_add_right
        (length_returned_perform tree state.memory op) _)
  | getReadyTask | disableComputePlace | enableComputePlace =>
      simp only [proceed] at proceeds
      split at proceeds
      · cases proceeds
        exact few
      · cases proceeds

/-- What a call moves is part of what has not been returned. -/
theorem State.Conserves.bounded {state : State size}
    (conserves : state.Conserves) (few : state.HasFewTasks)
    {call : Call size} (member : call ∈ state.calls) :
    Bounded state.memory call.ops := by
  have fewer : ∀ task ∈ state.memory.returned,
      state.memory.returned.count task ≤ state.added.count task := by
    intro task _
    have account := conserves task
    omega
  have rest := List.subperm_append_diff_self_of_count_le fewer
  refine ⟨state.added.diff state.memory.returned, ?_, fun task => ?_⟩
  · have lengths := rest.length_eq
    rw [List.length_append] at lengths
    unfold State.HasFewTasks at few
    omega
  · have counts := rest.count_eq task
    rw [List.count_append] at counts
    have account := conserves task
    have moved : (tasksOf call.ops).count task ≤ state.moving task :=
      List.le_sum_of_mem (List.mem_map_of_mem member)
    omega

/-- With a bound that the counter can reach every call finishes. -/
theorem terminates_of_run {tree : Tree size}
    {queueThreshold : Fin size → Nat} {state : State size}
    (short : tree.pollingIterations < 2 ^ 32)
    (run : Run (step tree) (Admits tree)
      (initialState tree queueThreshold) state) :
    state.Terminates tree := by
  have anyRun : Runs tree (initialState tree queueThreshold) state :=
    run.mono fun _ _ _ => trivial
  have few : state.HasFewTasks :=
    run.invariant (by simp [State.HasFewTasks, initialState])
      fun _ _ _ few admits taken => few.step admits taken
  intro call member asserts
  exact (deals_of_run anyRun call member).finishes short
    ((conserves_of_run anyRun).bounded few member) asserts

/-! ### A bound that the counter cannot reach -/

/-- The operation waits for a task of the leaf, and does not stop. -/
def Op.polls (leaf : Fin size) : Op size → Prop
  | .getTask other doWait => other = leaf ∧ doWait = true
  | .leaveIdle other doWait => other = leaf ∧ doWait = true
  | .getSlotTask other doWait => other = leaf ∧ doWait = true
  | .getQueueTask other doWait => other = leaf ∧ doWait = true
  | .poll other iterations => other = leaf ∧ iterations < 2 ^ 32
  | _ => False

/-- An empty tree stays empty. -/
theorem empty_perform (tree : Tree size) {memory : Memory size}
    {op : Op size} {rest : List (Op size)}
    (empty : ∀ task, memory.inTree task = 0)
    (nothing : ∀ task, (tasksOf (op :: rest)).count task = 0) :
    (∀ task, (perform tree memory op).1.inTree task = 0) ∧
      ∀ task, (tasksOf ((perform tree memory op).2 ++ rest)).count task =
        0 := by
  have both : ∀ task, (perform tree memory op).1.inTree task = 0 ∧
      (tasksOf ((perform tree memory op).2 ++ rest)).count task = 0 := by
    intro task
    have kept := accounted_perform tree memory task op
    have returned := count_returned_perform tree memory op task
    have carried := nothing task
    rw [tasksOf_cons, List.count_append] at carried
    rw [tasksOf_append, List.count_append]
    simp only [accounted, Memory.settled, empty task] at kept
    omega
  exact ⟨fun task => (both task).1, fun task => (both task).2⟩

theorem slot_of_empty {memory : Memory size}
    (empty : ∀ task, memory.inTree task = 0) (id : Fin size) :
    (memory.schedulers id).pollingSlot = none ∧
      (memory.schedulers id).queue = [] := by
  have holds : ∀ task, (memory.schedulers id).holds task = 0 := by
    intro task
    have nothing := empty task
    simp only [Memory.inTree, Memory.sum, Finset.sum_eq_zero_iff] at nothing
    exact nothing id (Finset.mem_univ id)
  constructor
  · cases occupied : (memory.schedulers id).pollingSlot with
    | none => rfl
    | some task =>
        have held := holds task
        simp [Scheduler.holds, occupied] at held
  · refine List.eq_nil_iff_forall_not_mem.mpr fun task member => ?_
    have held := holds task
    have counted := List.count_pos_iff.mpr member
    unfold Scheduler.holds at held
    omega

/-- In an empty tree the call goes on waiting. -/
theorem polls_perform {tree : Tree size} {memory : Memory size}
    {leaf : Fin size} {op : Op size}
    (long : 2 ^ 32 ≤ tree.pollingIterations)
    (empty : ∀ task, memory.inTree task = 0) (waits : op.polls leaf) :
    ∃ called ∈ (perform tree memory op).2, called.polls leaf := by
  obtain ⟨slot, queue⟩ := slot_of_empty empty leaf
  cases op with
  | getTask other doWait =>
      exact ⟨.leaveIdle other doWait, by simp [perform], waits⟩
  | leaveIdle other doWait =>
      refine ⟨.getSlotTask other doWait, ?_, waits⟩
      simp only [perform]
      split <;> simp
  | getSlotTask other doWait =>
      obtain ⟨rfl, rfl⟩ := waits
      exact ⟨.getQueueTask other true, by simp [perform, takeSlotTask, slot],
        rfl, rfl⟩
  | getQueueTask other doWait =>
      obtain ⟨rfl, rfl⟩ := waits
      exact ⟨.poll other 0, by simp [perform, queue], rfl, by decide⟩
  | poll other iterations =>
      obtain ⟨rfl, small⟩ := waits
      have more : iterations < tree.pollingIterations := by omega
      refine ⟨.poll other ((iterations + 1) % 2 ^ 32), ?_, rfl,
        Nat.mod_lt _ (by decide)⟩
      simp [perform, more, takeSlotTask, slot]
  | _ => exact waits.elim

theorem not_finishes_of_polls {tree : Tree size} (leaf : Fin size)
    (long : 2 ^ 32 ≤ tree.pollingIterations) {memory : Memory size}
    {ops : List (Op size)} (finishes : Finishes tree memory ops)
    (empty : ∀ task, memory.inTree task = 0)
    (nothing : ∀ task, (tasksOf ops).count task = 0) :
    ¬ ∃ op ∈ ops, op.polls leaf := by
  induction finishes with
  | done memory =>
      rintro ⟨op, member, -⟩
      cases member
  | @next memory op rest succeeds later inductionHypothesis =>
      rintro ⟨waiting, member, waits⟩
      obtain ⟨stillEmpty, stillNothing⟩ := empty_perform tree empty nothing
      refine inductionHypothesis stillEmpty stillNothing ?_
      rcases List.mem_cons.mp member with rfl | behind
      · obtain ⟨called, called_mem, polls⟩ := polls_perform long empty waits
        exact ⟨called, List.mem_append_left _ called_mem, polls⟩
      · exact ⟨waiting, List.mem_append_right _ behind, waits⟩

/-- A leaf without tasks in an empty tree waits for ever. -/
theorem exists_run_not_terminates (tree : Tree size)
    (long : 2 ^ 32 ≤ tree.pollingIterations) :
    ∃ state,
      Run (step tree) (Admits tree) (initialState tree fun _ => 0) state ∧
      ¬ state.Terminates tree := by
  obtain ⟨leaf, member⟩ := tree.populated
  have isLeaf := tree.isLeaf_of_mem leaf member
  have started : step tree (initialState tree fun _ => 0)
      (.getReadyTask leaf true) = some _ :=
    step_of_proceed rfl rfl (if_pos isLeaf)
  refine ⟨_, .single (.getReadyTask leaf true) trivial started,
    fun terminates => ?_⟩
  have finishes := terminates { cpu := some leaf, ops := [.getTask leaf true] }
    (by simp [State.starts, initialState])
    (Or.inr (by simp [Op.disables]))
  have waits := not_finishes_of_polls leaf long finishes
    (inTree_initialState tree _) (fun task => rfl)
  exact waits ⟨.getTask leaf true, List.mem_singleton_self _, rfl, rfl⟩

/-- In every run no task is lost or duplicated, and every call comes to an end
on its own if and only if the counter of the polling loop can reach its
bound. -/
theorem conserves_and_terminates_iff (tree : Tree size) :
    ((∀ queueThreshold state,
        Runs tree (initialState tree queueThreshold) state →
        state.Conserves) ∧
      ∀ queueThreshold state,
        Run (step tree) (Admits tree) (initialState tree queueThreshold)
          state →
        state.Terminates tree) ↔
      tree.pollingIterations < 2 ^ 32 := by
  constructor
  · rintro ⟨-, terminates⟩
    by_contra long
    obtain ⟨state, run, endless⟩ :=
      exists_run_not_terminates tree (Nat.le_of_not_lt long)
    exact endless (terminates _ state run)
  · intro short
    exact ⟨fun _ _ => conserves_of_run, fun _ _ => terminates_of_run short⟩

/-- With a bound of `2 ^ 32` iterations a CPU without tasks polls for ever. -/
theorem conserves_and_terminates_fails :
    ¬ ∀ queueThreshold state,
      Runs (smallTree (2 ^ 32)) (initialState (smallTree (2 ^ 32))
        queueThreshold) state →
      state.Conserves ∧ state.Terminates (smallTree (2 ^ 32)) := by
  intro holds
  obtain ⟨state, run, endless⟩ :=
    exists_run_not_terminates (smallTree (2 ^ 32)) le_rfl
  exact endless (holds _ state (run.mono fun _ _ _ => trivial)).2

end Nanos6.TreeScheduler
