import Nanos6.Scheduling.TreeDisabling

/-!
# Runs of the tree scheduler with disabled CPUs

The invariant of the preceding module is kept by every operation: a node counts
the leaves that have not been disabled, a node without such leaves has been
emptied and stays empty, and the tree without enabled leaves has no task.  Over a
whole run the tasks of the tree are in reach of an enabled CPU.
-/

namespace Nanos6.TreeScheduler

open Foundation

variable {size : Nat}

namespace Orderly

variable {tree : CPUTree size} {state : State size} {index : Nat}
  {call : Call size} {op : Op size} {rest : List (Op size)}

/-! ### The counters of the nodes -/

section Counted

variable {node up : Fin size}

theorem isLeaf_cpu (orderly : Orderly tree state)
    (found : state.calls[index]? = some call) {leaf : Fin size}
    (own : call.cpu = some leaf) : tree.isLeaf leaf = true :=
  orderly.cpus call (List.mem_of_getElem? found) leaf own

theorem enabledChildren_of_apart {tree : Tree size} {memory : Memory size}
    (disables : ∀ child leaf, op ≠ .disableChild node child leaf)
    (enables : ∀ leaf, op = .enable leaf → tree.parent leaf ≠ some node) :
    ((perform tree memory op).1.schedulers node).enabledChildren =
      (memory.schedulers node).enabledChildren := by
  rcases enabledChildren_perform tree memory node op with same |
    ⟨child, leaf, rfl⟩ | ⟨leaf, rfl, above⟩
  · exact same
  · exact absurd rfl (disables child leaf)
  · exact absurd above (enables leaf rfl)

theorem activation_takeQueue (tree : Tree size) (memory : Memory size)
    {leaf : Fin size} (isLeaf : tree.isLeaf leaf = true) :
    (perform tree memory (.takeQueue leaf)).1.activation =
      Function.update memory.activation leaf .emptied := by
  obtain ⟨up, above⟩ := Option.isSome_iff_exists.mp (tree.hangs leaf isLeaf)
  simp only [perform, above]
  rfl

theorem activation_enable (tree : Tree size) (memory : Memory size)
    {leaf : Fin size} (isLeaf : tree.isLeaf leaf = true) :
    (perform tree memory (.enable leaf)).1.activation =
      Function.update memory.activation leaf .enabled := by
  obtain ⟨up, above⟩ := Option.isSome_iff_exists.mp (tree.hangs leaf isLeaf)
  simp only [perform, above]
  rfl

/-- The topmost node is nobody's child. -/
theorem ne_top (above : tree.parent node = some up) : node ≠ tree.top := by
  rintro rfl
  rw [(tree.parent_eq_none tree.top).mpr rfl] at above
  cases above

/-- A leaf that its node discounts, or a node that the topmost one discounts. -/
theorem counted_disableChild (orderly : Orderly tree state)
    (above : tree.parent node = some up) (isNode : tree.isLeaf node = false)
    {other child leaf : Fin size} (found : state.calls[index]? = some call)
    (ops : call.ops = .disableChild other child leaf :: rest) :
    ((perform tree.toTree state.memory
        (.disableChild other child leaf)).1.schedulers node).enabledChildren =
      (enabledOf tree.toTree (perform tree.toTree state.memory
        (.disableChild other child leaf)).1.activation node).length := by
  obtain ⟨-, hangs, stage⟩ := orderly.fits_head found ops
  have before := orderly.counted node up above isNode
  have counter := state.memory.enabledChildren_setEnabledChildren node other
    ((state.memory.schedulers other).enabledChildren - 1)
  change ((state.memory.setEnabledChildren other _).schedulers
      node).enabledChildren = ((enabledOf tree.toTree
    (Function.update state.memory.activation leaf .discounted)
    node).length : Int)
  rw [counter]
  rcases stage with ⟨rfl, emptied⟩ | ⟨under, discounted⟩
  · by_cases same : node = other
    · subst same
      have exchanged := length_enabledOf_update state.memory.activation hangs
        .discounted
      rw [emptied] at exchanged
      simp only [Activation.isPassed, Bool.not_false, Bool.not_true,
        Bool.toNat_true, Bool.toNat_false] at exchanged
      rw [if_pos rfl, before]
      omega
    · rw [if_neg same, before, enabledOf_update]
      refine Or.inl ?_
      rw [hangs]
      exact fun equal => same (Option.some.inj equal).symm
  · have isTop := tree.eq_top_of_node child other hangs
      (tree.isLeaf_parent leaf child under)
    have different : node ≠ other := by
      rw [isTop]
      exact ne_top above
    rw [if_neg different, before, enabledOf_update]
    refine Or.inr ?_
    rw [discounted]

theorem counted_enable (orderly : Orderly tree state)
    (above : tree.parent node = some up) (isNode : tree.isLeaf node = false)
    {leaf : Fin size} (found : state.calls[index]? = some call)
    (ops : call.ops = .enable leaf :: rest) :
    ((perform tree.toTree state.memory
        (.enable leaf)).1.schedulers node).enabledChildren =
      (enabledOf tree.toTree (perform tree.toTree state.memory
        (.enable leaf)).1.activation node).length := by
  obtain ⟨own, disabled⟩ := orderly.fits_head found ops
  have isLeaf := orderly.isLeaf_cpu found own
  have before := orderly.counted node up above isNode
  rw [activation_enable tree.toTree state.memory isLeaf]
  by_cases under : tree.parent leaf = some node
  · have counter := state.memory.enabledChildren_setEnabledChildren node node
      ((state.memory.schedulers node).enabledChildren + 1)
    have exchanged := length_enabledOf_update state.memory.activation under
      .enabled
    rw [disabled] at exchanged
    simp only [Activation.isPassed, Bool.not_false, Bool.not_true,
      Bool.toNat_true, Bool.toNat_false] at exchanged
    simp only [perform, under, Memory.setActivation]
    rw [counter, if_pos rfl, before]
    omega
  · rw [enabledOf_update _ _ _ _ _ (Or.inl under), ← before]
    refine enabledChildren_of_apart (fun child other equal => ?_) ?_
    · cases equal
    · rintro other equal
      cases equal
      exact under

/-- A node counts the leaves that have not passed. -/
theorem counted_performs (orderly : Orderly tree state)
    (found : state.calls[index]? = some call) (ops : call.ops = op :: rest)
    (above : tree.parent node = some up)
    (isNode : tree.isLeaf node = false) :
    ((perform tree.toTree state.memory op).1.schedulers
        node).enabledChildren =
      (enabledOf tree.toTree
        (perform tree.toTree state.memory op).1.activation node).length := by
  have fits := orderly.fits_head found ops
  have before := orderly.counted node up above isNode
  cases apart : op.activates with
  | false =>
      rw [activation_perform_of_apart tree.toTree state.memory apart, ← before]
      refine enabledChildren_of_apart ?_ ?_
      · rintro child leaf rfl
        cases apart
      · rintro leaf rfl
        cases apart
  | true =>
      cases op with
      | takeQueue leaf =>
          rw [activation_takeQueue tree.toTree state.memory
            (orderly.isLeaf_cpu found fits.1)]
          rw [enabledOf_update, ← before]
          · refine enabledChildren_of_apart ?_ ?_
            · rintro child other equal
              cases equal
            · rintro other equal
              cases equal
          · refine Or.inr ?_
            rw [fits.2]
            rfl
      | disableChild other child leaf =>
          exact orderly.counted_disableChild above isNode found ops
      | returnDisabled leaf =>
          change ((state.memory.setActivation leaf .disabled).schedulers
            node).enabledChildren = ((enabledOf tree.toTree
              (Function.update state.memory.activation leaf .disabled)
              node).length : Int)
          rw [enabledOf_update, ← before]
          · rfl
          · refine Or.inr ?_
            rw [fits.2]
            rfl
      | enable leaf => exact orderly.counted_enable above isNode found ops
      | _ => cases apart

end Counted

/-! ### Nodes without enabled leaves -/

section Emptied

variable {node up : Fin size}

theorem isPassed_of_enabledOf {tree : Tree size}
    {activation : Fin size → Activation} {leaf : Fin size}
    (nobody : enabledOf tree activation node = [])
    (under : tree.parent leaf = some node) :
    (activation leaf).isPassed = true := by
  have outside : leaf ∉ enabledOf tree activation node := by
    rw [nobody]
    exact List.not_mem_nil
  by_contra counts
  refine outside (List.mem_filter.mpr ⟨Tree.mem_children.mpr under, ?_⟩)
  rw [Bool.eq_false_iff.mpr counts]
  rfl

/-- A node without enabled leaves does not ask for tasks. -/
theorem not_asks_of_enabledOf (orderly : Orderly tree state)
    (isNode : tree.isLeaf node = false)
    (nobody : enabledOf tree.toTree state.memory.activation node = [])
    {above : Fin size} {force : Bool} {elements : Nat}
    (found : state.calls[index]? = some call)
    (ops : call.ops = .takeBatch above node force elements :: rest) :
    False := by
  obtain ⟨-, own, isOwn, enabled, rfl | under⟩ := orderly.fits_head found ops
  · rw [orderly.isLeaf_cpu found isOwn] at isNode
    cases isNode
  · have passed := isPassed_of_enabledOf nobody under
    rw [enabled] at passed
    cases passed

/-- No operation comes to deliver to a node that has been emptied. -/
theorem not_reaches_of_emptied (orderly : Orderly tree state)
    (above : tree.parent node = some up) (isNode : tree.isLeaf node = false)
    (nobody : enabledOf tree.toTree state.memory.activation node = [])
    (emptied : Emptied state node up)
    (found : state.calls[index]? = some call) (ops : call.ops = op :: rest) :
    ¬ Reaches tree.toTree state.memory node op := by
  have fits := orderly.fits_head found ops
  -- The children of a node below the topmost one are leaves.
  have isLeaf : ∀ child, tree.parent child = some node →
      tree.isLeaf child = true := by
    intro child under
    by_contra inner
    exact ne_top above (tree.eq_top_of_node child node under
      (Bool.eq_false_iff.mpr inner))
  intro reaches
  cases reaches with
  | delivers already =>
      rw [delivers_eq_false found ops emptied.nobody] at already
      cases already
  | deals dealt =>
      rw [tree.isLeaf_of_mem node (List.mem_of_getElem? dealt)] at isNode
      cases isNode
  | adds =>
      rw [fits.2.2] at isNode
      cases isNode
  | @moves child elements handleThreshold under something =>
      have passed := isPassed_of_enabledOf nobody under
      exact something (orderly.closed child (isLeaf child under)
        (Activation.isClosed_of_isPassed passed)).queue
  | takesSlot =>
      have passed := isPassed_of_enabledOf nobody fits.2.1
      rw [fits.2.2] at passed
      cases passed
  | @empties child leaf under something =>
      have inner := tree.isLeaf_parent leaf child fits.2.1
      rw [isLeaf child under] at inner
      cases inner
  | @pops other who batch handleThreshold registered =>
      have same := orderly.registered other node registered
      rw [above] at same
      obtain rfl := Option.some.inj same
      exact emptied.unregistered registered
  | gives => exact orderly.not_asks_of_enabledOf isNode nobody found ops

/-- The last leaf empties the node. -/
theorem emptied_emptyNode (above : tree.parent node = some up)
    {leaf : Fin size} (found : state.calls[index]? = some call)
    (ops : call.ops = .emptyNode node leaf :: rest)
    (keeps : Op.KeepsEnabled tree state (.emptyNode node leaf)) :
    Emptied (state.performs tree.toTree index call (.emptyNode node leaf) rest)
      node up := by
  have apart : ¬ Reaches tree.toTree state.memory node
      (.emptyNode node leaf) := by
    intro reaches
    cases reaches with
    | delivers already => cases already
    | empties own => exact absurd (tree.parent_lt node node own) (lt_irrefl _)
  constructor
  · change ((perform _ _ _).1.schedulers node).queue = []
    simp only [perform, above, Queue.afterTaskBatch_all keeps.1]
    simp [Memory.setQueue, Memory.modify]
  · intro registered
    rcases mem_idleChildren_perform registered with old | ⟨_, _, absurd⟩
    · exact keeps.2.1 up above old
    · cases absurd
  · exact nobody_performs found ops keeps.2.2 apart

/-- A node that has been emptied stays empty. -/
theorem emptied_kept (orderly : Orderly tree state)
    (above : tree.parent node = some up) (isNode : tree.isLeaf node = false)
    (nobody : enabledOf tree.toTree state.memory.activation node = [])
    (emptied : Emptied state node up)
    (found : state.calls[index]? = some call) (ops : call.ops = op :: rest) :
    Emptied (state.performs tree.toTree index call op rest) node up := by
  have shrinks := shrinks_perform tree.toTree state.memory
    (delivers_eq_false found ops emptied.nobody)
  constructor
  · exact shrinks.queue emptied.queue
  · intro registered
    rcases mem_idleChildren_perform registered with old | ⟨_, _, rfl⟩
    · exact emptied.unregistered old
    · exact orderly.not_asks_of_enabledOf isNode nobody found ops
  · exact nobody_performs found ops emptied.nobody
      (orderly.not_reaches_of_emptied above isNode nobody emptied found ops)

/-- When a node loses its last enabled leaf it is about to be emptied. -/
theorem enabledOf_before (orderly : Orderly tree state)
    (found : state.calls[index]? = some call) (ops : call.ops = op :: rest)
    (above : tree.parent node = some up) (isNode : tree.isLeaf node = false)
    (nobody : enabledOf tree.toTree
      (perform tree.toTree state.memory op).1.activation node = [])
    (emptied : (state.performs tree.toTree index call op rest).count
      (Op.empties node) = 0) :
    enabledOf tree.toTree state.memory.activation node = [] := by
  have fits := orderly.fits_head found ops
  have counter := orderly.counted_performs found ops above isNode
  cases apart : op.activates with
  | false =>
      rwa [activation_perform_of_apart tree.toTree state.memory apart]
        at nobody
  | true =>
      cases op with
      | takeQueue leaf =>
          rw [activation_takeQueue tree.toTree state.memory
            (orderly.isLeaf_cpu found fits.1), enabledOf_update] at nobody
          · exact nobody
          · refine Or.inr ?_
            rw [fits.2]
            rfl
      | disableChild other child leaf =>
          by_cases same : other = node
          · subst same
            -- The counter is zero, and the operation goes on to empty the node.
            have counted := count_performs (Op.empties other) tree.toTree found
              ops
            rw [nobody] at counter
            have zero : (state.memory.schedulers other).enabledChildren - 1 =
                0 := by
              simpa [perform, Memory.setActivation,
                Memory.setEnabledChildren, Memory.modify] using counter
            simp only [perform, zero, above, Option.isSome_some, and_self,
              if_true, List.countP_cons, List.countP_nil, Op.empties,
              decide_true, Bool.toNat_false] at counted
            omega
          · change enabledOf tree.toTree (Function.update
              state.memory.activation leaf .discounted) node = [] at nobody
            rw [enabledOf_update] at nobody
            · exact nobody
            · rcases fits.2.2 with ⟨rfl, -⟩ | ⟨-, discounted⟩
              · refine Or.inl ?_
                rw [fits.2.1]
                exact fun equal => same (Option.some.inj equal)
              · refine Or.inr ?_
                rw [discounted]
      | returnDisabled leaf =>
          change enabledOf tree.toTree (Function.update
            state.memory.activation leaf .disabled) node = [] at nobody
          rw [enabledOf_update] at nobody
          · exact nobody
          · refine Or.inr ?_
            rw [fits.2]
            rfl
      | enable leaf =>
          rw [activation_enable tree.toTree state.memory
            (orderly.isLeaf_cpu found fits.1)] at nobody
          by_cases under : tree.parent leaf = some node
          · have passed := isPassed_of_enabledOf nobody under
            rw [Function.update_self] at passed
            cases passed
          · rwa [enabledOf_update _ _ _ _ _ (Or.inl under)] at nobody
      | _ => cases apart

theorem emptied_performs (orderly : Orderly tree state)
    (found : state.calls[index]? = some call) (ops : call.ops = op :: rest)
    (keeps : op.KeepsEnabled tree state)
    (above : tree.parent node = some up) (isNode : tree.isLeaf node = false)
    (nobody : enabledOf tree.toTree
      (perform tree.toTree state.memory op).1.activation node = [])
    (done : (state.performs tree.toTree index call op rest).count
      (Op.empties node) = 0) :
    Emptied (state.performs tree.toTree index call op rest) node up := by
  cases empties : op.empties node with
  | true =>
      cases op with
      | emptyNode other leaf =>
          obtain rfl := of_decide_eq_true empties
          exact emptied_emptyNode above found ops keeps
      | _ => cases empties
  | false =>
      have counted := count_performs (Op.empties node) tree.toTree found ops
      rw [empties, Bool.toNat_false] at counted
      have before := orderly.enabledOf_before found ops above isNode nobody done
      exact orderly.emptied_kept above isNode before
        (orderly.emptied node up above isNode before (by omega)) found ops

end Emptied

/-! ### The tree without enabled leaves -/

section Vacant

theorem inTree_eq_zero {memory : Memory size}
    (empty : ∀ id, (memory.schedulers id).queue = [] ∧
      (memory.schedulers id).pollingSlot = none) (task : TaskId) :
    memory.inTree task = 0 := by
  unfold Memory.inTree Memory.sum
  refine Finset.sum_eq_zero fun id _ => ?_
  obtain ⟨queue, slot⟩ := empty id
  simp [Scheduler.holds, queue, slot]

/-- The queue and the slot of a disabled leaf are empty. -/
theorem leaf_empty {tree : Tree size}
    (fits : ∀ call ∈ state.calls, ∀ op ∈ call.ops,
      op.Fits tree call.cpu state.memory.activation)
    {leaf : Fin size} (shut : Closed tree state leaf)
    (disabled : state.memory.activation leaf = .disabled) :
    (state.memory.schedulers leaf).queue = [] ∧
      (state.memory.schedulers leaf).pollingSlot = none := by
  refine ⟨shut.queue, shut.slot.resolve_right fun pending => ?_⟩
  refine absurd (count_eq_zero_iff.mpr ?_) (Nat.ne_of_gt pending)
  intro call member op inside
  cases takes : op.takesSlot leaf with
  | false => rfl
  | true =>
      cases op with
      | takeSlot other up batch =>
          obtain rfl := of_decide_eq_true takes
          have emptied := (fits call member _ inside).2.2
          rw [disabled] at emptied
          cases emptied
      | _ => cases takes

/-- The queue of a node below the topmost one is empty when its leaves are
disabled. -/
theorem node_empty {tree : Tree size}
    (fits : ∀ call ∈ state.calls, ∀ op ∈ call.ops,
      op.Fits tree call.cpu state.memory.activation) {node up : Fin size}
    (emptied : enabledOf tree state.memory.activation node = [] →
      state.count (Op.empties node) = 0 → Emptied state node up)
    (disabled : ∀ leaf, tree.parent leaf = some node →
      state.memory.activation leaf = .disabled) :
    (state.memory.schedulers node).queue = [] := by
  have nobody : enabledOf tree state.memory.activation node = [] := by
    refine List.filter_eq_nil_iff.mpr fun leaf member => ?_
    rw [disabled leaf (Tree.mem_children.mp member)]
    decide
  refine (emptied nobody ?_).queue
  refine count_eq_zero_iff.mpr fun call member op inside => ?_
  cases empties : op.empties node with
  | false => rfl
  | true =>
      cases op with
      | emptyNode other leaf =>
          obtain rfl := of_decide_eq_true empties
          obtain ⟨-, under, discounted⟩ := fits call member _ inside
          rw [disabled leaf under] at discounted
          cases discounted
      | _ => cases empties

theorem carries_eq_false (found : state.calls[index]? = some call)
    (ops : call.ops = op :: rest) (nothing : state.count Op.carries = 0) :
    op.carries = false := by
  refine count_eq_zero_iff.mp nothing call (List.mem_of_getElem? found) op ?_
  rw [ops]
  exact List.mem_cons_self

/-- Without tasks in the tree or on their way nothing appears. -/
theorem vacant_kept (found : state.calls[index]? = some call)
    (ops : call.ops = op :: rest)
    (empty : ∀ task, state.memory.inTree task = 0)
    (nothing : state.count Op.carries = 0)
    (keeps : ∀ task, op = .addReadyTask task none → ∀ leaf,
      tree.cpuScheduler[state.memory.schedRRCounter]? ≠ some (some leaf)) :
    (∀ task,
      (perform tree.toTree state.memory op).1.inTree task = 0) ∧
      (state.performs tree.toTree index call op rest).count Op.carries =
        0 := by
  have counted := count_performs Op.carries tree.toTree found ops
  rw [carries_eq_false found ops nothing, nothing, Bool.toNat_false,
    Nat.zero_add, Nat.add_zero] at counted
  rw [counted]
  cases deals : op.deals with
  | true =>
      cases op with
      | addReadyTask task computePlace =>
          cases computePlace with
          | some leaf => cases deals
          | none =>
              refine ⟨empty, ?_⟩
              have nowhere := keeps task rfl
              simp only [perform]
              rfl
      | _ => cases deals
  | false =>
      have none : op.tasks = [] := by
        have idle := carries_eq_false found ops nothing
        rw [Op.carries, deals] at idle
        simpa using idle
      have both : ∀ task,
          (perform tree.toTree state.memory op).1.inTree task = 0 ∧
            (tasksOf (perform tree.toTree state.memory op).2).count task =
              0 := by
        intro task
        have kept := accounted_perform tree.toTree state.memory task op
        have returned := count_returned_perform tree.toTree state.memory op
          task
        simp only [accounted, Memory.settled, empty task, none,
          List.count_nil] at kept
        omega
      refine ⟨fun task => (both task).1, ?_⟩
      rw [List.countP_eq_zero]
      intro called member carries
      have inside : called.tasks ≠ [] := by
        rw [Op.carries, Bool.and_eq_true, Bool.not_eq_true',
          List.isEmpty_eq_false_iff] at carries
        exact carries.1
      obtain ⟨task, first⟩ := List.exists_mem_of_ne_nil _ inside
      have counts : task ∈ tasksOf (perform tree.toTree state.memory op).2 :=
        List.mem_flatMap.mpr ⟨called, member, first⟩
      exact absurd (both task).2 (Nat.ne_of_gt (List.count_pos_iff.mpr counts))

/-- Every leaf is disabled after an operation only if every leaf was before, or
the last one has just been disabled. -/
theorem disabled_before (orderly : Orderly tree state)
    (found : state.calls[index]? = some call) (ops : call.ops = op :: rest)
    (all : ∀ leaf, tree.isLeaf leaf = true →
      (perform tree.toTree state.memory op).1.activation leaf = .disabled) :
    (∀ leaf, tree.isLeaf leaf = true →
      state.memory.activation leaf = .disabled) ∨
      ∃ leaf, op = .returnDisabled leaf := by
  have fits := orderly.fits_head found ops
  cases apart : op.activates with
  | false =>
      rw [activation_perform_of_apart tree.toTree state.memory apart] at all
      exact Or.inl all
  | true =>
      cases op with
      | takeQueue leaf =>
          have isLeaf := orderly.isLeaf_cpu found fits.1
          have disabled := all leaf isLeaf
          rw [activation_takeQueue tree.toTree state.memory isLeaf,
            Function.update_self] at disabled
          cases disabled
      | disableChild node child leaf =>
          have disabled := all leaf (orderly.isLeaf_cpu found fits.1)
          change Function.update state.memory.activation leaf .discounted
            leaf = .disabled at disabled
          rw [Function.update_self] at disabled
          cases disabled
      | returnDisabled leaf => exact Or.inr ⟨leaf, rfl⟩
      | enable leaf =>
          have isLeaf := orderly.isLeaf_cpu found fits.1
          have disabled := all leaf isLeaf
          rw [activation_enable tree.toTree state.memory isLeaf,
            Function.update_self] at disabled
          cases disabled
      | _ => cases apart

end Vacant

/-! ### Steps -/

/-- One operation of a call. -/
theorem performs (orderly : Orderly tree state)
    (found : state.calls[index]? = some call) (ops : call.ops = op :: rest)
    (keeps : op.KeepsEnabled tree state) :
    Orderly tree (state.performs tree.toTree index call op rest) := by
  have fits := orderly.fits_performs found ops
  have closed : ∀ leaf, tree.isLeaf leaf = true →
      ((perform tree.toTree state.memory op).1.activation
        leaf).isClosed = true →
      Closed tree.toTree (state.performs tree.toTree index call op rest)
        leaf :=
    fun leaf isLeaf => orderly.closed_performs isLeaf found ops keeps
  have emptied : ∀ node up, tree.parent node = some up →
      tree.isLeaf node = false →
      enabledOf tree.toTree
        (perform tree.toTree state.memory op).1.activation node = [] →
      (state.performs tree.toTree index call op rest).count
        (Op.empties node) = 0 →
      Emptied (state.performs tree.toTree index call op rest) node up :=
    fun node up => orderly.emptied_performs found ops keeps
  constructor
  · exact fits
  · exact orderly.cpus_performs found
  · exact orderly.single_performs found ops
  · exact fun node => orderly.slots_performs found ops
  · exact orderly.registered_performs found ops
  · exact fun leaf up above isLeaf =>
      orderly.leaving_performs above isLeaf found ops keeps
  · exact closed
  · exact fun node up => orderly.counted_performs found ops
  · exact emptied
  · intro all
    rcases orderly.disabled_before found ops all with before | ⟨leaf, rfl⟩
    · obtain ⟨empty, nothing⟩ := orderly.vacant before
      refine vacant_kept found ops empty nothing ?_
      rintro task rfl leaf dealt
      have isOpen := keeps leaf dealt
      rw [before leaf (tree.isLeaf_of_mem leaf (List.mem_of_getElem? dealt))]
        at isOpen
      cases isOpen
    · obtain ⟨topmost, nothing⟩ := keeps fun other isLeaf different => by
        have disabled := all other isLeaf
        change Function.update state.memory.activation leaf .disabled other =
          .disabled at disabled
        rwa [Function.update_of_ne different] at disabled
      refine ⟨inTree_eq_zero fun id => ?_, ?_⟩
      · cases isLeaf : tree.isLeaf id with
        | true =>
            have disabled := all id isLeaf
            refine leaf_empty fits (closed id isLeaf ?_) disabled
            exact (congrArg Activation.isClosed disabled).trans rfl
        | false =>
            refine ⟨?_, orderly.slots id isLeaf⟩
            by_cases isTop : id = tree.top
            · rw [isTop]
              exact topmost
            · obtain ⟨up, above⟩ := Option.ne_none_iff_exists'.mp
                (mt (tree.parent_eq_none id).mp isTop)
              refine node_empty fits (emptied id up above isLeaf)
                fun other under => all other ?_
              by_contra inner
              exact isTop (tree.eq_top_of_node other id under
                (Bool.eq_false_iff.mpr inner))
      · have counted := count_performs Op.carries tree.toTree found ops
        have called : (perform tree.toTree state.memory
            (.returnDisabled leaf)).2 = [] := rfl
        rw [called, nothing] at counted
        exact (Nat.add_eq_zero_iff.mp counted).1

/-- Only the CPU of the leaf has operations that occupy it. -/
theorem cpu_of_occupies {tree : Tree size} {cpu : Option (Fin size)}
    {activation : Fin size → Activation} {leaf : Fin size}
    (fits : op.Fits tree cpu activation) (occupies : op.occupies leaf = true) :
    cpu = some leaf := by
  cases op with
  | getTask own _ | leaveIdle own _ | getSlotTask own _ | getQueueTask own _
  | poll own _ | pollOnce own | timeOut own | becomeIdle own | disable own
  | unidleLeaf own | takeQueue own | takeSlot own _ _ | disableChild _ _ own | emptyNode _ own
  | returnDisabled own | enable own =>
      obtain rfl := of_decide_eq_true occupies
      exact fits.1
  | _ => cases occupies

theorem count_occupies_of_free (orderly : Orderly tree state)
    {leaf : Fin size} (free : state.IsFree leaf) :
    state.count (Op.occupies leaf) = 0 := by
  refine count_eq_zero_iff.mpr fun call member op inside => ?_
  cases occupies : op.occupies leaf with
  | false => rfl
  | true =>
      exact absurd (cpu_of_occupies (orderly.fits call member op inside)
        occupies) (free call member)

/-- The operations of a CPU depend on its own leaf only. -/
theorem fits_congr {tree : Tree size} {cpu : Option (Fin size)}
    {activation next : Fin size → Activation}
    (fits : op.Fits tree cpu activation)
    (same : ∀ leaf, cpu = some leaf → next leaf = activation leaf) :
    op.Fits tree cpu next := by
  cases op with
  | addReadyTask task computePlace =>
      cases computePlace with
      | none => exact fits
      | some own => exact ⟨fits.1, (same own fits.1).trans fits.2.1, fits.2.2⟩
  | askNode node child force | takeBatch node child force elements =>
      obtain ⟨above, own, isOwn, isEnabled, under⟩ := fits
      exact ⟨above, own, isOwn, (same own isOwn).trans isEnabled, under⟩
  | takeSlot own up batch =>
      exact ⟨fits.1, fits.2.1, (same own fits.1).trans fits.2.2⟩
  | disableChild node child own =>
      refine ⟨fits.1, fits.2.1, ?_⟩
      rw [same own fits.1]
      exact fits.2.2
  | emptyNode node own =>
      exact ⟨fits.1, fits.2.1, (same own fits.1).trans fits.2.2⟩
  | getTask own _ | leaveIdle own _ | getSlotTask own _ | getQueueTask own _
  | poll own _ | pollOnce own | timeOut own | becomeIdle own | disable own
  | unidleLeaf own | takeQueue own | returnDisabled own | enable own =>
      exact ⟨fits.1, (same own fits.1).trans fits.2⟩
  | addTask | setSlotTask => exact fits
  | _ => trivial

/-- A call starts. -/
theorem starts (orderly : Orderly tree state) {cpu : Option (Fin size)}
    (fits : op.Fits tree.toTree cpu state.memory.activation)
    (isLeaf : ∀ leaf ∈ cpu, tree.isLeaf leaf = true)
    (free : ∀ leaf ∈ cpu, state.IsFree leaf)
    (apart : ∀ id, op.delivers id = false ∧ op.empties id = false)
    (enabled : op.carries = true →
      ∃ leaf ∈ cpu, state.memory.activation leaf = .enabled)
    (begins : ∀ leaf ∈ cpu, state.memory.activation leaf = .disabling →
      op.begins leaf = true) :
    Orderly tree (state.starts cpu op) := by
  have delivers : ∀ id, (state.starts cpu op).count (Op.delivers id) =
      state.count (Op.delivers id) := by
    intro id
    rw [count_starts, (apart id).1]
    rfl
  constructor
  · intro call member waiting inside
    rcases List.mem_append.mp member with old | new
    · exact orderly.fits call old waiting inside
    · rw [List.mem_singleton.mp new] at inside ⊢
      rw [List.mem_singleton.mp inside]
      exact fits
  · intro call member
    rcases List.mem_append.mp member with old | new
    · exact orderly.cpus call old
    · rw [List.mem_singleton.mp new]
      exact isLeaf
  · intro leaf
    rw [count_starts]
    cases occupies : op.occupies leaf with
    | false => exact orderly.single leaf
    | true =>
        rw [orderly.count_occupies_of_free
          (free leaf (cpu_of_occupies fits occupies))]
        exact le_rfl
  · exact orderly.slots
  · exact orderly.registered
  · intro leaf up above isLeaf disabling inProgress begun
    rw [count_starts] at inProgress begun ⊢
    have entries := orderly.leaving leaf up above isLeaf disabling
    cases occupies : op.occupies leaf with
    | false =>
        rw [occupies, Bool.toNat_false] at inProgress
        exact (entries inProgress (by omega)).trans (Nat.le_add_right _ _)
    | true =>
        rw [begins leaf (cpu_of_occupies fits occupies) disabling,
          Bool.toNat_true] at begun
        omega
  · intro leaf isLeaf closed
    have shut := orderly.closed leaf isLeaf closed
    refine ⟨shut.queue, shut.unregistered, ?_, ?_⟩
    · rw [delivers]
      exact shut.nobody
    · rw [count_starts]
      exact shut.slot.imp_right fun pending => Nat.add_pos_left pending _
  · exact orderly.counted
  · intro node up above isNode nobody done
    rw [count_starts, (apart node).2] at done
    have emptied := orderly.emptied node up above isNode nobody done
    refine ⟨emptied.queue, emptied.unregistered, ?_⟩
    rw [delivers]
    exact emptied.nobody
  · intro all
    obtain ⟨empty, nothing⟩ := orderly.vacant all
    refine ⟨empty, ?_⟩
    rw [count_starts, nothing]
    cases carries : op.carries with
    | false => rfl
    | true =>
        obtain ⟨leaf, own, isEnabled⟩ := enabled carries
        have disabled := all leaf (isLeaf leaf own)
        change state.memory.activation leaf = .disabled at disabled
        rw [isEnabled] at disabled
        cases disabled

/-- A CPU starts a call that brings no task. -/
theorem starts_own (orderly : Orderly tree state) (op : Op size)
    {leaf : Fin size} (isLeaf : tree.isLeaf leaf = true)
    (free : state.IsFree leaf)
    (fits : op.Fits tree.toTree (some leaf) state.memory.activation)
    (apart : ∀ id, op.delivers id = false ∧ op.empties id = false)
    (nothing : op.carries = false)
    (begins : state.memory.activation leaf = .disabling →
      op.begins leaf = true) :
    Orderly tree (state.starts (some leaf) op) := by
  refine orderly.starts fits ?_ ?_ apart ?_ ?_
  · intro other own
    cases own
    exact isLeaf
  · intro other own
    cases own
    exact free
  · intro carries
    rw [nothing] at carries
    cases carries
  · intro other own
    cases own
    exact begins

/-- What the schedulers do not see. -/
theorem congr (orderly : Orderly tree state) {memory : Memory size}
    (schedulers : memory.schedulers = state.memory.schedulers)
    (activation : memory.activation = state.memory.activation)
    (added : List TaskId) :
    Orderly tree { state with memory := memory, added := added } := by
  constructor
  · rw [activation]
    exact orderly.fits
  · exact orderly.cpus
  · exact orderly.single
  · rw [schedulers]
    exact orderly.slots
  · rw [schedulers]
    exact orderly.registered
  · rw [schedulers, activation]
    exact orderly.leaving
  · intro leaf isLeaf closed
    rw [activation] at closed
    have shut := orderly.closed leaf isLeaf closed
    constructor
    · rw [schedulers]
      exact shut.queue
    · rw [schedulers]
      exact shut.unregistered
    · exact shut.nobody
    · rw [schedulers]
      exact shut.slot
  · rw [schedulers, activation]
    exact orderly.counted
  · intro node up above isNode nobody done
    rw [activation] at nobody
    have emptied := orderly.emptied node up above isNode nobody done
    constructor
    · rw [schedulers]
      exact emptied.queue
    · rw [schedulers]
      exact emptied.unregistered
    · exact emptied.nobody
  · rw [activation]
    intro all
    obtain ⟨empty, nothing⟩ := orderly.vacant all
    refine ⟨fun task => ?_, nothing⟩
    unfold Memory.inTree Memory.sum
    rw [schedulers]
    exact empty task

/-- A CPU is about to be disabled. -/
theorem disabling (orderly : Orderly tree state) {leaf : Fin size}
    (isLeaf : tree.isLeaf leaf = true) (free : state.IsFree leaf)
    (enabled : state.memory.activation leaf = .enabled) :
    Orderly tree
      { state with memory := state.memory.setActivation leaf .disabling } := by
  have same : ∀ node, enabledOf tree.toTree
      (Function.update state.memory.activation leaf .disabling) node =
        enabledOf tree.toTree state.memory.activation node := by
    intro node
    refine enabledOf_update _ _ _ _ _ (Or.inr ?_)
    rw [enabled]
    rfl
  constructor
  · intro call member op inside
    refine fits_congr (orderly.fits call member op inside) fun own isOwn => ?_
    refine Function.update_of_ne ?_ _ _
    rintro rfl
    exact free call member isOwn
  · exact orderly.cpus
  · exact orderly.single
  · exact orderly.slots
  · exact orderly.registered
  · intro other up above isLeaf disabling inProgress
    change Function.update state.memory.activation leaf .disabling other =
      .disabling at disabling
    by_cases equal : other = leaf
    · rw [equal] at inProgress
      exact absurd (orderly.count_occupies_of_free free)
        (Nat.ne_of_gt inProgress)
    · rw [Function.update_of_ne equal] at disabling
      exact orderly.leaving other up above isLeaf disabling inProgress
  · intro other isLeaf closed
    change ((Function.update state.memory.activation leaf .disabling)
      other).isClosed = true at closed
    by_cases equal : other = leaf
    · rw [equal, Function.update_self] at closed
      cases closed
    · rw [Function.update_of_ne equal] at closed
      have shut := orderly.closed other isLeaf closed
      exact ⟨shut.queue, shut.unregistered, shut.nobody, shut.slot⟩
  · intro node up above isNode
    change (state.memory.schedulers node).enabledChildren = ((enabledOf
      tree.toTree (Function.update state.memory.activation leaf .disabling)
      node).length : Int)
    rw [same node]
    exact orderly.counted node up above isNode
  · intro node up above isNode nobody done
    have emptied := orderly.emptied node up above isNode
      ((same node).symm.trans nobody) done
    exact ⟨emptied.queue, emptied.unregistered, emptied.nobody⟩
  · intro all
    have disabled := all leaf isLeaf
    change Function.update state.memory.activation leaf .disabling leaf =
      .disabled at disabled
    rw [Function.update_self] at disabled
    cases disabled

theorem proceed {next : State size} {label : Label size}
    (orderly : Orderly tree state) (keeps : KeepsEnabled tree state label)
    (taken : TreeScheduler.proceed tree.toTree state label = some next) :
    Orderly tree next := by
  obtain ⟨⟨free, follows⟩, -, keeps⟩ := keeps
  cases label with
  | perform index =>
      obtain ⟨call, op, rest, found, ops, rfl⟩ := proceed_perform taken
      refine orderly.performs found ops (keeps op ?_)
      simp [State.operation, found, ops]
  | addReadyTask task computePlace =>
      simp only [TreeScheduler.proceed] at taken
      split at taken
      · rename_i isLeaf
        cases taken
        rw [Option.all_eq_true] at isLeaf
        refine (orderly.starts ?_ isLeaf free (fun id => ⟨rfl, rfl⟩) ?_
          ?_).congr rfl rfl _
        · cases computePlace with
          | none => trivial
          | some leaf => exact ⟨rfl, follows leaf rfl, isLeaf leaf rfl⟩
        · cases computePlace with
          | none =>
              intro carries
              cases carries
          | some leaf =>
              intro _
              exact ⟨leaf, rfl, follows leaf rfl⟩
        · intro leaf own disabling
          rw [follows leaf own] at disabling
          cases disabling
      · cases taken
  | getReadyTask leaf doWait =>
      simp only [TreeScheduler.proceed] at taken
      split at taken
      · rename_i isLeaf
        cases taken
        have started := orderly.starts_own (.getTask leaf doWait) isLeaf free
          ⟨rfl, follows⟩ (fun id => ⟨rfl, rfl⟩) rfl fun disabling => by
            rw [follows] at disabling
            cases disabling
        refine started.congr ?_ ?_ _
        · rfl
        · rfl
      · cases taken
  | disableComputePlace leaf =>
      simp only [TreeScheduler.proceed] at taken
      split at taken
      · rename_i isLeaf
        cases taken
        have begun := orderly.disabling isLeaf free follows
        have started := begun.starts_own (.disable leaf) isLeaf free
          ⟨rfl, Function.update_self ..⟩ (fun id => ⟨rfl, rfl⟩) rfl
          fun _ => by simp [Op.begins]
        refine started.congr ?_ ?_ _
        · rfl
        · rfl
      · cases taken
  | enableComputePlace leaf =>
      simp only [TreeScheduler.proceed] at taken
      split at taken
      · rename_i isLeaf
        cases taken
        exact orderly.starts_own (.enable leaf) isLeaf free ⟨rfl, follows⟩
          (fun id => ⟨rfl, rfl⟩) rfl fun disabling => by
            rw [follows] at disabling
            cases disabling
      · cases taken

/-- One permitted step. -/
theorem step {next : State size} {label : Label size}
    (orderly : Orderly tree state) (keeps : KeepsEnabled tree state label)
    (taken : TreeScheduler.step tree.toTree state label = some next) :
    Orderly tree next := by
  obtain ⟨-, ⟨fails, -⟩ | ⟨-, proceeds⟩⟩ := step_cases taken
  · rw [keeps.2.1] at fails
    cases fails
  · exact orderly.proceed keeps proceeds

theorem initial (tree : CPUTree size) (queueThreshold : Fin size → Nat) :
    Orderly tree (initialState tree.toTree queueThreshold) := by
  have nobody : ∀ test,
      (initialState tree.toTree queueThreshold).count test = 0 :=
    fun test => rfl
  constructor
  · intro call member
    cases member
  · intro call member
    cases member
  · intro leaf
    exact Nat.zero_le 1
  · intro node isNode
    rfl
  · intro id child member
    cases member
  · intro leaf up above isLeaf disabling
    cases disabling
  · intro leaf isLeaf closed
    cases closed
  · intro node up above isNode
    have all : enabledOf tree.toTree
        (initialState tree.toTree queueThreshold).memory.activation node =
        tree.children node :=
      List.filter_eq_self.mpr fun child member => rfl
    rw [all]
    rfl
  · intro node up above isNode none done
    exact ⟨rfl, List.not_mem_nil, nobody _⟩
  · intro all
    obtain ⟨leaf, member⟩ := tree.populated
    cases all leaf (tree.isLeaf_of_mem leaf member)

end Orderly

/-! ### Whole runs -/

/-- The scheduler is the other one or above it. -/
def Tree.Covers (tree : Tree size) (id below : Fin size) : Prop :=
  Relation.ReflTransGen (fun child up => tree.parent child = some up) below id

/-- Nothing is left to the disabled CPUs. -/
structure State.WorksForEnabled (tree : CPUTree size) (state : State size) :
    Prop where
  /-- A disabled leaf is not registered as idle. -/
  unregistered : ∀ leaf up, tree.isLeaf leaf = true →
    state.memory.activation leaf = .disabled → tree.parent leaf = some up →
    leaf ∉ (state.memory.schedulers up).idleChildren
  /-- No task is in its queue or in its slot. -/
  leaf : ∀ leaf, tree.isLeaf leaf = true →
    state.memory.activation leaf = .disabled →
    (state.memory.schedulers leaf).queue = [] ∧
      (state.memory.schedulers leaf).pollingSlot = none
  /-- No call is about to put a task there. -/
  nobody : ∀ leaf, tree.isLeaf leaf = true →
    state.memory.activation leaf = .disabled →
    ∀ call ∈ state.calls, ∀ op ∈ call.ops, op.delivers leaf = false
  /-- A node all of whose leaves are disabled holds no task. -/
  node : ∀ node, tree.isLeaf node = false →
    (∀ leaf, tree.isLeaf leaf = true → tree.Covers node leaf →
      state.memory.activation leaf = .disabled) →
    ∀ task, (state.memory.schedulers node).holds task = 0
  /-- Every task is in reach of a CPU that has not been disabled. -/
  inReach : ∀ id task, 0 < (state.memory.schedulers id).holds task →
    ∃ leaf, tree.isLeaf leaf = true ∧ tree.Covers id leaf ∧
      state.memory.activation leaf ≠ .disabled

theorem holds_eq_zero {scheduler : Scheduler size}
    (empty : scheduler.queue = [] ∧ scheduler.pollingSlot = none)
    (task : TaskId) : scheduler.holds task = 0 := by
  simp [Scheduler.holds, empty.1, empty.2]

/-- The topmost node covers every scheduler. -/
theorem covers_top (tree : CPUTree size) (id : Fin size) :
    tree.Covers tree.top id := by
  induction id using WellFoundedLT.induction with
  | ind id inductionHypothesis =>
      cases above : tree.parent id with
      | none =>
          rw [(tree.parent_eq_none id).mp above]
          exact Relation.ReflTransGen.refl
      | some up =>
          exact Relation.ReflTransGen.head above
            (inductionHypothesis up (tree.parent_lt id up above))

namespace Orderly

variable {tree : CPUTree size} {state : State size}

/-- A node all of whose leaves are disabled is empty. -/
theorem node_holds (orderly : Orderly tree state) {node : Fin size}
    (isNode : tree.isLeaf node = false)
    (disabled : ∀ leaf, tree.isLeaf leaf = true → tree.Covers node leaf →
      state.memory.activation leaf = .disabled) (task : TaskId) :
    (state.memory.schedulers node).holds task = 0 := by
  by_cases isTop : node = tree.top
  · subst isTop
    have empty := (orderly.vacant fun leaf isLeaf =>
      disabled leaf isLeaf (covers_top tree leaf)).1
    obtain ⟨slot, queue⟩ := slot_of_empty empty tree.top
    exact holds_eq_zero ⟨queue, slot⟩ task
  · obtain ⟨up, above⟩ := Option.ne_none_iff_exists'.mp
      (mt (tree.parent_eq_none node).mp isTop)
    refine holds_eq_zero ⟨node_empty orderly.fits
      (orderly.emptied node up above isNode) fun leaf under => ?_,
      orderly.slots node isNode⟩ task
    refine disabled leaf ?_ (Relation.ReflTransGen.single under)
    by_contra inner
    exact isTop (tree.eq_top_of_node leaf node under
      (Bool.eq_false_iff.mpr inner))

theorem worksForEnabled (orderly : Orderly tree state) :
    state.WorksForEnabled tree := by
  have shut : ∀ leaf, tree.isLeaf leaf = true →
      state.memory.activation leaf = .disabled →
      Closed tree.toTree state leaf := by
    intro leaf isLeaf disabled
    refine orderly.closed leaf isLeaf ?_
    rw [disabled]
    rfl
  constructor
  · intro leaf up isLeaf disabled above
    exact (shut leaf isLeaf disabled).unregistered up above
  · intro leaf isLeaf disabled
    exact leaf_empty orderly.fits (shut leaf isLeaf disabled) disabled
  · intro leaf isLeaf disabled
    exact count_eq_zero_iff.mp (shut leaf isLeaf disabled).nobody
  · exact fun node => orderly.node_holds
  · intro id task holds
    by_contra nowhere
    push Not at nowhere
    refine absurd ?_ (Nat.ne_of_gt holds)
    cases isLeaf : tree.isLeaf id with
    | true =>
        have disabled := nowhere id isLeaf Relation.ReflTransGen.refl
        exact holds_eq_zero (leaf_empty orderly.fits
          (shut id isLeaf disabled) disabled) task
    | false => exact orderly.node_holds isLeaf nowhere task

end Orderly

/-- In every run whose steps do not fail and keep the tasks in reach, no task is
left to a disabled CPU. -/
theorem worksForEnabled_of_run {tree : CPUTree size}
    {queueThreshold : Fin size → Nat} {state : State size}
    (run : Run (step tree.toTree) (KeepsEnabled tree)
      (initialState tree.toTree queueThreshold) state) :
    state.WorksForEnabled tree ∧ state.aborted = false := by
  have orderly : Orderly tree state :=
    run.invariant (Orderly.initial tree queueThreshold)
      fun _ _ _ orderly keeps taken => orderly.step keeps taken
  have starts : (initialState tree.toTree queueThreshold).aborted = false :=
    rfl
  have going : state.aborted = false :=
    run.invariant starts fun _ _ _ going keeps taken =>
      aborted_of_step going keeps.2.1 taken
  exact ⟨orderly.worksForEnabled, going⟩

instance (tree : CPUTree size) (state : State size) (op : Op size) :
    Decidable (op.KeepsEnabled tree state) := by
  apply Op.casesOn
    (motive := fun op => Decidable (op.KeepsEnabled tree state)) op
  case addReadyTask =>
    intro task computePlace
    apply Option.casesOn
      (motive := fun computePlace =>
        Decidable (Op.KeepsEnabled tree state
          (.addReadyTask task computePlace))) computePlace
    all_goals
      intros
      unfold Op.KeepsEnabled
      infer_instance
  all_goals
    intros
    unfold Op.KeepsEnabled
    infer_instance

instance (state : State size) (label : Label size) :
    Decidable (FollowsActivation state label) := by
  cases label <;> unfold FollowsActivation <;> infer_instance

instance (state : State size) (label : Label size) :
    Decidable (Behaves state label) :=
  inferInstanceAs (Decidable (MakesOneCall state label ∧
    FollowsActivation state label))

instance (tree : CPUTree size) (state : State size) (label : Label size) :
    Decidable (KeepsEnabled tree state label) :=
  inferInstanceAs (Decidable (Behaves state label ∧
    state.fails tree.toTree label = false ∧
    ∀ op ∈ state.operation label, op.KeepsEnabled tree state))

/-- Two nodes under the topmost one, each with a CPU. -/
def twoNodes : CPUTree 5 where
  parent := ![none, some 0, some 1, some 0, some 3]
  isLeaf := ![false, false, true, false, true]
  cpuScheduler := [some 2, some 4]
  pollingIterations := 100000
  lifo := false
  ndebug := false
  parent_lt := by decide
  isLeaf_parent := by decide
  hangs := by decide
  isLeaf_of_mem := by decide
  populated := ⟨2, by decide⟩
  top := 0
  parent_eq_none := by decide
  eq_top_of_node := by decide

/-- A CPU runs a task, which adds another one that moves up to the topmost node;
the CPU is disabled. -/
def movedUp : List (Label 5) :=
  .addReadyTask 7 none :: performsAll 0 4 ++
    .getReadyTask 2 true :: performsAll 0 5 ++
    .addReadyTask 8 (some 2) :: performsAll 0 28 ++
    .disableComputePlace 2 :: performsAll 0 7

theorem worksForEnabled_movedUp :
    ∃ state,
      Run (step twoNodes.toTree) (KeepsEnabled twoNodes)
        (initialState twoNodes.toTree fun _ => 0) state ∧
      (state.memory.activation 2 = .disabled ∧
        (state.memory.schedulers 0).queue = [8]) ∧
      state.WorksForEnabled twoNodes ∧ state.aborted = false := by
  have executed :
      (executeAllowed (step twoNodes.toTree) (KeepsEnabled twoNodes)
        (initialState twoNodes.toTree fun _ => 0) movedUp).any
        (fun state => decide (state.memory.activation 2 = .disabled ∧
          (state.memory.schedulers 0).queue = [8])) = true := by
    decide +kernel
  obtain ⟨state, run, moved⟩ :=
    exists_run_of_executeAllowed movedUp _ _ executed
  exact ⟨state, run, of_decide_eq_true moved, worksForEnabled_of_run run⟩

/-- A task of CPU 2 adds four more, which raises the thresholds.  When they are
done the CPU finds nothing and is registered twice, by the two requests of its
call; it is disabled, which takes one entry away.  A task of the other CPU is
handed to it. -/
def handedOver : List (Label 5) :=
  .addReadyTask 1 none :: performsAll 0 4 ++
    .getReadyTask 2 true :: performsAll 0 5 ++
    .addReadyTask 2 (some 2) :: performsAll 0 28 ++
    .addReadyTask 3 (some 2) :: performsAll 0 5 ++
    .addReadyTask 4 (some 2) :: performsAll 0 9 ++
    .addReadyTask 5 (some 2) :: performsAll 0 28 ++
    .getReadyTask 2 false :: performsAll 0 6 ++
    .getReadyTask 2 false :: performsAll 0 12 ++
    .getReadyTask 2 false :: performsAll 0 15 ++
    .getReadyTask 2 false :: performsAll 0 15 ++
    .getReadyTask 2 false :: performsAll 0 56 ++
    .disableComputePlace 2 :: performsAll 0 10 ++
    .addReadyTask 6 none :: performsAll 0 4 ++
    .getReadyTask 4 false :: performsAll 0 5 ++
    .addReadyTask 7 (some 4) :: performsAll 0 17

theorem worksForEnabled_fails :
    ¬ ∀ state,
      Run (step twoNodes.toTree) Behaves
        (initialState twoNodes.toTree fun _ => 0) state →
      state.WorksForEnabled twoNodes := by
  intro holds
  have executed :
      (executeAllowed (step twoNodes.toTree) Behaves
        (initialState twoNodes.toTree fun _ => 0) handedOver).any
        (fun state => decide (state.memory.activation 2 = .disabled ∧
          (state.memory.schedulers 2).pollingSlot = some 7)) = true := by
    decide +kernel
  obtain ⟨state, run, handed⟩ :=
    exists_run_of_executeAllowed handedOver _ _ executed
  obtain ⟨disabled, slot⟩ := of_decide_eq_true handed
  have empty := ((holds state run).leaf 2 rfl disabled).2
  rw [slot] at empty
  cases empty

end Nanos6.TreeScheduler
