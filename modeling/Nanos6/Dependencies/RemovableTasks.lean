import Nanos6.Dependencies.Step

/-!
# The removable tasks of a CPU

The operations of the dependency system collect the tasks that they make
removable in a list of the CPU and dispose of them at their end.  To dispose of
a task can complete the wait clause of an ancestor, and then the accesses of
the ancestor are unregistered on the same CPU, from inside of the loop over the
list.

A machine adds to the dependency system what each CPU executes.  Threads
without a CPU, which fulfill external events, keep a list of their own.
-/

namespace Nanos6.Removal

open Foundation

/-- A function of the source that has been called on a CPU. -/
inductive Frame where
  /-- `registerTaskDataAccesses`, `unregisterTaskDataAccesses`,
  `releaseAccessRegion` or `handleEnterTaskwait`, for the task. -/
  | operation (task : TaskId)
  /-- The end of such an operation: the loop over the removable tasks. -/
  | handleRemovableTasks (task : TaskId) (position : Nat)
  /-- The loop over the ancestors is about to treat the task. -/
  | disposeOrUnblockTask (task : TaskId)
  /-- The accesses of the task have been unregistered. -/
  | markAsReleased (task : TaskId)
  deriving DecidableEq, Repr

/-- The function works on the dependency data of its CPU. -/
def Frame.usesDependencyData : Frame → Bool
  | .operation _ => true
  | .handleRemovableTasks _ _ => true
  | _ => false

structure CPU where
  /-- The innermost call comes first. -/
  stack : List Frame := []
  inUse : Bool := false
  removableTasks : List TaskId := []
  /-- All tasks that have been added to the list so far, and all that have been
  passed to `disposeOrUnblockTask` by the loop; these are not in the source. -/
  pushed : List TaskId := []
  passed : List TaskId := []

namespace CPU

/-- Start an operation. -/
def enter (task : TaskId) (below : List Frame) (cpu : CPU) : CPU :=
  { cpu with stack := .operation task :: below, inUse := true }

/-- Go on with other calls that do not touch the data. -/
def unwind (below : List Frame) (cpu : CPU) : CPU :=
  { cpu with stack := below }

def push (tasks : List TaskId) (stack : List Frame) (cpu : CPU) : CPU :=
  { cpu with
    stack := stack
    removableTasks := cpu.removableTasks ++ tasks
    pushed := cpu.pushed ++ tasks }

/-- The loop takes the next task of the list. -/
def pass (removable task : TaskId) (position : Nat) (below : List Frame)
    (cpu : CPU) : CPU :=
  { cpu with
    stack :=
      .disposeOrUnblockTask removable ::
        .handleRemovableTasks task (position + 1) :: below
    passed := cpu.passed ++ [removable] }

/-- The loop ends, the list is cleared and the operation returns. -/
def leave (stack : List Frame) (cpu : CPU) : CPU :=
  { cpu with stack := stack, removableTasks := [], inUse := false }

end CPU

structure Machine where
  system : System
  cpu : Nat → CPU
  /-- Some assertion about `_inUse` has failed. -/
  assertionFailed : Bool := false

namespace Machine

/-- The system takes a step that changes the CPU. -/
def goesOn (machine : Machine) (system : System) (id : Nat)
    (change : CPU → CPU) : Machine :=
  { machine with
    system := system
    cpu := Function.update machine.cpu id (change (machine.cpu id)) }

/-- An operation starts.  The source asserts that the data is not in use. -/
def enters (machine : Machine) (system : System) (id : Nat) (task : TaskId)
    (below : List Frame) : Machine :=
  { machine.goesOn system id (CPU.enter task below) with
    assertionFailed :=
      machine.assertionFailed || (machine.cpu id).inUse }

/-- An operation returns.  The source asserts that the data was in use. -/
def leaves (machine : Machine) (id : Nat) (stack : List Frame) : Machine :=
  { machine.goesOn machine.system id (CPU.leave stack) with
    assertionFailed :=
      machine.assertionFailed || !(machine.cpu id).inUse }

end Machine

inductive Label where
  /-- A thread calls an operation. -/
  | call (cpu : Nat) (action : Action)
  /-- The innermost operation takes one of its steps. -/
  | operation (cpu : Nat) (action : Action)
  | handleRemovableTasks (cpu : Nat)
  /-- `fulfilled` tells whether the external events of the task, if its wait
  clause completes, have been fulfilled. -/
  | disposeOrUnblockTask (cpu index : Nat) (fulfilled : Bool)
  | markAsReleased (cpu : Nat)
  /-- A step that does not work on the dependency data of a CPU. -/
  | elsewhere (action : Action)
  deriving DecidableEq

/-- The task for which an action starts an operation. -/
def operatedTask : Action → Option TaskId
  | .submit _ child _ _ => some child
  | .taskwait task => some task
  | .release task _ => some task
  | .finish task => some task
  | .unregister task => some task
  | _ => none

/-- The action is a step of the operation in progress of the task. -/
def belongsTo (system : System) (task : TaskId) : Action → Bool
  | .advance other => other == task
  | .delayedOperation index =>
      (system.delayedOperations[index]?).any fun delayed => delayed.1 == task
  | .bottomMapUpdate index =>
      (system.bottomMapUpdates[index]?).any fun update => update.1 == task
  | _ => false

/-- The delayed operations are done; what is left is to hand over the satisfied
originators and to treat the removable tasks. -/
def endsProcessing (system : System) (task : TaskId) (action : Action) :
    Bool :=
  action == .advance task &&
    (system.task task).work.head? == some .processDelayedOperations

/-- What a thread does after an operation for the task has returned. -/
def afterOperation (system : System) (task : TaskId) : List Frame :=
  if (system.task task).work.head? == some .markAsReleased then
    [.markAsReleased task]
  else []

def call (machine : Machine) (id : Nat) (action : Action) : Option Machine :=
  if (machine.cpu id).stack.isEmpty then
    (operatedTask action).bind fun task =>
      (step machine.system action).map fun next =>
        if (next.task task).work.isEmpty then
          machine.goesOn next id (CPU.unwind [])
        else
          machine.enters next id task []
  else none

def operation (machine : Machine) (id : Nat) (action : Action) :
    Option Machine :=
  match (machine.cpu id).stack with
  | .operation task :: below =>
      if belongsTo machine.system task action then
        (step machine.system action).map fun next =>
          machine.goesOn next id <|
            CPU.push
              (next.pendingDisposals.drop
                machine.system.pendingDisposals.length) <|
              if endsProcessing machine.system task action then
                .handleRemovableTasks task 0 :: below
              else .operation task :: below
      else none
  | _ => none

def handleRemovableTasks (machine : Machine) (id : Nat) : Option Machine :=
  match (machine.cpu id).stack with
  | .handleRemovableTasks task position :: below =>
      match (machine.cpu id).removableTasks[position]? with
      | some removable =>
          some <| machine.goesOn machine.system id <|
            CPU.pass removable task position below
      | none =>
          some <| machine.leaves id <|
            afterOperation machine.system task ++ below
  | _ => none

/-- The wait clause of a finished task is going to be completed. -/
def completesWaitClause (system : System) (task : TaskId) : Bool :=
  (system.task task).status.hasFinished && (system.task task).mustDelayRelease

/-- The loop over the ancestors goes on with the parent of a deleted task. -/
def nextAncestor (before after : System) (task : TaskId) : List Frame :=
  match (before.task task).parent with
  | some parent =>
      if (before.task task).status.hasFinished &&
          (after.task parent).counters.countdownToBeWokenUp == 0 then
        [.disposeOrUnblockTask parent]
      else []
  | none => []

def disposeOrUnblock (machine : Machine) (id index : Nat)
    (fulfilled : Bool) : Option Machine :=
  match (machine.cpu id).stack with
  | .disposeOrUnblockTask task :: below =>
      if machine.system.pendingDisposals[index]? = some task then
        (step machine.system (.disposeOrUnblock index)).bind fun next =>
          if completesWaitClause machine.system task then
            if fulfilled then
              (step next (.unregister task)).map fun unregistering =>
                machine.enters unregistering id task below
            else some (machine.goesOn next id (CPU.unwind below))
          else
            some <| machine.goesOn next id <|
              CPU.unwind (nextAncestor machine.system next task ++ below)
      else none
  | _ => none

def markReleased (machine : Machine) (id : Nat) : Option Machine :=
  match (machine.cpu id).stack with
  | .markAsReleased task :: below =>
      (step machine.system (.advance task)).map fun next =>
        machine.goesOn next id <| CPU.unwind <|
          if (next.task task).counters.countdownToBeWokenUp == 0 then
            .disposeOrUnblockTask task :: below
          else below
  | _ => none

def machineStep (machine : Machine) : Label → Option Machine
  | .call cpu action => call machine cpu action
  | .operation cpu action => operation machine cpu action
  | .handleRemovableTasks cpu => handleRemovableTasks machine cpu
  | .disposeOrUnblockTask cpu index fulfilled =>
      disposeOrUnblock machine cpu index fulfilled
  | .markAsReleased cpu => markReleased machine cpu
  | .elsewhere action =>
      (step machine.system action).map fun next =>
        { machine with system := next }

def initialMachine (main : TaskId) : Machine where
  system := initialSystem main
  cpu := fun _ => {}

/-! ## The property and the runs that have it -/

/-- No assertion about the use of the data has failed and no two operations use
the data of one CPU at once.  The loop passes the tasks in the order in which
they have been added, each once, and when no operation is in progress it has
passed them all. -/
structure RemovesOnce (machine : Machine) : Prop where
  asserted : machine.assertionFailed = false
  alone : ∀ id,
    (machine.cpu id).stack.countP Frame.usesDependencyData ≤ 1
  inOrder : ∀ id, (machine.cpu id).passed <+: (machine.cpu id).pushed
  all : ∀ id,
    (machine.cpu id).stack.countP Frame.usesDependencyData = 0 →
      (machine.cpu id).passed = (machine.cpu id).pushed

/-- The loop over the removable tasks must not reach a task whose wait clause
it would complete with all external events fulfilled. -/
def permits (machine : Machine) : Label → Bool
  | .disposeOrUnblockTask cpu _ fulfilled =>
      match (machine.cpu cpu).stack with
      | .disposeOrUnblockTask task :: below =>
          !(fulfilled && completesWaitClause machine.system task &&
            below.any Frame.usesDependencyData)
      | _ => true
  | _ => true

def Permitted (machine : Machine) (label : Label) : Prop :=
  permits machine label = true

instance (machine : Machine) (label : Label) :
    Decidable (Permitted machine label) :=
  inferInstanceAs (Decidable (permits machine label = true))

/-! ## Invariant -/

/-- The calls of a CPU: at most one operation, and above its loop at most one
walk over the ancestors. -/
inductive CPU.Sound : CPU → Prop
  | outside {cpu : CPU} :
      cpu.stack.all (fun frame => !frame.usesDependencyData) = true →
      cpu.stack.length ≤ 1 →
      cpu.inUse = false → cpu.removableTasks = [] →
      cpu.passed = cpu.pushed → CPU.Sound cpu
  | operating {cpu : CPU} (task : TaskId) :
      cpu.stack = [.operation task] →
      cpu.inUse = true →
      cpu.passed ++ cpu.removableTasks = cpu.pushed → CPU.Sound cpu
  | removing {cpu : CPU} (above : List Frame) (task : TaskId)
      (position : Nat) :
      cpu.stack = above ++ [.handleRemovableTasks task position] →
      above.all (fun frame => !frame.usesDependencyData) = true →
      above.length ≤ 1 →
      cpu.inUse = true →
      cpu.passed ++ cpu.removableTasks.drop position = cpu.pushed →
      CPU.Sound cpu

structure Inv (machine : Machine) : Prop where
  asserted : machine.assertionFailed = false
  sound : ∀ id, (machine.cpu id).Sound

theorem countP_of_unused {stack : List Frame}
    (unused : stack.all (fun frame => !frame.usesDependencyData) = true) :
    stack.countP Frame.usesDependencyData = 0 := by
  refine List.countP_eq_zero.mpr ?_
  intro frame member
  simpa using List.all_eq_true.mp unused frame member

namespace Inv

variable {machine next : Machine}

theorem goesOn (inv : Inv machine) {system : System} {id : Nat}
    {change : CPU → CPU} (sound : (change (machine.cpu id)).Sound) :
    Inv (machine.goesOn system id change) := by
  refine ⟨inv.asserted, ?_⟩
  intro other
  by_cases same : other = id
  · subst same
    simpa [Machine.goesOn] using sound
  · simpa [Machine.goesOn, same] using inv.sound other

/-- An operation may start when none is in progress. -/
theorem enters (inv : Inv machine) {system : System} {id : Nat}
    {task : TaskId} {below : List Frame}
    (free : (machine.cpu id).inUse = false) (bottom : below = [])
    (cleared : (machine.cpu id).removableTasks = [])
    (done : (machine.cpu id).passed = (machine.cpu id).pushed) :
    Inv (machine.enters system id task below) := by
  subst bottom
  have entered : Inv (machine.goesOn system id (CPU.enter task [])) := by
    refine inv.goesOn (.operating task rfl rfl ?_)
    change (machine.cpu id).passed ++ (machine.cpu id).removableTasks =
      (machine.cpu id).pushed
    rw [cleared, List.append_nil, done]
  refine ⟨?_, entered.sound⟩
  change (machine.assertionFailed || (machine.cpu id).inUse) = false
  rw [inv.asserted, free]
  rfl

theorem call {id : Nat} {action : Action} (inv : Inv machine)
    (taken : call machine id action = some next) : Inv next := by
  unfold Removal.call at taken
  split at taken
  case isFalse => cases taken
  case isTrue idle =>
  have noFrames : (machine.cpu id).stack = [] := List.isEmpty_iff.mp idle
  obtain ⟨task, _, started⟩ := Option.bind_eq_some_iff.mp taken
  obtain ⟨system, _, rfl⟩ := Option.map_eq_some_iff.mp started
  cases inv.sound id with
  | outside _ _ free cleared done =>
      split
      · refine inv.goesOn (.outside rfl (Nat.zero_le 1) free cleared done)
      · exact inv.enters free rfl cleared done
  | operating task stack _ _ =>
      rw [noFrames] at stack
      cases stack
  | removing above task position stack _ _ _ _ =>
      rw [noFrames] at stack
      simp at stack

theorem operation {id : Nat} {action : Action} (inv : Inv machine)
    (taken : operation machine id action = some next) : Inv next := by
  unfold Removal.operation at taken
  split at taken
  case h_2 => cases taken
  case h_1 task below top =>
  split at taken
  case isFalse => cases taken
  case isTrue =>
  obtain ⟨system, _, rfl⟩ := Option.map_eq_some_iff.mp taken
  cases inv.sound id with
  | outside unused _ _ _ _ =>
      rw [top] at unused
      simp [Frame.usesDependencyData] at unused
  | operating only stack used waiting =>
      rw [top] at stack
      obtain ⟨-, rfl⟩ := List.cons.inj stack
      have pushed : ∀ tasks : List TaskId,
          (machine.cpu id).passed ++
              ((machine.cpu id).removableTasks ++ tasks) =
            (machine.cpu id).pushed ++ tasks := by
        intro tasks
        rw [← List.append_assoc, waiting]
      refine inv.goesOn ?_
      split
      · exact .removing [] task 0 rfl rfl (Nat.zero_le 1) used (pushed _)
      · exact .operating task rfl used (pushed _)
  | removing above removed position stack unused _ _ _ =>
      rw [top] at stack
      cases above with
      | nil => cases stack
      | cons first rest =>
          obtain ⟨rfl, -⟩ := List.cons.inj stack
          simp [Frame.usesDependencyData] at unused

/-- While the loop is innermost it is the only call on the CPU. -/
theorem handleRemovableTasks {id : Nat} (inv : Inv machine)
    (taken : handleRemovableTasks machine id = some next) : Inv next := by
  unfold Removal.handleRemovableTasks at taken
  split at taken
  case h_2 => cases taken
  case h_1 task position below top =>
  cases inv.sound id with
  | outside unused _ _ _ _ =>
      rw [top] at unused
      simp [Frame.usesDependencyData] at unused
  | operating only stack _ _ =>
      rw [top] at stack
      cases stack
  | removing above removed reached stack unused _ used waiting =>
      rw [top] at stack
      cases above with
      | cons first rest =>
          obtain ⟨rfl, -⟩ := List.cons.inj stack
          simp [Frame.usesDependencyData] at unused
      | nil =>
          cases stack
          split at taken
          · rename_i removable found
            cases taken
            refine inv.goesOn
              (.removing [.disposeOrUnblockTask removable] task
                (position + 1) rfl rfl (Nat.le_refl 1) used ?_)
            obtain ⟨bound, rfl⟩ := List.getElem?_eq_some_iff.mp found
            rw [List.drop_eq_getElem_cons bound] at waiting
            simpa [CPU.pass] using waiting
          · rename_i past
            cases taken
            have finished :
                (machine.cpu id).removableTasks.drop position = [] :=
              List.drop_eq_nil_of_le (List.getElem?_eq_none_iff.mp past)
            rw [finished, List.append_nil] at waiting
            have left : Inv (machine.goesOn machine.system id
                (CPU.leave (afterOperation machine.system task ++ []))) := by
              refine inv.goesOn (.outside ?_ ?_ rfl rfl waiting)
              · change (afterOperation machine.system task ++ []).all _ = true
                unfold afterOperation
                split <;> rfl
              · change (afterOperation machine.system task ++ []).length ≤ 1
                unfold afterOperation
                split <;> simp
            refine ⟨?_, left.sound⟩
            change (machine.assertionFailed || !(machine.cpu id).inUse) = false
            rw [inv.asserted, used]
            rfl

/-- A walk over the ancestors may change its task or end. -/
theorem unwind {id : Nat} (inv : Inv machine) {system : System}
    {frame : Frame} {below : List Frame} (above : List Frame)
    (top : (machine.cpu id).stack = frame :: below)
    (walks : frame.usesDependencyData = false)
    (unused : above.all (fun frame => !frame.usesDependencyData) = true)
    (short : above.length ≤ 1) :
    Inv (machine.goesOn system id (CPU.unwind (above ++ below))) := by
  refine inv.goesOn ?_
  cases inv.sound id with
  | outside _ single free cleared done =>
      rw [top] at single
      have bottom : below = [] := by
        cases below with
        | nil => rfl
        | cons first rest => simp at single
      subst bottom
      refine .outside ?_ ?_ free cleared done
      · simpa [CPU.unwind] using unused
      · simpa [CPU.unwind] using short
  | operating task stack _ _ =>
      rw [top] at stack
      cases stack
      cases walks
  | removing isOver task position stack _ single used waiting =>
      rw [top] at stack
      cases isOver with
      | nil =>
          cases stack
          cases walks
      | cons first rest =>
          have nothing : rest = [] := by
            cases rest with
            | nil => rfl
            | cons second others => simp at single
          subst nothing
          obtain ⟨-, rfl⟩ := List.cons.inj stack
          exact .removing above task position rfl unused short used waiting

theorem disposeOrUnblock {id index : Nat} {fulfilled : Bool}
    (inv : Inv machine)
    (permitted : Permitted machine (.disposeOrUnblockTask id index fulfilled))
    (taken : disposeOrUnblock machine id index fulfilled = some next) :
    Inv next := by
  unfold Removal.disposeOrUnblock at taken
  split at taken
  case h_2 => cases taken
  case h_1 task below top =>
  split at taken
  case isFalse => cases taken
  case isTrue =>
  obtain ⟨system, _, continued⟩ := Option.bind_eq_some_iff.mp taken
  split at continued
  · rename_i completes
    split at continued
    · rename_i events
      obtain ⟨unregistering, _, rfl⟩ := Option.map_eq_some_iff.mp continued
      have notNested : below.any Frame.usesDependencyData = false := by
        simpa [Permitted, permits, top, events, completes] using permitted
      cases inv.sound id with
      | outside _ single free cleared done =>
          rw [top] at single
          have bottom : below = [] := by
            cases below with
            | nil => rfl
            | cons first rest => simp at single
          exact inv.enters free bottom cleared done
      | operating only stack _ _ =>
          rw [top] at stack
          cases stack
      | removing above removed position stack _ _ _ _ =>
          rw [top] at stack
          cases above with
          | nil => cases stack
          | cons first rest =>
              obtain ⟨-, rfl⟩ := List.cons.inj stack
              simp [Frame.usesDependencyData] at notNested
    · cases continued
      exact inv.unwind [] top rfl rfl (Nat.zero_le 1)
  · cases continued
    refine inv.unwind _ top rfl ?_ ?_
    · unfold nextAncestor
      split
      · split <;> rfl
      · rfl
    · unfold nextAncestor
      split
      · split <;> simp
      · simp

theorem markReleased {id : Nat} (inv : Inv machine)
    (taken : markReleased machine id = some next) : Inv next := by
  unfold Removal.markReleased at taken
  split at taken
  case h_2 => cases taken
  case h_1 task below top =>
  obtain ⟨system, _, rfl⟩ := Option.map_eq_some_iff.mp taken
  split
  · exact inv.unwind [.disposeOrUnblockTask task] top rfl rfl
      (Nat.le_refl 1)
  · exact inv.unwind [] top rfl rfl (Nat.zero_le 1)

theorem step (inv : Inv machine) {label : Label}
    (permitted : Permitted machine label)
    (taken : machineStep machine label = some next) : Inv next := by
  cases label with
  | call id action => exact inv.call taken
  | operation id action => exact inv.operation taken
  | handleRemovableTasks id => exact inv.handleRemovableTasks taken
  | disposeOrUnblockTask id index fulfilled =>
      exact inv.disposeOrUnblock permitted taken
  | markAsReleased id => exact inv.markReleased taken
  | elsewhere action =>
      obtain ⟨system, _, rfl⟩ := Option.map_eq_some_iff.mp taken
      exact ⟨inv.asserted, inv.sound⟩

theorem removesOnce (inv : Inv machine) : RemovesOnce machine := by
  refine ⟨inv.asserted, ?_, ?_, ?_⟩
  · intro id
    cases inv.sound id with
    | outside unused _ _ _ _ =>
        rw [countP_of_unused unused]
        exact Nat.zero_le 1
    | operating task stack _ _ =>
        rw [stack]
        simp [Frame.usesDependencyData]
    | removing above task position stack unused _ _ _ =>
        rw [stack, List.countP_append, countP_of_unused unused]
        simp [Frame.usesDependencyData]
  · intro id
    cases inv.sound id with
    | outside _ _ _ _ done => rw [done]
    | operating _ _ _ waiting => exact ⟨_, waiting⟩
    | removing _ _ _ _ _ _ _ waiting => exact ⟨_, waiting⟩
  · intro id none
    cases inv.sound id with
    | outside _ _ _ _ done => exact done
    | operating task stack _ _ =>
        rw [stack] at none
        simp [Frame.usesDependencyData] at none
    | removing above task position stack _ _ _ _ =>
        rw [stack, List.countP_append] at none
        simp [Frame.usesDependencyData] at none

end Inv

/-- In every run in which no wait clause is completed from inside of the loop,
every removable task is disposed of once and no operation meets another one on
its CPU. -/
theorem removesOnce_of_run {main : TaskId} {machine : Machine}
    (run : Run machineStep Permitted (initialMachine main) machine) :
    RemovesOnce machine := by
  have initial : Inv (initialMachine main) :=
    ⟨rfl, fun _ => .outside rfl (Nat.zero_le 1) rfl rfl rfl⟩
  have inv : Inv machine :=
    run.invariant initial fun _ _ _ before permitted taken =>
      before.step permitted taken
  exact inv.removesOnce

/-! ## Runs on one CPU -/

/-- The registration of a child that writes the first eight bytes. -/
def registers (parent child : TaskId) (weak mustDelayRelease : Bool)
    (actions : List Action) : List Label :=
  .call 0 (.submit parent child
      [{ type := .write, weak := weak, region := ⟨0, 8⟩ }]
      mustDelayRelease) ::
    actions.map (.operation 0) ++
    [.handleRemovableTasks 0, .elsewhere (.advance child)]

/-- A body without further calls, and the unregistration of its accesses up to
the loop over the removable tasks. -/
def runs (task : TaskId) (actions : List Action) : List Label :=
  [.elsewhere (.start task), .elsewhere (.finish task),
    .call 0 (.unregister task)] ++ actions.map (.operation 0)

def advances (count : Nat) (task : TaskId) : List Action :=
  List.replicate count (.advance task)

def delayed (count : Nat) : List Action :=
  List.replicate count (.delayedOperation 0)

/-- Task 1 writes.  Task 2, with a wait clause, comes after it and has the
child 3; both have weak accesses only, so they run before task 1 completes. -/
def nestedBehindWriter : List Label :=
  registers 0 1 false false (advances 5 1) ++
    registers 0 2 true true (advances 4 2 ++ delayed 2 ++ advances 1 2) ++
    [.elsewhere (.start 2)] ++
    registers 2 3 true false (advances 5 3) ++
    runs 3 (advances 4 3) ++
    [.handleRemovableTasks 0, .markAsReleased 0, .call 0 (.finish 2)] ++
    (advances 8 2).map (.operation 0) ++
    [.handleRemovableTasks 0, .elsewhere (.advance 2)] ++
    runs 1 (advances 3 1 ++ delayed 8 ++ advances 1 1)

/-- When task 1 completes, its CPU disposes of task 3, which completes the wait
clause of task 2.  The unregistration of task 2 finds the data in use and its
loop starts again with task 3, which is in the list only once. -/
theorem removesOnce_fails :
    ∃ machine,
      Run machineStep (fun _ _ => True) (initialMachine 0) machine ∧
        machine.system.assertionFailed = false ∧
        machine.assertionFailed = true ∧
        (machine.cpu 0).pushed = [3] ∧ (machine.cpu 0).passed = [3, 3] ∧
        ¬ RemovesOnce machine := by
  obtain ⟨machine, run, outcome⟩ :=
    exists_run_of_executeAllowed
      (nestedBehindWriter ++
        [.handleRemovableTasks 0, .disposeOrUnblockTask 0 0 true,
          .disposeOrUnblockTask 0 0 true] ++
        (advances 4 2).map (.operation 0) ++ [.handleRemovableTasks 0])
      (initialMachine 0)
      (fun machine =>
        decide (machine.system.assertionFailed = false ∧
          machine.assertionFailed = true ∧
          (machine.cpu 0).pushed = [3] ∧ (machine.cpu 0).passed = [3, 3]))
      (by decide +kernel :
        (executeAllowed machineStep (fun _ _ => True) _ _).any _ = true)
  have reached := of_decide_eq_true outcome
  refine ⟨machine, run, reached.1, reached.2.1, reached.2.2.1,
    reached.2.2.2, ?_⟩
  intro once
  rw [once.asserted] at reached
  exact absurd reached.2.1 (by decide)

/-- Without the wait clause the loop disposes of the task in its list, and the
operation returns with an empty list. -/
theorem removesOnce_without_wait_clause :
    ∃ machine,
      Run machineStep Permitted (initialMachine 0) machine ∧
        (machine.cpu 0).stack = [] ∧
        (machine.system.task 2).status = .disposed ∧
        (machine.cpu 0).passed = [2] ∧ RemovesOnce machine := by
  obtain ⟨machine, run, outcome⟩ :=
    exists_run_of_executeAllowed
      (registers 0 1 false false (advances 5 1) ++
        registers 0 2 true false (advances 4 2 ++ delayed 2 ++ advances 1 2) ++
        registers 0 3 false false
          (advances 4 3 ++ delayed 2 ++ advances 1 3) ++
        runs 2 (advances 4 2) ++
        [.handleRemovableTasks 0, .markAsReleased 0] ++
        runs 1 (advances 3 1 ++ delayed 4 ++ advances 1 1) ++
        [.handleRemovableTasks 0, .disposeOrUnblockTask 0 0 true,
          .handleRemovableTasks 0, .markAsReleased 0,
          .disposeOrUnblockTask 0 0 true])
      (initialMachine 0)
      (fun machine =>
        decide ((machine.cpu 0).stack = [] ∧
          (machine.system.task 2).status = .disposed ∧
          (machine.cpu 0).passed = [2]))
      (by decide +kernel :
        (executeAllowed machineStep Permitted _ _).any _ = true)
  have reached := of_decide_eq_true outcome
  exact ⟨machine, run, reached.1, reached.2.1, reached.2.2,
    removesOnce_of_run run⟩

end Nanos6.Removal
