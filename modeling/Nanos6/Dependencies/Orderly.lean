import Nanos6.Dependencies.Lineage

/-!
# Orderly control states

As long as only tasks that are parked (blocked, at the end of their wait
clause, or released) are unblocked or disposed of, the control state of every
task is consistent: its work fits its status, the wait clause is over when the
task says so, and a task that registers a child does nothing else.
-/

namespace Nanos6

open Foundation

/-- Whether the status tells if the wait clause is still to come. -/
def TaskStatus.delays : TaskStatus → Option Bool
  | .finishing => some true
  | .inWaitClause => some true
  | .waitClausePending => some true
  | .finished => some false
  | .releasing => some false
  | .released => some false
  | .disposed => some false
  | _ => none

/-- The statuses in which a task has nothing to do but to wait for
`disposeOrUnblockTask`. -/
def TaskStatus.isParked : TaskStatus → Bool
  | .blocked => true
  | .waitClausePending => true
  | .released => true
  | _ => false

structure Orderly (system : System) : Prop where
  phased : Phased system
  delays : ∀ task expected,
    (system.control task).status.delays = some expected →
      (system.control task).mustDelayRelease = expected
  running : ∀ task child,
    (system.control task).registeringChild = some child →
      (system.control task).status = .running ∧
        (system.control task).work = []
  registers : ∀ task, (system.control task).status = .registering →
    ∃ parent, (system.control task).parent = some parent ∧
      (system.control parent).registeringChild = some task

namespace Orderly

variable {system next : System} {task : TaskId}

theorem of_control (orderly : Orderly system)
    (same : next.control = system.control) : Orderly next where
  phased := orderly.phased.of_control same
  delays := by
    rw [same]
    exact orderly.delays
  running := by
    rw [same]
    exact orderly.running
  registers := by
    rw [same]
    exact orderly.registers

/-- A task with work to do does not register a child. -/
theorem registeringChild_of_work (orderly : Orderly system)
    (working : (system.control task).work ≠ []) :
    (system.control task).registeringChild = none := by
  by_contra registering
  obtain ⟨child, isChild⟩ := Option.ne_none_iff_exists'.mp registering
  exact working (orderly.running task child isChild).2

theorem update (orderly : Orderly system) {control : Control}
    (changed : next.control = Function.update system.control task control)
    (phased : Phased next)
    (delays : ∀ expected, control.status.delays = some expected →
      control.mustDelayRelease = expected)
    (parent : control.parent = (system.control task).parent)
    (child : control.registeringChild =
      (system.control task).registeringChild)
    (running : (system.control task).registeringChild = none ∨
      (control.status = .running ∧ control.work = []))
    (registers : control.status = .registering →
      (system.control task).status = .registering) :
    Orderly next := by
  have sameChild : ∀ other, (next.control other).registeringChild =
      (system.control other).registeringChild := by
    intro other
    rw [changed]
    by_cases same : other = task
    · subst same
      simpa using child
    · simp [same]
  have sameParent : ∀ other, (next.control other).parent =
      (system.control other).parent := by
    intro other
    rw [changed]
    by_cases same : other = task
    · subst same
      simpa using parent
    · simp [same]
  refine ⟨phased, ?_, ?_, ?_⟩
  · intro other expected
    rw [changed]
    by_cases same : other = task
    · subst same
      simpa using delays expected
    · simpa [same] using orderly.delays other expected
  · intro other registering isChild
    rw [sameChild] at isChild
    by_cases same : other = task
    · subst same
      rw [changed, Function.update_self]
      refine running.resolve_left ?_
      rw [isChild]
      simp
    · rw [changed, Function.update_of_ne same]
      exact orderly.running other registering isChild
  · intro other registering
    have before : (system.control other).status = .registering := by
      rw [changed] at registering
      by_cases same : other = task
      · subst same
        rw [Function.update_self] at registering
        exact registers registering
      · rw [Function.update_of_ne same] at registering
        exact registering
    obtain ⟨registrar, isParent, isChild⟩ := orderly.registers other before
    refine ⟨registrar, ?_, ?_⟩
    · rw [sameParent]
      exact isParent
    · rw [sameChild]
      exact isChild

/-- The operation of a task goes on in the same status. -/
theorem goesOn (orderly : Orderly system) (phased : Phased next)
    {head : Work} {rest : List Work}
    (working : (system.task task).work = head :: rest)
    (goes : GoesOn system task head rest next) : Orderly next := by
  obtain ⟨loops, sets, _⟩ := goes
  refine orderly.update sets phased (orderly.delays task) rfl rfl ?_ id
  left
  refine orderly.registeringChild_of_work ?_
  change (system.task task).work ≠ []
  simp [working]

theorem decreasePredecessors (orderly : Orderly system)
    (lineage : Lineage system) {rest : List Work}
    (working : (system.task task).work = .decreasePredecessors :: rest) :
    Orderly (Nanos6.decreasePredecessors system task rest) := by
  obtain ⟨registering, -⟩ := orderly.phased.atDecreasePredecessors working
  have phased := orderly.phased.decreasePredecessors working
  obtain ⟨parent, isParent, isChild⟩ := orderly.registers task registering
  have differ : task ≠ parent := by
    intro same
    subst same
    exact lineage.parent_ne task isParent
  have parentIs : (system.task task).parent = some parent := isParent
  have control : ∀ other,
      (Nanos6.decreasePredecessors system task rest).control other =
        if other = task then
          { system.control task with status := .registered, work := rest }
        else if other = parent then
          { system.control parent with registeringChild := none }
        else system.control other := by
    intro other
    unfold Nanos6.decreasePredecessors System.control
    rw [parentIs]
    dsimp only
    rw [System.task_modifyTask, System.task_modifyTask,
      System.task_modifyTask]
    by_cases isTask : other = task
    · subst isTask
      simp [differ, Task.control]
    · by_cases isParent : other = parent
      · subst isParent
        simp [isTask, Task.control]
      · simp [isTask, isParent]
  refine ⟨phased, ?_, ?_, ?_⟩
  · intro other expected
    rw [control]
    split
    · intro delays
      cases delays
    · split
      · exact orderly.delays parent expected
      · exact orderly.delays other expected
  · intro other child
    rw [control]
    split
    · intro registersChild
      have busy := (orderly.running task child registersChild).1
      change (system.task task).status = .running at busy
      rw [registering] at busy
      cases busy
    · split
      · intro registersChild
        cases registersChild
      · exact orderly.running other child
  · intro other
    rw [control]
    by_cases isTask : other = task
    · rw [if_pos isTask]
      intro registers
      cases registers
    · intro registers
      rw [if_neg isTask] at registers
      have before : (system.control other).status = .registering := by
        split at registers
        · rename_i isParent
          rw [isParent]
          exact registers
        · exact registers
      obtain ⟨registrar, registrarIs, childIs⟩ :=
        orderly.registers other before
      have otherRegistrar : registrar ≠ parent := by
        intro same
        subst same
        rw [isChild] at childIs
        exact isTask (Option.some.inj childIs).symm
      have notTask : registrar ≠ task := by
        intro same
        subst same
        have busy := (orderly.running registrar other childIs).1
        change (system.task registrar).status = .running at busy
        rw [registering] at busy
        cases busy
      refine ⟨registrar, ?_, ?_⟩
      · rw [if_neg isTask]
        split
        · rename_i isParent
          rw [isParent] at registrarIs
          exact registrarIs
        · exact registrarIs
      · rw [control, if_neg notTask, if_neg otherRegistrar]
        exact childIs

theorem advance (orderly : Orderly system) (lineage : Lineage system)
    (advanced : Nanos6.advance system task = some next) : Orderly next := by
  have phased := orderly.phased.advance advanced
  obtain ⟨head, rest, working, -, -, advances⟩ := advances_of_advance advanced
  have free : (system.control task).registeringChild = none := by
    refine orderly.registeringChild_of_work ?_
    change (system.task task).work ≠ []
    simp [working]
  have delays := orderly.delays task
  cases advances with
  | linkTaskAccesses low =>
      exact orderly.goesOn phased working
        (goesOn_linkTaskAccesses system task low rest)
  | replaceMatching parentIs matched =>
      exact orderly.goesOn phased working
        (goesOn_replaceMatchingInBottomMap system task _ _ rest matched)
  | decreasePredecessors => exact orderly.decreasePredecessors lineage working
  | enterTaskwait =>
      obtain ⟨loops, changed, _⟩ :=
        control_handleEnterTaskwait system task rest
      refine orderly.update changed phased ?_ rfl rfl (Or.inl free) ?_
      · intro expected
        dsimp only
        rcases orderly.phased.atEnterTaskwait working with
          ⟨status, -⟩ | ⟨status, -⟩
        · rw [status]
          intro none
          cases none
        · rw [status]
          intro same
          refine delays expected ?_
          change (system.task task).status.delays = some expected
          rw [status]
          exact same
      · dsimp only
        split <;> intro registering <;> cases registering
  | createTaskwait low =>
      exact orderly.goesOn phased working
        (goesOn_createTaskwait system task low rest)
  | createTopLevelSink low =>
      exact orderly.goesOn phased working
        (goesOn_createTopLevelSink system task low rest)
  | linkToTaskwait linked =>
      exact orderly.goesOn phased working
        (goesOn_linkToTaskwait system task _ _ rest linked)
  | finalizeFragments low =>
      exact orderly.goesOn phased working
        (goesOn_finalizeFragments system task low rest)
  | finalizeAccesses region =>
      exact orderly.goesOn phased working
        (goesOn_finalizeAccess system task region rest)
  | finalizeFragmentsOf region =>
      exact orderly.goesOn phased working
        (goesOn_finalizeFragmentsOf system task region rest)
  | processDelayedOperations =>
      exact orderly.goesOn phased working
        ((setsWork_setWork system task rfl rest).ends .processDelayedOperations)
  | markAsBlocked =>
      obtain ⟨done, changed⟩ := control_markAsBlocked system task rest
      refine orderly.update changed phased ?_ rfl rfl (Or.inl free) ?_
      · intro expected none
        cases done <;> cases none
      · intro registering
        cases done <;> cases registering
  | exitTaskwait =>
      refine orderly.update (control_exitTaskwait system task rest) phased ?_
        rfl rfl (Or.inl free) ?_
      · intro expected none
        cases none
      · intro registering
        cases registering
  | completeWaitClause =>
      have status := (orderly.phased.atCompleteWaitClause working).1
      rcases control_completeWaitClause system task rest with changed | changed
      · refine orderly.update changed phased ?_ rfl rfl (Or.inl free) ?_
        · intro expected same
          refine delays expected ?_
          change (system.task task).status.delays = some expected
          rw [status]
          exact same
        · intro registering
          cases registering
      · refine orderly.update changed phased ?_ rfl rfl (Or.inl free) ?_
        · intro expected same
          injection same
        · intro registering
          cases registering
  | markAsReleased =>
      have status := (orderly.phased.atMarkAsReleased working).1
      refine orderly.update (control_markAsReleased system task rest) phased
        ?_ rfl rfl (Or.inl free) ?_
      · intro expected same
        refine delays expected ?_
        change (system.task task).status.delays = some expected
        rw [status]
        exact same
      · intro registering
        cases registering

theorem submitTask (orderly : Orderly system) (lineage : Lineage system)
    {parent child : TaskId} {declarations : List AccessDeclaration}
    {mustDelayRelease : Bool}
    (submitted :
      Nanos6.submitTask system parent child declarations mustDelayRelease =
        some next) : Orderly next := by
  obtain ⟨canCall, unborn, differ, accesses, -, rfl⟩ :=
    submitTask_eq_some submitted
  simp only [Task.canCall, Bool.and_eq_true, beq_iff_eq, List.isEmpty_iff,
    Option.isNone_iff_eq_none] at canCall
  obtain ⟨⟨running, idle⟩, free⟩ := canCall
  have control : ∀ other,
      ((system.modifyTask parent (Task.addChild child accesses)).modifyTask
        child fun _ => newTask parent accesses mustDelayRelease).control
          other =
        if other = child then
          (newTask parent accesses mustDelayRelease).control
        else if other = parent then
          ((system.task parent).addChild child accesses).control
        else system.control other := by
    intro other
    unfold System.control
    rw [System.task_modifyTask, System.task_modifyTask]
    by_cases isChild : other = child
    · simp [isChild]
    · by_cases isParent : other = parent
      · subst isParent
        simp [isChild]
      · simp [isChild, isParent]
  generalize
    ((system.modifyTask parent (Task.addChild child accesses)).modifyTask
      child fun _ => newTask parent accesses mustDelayRelease) = created
    at control
  have newStatus : ∀ status : TaskStatus,
      (newTask parent accesses mustDelayRelease).control.status = status →
      status = .registering ∧ accesses.pieces.isEmpty = false ∨
        status = .registered := by
    intro status same
    simp only [newTask, Task.control] at same
    cases empty : accesses.pieces.isEmpty <;> simp [empty] at same <;>
      simp [← same]
  refine ⟨?_, ?_, ?_, ?_⟩
  · intro other
    rw [control]
    split
    · simp only [newTask, Task.control]
      cases accesses.pieces.isEmpty with
      | true => exact workFits_last .registered
      | false =>
          exact ⟨[.linkTaskAccesses 0, .processDelayedOperations], rfl,
            by simp [TaskStatus.allows]⟩
    · split
      · exact orderly.phased parent
      · exact orderly.phased other
  · intro other expected
    rw [control]
    split
    · intro same
      rcases newStatus _ rfl with ⟨status, -⟩ | status <;>
        rw [status] at same <;> cases same
    · split
      · exact orderly.delays parent expected
      · exact orderly.delays other expected
  · intro other registered
    rw [control]
    split
    · intro none
      cases none
    · split
      · exact fun _ => ⟨running, idle⟩
      · exact orderly.running other registered
  · intro other registering
    rw [control] at registering
    rw [control]
    by_cases isChild : other = child
    · subst isChild
      rw [if_pos rfl] at registering
      rcases newStatus _ registering with ⟨-, nonempty⟩ | status
      · refine ⟨parent, by simp [newTask, Task.control], ?_⟩
        rw [control, if_neg differ.symm, if_pos rfl]
        simp [Task.addChild, Task.control, nonempty]
      · cases status
    · rw [if_neg isChild] at registering ⊢
      have before : (system.control other).status = .registering := by
        split at registering
        · rename_i isParent
          rw [isParent]
          exact registering
        · exact registering
      obtain ⟨registrar, registrarIs, childIs⟩ :=
        orderly.registers other before
      refine ⟨registrar, ?_, ?_⟩
      · split
        · rename_i isParent
          rw [isParent] at registrarIs
          exact registrarIs
        · exact registrarIs
      · have notChild : registrar ≠ child := by
          intro same
          subst same
          exact lineage.parent_born other registrar registrarIs unborn
        have notParent : registrar ≠ parent := by
          intro same
          subst same
          change (system.task registrar).registeringChild = some other
            at childIs
          rw [free] at childIs
          cases childIs
        rw [control, if_neg notChild, if_neg notParent]
        exact childIs

/-- Every step keeps the control states orderly, provided that
`disposeOrUnblockTask` is called for parked tasks only. -/
theorem step (orderly : Orderly system) (lineage : Lineage system)
    (parked : ∀ task ∈ system.pendingDisposals,
      (system.task task).status.isParked = true)
    {action : Action} (taken : Nanos6.step system action = some next) :
    Orderly next := by
  have canCall : ∀ task : TaskId, (system.task task).canCall = true →
      (system.task task).status = .running ∧
        (system.task task).work = [] ∧
        (system.task task).registeringChild = none := by
    intro task can
    simp only [Task.canCall, Bool.and_eq_true, beq_iff_eq, List.isEmpty_iff,
      Option.isNone_iff_eq_none] at can
    exact ⟨can.1.1, can.1.2, can.2⟩
  cases action with
  | submit parent child declarations mustDelayRelease =>
      exact orderly.submitTask lineage taken
  | start task =>
      simp only [Nanos6.step] at taken
      split at taken
      · rename_i ready
        simp only [Bool.and_eq_true, beq_iff_eq] at ready
        cases taken
        have changed := System.control_modifyTask system task fun current =>
          { current with status := .running }
        have fits := orderly.phased task
        have status : (system.control task).status = .registered := ready.1
        have idle : (system.control task).work = [] := by
          obtain ⟨loops, work, allowed⟩ := fits
          rw [status] at work allowed
          cases loops with
          | nil => exact work
          | cons loop others =>
              have impossible := allowed loop (by simp)
              cases loop <;> cases impossible
        have phased := orderly.phased.update changed (by
          change WorkFits .running (system.control task).work
          rw [idle]
          exact workFits_last .running)
        refine orderly.update changed phased ?_ rfl rfl (Or.inr ⟨rfl, idle⟩) ?_
        · intro expected none
          cases none
        · intro registering
          cases registering
      · cases taken
  | taskwait task =>
      simp only [Nanos6.step, enterTaskwait] at taken
      split at taken
      · cases taken
      · rename_i can
        obtain ⟨-, -, free⟩ := canCall task (by simpa using can)
        split at taken
        · split at taken
          · cases taken
          · cases taken
            exact orderly
        · cases taken
          have changed := System.control_modifyTask system task fun current =>
            { current with
              status := .enteringTaskwait
              work :=
                [.enterTaskwait, .processDelayedOperations, .markAsBlocked] }
          refine orderly.update changed
            (orderly.phased.update changed (workFits_last .enteringTaskwait))
            ?_ rfl rfl (Or.inl free) ?_
          · intro expected none
            cases none
          · intro registering
            cases registering
  | release task region =>
      simp only [Nanos6.step, releaseAccessRegion] at taken
      split at taken
      · rename_i can
        obtain ⟨running, -, free⟩ := canCall task can
        cases taken
        have changed := System.control_setWork system task
          [.finalizeAccesses region, .processDelayedOperations]
        refine orderly.update changed (orderly.phased.update changed ?_)
          (orderly.delays task) rfl rfl (Or.inl free) id
        change WorkFits (system.task task).status _
        rw [running]
        exact ⟨[.finalizeAccesses region, .processDelayedOperations], rfl,
          by simp [TaskStatus.allows]⟩
      · cases taken
  | finish task =>
      simp only [Nanos6.step, markAsFinished] at taken
      split at taken
      · cases taken
      · rename_i can
        obtain ⟨-, idle, free⟩ := canCall task (by simpa using can)
        split at taken
        · rename_i mustDelay
          cases taken
          have changed := System.control_modifyTask system task fun current =>
            { current with
              status := .finishing
              work :=
                [.enterTaskwait, .processDelayedOperations,
                  .completeWaitClause] }
          refine orderly.update changed
            (orderly.phased.update changed (workFits_last .finishing))
            ?_ rfl rfl (Or.inl free) ?_
          · intro expected same
            injection same with same
            rw [← same]
            exact mustDelay
          · intro registering
            cases registering
        · rename_i noDelay
          cases taken
          have changed := System.control_modifyTask system task fun current =>
            { current with status := .finished }
          have phased := orderly.phased.update changed (by
            change WorkFits .finished (system.task task).work
            rw [idle]
            exact workFits_last .finished)
          refine orderly.update changed phased ?_ rfl rfl (Or.inl free) ?_
          · intro expected same
            injection same with same
            rw [← same]
            exact Bool.eq_false_iff.mpr noDelay
          · intro registering
            cases registering
  | unregister task =>
      simp only [Nanos6.step, unregisterTaskDataAccesses] at taken
      split at taken
      · rename_i finished
        rw [beq_iff_eq] at finished
        cases taken
        have changed := System.control_modifyTask system task fun current =>
          { current with
            status := .releasing
            work :=
              [.createTopLevelSink 0, .finalizeAccesses current.accessBounds,
                .processDelayedOperations, .markAsReleased] }
        have phased := orderly.phased.update changed
          ⟨[.createTopLevelSink 0,
            .finalizeAccesses (system.task task).accessBounds,
            .processDelayedOperations], rfl, by simp [TaskStatus.allows,
              Task.control]⟩
        have free : (system.control task).registeringChild = none := by
          by_contra registering
          obtain ⟨child, isChild⟩ :=
            Option.ne_none_iff_exists'.mp registering
          have busy := (orderly.running task child isChild).1
          change (system.task task).status = .running at busy
          rw [finished] at busy
          cases busy
        refine orderly.update changed phased ?_ rfl rfl (Or.inl free) ?_
        · intro expected same
          refine orderly.delays task expected ?_
          change (system.task task).status.delays = some expected
          rw [finished]
          exact same
        · intro registering
          cases registering
      · cases taken
  | advance task => exact orderly.advance lineage taken
  | bottomMapUpdate index =>
      exact orderly.of_control
        (control_processBottomMapUpdate system index taken)
  | delayedOperation index =>
      exact orderly.of_control
        (control_processUpdateOperation system index taken)
  | disposeOrUnblock index =>
      obtain ⟨removed, found, outcome⟩ :=
        control_disposeOrUnblockTask system index taken
      have isParked := parked removed (List.mem_of_getElem? found)
      have idle : (system.control removed).work = [] := by
        obtain ⟨loops, work, allowed⟩ := orderly.phased removed
        change (system.control removed).status.isParked = true at isParked
        cases loops with
        | nil =>
            rw [work]
            revert isParked
            cases (system.control removed).status <;>
              simp [TaskStatus.isParked, TaskStatus.last]
        | cons loop others =>
            have impossible := allowed loop (by simp)
            revert isParked impossible
            cases (system.control removed).status <;> cases loop <;>
              simp [TaskStatus.isParked, TaskStatus.allows]
      have free : (system.control removed).registeringChild = none := by
        by_contra registering
        obtain ⟨child, isChild⟩ := Option.ne_none_iff_exists'.mp registering
        have busy := (orderly.running removed child isChild).1
        change (system.control removed).status.isParked = true at isParked
        rw [busy] at isParked
        cases isParked
      rcases outcome with
        ⟨changed, -, -⟩ | ⟨changed, -, noDelay⟩ | ⟨changed, -⟩
      · refine orderly.update changed (orderly.phased.update changed ?_) ?_
          rfl rfl (Or.inl free) ?_
        · change WorkFits .finished (system.control removed).work
          rw [idle]
          exact workFits_last .finished
        · intro expected same
          injection same
        · intro registering
          cases registering
      · refine orderly.update changed (orderly.phased.update changed ?_) ?_
          rfl rfl (Or.inl free) ?_
        · change WorkFits .disposed (system.control removed).work
          rw [idle]
          exact workFits_last .disposed
        · intro expected same
          injection same with same
          rw [← same]
          exact noDelay
        · intro registering
          cases registering
      · refine orderly.update changed
          (orderly.phased.update changed (workFits_last .leavingTaskwait)) ?_
          rfl rfl (Or.inl free) ?_
        · intro expected none
          cases none
        · intro registering
          cases registering

theorem initial (main : TaskId) : Orderly (initialSystem main) := by
  have status : ∀ task,
      (initialSystem main).control task =
        if task = main then
          { status := .running, readyReports := [.registrationReturn]
            : Task }.control
        else ({} : Task).control := by
    intro task
    unfold System.control
    simp only [initialSystem]
    split <;> rfl
  refine ⟨?_, ?_, ?_, ?_⟩
  · intro task
    rw [status]
    split
    · exact workFits_last .running
    · exact workFits_last .unborn
  · intro task expected
    rw [status]
    split <;> intro none <;> cases none
  · intro task child
    rw [status]
    split <;> intro none <;> cases none
  · intro task
    rw [status]
    split <;> intro registering <;> cases registering

end Orderly

end Nanos6
