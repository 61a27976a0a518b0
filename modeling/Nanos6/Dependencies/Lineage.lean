import Nanos6.Dependencies.Control

/-!
# Parents and children

Only the submission of a task changes who is whose parent.  All the other steps
leave the family relations alone, and no task is created or forgotten by them.
-/

namespace Nanos6

open Foundation

/-- The family relations are the same, and so are the tasks that exist. -/
def KeepsLineage (system next : System) : Prop :=
  ∀ task,
    (next.control task).parent = (system.control task).parent ∧
      (next.control task).children = (system.control task).children ∧
      ((next.control task).status = .unborn ↔
        (system.control task).status = .unborn)

namespace KeepsLineage

variable {system next : System} {task : TaskId}

theorem of_control (same : next.control = system.control) :
    KeepsLineage system next := by
  intro other
  rw [same]
  exact ⟨rfl, rfl, Iff.rfl⟩

theorem update {control : Control}
    (changed : next.control = Function.update system.control task control)
    (parent : control.parent = (system.control task).parent)
    (children : control.children = (system.control task).children)
    (unborn : control.status = .unborn ↔
      (system.control task).status = .unborn) :
    KeepsLineage system next := by
  intro other
  rw [changed]
  by_cases same : other = task
  · subst same
    simpa using ⟨parent, children, unborn⟩
  · simp [same]

/-- A task that has started goes on. -/
theorem started {control : Control}
    (changed : next.control = Function.update system.control task control)
    (parent : control.parent = (system.control task).parent)
    (children : control.children = (system.control task).children)
    (before : (system.control task).status.hasStarted = true)
    (after : control.status.hasStarted = true) :
    KeepsLineage system next := by
  refine update changed parent children ?_
  constructor <;> intro unborn
  · rw [unborn] at after
    cases after
  · rw [unborn] at before
    cases before

theorem goesOn {head : Work} {rest : List Work}
    (goes : GoesOn system task head rest next) : KeepsLineage system next := by
  obtain ⟨loops, sets, _⟩ := goes
  exact update sets rfl rfl Iff.rfl

theorem decreasePredecessors {rest : List Work}
    (registering : (system.control task).status = .registering) :
    KeepsLineage system (Nanos6.decreasePredecessors system task rest) := by
  intro other
  unfold Nanos6.decreasePredecessors System.control
  change (system.task task).status = .registering at registering
  dsimp only
  split
  · rw [System.task_modifyTask]
    split
    · rename_i same
      subst same
      simp [Task.control, registering]
    · exact ⟨rfl, rfl, Iff.rfl⟩
  · rename_i parent _
    rw [System.task_modifyTask, System.task_modifyTask]
    split
    · rename_i isParent
      subst isParent
      split
      · rename_i same
        subst same
        simp [Task.control, registering]
      · exact ⟨rfl, rfl, Iff.rfl⟩
    · rw [System.task_modifyTask]
      split
      · rename_i same
        subst same
        simp [Task.control, registering]
      · exact ⟨rfl, rfl, Iff.rfl⟩

theorem advance (enrolled : Enrolled system)
    (advanced : Nanos6.advance system task = some next) :
    KeepsLineage system next := by
  obtain ⟨head, rest, working, -, -, advances⟩ := advances_of_advance advanced
  have begun : TaskStatus.registering.allows head = false →
      head ≠ .decreasePredecessors →
      (system.control task).status.hasStarted = true :=
    enrolled.hasStarted working
  cases advances with
  | linkTaskAccesses low =>
      exact goesOn (goesOn_linkTaskAccesses system task low rest)
  | replaceMatching parentIs matched =>
      exact goesOn
        (goesOn_replaceMatchingInBottomMap system task _ _ rest matched)
  | decreasePredecessors =>
      exact decreasePredecessors (enrolled.isRegistering working rfl).1
  | enterTaskwait =>
      obtain ⟨loops, changed, _⟩ :=
        control_handleEnterTaskwait system task rest
      refine started changed rfl rfl (begun rfl (by simp)) ?_
      dsimp only
      split <;> rfl
  | createTaskwait low =>
      exact goesOn (goesOn_createTaskwait system task low rest)
  | createTopLevelSink low =>
      exact goesOn (goesOn_createTopLevelSink system task low rest)
  | linkToTaskwait linked =>
      exact goesOn (goesOn_linkToTaskwait system task _ _ rest linked)
  | finalizeFragments low =>
      exact goesOn (goesOn_finalizeFragments system task low rest)
  | finalizeAccesses region =>
      exact goesOn (goesOn_finalizeAccess system task region rest)
  | finalizeFragmentsOf region =>
      exact goesOn (goesOn_finalizeFragmentsOf system task region rest)
  | processDelayedOperations =>
      exact update (System.control_setWork system task rest) rfl rfl Iff.rfl
  | markAsBlocked =>
      obtain ⟨done, changed⟩ := control_markAsBlocked system task rest
      refine started changed rfl rfl (begun rfl (by simp)) ?_
      cases done <;> rfl
  | exitTaskwait =>
      exact started (control_exitTaskwait system task rest) rfl rfl
        (begun rfl (by simp)) rfl
  | completeWaitClause =>
      rcases control_completeWaitClause system task rest with changed | changed
      · exact started changed rfl rfl (begun rfl (by simp)) rfl
      · exact started changed rfl rfl (begun rfl (by simp)) rfl
  | markAsReleased =>
      exact started (control_markAsReleased system task rest) rfl rfl
        (begun rfl (by simp)) rfl

/-- Every step that does not submit a task. -/
theorem step (enrolled : Enrolled system) {action : Action}
    (notSubmit : ∀ parent child declarations mustDelayRelease,
      action ≠ .submit parent child declarations mustDelayRelease)
    (taken : Nanos6.step system action = some next) :
    KeepsLineage system next := by
  have modified : ∀ {task : TaskId} {change : Task → Task},
      (system.task task).status ≠ .unborn →
      (change (system.task task)).status ≠ .unborn →
      (change (system.task task)).parent = (system.task task).parent →
      (change (system.task task)).children = (system.task task).children →
      KeepsLineage system (system.modifyTask task change) := by
    intro task change before after parent children
    refine update (System.control_modifyTask system task change) parent
      children ?_
    exact iff_of_false after before
  have canCall : ∀ task : TaskId, (system.task task).canCall = true →
      (system.task task).status = .running := by
    intro task can
    simp only [Task.canCall, Bool.and_eq_true, beq_iff_eq] at can
    exact can.1.1
  cases action with
  | submit parent child declarations mustDelayRelease =>
      exact absurd rfl
        (notSubmit parent child declarations mustDelayRelease)
  | start task =>
      simp only [Nanos6.step] at taken
      split at taken
      · rename_i ready
        cases taken
        simp only [Bool.and_eq_true, beq_iff_eq] at ready
        exact modified (by simp [ready.1]) (by simp) rfl rfl
      · cases taken
  | taskwait task =>
      simp only [Nanos6.step, enterTaskwait] at taken
      split at taken
      · cases taken
      · rename_i can
        split at taken
        · split at taken
          · cases taken
          · cases taken
            exact of_control rfl
        · cases taken
          have running := canCall task (by simpa using can)
          exact modified (by simp [running]) (by simp) rfl rfl
  | release task region =>
      simp only [Nanos6.step, releaseAccessRegion] at taken
      split at taken
      · cases taken
        exact update (System.control_setWork system task _) rfl rfl Iff.rfl
      · cases taken
  | finish task =>
      simp only [Nanos6.step, markAsFinished] at taken
      split at taken
      · cases taken
      · rename_i can
        have running := canCall task (by simpa using can)
        split at taken
        · cases taken
          exact modified (by simp [running]) (by simp) rfl rfl
        · cases taken
          exact modified (by simp [running]) (by simp) rfl rfl
  | unregister task =>
      simp only [Nanos6.step, unregisterTaskDataAccesses] at taken
      split at taken
      · rename_i finished
        rw [beq_iff_eq] at finished
        cases taken
        exact modified (by simp [finished]) (by simp) rfl rfl
      · cases taken
  | advance task => exact advance enrolled taken
  | bottomMapUpdate index =>
      exact of_control (control_processBottomMapUpdate system index taken)
  | delayedOperation index =>
      exact of_control (control_processUpdateOperation system index taken)
  | disposeOrUnblock index =>
      obtain ⟨removed, -, outcome⟩ :=
        control_disposeOrUnblockTask system index taken
      have finishedBorn : (system.control removed).status.hasFinished = true →
          (system.control removed).status.hasStarted = true := by
        cases (system.control removed).status <;>
          simp [TaskStatus.hasFinished, TaskStatus.hasStarted]
      rcases outcome with
        ⟨changed, finished, -⟩ | ⟨changed, finished, -⟩ | ⟨changed, blocked⟩
      · exact started changed rfl rfl (finishedBorn finished) rfl
      · exact started changed rfl rfl (finishedBorn finished) rfl
      · exact started changed rfl rfl (by rw [blocked]; rfl) rfl

end KeepsLineage

/-- The family relations make sense. -/
structure Lineage (system : System) : Prop where
  parent_ne : ∀ task, (system.control task).parent ≠ some task
  parent_born : ∀ task parent, (system.control task).parent = some parent →
    (system.control parent).status ≠ .unborn
  mem_children : ∀ task parent,
    task ∈ (system.control parent).children ↔
      (system.control task).parent = some parent
  nodup : ∀ task, (system.control task).children.Nodup
  unborn : ∀ task, (system.control task).status = .unborn →
    (system.control task).parent = none ∧
      (system.control task).children = []

namespace Lineage

variable {system next : System}

theorem of_keepsLineage (lineage : Lineage system)
    (keeps : KeepsLineage system next) : Lineage next where
  parent_ne := by
    intro task
    rw [(keeps task).1]
    exact lineage.parent_ne task
  parent_born := by
    intro task parent isParent unborn
    rw [(keeps task).1] at isParent
    exact lineage.parent_born task parent isParent
      ((keeps parent).2.2.mp unborn)
  mem_children := by
    intro task parent
    rw [(keeps task).1, (keeps parent).2.1]
    exact lineage.mem_children task parent
  nodup := by
    intro task
    rw [(keeps task).2.1]
    exact lineage.nodup task
  unborn := by
    intro task unborn
    rw [(keeps task).1, (keeps task).2.1]
    exact lineage.unborn task ((keeps task).2.2.mp unborn)

theorem submitTask (lineage : Lineage system) {parent child : TaskId}
    {declarations : List AccessDeclaration} {mustDelayRelease : Bool}
    (submitted :
      Nanos6.submitTask system parent child declarations mustDelayRelease =
        some next) : Lineage next := by
  obtain ⟨canCall, unborn, differ, accesses, -, rfl⟩ :=
    submitTask_eq_some submitted
  simp only [Task.canCall, Bool.and_eq_true, beq_iff_eq] at canCall
  have running : (system.control parent).status = .running := canCall.1.1
  obtain ⟨noParent, noChildren⟩ := lineage.unborn child unborn
  have control : ∀ task,
      (((system.modifyTask parent (Task.addChild child accesses)).modifyTask
        child fun _ => newTask parent accesses mustDelayRelease).control
          task).parent =
          (if task = child then some parent
            else (system.control task).parent) ∧
        (((system.modifyTask parent (Task.addChild child accesses)).modifyTask
          child fun _ => newTask parent accesses mustDelayRelease).control
            task).children =
          (if task = child then []
            else if task = parent then
              (system.control parent).children ++ [child]
            else (system.control task).children) ∧
        ((((system.modifyTask parent (Task.addChild child accesses)).modifyTask
          child fun _ => newTask parent accesses mustDelayRelease).control
            task).status = .unborn ↔
          task ≠ child ∧ (system.control task).status = .unborn) := by
    intro task
    unfold System.control
    rw [System.task_modifyTask, System.task_modifyTask]
    by_cases isChild : task = child
    · subst isChild
      simp only [if_true]
      refine ⟨rfl, rfl, ?_⟩
      simp only [ne_eq, not_true_eq_false, false_and, iff_false]
      simp only [newTask, Task.control]
      split <;> simp
    · rw [if_neg isChild, if_neg isChild, if_neg isChild]
      by_cases isParent : task = parent
      · subst isParent
        simp [Task.addChild, Task.control, isChild]
      · simp [isParent, isChild]
  generalize
    ((system.modifyTask parent (Task.addChild child accesses)).modifyTask
      child fun _ => newTask parent accesses mustDelayRelease) = created
    at control
  have orphans : ∀ task, child ∉ (system.control task).children := by
    intro task member
    rw [lineage.mem_children, noParent] at member
    cases member
  have parentless : ∀ task, (system.control task).parent ≠ some child := by
    intro task isParent
    exact lineage.parent_born task child isParent unborn
  refine
    { parent_ne := ?_
      parent_born := ?_
      mem_children := ?_
      nodup := ?_
      unborn := ?_ }
  · intro task
    rw [(control task).1]
    split
    · rename_i same
      subst same
      exact fun isParent => differ (Option.some.inj isParent).symm
    · exact lineage.parent_ne task
  · intro task grandparent isParent stillUnborn
    rw [(control task).1] at isParent
    rw [(control grandparent).2.2] at stillUnborn
    split at isParent
    · cases isParent
      rw [running] at stillUnborn
      cases stillUnborn.2
    · exact lineage.parent_born task grandparent isParent stillUnborn.2
  · intro task grandparent
    rw [(control task).1, (control grandparent).2.1]
    by_cases isChild : task = child
    · subst isChild
      rw [if_pos rfl]
      by_cases same : grandparent = task
      · subst same
        simp [differ.symm]
      · rw [if_neg same]
        by_cases isParent : grandparent = parent
        · simp [isParent]
        · simp [isParent, orphans grandparent, Ne.symm isParent]
    · rw [if_neg isChild]
      by_cases same : grandparent = child
      · subst same
        simp [parentless task]
      · rw [if_neg same]
        by_cases isParent : grandparent = parent
        · subst isParent
          simp [isChild, lineage.mem_children]
        · simp [isParent, lineage.mem_children]
  · intro task
    rw [(control task).2.1]
    split
    · exact List.nodup_nil
    · split
      · refine List.Nodup.append (lineage.nodup parent)
          (List.nodup_singleton child) ?_
        simpa using orphans parent
      · exact lineage.nodup task
  · intro task stillUnborn
    obtain ⟨notChild, before⟩ := (control task).2.2.mp stillUnborn
    rw [(control task).1, (control task).2.1, if_neg notChild,
      if_neg notChild]
    have notParent : task ≠ parent := by
      intro same
      rw [same, running] at before
      cases before
    rw [if_neg notParent]
    exact lineage.unborn task before

theorem step (lineage : Lineage system) (enrolled : Enrolled system)
    {action : Action} (taken : Nanos6.step system action = some next) :
    Lineage next := by
  by_cases submits : ∃ parent child declarations mustDelayRelease,
      action = .submit parent child declarations mustDelayRelease
  · obtain ⟨parent, child, declarations, mustDelayRelease, rfl⟩ := submits
    exact lineage.submitTask taken
  · refine lineage.of_keepsLineage (KeepsLineage.step enrolled ?_ taken)
    intro parent child declarations mustDelayRelease same
    exact submits ⟨parent, child, declarations, mustDelayRelease, same⟩

theorem initial (main : TaskId) : Lineage (initialSystem main) := by
  have plain : ∀ task,
      ((initialSystem main).control task).parent = none ∧
        ((initialSystem main).control task).children = [] := by
    intro task
    simp only [System.control, initialSystem]
    split <;> exact ⟨rfl, rfl⟩
  refine
    { parent_ne := fun task => by simp [(plain task).1]
      parent_born := fun task parent isParent => ?_
      mem_children := fun task parent => by
        simp [(plain task).1, (plain parent).2]
      nodup := fun task => by simp [(plain task).2]
      unborn := fun task _ => plain task }
  rw [(plain task).1] at isParent
  cases isParent

end Lineage

end Nanos6
