import Nanos6.Dependencies.Step

/-!
# The control state of the tasks

The status of a task and the loops that its operation in progress still has to
run belong together.  `WorkFits` says which loops can be left in which status,
and every step of the dependency system keeps it.  The changes of objects leave
the control state of all tasks alone.
-/

namespace Nanos6

open Foundation

/-- The part of a task that does not concern its objects. -/
structure Control where
  parent : Option TaskId
  status : TaskStatus
  children : List TaskId
  mustDelayRelease : Bool
  registeringChild : Option TaskId
  work : List Work
  deletedAccesses : IntervalMap DataAccess

def Task.control (task : Task) : Control where
  parent := task.parent
  status := task.status
  children := task.children
  mustDelayRelease := task.mustDelayRelease
  registeringChild := task.registeringChild
  work := task.work
  deletedAccesses := task.deletedAccesses

namespace System

def control (system : System) (task : TaskId) : Control :=
  (system.task task).control

section Frame

variable (system : System) (owner task other : TaskId) (map : AccessMap)
  (piece : Piece DataAccess) (region : DataAccessRegion) (setter : Setter)
  (initial : DataAccessStatusEffects) (access : DataAccess)

@[simp]
theorem control_changeObject :
    (system.changeObject owner task map piece region setter).control =
      system.control := by
  funext other
  unfold control
  rw [task_changeObject]
  split
  · rename_i same
    rw [same]
    rfl
  · rfl

@[simp]
theorem control_createObject :
    (system.createObject owner task map region initial access).control =
      system.control := by
  funext other
  unfold control
  rw [task_createObject]
  split
  · rename_i same
    rw [same]
    rfl
  · rfl

theorem control_modifyTask (change : Task → Task) :
    (system.modifyTask task change).control =
      Function.update system.control task
        (change (system.task task)).control := by
  funext other
  unfold control
  rw [task_modifyTask]
  by_cases same : other = task
  · subst same
    simp
  · simp [same]

/-- A change of a task that leaves its control state alone. -/
theorem control_modifyTask_of_eq {change : Task → Task}
    (same : (change (system.task task)).control =
      (system.task task).control) :
    (system.modifyTask task change).control = system.control := by
  rw [control_modifyTask, same]
  exact Function.update_eq_self task system.control

theorem control_setWork (work : List Work) :
    (system.setWork task work).control =
      Function.update system.control task
        { system.control task with work := work } :=
  control_modifyTask system task _

end Frame

end System

/-! ## The loops that can be left in a status -/

namespace TaskStatus

/-- The loops that an operation may run through in a status. -/
def allows : TaskStatus → Work → Bool
  | .registering, .linkTaskAccesses _ => true
  | .registering, .replaceMatching _ => true
  | .registering, .processDelayedOperations => true
  | .inTaskwait, .createTaskwait _ => true
  | .inTaskwait, .linkToTaskwait _ _ => true
  | .inTaskwait, .finalizeFragments _ => true
  | .inTaskwait, .processDelayedOperations => true
  | .inWaitClause, .createTaskwait _ => true
  | .inWaitClause, .linkToTaskwait _ _ => true
  | .inWaitClause, .finalizeFragments _ => true
  | .inWaitClause, .processDelayedOperations => true
  | .running, .finalizeAccesses _ => true
  | .running, .finalizeFragmentsOf _ => true
  | .running, .processDelayedOperations => true
  | .releasing, .createTopLevelSink _ => true
  | .releasing, .linkToTaskwait _ _ => true
  | .releasing, .finalizeAccesses _ => true
  | .releasing, .finalizeFragmentsOf _ => true
  | .releasing, .processDelayedOperations => true
  | _, _ => false

section Allows

variable (status : TaskStatus)

@[simp]
theorem allows_linkTaskAccesses (low : Nat) :
    status.allows (.linkTaskAccesses low) =
      (status == .registering) := by
  cases status <;> rfl

@[simp]
theorem allows_replaceMatching (progress : LinkProgress) :
    status.allows (.replaceMatching progress) =
      (status == .registering) := by
  cases status <;> rfl

@[simp]
theorem allows_createTaskwait (low : Nat) :
    status.allows (.createTaskwait low) =
      (status == .inTaskwait || status == .inWaitClause) := by
  cases status <;> rfl

@[simp]
theorem allows_createTopLevelSink (low : Nat) :
    status.allows (.createTopLevelSink low) =
      (status == .releasing) := by
  cases status <;> rfl

@[simp]
theorem allows_linkToTaskwait (previous : DataAccessLink)
    (region : DataAccessRegion) :
    status.allows (.linkToTaskwait previous region) =
      (status == .inTaskwait || status == .inWaitClause || status == .releasing) := by
  cases status <;> rfl

@[simp]
theorem allows_finalizeFragments (low : Nat) :
    status.allows (.finalizeFragments low) =
      (status == .inTaskwait || status == .inWaitClause) := by
  cases status <;> rfl

@[simp]
theorem allows_finalizeAccesses (region : DataAccessRegion) :
    status.allows (.finalizeAccesses region) =
      (status == .running || status == .releasing) := by
  cases status <;> rfl

@[simp]
theorem allows_finalizeFragmentsOf (region : DataAccessRegion) :
    status.allows (.finalizeFragmentsOf region) =
      (status == .running || status == .releasing) := by
  cases status <;> rfl

@[simp]
theorem allows_processDelayedOperations :
    status.allows .processDelayedOperations =
      (status == .registering || status == .inTaskwait ||
        status == .inWaitClause || status == .running ||
        status == .releasing) := by
  cases status <;> rfl

end Allows

/-- The end of the operation of a status. -/
def last : TaskStatus → List Work
  | .registering => [.decreasePredecessors]
  | .enteringTaskwait =>
      [.enterTaskwait, .processDelayedOperations, .markAsBlocked]
  | .inTaskwait => [.markAsBlocked]
  | .leavingTaskwait => [.exitTaskwait]
  | .finishing =>
      [.enterTaskwait, .processDelayedOperations, .completeWaitClause]
  | .inWaitClause => [.completeWaitClause]
  | .releasing => [.markAsReleased]
  | _ => []

/-- No loop is the end of an operation. -/
theorem last_ne {head : Work} {rest : List Work} (status : TaskStatus)
    (allowed : status.allows head = true) (other : TaskStatus) :
    other.last ≠ head :: rest := by
  intro last
  cases other <;> cases last <;> cases status <;> cases allowed

end TaskStatus

/-- The loops that are left end as the operation of the status does. -/
def WorkFits (status : TaskStatus) (work : List Work) : Prop :=
  ∃ loops, work = loops ++ status.last ∧
    ∀ loop ∈ loops, status.allows loop = true

theorem workFits_last (status : TaskStatus) :
    WorkFits status status.last :=
  ⟨[], rfl, fun _ member => absurd member List.not_mem_nil⟩

theorem WorkFits.cons {status : TaskStatus} {loop : Work} {rest : List Work}
    (allowed : status.allows loop = true) (fits : WorkFits status rest) :
    WorkFits status (loop :: rest) := by
  obtain ⟨loops, rfl, allAllowed⟩ := fits
  refine ⟨loop :: loops, rfl, ?_⟩
  intro other member
  rcases List.mem_cons.mp member with rfl | later
  · exact allowed
  · exact allAllowed other later

theorem WorkFits.append {status : TaskStatus} {loops rest : List Work}
    (fits : WorkFits status rest)
    (allowed : ∀ loop ∈ loops, status.allows loop = true) :
    WorkFits status (loops ++ rest) := by
  induction loops with
  | nil => exact fits
  | cons loop others inductionHypothesis =>
      have othersFit := inductionHypothesis fun other member =>
        allowed other (List.mem_cons_of_mem loop member)
      exact othersFit.cons (allowed loop (by simp))

theorem WorkFits.head {status : TaskStatus} {loop : Work} {rest : List Work}
    (fits : WorkFits status (loop :: rest)) :
    (status.allows loop = true ∧ WorkFits status rest) ∨
      status.last = loop :: rest := by
  obtain ⟨loops, equality, allAllowed⟩ := fits
  cases loops with
  | nil => exact Or.inr equality.symm
  | cons first others =>
      injection equality with same tailEquality
      subst same
      refine Or.inl ⟨allAllowed loop (by simp), others, tailEquality, ?_⟩
      intro other member
      exact allAllowed other (List.mem_cons_of_mem loop member)

/-! ## The control effect of the operations -/

section Operations

variable (system : System) (owner task parent : TaskId)

@[simp]
theorem control_createInitialFragment (superaccess : Piece DataAccess)
    (subregion : DataAccessRegion) :
    (createInitialFragment system owner task superaccess
      subregion).control = system.control := by
  funext other
  have created := congrFun
    (System.control_createObject system owner task .accessFragments
      superaccess.interval {} (initialFragment superaccess.value)) other
  unfold System.control at created ⊢
  rw [← created]
  unfold createInitialFragment
  dsimp only
  rw [System.task_modifyTask]
  split
  · rename_i same
    rw [same]
    rfl
  · rfl

@[simp]
theorem control_allocateReductionInfo (progress : LinkProgress) :
    (allocateReductionInfo system task progress).control =
      system.control := by
  unfold allocateReductionInfo
  dsimp only
  split
  · rfl
  · exact System.control_changeObject system task task _ _ _ _

@[simp]
theorem control_allocateForPrevious (progress : LinkProgress)
    (previous : DataAccess) :
    (allocateForPrevious system task progress previous).1.control =
      system.control := by
  unfold allocateForPrevious
  split
  · split
    · exact control_allocateReductionInfo system task progress
    · split
      · rfl
      · split
        · exact control_allocateReductionInfo system task progress
        · rfl
  · rfl

/-- The work of a task changes and nothing else of the control state. -/
def SetsWork (next : System) (work : List Work) : Prop :=
  next.control =
    Function.update system.control task
      { system.control task with work := work }

theorem setsWork_linkPrevious (progress : LinkProgress) (map : AccessMap)
    (previousTask : TaskId) (piece : Piece DataAccess)
    (region : DataAccessRegion) (parentAccessType : DataAccessType)
    (rest : List Work) :
    SetsWork system task
      (linkPrevious system task parent progress map previousTask piece region
        parentAccessType rest)
      (.replaceMatching
        { (allocateForPrevious system task progress piece.value).2.advance
            (piece.interval.inter region).stop with
          parentAccessType := parentAccessType } :: rest) := by
  unfold SetsWork linkPrevious
  dsimp only
  rw [System.control_setWork, System.control_modifyTask_of_eq _ _ rfl,
    System.control_changeObject, control_allocateForPrevious]

theorem setsWork_setWork {next : System} (same : next.control = system.control)
    (work : List Work) :
    SetsWork system task (next.setWork task work) work := by
  unfold SetsWork
  rw [System.control_setWork, same]

theorem SetsWork.of_control {system next : System} {task : TaskId}
    {work : List Work} {start : System} (sets : SetsWork start task next work)
    (same : start.control = system.control) :
    SetsWork system task next work := by
  unfold SetsWork at *
  rw [sets, same]

/-- The operation of a task goes on: loops that are allowed wherever `head` is
take the place of `head`. -/
def GoesOn (head : Work) (rest : List Work) (next : System) : Prop :=
  ∃ loops, SetsWork system task next (loops ++ rest) ∧
    ∀ status : TaskStatus, status.allows head = true →
      ∀ loop ∈ loops, status.allows loop = true

theorem SetsWork.ends {system next : System} {task : TaskId}
    {rest : List Work} (sets : SetsWork system task next rest) (head : Work) :
    GoesOn system task head rest next :=
  ⟨[], sets, fun _ _ _ member => absurd member List.not_mem_nil⟩

/-- Matching goes on with another progress. -/
private theorem goesOn_replaceMatching {system next : System} {task : TaskId}
    {reached : LinkProgress} {rest : List Work}
    (sets : SetsWork system task next (.replaceMatching reached :: rest))
    (progress : LinkProgress) :
    GoesOn system task (.replaceMatching progress) rest next := by
  refine ⟨[.replaceMatching reached], sets, ?_⟩
  intro status allowed
  simp_all

theorem goesOn_matchEntry (progress : LinkProgress)
    (entry : Piece BottomMapEntry) (rest : List Work) {next : System}
    (matched : matchEntry system task parent progress entry rest =
      some next) :
    GoesOn system task (.replaceMatching progress) rest next := by
  unfold matchEntry at matched
  dsimp only at matched
  split at matched
  · cases matched
  · split at matched
    · cases matched
      refine goesOn_replaceMatching (setsWork_setWork system task ?_ _) progress
      exact System.control_modifyTask_of_eq system parent rfl
    · cases matched
      exact goesOn_replaceMatching
        (setsWork_linkPrevious system task parent progress _ _ _ _ _ rest)
        progress

theorem goesOn_matchUncovered (progress : LinkProgress)
    (uncovered : DataAccessRegion) (rest : List Work) :
    GoesOn system task (.replaceMatching progress) rest
      (matchUncovered system task progress uncovered rest) := by
  have allocated : ∀ allocates : Bool,
      (if allocates = true then allocateReductionInfo system task progress
        else system).control = system.control := by
    intro allocates
    cases allocates
    · rfl
    · exact control_allocateReductionInfo system task progress
  unfold matchUncovered
  dsimp only
  split
  · exact goesOn_replaceMatching
      (setsWork_setWork system task (allocated _) _) progress
  · refine goesOn_replaceMatching (setsWork_setWork system task ?_ _) progress
    rw [System.control_changeObject]
    exact allocated _

theorem goesOn_matchMissing (progress : LinkProgress)
    (missing : DataAccessRegion) (rest : List Work) :
    GoesOn system task (.replaceMatching progress) rest
      (matchMissing system task parent progress missing rest) := by
  unfold matchMissing
  split
  · exact goesOn_matchUncovered system task progress missing rest
  · split
    · refine goesOn_replaceMatching
        ((setsWork_linkPrevious _ task parent progress _ _ _ _ _
          rest).of_control ?_) progress
      exact control_createInitialFragment system task parent _ _
    · exact goesOn_matchUncovered system task progress _ rest

theorem goesOn_replaceMatchingInBottomMap (progress : LinkProgress)
    (rest : List Work) {next : System}
    (matched :
      replaceMatchingInBottomMapLinkAndPropagate system task parent progress
        rest = some next) :
    GoesOn system task (.replaceMatching progress) rest next := by
  unfold replaceMatchingInBottomMapLinkAndPropagate at matched
  dsimp only at matched
  split at matched
  · cases matched
    refine (setsWork_setWork system task ?_ rest).ends _
    exact System.control_modifyTask_of_eq system parent rfl
  · split at matched
    · cases matched
      exact goesOn_matchMissing system task parent progress _ rest
    · split at matched
      · exact goesOn_matchEntry system task parent progress _ rest matched
      · cases matched
        exact goesOn_matchMissing system task parent progress _ rest

theorem goesOn_linkTaskAccesses (low : Nat) (rest : List Work) :
    GoesOn system task (.linkTaskAccesses low) rest
      (linkTaskAccesses system task low rest) := by
  unfold linkTaskAccesses
  split
  · exact (setsWork_setWork system task rfl rest).ends _
  · refine ⟨[.replaceMatching _, .linkTaskAccesses _],
      setsWork_setWork system task ?_ _, ?_⟩
    · exact System.control_changeObject system task task _ _ _ _
    · intro status allowed
      simp_all

@[simp]
theorem control_createTaskwaitFragment (objectType : DataAccessObjectType)
    (entry : Piece BottomMapEntry) :
    (createTaskwaitFragment system task objectType entry).control =
      system.control := by
  unfold createTaskwaitFragment
  dsimp only
  rw [System.control_modifyTask_of_eq _ _ rfl, System.control_createObject]

theorem control_processUpdateOperation (index : Nat) {next : System}
    (processed : processUpdateOperation system index = some next) :
    next.control = system.control := by
  unfold processUpdateOperation at processed
  split at processed
  · cases processed
  · dsimp only at processed
    split at processed
    · cases processed
    · split at processed
      · cases processed
        rfl
      · rename_i owner operation _ _ _ piece _
        cases processed
        exact System.control_changeObject system owner operation.target.task
          operation.target.objectType.map piece operation.region
          (.applyUpdateOperation operation)

theorem control_processBottomMapUpdate (index : Nat) {next : System}
    (processed : processBottomMapUpdate system index = some next) :
    next.control = system.control := by
  unfold processBottomMapUpdate at processed
  split at processed
  · cases processed
  · dsimp only at processed
    split at processed
    · cases processed
    · split at processed
      · cases processed
        rfl
      · split at processed
        · cases processed
        · split at processed
          · cases processed
            rfl
          · cases processed
            exact System.control_changeObject _ _ _ _ _ _ _

theorem goesOn_createTaskwait (low : Nat) (rest : List Work) :
    GoesOn system task (.createTaskwait low) rest
      (createTaskwait system task low rest) := by
  unfold createTaskwait
  split
  · exact (setsWork_setWork system task rfl rest).ends _
  · refine ⟨[.linkToTaskwait _ _, .createTaskwait _],
      setsWork_setWork system task ?_ _, ?_⟩
    · exact control_createTaskwaitFragment system task _ _
    · intro status allowed
      simp_all

theorem goesOn_createTopLevelSink (low : Nat) (rest : List Work) :
    GoesOn system task (.createTopLevelSink low) rest
      (createTopLevelSink system task low rest) := by
  unfold createTopLevelSink
  split
  · exact (setsWork_setWork system task rfl rest).ends _
  · split
    · refine ⟨[.createTopLevelSink _], setsWork_setWork system task rfl _, ?_⟩
      intro status allowed
      simp_all
    · refine ⟨[.linkToTaskwait _ _, .createTopLevelSink _],
        setsWork_setWork system task ?_ _, ?_⟩
      · exact control_createTaskwaitFragment system task _ _
      · intro status allowed
        simp_all

theorem goesOn_linkToTaskwait (previous : DataAccessLink)
    (region : DataAccessRegion) (rest : List Work) {next : System}
    (linked : linkToTaskwait system task previous region rest = some next) :
    GoesOn system task (.linkToTaskwait previous region) rest next := by
  unfold linkToTaskwait at linked
  split at linked
  · cases linked
  · split at linked
    · cases linked
      exact (setsWork_setWork system task rfl rest).ends _
    · cases linked
      refine ⟨[.linkToTaskwait previous _],
        setsWork_setWork system task ?_ _, ?_⟩
      · exact System.control_changeObject system task _ _ _ _ _
      · intro status allowed
        simp_all

theorem goesOn_finalizeFragments (low : Nat) (rest : List Work) :
    GoesOn system task (.finalizeFragments low) rest
      (finalizeFragments system task low rest) := by
  unfold finalizeFragments
  split
  · exact (setsWork_setWork system task rfl rest).ends _
  · refine ⟨[.finalizeFragments _], setsWork_setWork system task ?_ _, ?_⟩
    · split
      · rfl
      · exact System.control_changeObject system task task _ _ _ _
    · intro status allowed
      simp_all

theorem goesOn_finalizeFragmentsOf (region : DataAccessRegion)
    (rest : List Work) :
    GoesOn system task (.finalizeFragmentsOf region) rest
      (finalizeFragmentsOf system task region rest) := by
  unfold finalizeFragmentsOf
  split
  · exact (setsWork_setWork system task rfl rest).ends _
  · refine ⟨[.finalizeFragmentsOf _], setsWork_setWork system task ?_ _, ?_⟩
    · exact System.control_changeObject system task task _ _ _ _
    · intro status allowed
      simp_all

theorem goesOn_finalizeAccess (region : DataAccessRegion)
    (rest : List Work) :
    GoesOn system task (.finalizeAccesses region) rest
      (finalizeAccess system task region rest) := by
  unfold finalizeAccess
  split
  · exact (setsWork_setWork system task rfl rest).ends _
  · split
    · refine ⟨[.finalizeAccesses _], setsWork_setWork system task rfl _, ?_⟩
      intro status allowed
      simp_all
    · dsimp only
      split
      · refine ⟨[.finalizeFragmentsOf _, .finalizeAccesses _],
          setsWork_setWork system task ?_ _, ?_⟩
        · exact System.control_changeObject system task task _ _ _ _
        · intro status allowed
          simp_all
      · refine ⟨[.finalizeAccesses _], setsWork_setWork system task ?_ _, ?_⟩
        · exact System.control_changeObject system task task _ _ _ _
        · intro status allowed
          simp_all

theorem control_handleEnterTaskwait (rest : List Work) :
    ∃ loops,
      (handleEnterTaskwait system task rest).control =
        Function.update system.control task
          { system.control task with
            status :=
              if (system.task task).status = .finishing then .inWaitClause
              else .inTaskwait
            work := loops ++ .finalizeFragments 0 :: rest } ∧
      (loops = [] ∨ loops = [.createTaskwait 0]) := by
  have entered :
      (handleEnterTaskwait system task rest).control =
        Function.update system.control task
          ((system.task task).enterTaskwait rest).control :=
    System.control_modifyTask system task (Task.enterTaskwait rest)
  rw [entered]
  cases nothingBelow :
      (system.task task).subaccessBottomMap.pieces.isEmpty with
  | true =>
      refine ⟨[], ?_, Or.inl rfl⟩
      simp [Task.enterTaskwait, nothingBelow, Task.control, System.control]
  | false =>
      refine ⟨[.createTaskwait 0], ?_, Or.inr rfl⟩
      simp [Task.enterTaskwait, nothingBelow, Task.control, System.control]

@[simp]
theorem control_handleExitTaskwait :
    (handleExitTaskwait system task).control = system.control := by
  funext other
  unfold handleExitTaskwait System.control
  dsimp only
  split
  · rw [System.task_modifyTask]
    split
    · rename_i same
      rw [same]
      rfl
    · rfl
  · rw [System.task_modifyTask]
    split
    · rename_i same
      rw [same]
      rfl
    · rfl

theorem control_markAsBlocked (rest : List Work) :
    ∃ done : Bool,
      (markAsBlocked system task rest).control =
        Function.update system.control task
          { system.control task with
            status := if done then .leavingTaskwait else .blocked
            work := if done then .exitTaskwait :: rest else rest } := by
  unfold markAsBlocked
  rw [System.control_modifyTask]
  exact ⟨(system.task task).counters.decreaseRemovalBlockingCount.2, rfl⟩

theorem control_exitTaskwait (rest : List Work) :
    (exitTaskwait system task rest).control =
      Function.update system.control task
        { system.control task with status := .running, work := rest } := by
  unfold exitTaskwait
  rw [control_handleExitTaskwait, System.control_modifyTask]
  rfl

theorem control_completeDelayedRelease :
    (completeDelayedRelease system task).control =
      Function.update system.control task
        { system.control task with
          status := .finished
          mustDelayRelease := false } := by
  have exited :
      (handleExitTaskwait
        (system.modifyTask task fun current =>
          { current with mustDelayRelease := false }) task).control =
        Function.update system.control task
          { system.control task with mustDelayRelease := false } := by
    rw [control_handleExitTaskwait, System.control_modifyTask]
    rfl
  unfold completeDelayedRelease
  dsimp only
  rw [System.control_modifyTask]
  have same := congrFun exited task
  rw [exited, Function.update_idem]
  congr 1
  simp only [Function.update_self] at same
  simp only [System.control, Task.control, Control.mk.injEq] at same ⊢
  tauto

theorem control_completeWaitClause (rest : List Work) :
    (completeWaitClause system task rest).control =
        Function.update system.control task
          { system.control task with
            status := .waitClausePending
            work := rest } ∨
      (completeWaitClause system task rest).control =
        Function.update system.control task
          { system.control task with
            status := .finished
            mustDelayRelease := false
            work := rest } := by
  unfold completeWaitClause
  dsimp only
  split
  · right
    rw [control_completeDelayedRelease, System.control_modifyTask,
      Function.update_idem]
    simp only [Function.update_self]
    rfl
  · left
    exact System.control_modifyTask system task _

theorem control_markAsReleased (rest : List Work) :
    (markAsReleased system task rest).control =
      Function.update system.control task
        { system.control task with status := .released, work := rest } := by
  change (system.modifyTask task fun current =>
    { current with
      counters :=
        (system.task task).counters.decreaseRemovalBlockingCount.1
      status := .released
      work := rest }).control = _
  rw [System.control_modifyTask]
  rfl

theorem control_disposeTask :
    (disposeTask system task).control =
      Function.update system.control task
        { system.control task with
          status := .disposed
          deletedAccesses := (system.task task).objects .accesses } := by
  have deleted :
      (system.modifyTask task fun current =>
        { current with
          status := .disposed
          objects := fun _ => .empty
          subaccessBottomMap := .empty
          deletedAccesses := current.objects .accesses }).control =
        Function.update system.control task
          { system.control task with
            status := .disposed
            deletedAccesses := (system.task task).objects .accesses } := by
    rw [System.control_modifyTask]
    rfl
  rw [← deleted]
  funext other
  unfold disposeTask System.control
  dsimp only
  split
  · rfl
  · rw [System.task_modifyTask]
    split
    · rename_i same
      rw [same]
      rfl
    · rfl

/-- The three outcomes of a call of `disposeOrUnblockTask`. -/
theorem control_disposeOrUnblockTask (index : Nat) {next : System}
    (disposed : disposeOrUnblockTask system index = some next) :
    ∃ removed, system.pendingDisposals[index]? = some removed ∧
      ((next.control =
          Function.update system.control removed
            { system.control removed with
              status := .finished
              mustDelayRelease := false } ∧
          (system.control removed).status.hasFinished = true ∧
          (system.control removed).mustDelayRelease = true) ∨
        (next.control =
          Function.update system.control removed
            { system.control removed with
              status := .disposed
              deletedAccesses := (system.task removed).objects .accesses } ∧
          (system.control removed).status.hasFinished = true ∧
          (system.control removed).mustDelayRelease = false) ∨
        (next.control =
          Function.update system.control removed
            { system.control removed with
              status := .leavingTaskwait
              work := [.exitTaskwait] } ∧
          (system.control removed).status = .blocked)) := by
  unfold disposeOrUnblockTask at disposed
  split at disposed
  · cases disposed
  · rename_i removed found
    refine ⟨removed, found, ?_⟩
    dsimp only at disposed
    split at disposed
    · cases disposed
    · split at disposed
      · rename_i finished
        split at disposed
        · rename_i delays
          cases disposed
          exact Or.inl
            ⟨control_completeDelayedRelease
              { system with
                pendingDisposals := system.pendingDisposals.eraseIdx index }
              removed, finished, delays⟩
        · rename_i delays
          cases disposed
          exact Or.inr (Or.inl
            ⟨control_disposeTask
              { system with
                pendingDisposals := system.pendingDisposals.eraseIdx index }
              removed, finished, Bool.eq_false_iff.mpr delays⟩)
      · split at disposed
        · rename_i blocked
          cases disposed
          exact Or.inr (Or.inr
            ⟨System.control_modifyTask
              { system with
                pendingDisposals := system.pendingDisposals.eraseIdx index }
              removed _, blocked⟩)
        · cases disposed

end Operations

/-- The work of every task fits its status. -/
def Phased (system : System) : Prop :=
  ∀ task, WorkFits (system.control task).status (system.control task).work

namespace Phased

variable {system next : System} {task : TaskId}

theorem of_control (phased : Phased system)
    (same : next.control = system.control) : Phased next := by
  unfold Phased
  rw [same]
  exact phased

theorem update (phased : Phased system) {control : Control}
    (changed : next.control = Function.update system.control task control)
    (fits : WorkFits control.status control.work) : Phased next := by
  intro other
  rw [changed]
  by_cases same : other = task
  · subst same
    simpa using fits
  · simpa [same] using phased other

theorem setsWork (phased : Phased system) {work : List Work}
    (sets : SetsWork system task next work)
    (fits : WorkFits (system.control task).status work) : Phased next :=
  phased.update sets fits

/-- The head of the work, when it is not the end of an operation. -/
theorem loop (phased : Phased system) {head : Work} {rest : List Work}
    (working : (system.task task).work = head :: rest)
    (notLast : ∀ status : TaskStatus, status.last ≠ head :: rest) :
    (system.control task).status.allows head = true ∧
      WorkFits (system.control task).status rest := by
  have fits := phased task
  have work : (system.control task).work = head :: rest := working
  rw [work] at fits
  rcases fits.head with found | last
  · exact found
  · exact absurd last (notLast _)

/-- The head of the work, when it is the end of an operation. -/
theorem ending (phased : Phased system) {head : Work} {rest : List Work}
    (working : (system.task task).work = head :: rest)
    (notLoop : ∀ status : TaskStatus, status.allows head = false) :
    (system.control task).status.last = head :: rest := by
  have fits := phased task
  have work : (system.control task).work = head :: rest := working
  rw [work] at fits
  rcases fits.head with ⟨allowed, _⟩ | last
  · rw [notLoop] at allowed
    cases allowed
  · exact last

theorem goesOn (phased : Phased system) {head : Work} {rest : List Work}
    (working : (system.task task).work = head :: rest)
    (notLast : ∀ status : TaskStatus, status.last ≠ head :: rest)
    (goes : GoesOn system task head rest next) : Phased next := by
  obtain ⟨headAllowed, restFits⟩ := phased.loop working notLast
  obtain ⟨loops, sets, allowed⟩ := goes
  exact phased.setsWork sets (restFits.append (allowed _ headAllowed))

theorem atEnterTaskwait (phased : Phased system) {rest : List Work}
    (working : (system.task task).work = .enterTaskwait :: rest) :
    ((system.task task).status = .enteringTaskwait ∧
        rest = [.processDelayedOperations, .markAsBlocked]) ∨
      ((system.task task).status = .finishing ∧
        rest = [.processDelayedOperations, .completeWaitClause]) := by
  have last := phased.ending working
    (by intro status; cases status <;> rfl)
  change (system.task task).status.last = _ at last
  cases status : (system.task task).status <;> rw [status] at last <;>
    cases last
  · exact Or.inl ⟨rfl, rfl⟩
  · exact Or.inr ⟨rfl, rfl⟩

theorem atMarkAsBlocked (phased : Phased system) {rest : List Work}
    (working : (system.task task).work = .markAsBlocked :: rest) :
    (system.task task).status = .inTaskwait ∧ rest = [] := by
  have last := phased.ending working
    (by intro status; cases status <;> rfl)
  change (system.task task).status.last = _ at last
  cases status : (system.task task).status <;> rw [status] at last <;>
    cases last
  exact ⟨rfl, rfl⟩

theorem atExitTaskwait (phased : Phased system) {rest : List Work}
    (working : (system.task task).work = .exitTaskwait :: rest) :
    (system.task task).status = .leavingTaskwait ∧ rest = [] := by
  have last := phased.ending working
    (by intro status; cases status <;> rfl)
  change (system.task task).status.last = _ at last
  cases status : (system.task task).status <;> rw [status] at last <;>
    cases last
  exact ⟨rfl, rfl⟩

theorem atCompleteWaitClause (phased : Phased system) {rest : List Work}
    (working : (system.task task).work = .completeWaitClause :: rest) :
    (system.task task).status = .inWaitClause ∧ rest = [] := by
  have last := phased.ending working
    (by intro status; cases status <;> rfl)
  change (system.task task).status.last = _ at last
  cases status : (system.task task).status <;> rw [status] at last <;>
    cases last
  exact ⟨rfl, rfl⟩

theorem atMarkAsReleased (phased : Phased system) {rest : List Work}
    (working : (system.task task).work = .markAsReleased :: rest) :
    (system.task task).status = .releasing ∧ rest = [] := by
  have last := phased.ending working
    (by intro status; cases status <;> rfl)
  change (system.task task).status.last = _ at last
  cases status : (system.task task).status <;> rw [status] at last <;>
    cases last
  exact ⟨rfl, rfl⟩

theorem atDecreasePredecessors (phased : Phased system) {rest : List Work}
    (working : (system.task task).work = .decreasePredecessors :: rest) :
    (system.task task).status = .registering ∧ rest = [] := by
  have last := phased.ending working
    (by intro status; cases status <;> rfl)
  change (system.task task).status.last = _ at last
  cases status : (system.task task).status <;> rw [status] at last <;>
    cases last
  exact ⟨rfl, rfl⟩

theorem decreasePredecessors (phased : Phased system) {rest : List Work}
    (working : (system.task task).work = .decreasePredecessors :: rest) :
    Phased (Nanos6.decreasePredecessors system task rest) := by
  obtain ⟨-, rfl⟩ := phased.atDecreasePredecessors working
  intro other
  unfold Nanos6.decreasePredecessors System.control
  have before := phased other
  unfold System.control at before
  dsimp only
  split
  · rw [System.task_modifyTask]
    split
    · exact workFits_last .registered
    · exact before
  · rw [System.task_modifyTask, System.task_modifyTask]
    split
    · rename_i isParent
      subst isParent
      split
      · exact workFits_last .registered
      · exact before
    · rw [System.task_modifyTask]
      split
      · exact workFits_last .registered
      · exact before

theorem enterTaskwait (phased : Phased system) {rest : List Work}
    (working : (system.task task).work = .enterTaskwait :: rest) :
    Phased (handleEnterTaskwait system task rest) := by
  obtain ⟨loops, changed, shape⟩ := control_handleEnterTaskwait system task rest
  refine phased.update changed ?_
  dsimp only
  rcases phased.atEnterTaskwait working with ⟨status, rfl⟩ | ⟨status, rfl⟩
  · rw [if_neg (by rw [status]; simp)]
    refine ⟨loops ++
      [Work.finalizeFragments 0, Work.processDelayedOperations], ?_, ?_⟩
    · simp [TaskStatus.last]
    · rcases shape with rfl | rfl <;> simp
  · rw [if_pos status]
    refine ⟨loops ++
      [Work.finalizeFragments 0, Work.processDelayedOperations], ?_, ?_⟩
    · simp [TaskStatus.last]
    · rcases shape with rfl | rfl <;> simp

theorem advance (phased : Phased system)
    (advanced : Nanos6.advance system task = some next) : Phased next := by
  obtain ⟨head, rest, working, -, -, advances⟩ := advances_of_advance advanced
  cases advances with
  | linkTaskAccesses low =>
      exact phased.goesOn working (TaskStatus.last_ne .registering rfl)
        (goesOn_linkTaskAccesses system task low rest)
  | replaceMatching parentIs matched =>
      exact phased.goesOn working (TaskStatus.last_ne .registering rfl)
        (goesOn_replaceMatchingInBottomMap system task _ _ rest matched)
  | decreasePredecessors => exact phased.decreasePredecessors working
  | enterTaskwait => exact phased.enterTaskwait working
  | createTaskwait low =>
      exact phased.goesOn working (TaskStatus.last_ne .inTaskwait rfl)
        (goesOn_createTaskwait system task low rest)
  | createTopLevelSink low =>
      exact phased.goesOn working (TaskStatus.last_ne .releasing rfl)
        (goesOn_createTopLevelSink system task low rest)
  | linkToTaskwait linked =>
      exact phased.goesOn working (TaskStatus.last_ne .inTaskwait rfl)
        (goesOn_linkToTaskwait system task _ _ rest linked)
  | finalizeFragments low =>
      exact phased.goesOn working (TaskStatus.last_ne .inTaskwait rfl)
        (goesOn_finalizeFragments system task low rest)
  | finalizeAccesses region =>
      exact phased.goesOn working (TaskStatus.last_ne .running rfl)
        (goesOn_finalizeAccess system task region rest)
  | finalizeFragmentsOf region =>
      exact phased.goesOn working (TaskStatus.last_ne .running rfl)
        (goesOn_finalizeFragmentsOf system task region rest)
  | processDelayedOperations =>
      exact phased.goesOn working (TaskStatus.last_ne .running rfl)
        ((setsWork_setWork system task rfl rest).ends _)
  | markAsBlocked =>
      obtain ⟨-, rfl⟩ := phased.atMarkAsBlocked working
      obtain ⟨done, changed⟩ := control_markAsBlocked system task []
      refine phased.update changed ?_
      cases done
      · exact workFits_last .blocked
      · exact workFits_last .leavingTaskwait
  | exitTaskwait =>
      obtain ⟨-, rfl⟩ := phased.atExitTaskwait working
      exact phased.update (control_exitTaskwait system task [])
        (workFits_last .running)
  | completeWaitClause =>
      obtain ⟨-, rfl⟩ := phased.atCompleteWaitClause working
      rcases control_completeWaitClause system task [] with changed | changed
      · exact phased.update changed (workFits_last .waitClausePending)
      · exact phased.update changed (workFits_last .finished)
  | markAsReleased =>
      obtain ⟨-, rfl⟩ := phased.atMarkAsReleased working
      exact phased.update (control_markAsReleased system task [])
        (workFits_last .released)

end Phased

/-! ## Registration comes before the start -/

/-- The accesses of the task have been registered and its body has started. -/
def TaskStatus.hasStarted : TaskStatus → Bool
  | .unborn => false
  | .registering => false
  | .registered => false
  | _ => true

/-- The loops of a registration. -/
def Work.registers : Work → Bool
  | .linkTaskAccesses _ => true
  | .replaceMatching _ => true
  | .decreasePredecessors => true
  | _ => false

/-- Before the start the work fits the status; after it no registration is
left.  Unlike `WorkFits` this also holds when a task has been deleted too
early. -/
def RegistersFirst (status : TaskStatus) (work : List Work) : Prop :=
  (status.hasStarted = false → WorkFits status work) ∧
    (status.hasStarted = true → ∀ loop ∈ work, loop.registers = false)

/-- The loops of a task that has started register nothing. -/
theorem TaskStatus.registers_eq_false {status : TaskStatus} {loop : Work}
    (started : status.hasStarted = true)
    (allowed : status.allows loop = true) : loop.registers = false := by
  cases loop with
  | linkTaskAccesses low =>
      rw [allows_linkTaskAccesses, beq_iff_eq] at allowed
      rw [allowed] at started
      cases started
  | replaceMatching progress =>
      rw [allows_replaceMatching, beq_iff_eq] at allowed
      rw [allowed] at started
      cases started
  | decreasePredecessors => cases status <;> cases allowed
  | _ => rfl

theorem WorkFits.registersFirst {status : TaskStatus} {work : List Work}
    (fits : WorkFits status work) : RegistersFirst status work := by
  refine ⟨fun _ => fits, fun started loop member => ?_⟩
  obtain ⟨loops, rfl, allowed⟩ := fits
  rcases List.mem_append.mp member with inLoops | inLast
  · exact TaskStatus.registers_eq_false started (allowed loop inLoops)
  · revert started inLast
    cases status <;>
      simp +contextual [TaskStatus.hasStarted, TaskStatus.last,
        Work.registers, or_imp]

/-- Every task registers its accesses first. -/
def Enrolled (system : System) : Prop :=
  ∀ task,
    RegistersFirst (system.control task).status (system.control task).work

namespace Enrolled

variable {system next : System} {task : TaskId}

theorem of_control (enrolled : Enrolled system)
    (same : next.control = system.control) : Enrolled next := by
  unfold Enrolled
  rw [same]
  exact enrolled

theorem update (enrolled : Enrolled system) {control : Control}
    (changed : next.control = Function.update system.control task control)
    (first : RegistersFirst control.status control.work) : Enrolled next := by
  intro other
  rw [changed]
  by_cases same : other = task
  · subst same
    simpa using first
  · simpa [same] using enrolled other

/-- A task that has work before it starts is being registered. -/
theorem status_eq {status : TaskStatus} {head : Work} {rest : List Work}
    (fits : WorkFits status (head :: rest))
    (notStarted : status.hasStarted = false) : status = .registering := by
  rcases fits.head with ⟨allowed, _⟩ | last
  · cases status <;> first
      | rfl
      | (cases notStarted; done)
      | (cases head <;> cases allowed)
  · cases status <;> first
      | rfl
      | (cases notStarted; done)
      | cases last

/-- A task with work that no registration has, has started. -/
theorem hasStarted (enrolled : Enrolled system) {head : Work}
    {rest : List Work} (working : (system.task task).work = head :: rest)
    (foreign : TaskStatus.registering.allows head = false)
    (notEnd : head ≠ .decreasePredecessors) :
    (system.task task).status.hasStarted = true := by
  by_contra notStarted
  have fits := (enrolled task).1 (Bool.eq_false_iff.mpr notStarted)
  have work : (system.control task).work = head :: rest := working
  rw [work] at fits
  have status := status_eq fits (Bool.eq_false_iff.mpr notStarted)
  rw [status] at fits
  rcases fits.head with ⟨allowed, _⟩ | last
  · rw [foreign] at allowed
    cases allowed
  · injection last with isEnd
    exact notEnd isEnd.symm

/-- A task with work of a registration is being registered. -/
theorem isRegistering (enrolled : Enrolled system) {head : Work}
    {rest : List Work} (working : (system.task task).work = head :: rest)
    (registers : head.registers = true) :
    (system.control task).status = .registering ∧
      WorkFits .registering (head :: rest) := by
  have work : (system.control task).work = head :: rest := working
  have notStarted : (system.control task).status.hasStarted = false := by
    by_contra started
    have clean := (enrolled task).2 (Bool.eq_true_of_not_eq_false started) head
    rw [work, registers] at clean
    exact absurd (clean (by simp)) (by simp)
  have fits := (enrolled task).1 notStarted
  rw [work] at fits
  have status := status_eq fits notStarted
  rw [status] at fits
  exact ⟨status, fits⟩

theorem goesOn (enrolled : Enrolled system) {head : Work} {rest : List Work}
    (working : (system.task task).work = head :: rest)
    (notLast : ∀ status : TaskStatus, status.last ≠ head :: rest)
    (somewhere : head.registers = false →
      ∃ status : TaskStatus,
        status.hasStarted = true ∧ status.allows head = true)
    (goes : GoesOn system task head rest next) : Enrolled next := by
  have work : (system.control task).work = head :: rest := working
  obtain ⟨loops, sets, allowed⟩ := goes
  refine enrolled.update sets ?_
  cases started : (system.control task).status.hasStarted with
  | false =>
      have fits := (enrolled task).1 started
      rw [work] at fits
      rcases fits.head with ⟨headAllowed, restFits⟩ | last
      · exact (restFits.append (allowed _ headAllowed)).registersFirst
      · exact absurd last (notLast _)
  | true =>
      have clean := (enrolled task).2 started
      rw [work] at clean
      obtain ⟨status, statusStarted, headAllowed⟩ :=
        somewhere (clean head (by simp))
      refine ⟨fun notStarted => absurd notStarted (by simp [started]), ?_⟩
      intro _ loop member
      rcases List.mem_append.mp member with inLoops | inRest
      · exact TaskStatus.registers_eq_false statusStarted
          (allowed status headAllowed loop inLoops)
      · exact clean loop (List.mem_cons_of_mem head inRest)

/-- A started task stays a started one without registration work. -/
theorem starts (enrolled : Enrolled system) {control : Control}
    (changed : next.control = Function.update system.control task control)
    (started : control.status.hasStarted = true)
    (clean : ∀ loop ∈ control.work, loop.registers = false) :
    Enrolled next :=
  enrolled.update changed
    ⟨fun notStarted => absurd notStarted (by simp [started]), fun _ => clean⟩

/-- The rest of the work of a started task. -/
theorem clean (enrolled : Enrolled system) {head : Work} {rest : List Work}
    (working : (system.task task).work = head :: rest)
    (started : (system.task task).status.hasStarted = true) :
    ∀ loop ∈ rest, loop.registers = false := by
  intro loop member
  refine (enrolled task).2 started loop ?_
  have work : (system.control task).work = head :: rest := working
  rw [work]
  exact List.mem_cons_of_mem head member

theorem decreasePredecessors (enrolled : Enrolled system) {rest : List Work}
    (working : (system.task task).work = .decreasePredecessors :: rest) :
    Enrolled (Nanos6.decreasePredecessors system task rest) := by
  obtain ⟨-, fits⟩ := enrolled.isRegistering working rfl
  have nothingLeft : rest = [] := by
    rcases fits.head with ⟨allowed, _⟩ | last
    · cases allowed
    · injection last with _ same
      exact same.symm
  subst nothingLeft
  have registered : RegistersFirst .registered [] :=
    (workFits_last .registered).registersFirst
  intro other
  unfold Nanos6.decreasePredecessors System.control
  have before := enrolled other
  unfold System.control at before
  dsimp only
  split
  · rw [System.task_modifyTask]
    split
    · exact registered
    · exact before
  · rw [System.task_modifyTask, System.task_modifyTask]
    split
    · rename_i isParent
      subst isParent
      split
      · exact registered
      · exact before
    · rw [System.task_modifyTask]
      split
      · exact registered
      · exact before

theorem advance (enrolled : Enrolled system)
    (advanced : Nanos6.advance system task = some next) : Enrolled next := by
  obtain ⟨head, rest, working, -, -, advances⟩ := advances_of_advance advanced
  cases advances with
  | linkTaskAccesses low =>
      exact enrolled.goesOn working (TaskStatus.last_ne .registering rfl)
        (by simp [Work.registers])
        (goesOn_linkTaskAccesses system task low rest)
  | replaceMatching parentIs matched =>
      exact enrolled.goesOn working (TaskStatus.last_ne .registering rfl)
        (by simp [Work.registers])
        (goesOn_replaceMatchingInBottomMap system task _ _ rest matched)
  | decreasePredecessors => exact enrolled.decreasePredecessors working
  | enterTaskwait =>
      have started := enrolled.hasStarted working rfl (by simp)
      have restClean := enrolled.clean working started
      obtain ⟨loops, changed, shape⟩ :=
        control_handleEnterTaskwait system task rest
      refine enrolled.starts changed ?_ ?_
      · dsimp only
        split <;> rfl
      · rcases shape with rfl | rfl <;>
          simpa [Work.registers] using restClean
  | createTaskwait low =>
      exact enrolled.goesOn working (TaskStatus.last_ne .inTaskwait rfl)
        (fun _ => ⟨.inTaskwait, rfl, rfl⟩)
        (goesOn_createTaskwait system task low rest)
  | createTopLevelSink low =>
      exact enrolled.goesOn working (TaskStatus.last_ne .releasing rfl)
        (fun _ => ⟨.releasing, rfl, rfl⟩)
        (goesOn_createTopLevelSink system task low rest)
  | linkToTaskwait linked =>
      exact enrolled.goesOn working (TaskStatus.last_ne .inTaskwait rfl)
        (fun _ => ⟨.inTaskwait, rfl, rfl⟩)
        (goesOn_linkToTaskwait system task _ _ rest linked)
  | finalizeFragments low =>
      exact enrolled.goesOn working (TaskStatus.last_ne .inTaskwait rfl)
        (fun _ => ⟨.inTaskwait, rfl, rfl⟩)
        (goesOn_finalizeFragments system task low rest)
  | finalizeAccesses region =>
      exact enrolled.goesOn working (TaskStatus.last_ne .running rfl)
        (fun _ => ⟨.running, rfl, rfl⟩)
        (goesOn_finalizeAccess system task region rest)
  | finalizeFragmentsOf region =>
      exact enrolled.goesOn working (TaskStatus.last_ne .running rfl)
        (fun _ => ⟨.running, rfl, rfl⟩)
        (goesOn_finalizeFragmentsOf system task region rest)
  | processDelayedOperations =>
      exact enrolled.goesOn working (TaskStatus.last_ne .running rfl)
        (fun _ => ⟨.running, rfl, rfl⟩)
        ((setsWork_setWork system task rfl rest).ends _)
  | markAsBlocked =>
      have started := enrolled.hasStarted working rfl (by simp)
      have restClean := enrolled.clean working started
      obtain ⟨done, changed⟩ := control_markAsBlocked system task rest
      refine enrolled.starts changed ?_ ?_
      · cases done <;> rfl
      · cases done <;> simpa [Work.registers] using restClean
  | exitTaskwait =>
      have started := enrolled.hasStarted working rfl (by simp)
      exact enrolled.starts (control_exitTaskwait system task rest) rfl
        (enrolled.clean working started)
  | completeWaitClause =>
      have started := enrolled.hasStarted working rfl (by simp)
      have restClean := enrolled.clean working started
      rcases control_completeWaitClause system task rest with changed | changed
      · exact enrolled.starts changed rfl restClean
      · exact enrolled.starts changed rfl restClean
  | markAsReleased =>
      have started := enrolled.hasStarted working rfl (by simp)
      exact enrolled.starts (control_markAsReleased system task rest) rfl
        (enrolled.clean working started)

theorem submitTask (enrolled : Enrolled system) {parent child : TaskId}
    {declarations : List AccessDeclaration} {mustDelayRelease : Bool}
    (submitted :
      Nanos6.submitTask system parent child declarations mustDelayRelease =
        some next) : Enrolled next := by
  obtain ⟨-, -, -, accesses, -, rfl⟩ := submitTask_eq_some submitted
  intro other
  unfold System.control
  rw [System.task_modifyTask]
  split
  · unfold newTask
    cases accesses.pieces.isEmpty with
    | true => exact (workFits_last .registered).registersFirst
    | false =>
        refine WorkFits.registersFirst
          ⟨[.linkTaskAccesses 0, .processDelayedOperations], rfl, ?_⟩
        simp [Task.control]
  · rw [System.task_modifyTask]
    split
    · exact enrolled parent
    · exact enrolled other

theorem step (enrolled : Enrolled system) {action : Action}
    (taken : Nanos6.step system action = some next) : Enrolled next := by
  cases action with
  | submit parent child declarations mustDelayRelease =>
      exact enrolled.submitTask taken
  | start task =>
      simp only [Nanos6.step] at taken
      split at taken
      · rename_i ready
        cases taken
        simp only [Bool.and_eq_true, beq_iff_eq] at ready
        refine enrolled.starts (System.control_modifyTask system task _) rfl ?_
        have fits := (enrolled task).1
          (by simp [System.control, Task.control, ready.1,
            TaskStatus.hasStarted])
        obtain ⟨loops, work, allowed⟩ := fits
        have status : (system.control task).status = .registered := ready.1
        intro loop member
        change loop ∈ (system.control task).work at member
        rw [work, status] at member
        rw [status] at allowed
        rcases List.mem_append.mp member with inLoops | inLast
        · have impossible := allowed loop inLoops
          cases loop <;> cases impossible
        · cases inLast
      · cases taken
  | taskwait task =>
      simp only [Nanos6.step, enterTaskwait] at taken
      split at taken
      · cases taken
      · split at taken
        · split at taken
          · cases taken
          · cases taken
            exact enrolled
        · cases taken
          refine enrolled.starts (System.control_modifyTask system task _) rfl ?_
          simp [Task.control, Work.registers]
  | release task region =>
      simp only [Nanos6.step, releaseAccessRegion] at taken
      split at taken
      · rename_i canCall
        cases taken
        simp only [Task.canCall, Bool.and_eq_true, beq_iff_eq] at canCall
        refine enrolled.starts (System.control_setWork system task _) ?_ ?_
        · simp [System.control, Task.control, canCall.1.1,
            TaskStatus.hasStarted]
        · simp [Work.registers]
      · cases taken
  | finish task =>
      simp only [Nanos6.step, markAsFinished] at taken
      split at taken
      · cases taken
      · rename_i canCall
        split at taken
        · cases taken
          refine enrolled.starts (System.control_modifyTask system task _) rfl ?_
          simp [Task.control, Work.registers]
        · cases taken
          simp only [Task.canCall, Bool.not_eq_true', Bool.not_eq_false,
            Bool.and_eq_true, beq_iff_eq, List.isEmpty_iff] at canCall
          refine enrolled.starts (System.control_modifyTask system task _) rfl ?_
          simp [Task.control, canCall.1.2]
  | unregister task =>
      simp only [Nanos6.step, unregisterTaskDataAccesses] at taken
      split at taken
      · cases taken
        refine enrolled.starts (System.control_modifyTask system task _) rfl ?_
        simp [Task.control, Work.registers]
      · cases taken
  | advance task => exact enrolled.advance taken
  | bottomMapUpdate index =>
      exact enrolled.of_control
        (control_processBottomMapUpdate system index taken)
  | delayedOperation index =>
      exact enrolled.of_control
        (control_processUpdateOperation system index taken)
  | disposeOrUnblock index =>
      obtain ⟨removed, -, outcome⟩ :=
        control_disposeOrUnblockTask system index taken
      have finishedStarted : ∀ status : TaskStatus,
          status.hasFinished = true → status.hasStarted = true := by
        intro status
        cases status <;> simp [TaskStatus.hasFinished, TaskStatus.hasStarted]
      rcases outcome with
        ⟨changed, finished, -⟩ | ⟨changed, finished, -⟩ | ⟨changed, _⟩
      · exact enrolled.starts changed rfl
          ((enrolled removed).2 (finishedStarted _ finished))
      · exact enrolled.starts changed rfl
          ((enrolled removed).2 (finishedStarted _ finished))
      · exact enrolled.starts changed rfl (by simp [Work.registers])

theorem initial (main : TaskId) : Enrolled (initialSystem main) := by
  intro task
  unfold System.control
  simp only [initialSystem]
  split
  · exact (workFits_last .running).registersFirst
  · exact (workFits_last .unborn).registersFirst

end Enrolled

end Nanos6
