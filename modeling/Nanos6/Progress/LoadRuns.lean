import Nanos6.Dependencies.Lineage
import Nanos6.Progress.LoadAdvances

/-!
# The load along runs

No step but a submission adds to the load, and each step that processes a
delayed operation or a bottom-map update lowers it.
-/

namespace Nanos6

open Foundation

/-! ## The end of a taskwait -/

namespace Task

variable {before after : Task}

theorem creationLoad_of_empty (empty : after.subaccessBottomMap = .empty) :
    after.creationLoad = 0 := by
  have nothing : ∀ loop : Work,
      loop.creationLoad (.empty : IntervalMap BottomMapEntry) = 0 := by
    intro loop
    cases loop <;> rfl
  unfold creationLoad
  rw [empty, List.sum_eq_zero]
  · simp
  · intro amount isAmount
    obtain ⟨loop, _, rfl⟩ := List.mem_map.mp isAmount
    exact nothing loop

/-- A task whose bottom map has been cleared. -/
theorem lightens_of_empty (bound : Nat)
    (empty : after.subaccessBottomMap = .empty)
    {dropped : List Work} (working : before.work = dropped ++ after.work)
    (objects : ∀ weight : DataAccess → Nat,
      (∀ access,
        weight { access with hasSubaccesses := false } = weight access) →
      weighObjects weight after.objects ≤
        weighObjects weight before.objects) :
    before.Lightens bound after where
  registration := by
    unfold registrationLoad
    rw [working, List.map_append, List.sum_append]
    exact Nat.le_add_left _ _
  creation := by
    rw [creationLoad_of_empty empty]
    exact Nat.zero_le _
  linking := by
    unfold linkingLoad
    rw [working, List.map_append, List.sum_append]
    exact Nat.le_add_left _ _
  completion := objects _ fun _ => rfl
  succession := objects _ fun _ => rfl
  satisfaction := objects _ fun _ => rfl

/-- A task as its deletion leaves it. -/
def dispose (task : Task) : Task :=
  { task with
    status := .disposed
    objects := fun _ => .empty
    subaccessBottomMap := .empty
    deletedAccesses := task.objects .accesses }

end Task

namespace System

variable {tasks : Finset TaskId} {bound : Nat} {system next : System}
  {task : TaskId}

/-- The pending disposals and the marks of the system count on no level. -/
theorem Settles.of_eq {last : System}
    (settles : Settles tasks bound system next)
    (same : last.task = next.task)
    (updates : last.bottomMapUpdates = next.bottomMapUpdates)
    (operations : last.delayedOperations = next.delayedOperations) :
    Settles tasks bound system last := by
  have loads : last.load tasks bound = next.load tasks bound := by
    funext level
    cases level <;> simp only [load, same, updates, operations]
  refine ⟨settles.1.trans (.of_eq tasks bound same), ?_⟩
  unfold Sinks
  rw [loads]
  exact settles.2

theorem Within.mem_of_status (within : Within tasks bound system)
    (born : (system.task task).status ≠ .unborn) : task ∈ tasks := by
  by_contra outside
  exact born (within.dormant task outside).status

/-- What the end of a taskwait leaves of a task. -/
theorem task_handleExitTaskwait (system : System) (task : TaskId) :
    ∃ objects counters,
      (∀ other, (handleExitTaskwait system task).task other =
        if other = task then
          { system.task task with
            objects := objects
            subaccessBottomMap := .empty
            counters := counters }
        else system.task other) ∧
        (∀ weight : DataAccess → Nat,
          (∀ access,
            weight { access with hasSubaccesses := false } =
              weight access) →
          weighObjects weight objects ≤
            weighObjects weight (system.task task).objects) ∧
        ∀ piece ∈ (objects .accesses).pieces,
          ∃ old ∈ ((system.task task).objects .accesses).pieces,
            piece.interval.stop ≤ old.interval.stop := by
  by_cases accesses : (system.task task).hasAccesses = true
  · obtain ⟨exited, ofAccesses, ofFragments, exits⟩ :=
      handleExitTaskwait_of_hasAccesses system task accesses
    refine ⟨exited (system.task task),
      (system.task task).counters.increaseRemovalBlockingCount,
      fun other => ?_, ?_, ?_⟩
    · rw [exits]
      dsimp only
      refine (task_modifyTask ..).trans ?_
      split <;> rfl
    · intro weight same
      have ofAccess :=
        ((system.task task).objects .accesses).weighFrom_mapValues_le 0
          weight fun access => (same access).le
      simp only [weighObjects, ofAccesses, ofFragments (system.task task)
        .accessFragments (by simp), ofFragments (system.task task)
        .taskwaitFragments (by simp), IntervalMap.weigh_empty]
      unfold IntervalMap.weigh
      omega
    · intro piece member
      rw [ofAccesses] at member
      obtain ⟨old, oldMember, rfl⟩ :=
        (IntervalMap.mem_mapValues _).mp member
      exact ⟨old, oldMember, le_refl _⟩
  · unfold handleExitTaskwait
    dsimp only
    rw [if_neg accesses]
    exact ⟨(system.task task).objects, (system.task task).counters,
      fun other => task_modifyTask system task other _,
      fun _ _ => le_refl _,
      fun piece member => ⟨piece, member, le_refl _⟩⟩

/-- The task changes its status and ends a taskwait. -/
theorem follows_handleExitTaskwait (inside : task ∈ tasks) (bound : Nat)
    (change : Task → Task) {dropped : List Work}
    (working : (system.task task).work =
      dropped ++ (change (system.task task)).work)
    (objects : (change (system.task task)).objects =
      (system.task task).objects) :
    Follows tasks bound system
        (handleExitTaskwait (system.modifyTask task change) task) ∧
      (∀ other,
        (system.task other).Lightens bound
          ((handleExitTaskwait (system.modifyTask task change) task).task
            other)) ∧
      ((handleExitTaskwait (system.modifyTask task change) task).task
        task).subaccessBottomMap = .empty := by
  obtain ⟨kept, counters, tasksAfter, lighter, inOld⟩ :=
    task_handleExitTaskwait (system.modifyTask task change) task
  have modified : (system.modifyTask task change).task task =
      change (system.task task) := by
    rw [task_modifyTask, if_pos rfl]
  rw [modified, objects] at lighter inOld
  have others : ∀ other, other ≠ task →
      (handleExitTaskwait (system.modifyTask task change) task).task other =
        system.task other := by
    intro other differ
    rw [tasksAfter, if_neg differ, task_modifyTask, if_neg differ]
  refine ⟨⟨?_, ?_⟩, ?_, ?_⟩
  · intro other outside dormant
    rw [others other fun same => outside (same ▸ inside)]
    exact dormant
  · intro other limited
    by_cases same : other = task
    · subst same
      rw [tasksAfter, if_pos rfl]
      intro piece member
      obtain ⟨old, oldMember, below⟩ := inOld piece member
      exact below.trans (limited old oldMember)
    · rw [others other same]
      exact limited
  · intro other
    by_cases same : other = task
    · subst same
      rw [tasksAfter, if_pos rfl]
      have after : (system.task other).work =
          dropped ++ ((system.modifyTask other change).task other).work := by
        rw [working, modified]
      exact Task.lightens_of_empty bound rfl after lighter
    · rw [others other same]
      exact Task.Lightens.refl bound _
  · rw [tasksAfter, if_pos rfl]

theorem lists_handleExitTaskwait (system : System) (task : TaskId) :
    (handleExitTaskwait system task).bottomMapUpdates =
        system.bottomMapUpdates ∧
      (handleExitTaskwait system task).delayedOperations =
        system.delayedOperations := by
  unfold handleExitTaskwait
  dsimp only
  split
  · exact ⟨rfl, rfl⟩
  · exact ⟨rfl, rfl⟩

theorem settles_exitTaskwait (within : Within tasks bound system)
    {rest : List Work}
    (working : (system.task task).work = .exitTaskwait :: rest) :
    Settles tasks bound system (exitTaskwait system task rest) := by
  unfold exitTaskwait
  dsimp only
  have inside := within.mem_of_work working
  have dropping : (system.task task).work = [.exitTaskwait] ++ rest := working
  obtain ⟨updates, operations⟩ := lists_handleExitTaskwait
    (system.modifyTask task fun current =>
      { current with
        counters := current.counters.increaseRemovalBlockingCount
        status := .running
        work := rest }) task
  obtain ⟨follows, lightens, _⟩ :=
    follows_handleExitTaskwait inside bound
      (fun current =>
        { current with
          counters := current.counters.increaseRemovalBlockingCount
          status := .running
          work := rest }) dropping rfl
  exact settles_of_lightens follows lightens updates operations

/-- The end of a wait clause. -/
theorem follows_completeDelayedRelease (inside : task ∈ tasks) (bound : Nat)
    (system : System) :
    Follows tasks bound system (completeDelayedRelease system task) ∧
      (∀ other,
        (system.task other).Lightens bound
          ((completeDelayedRelease system task).task other)) ∧
      (completeDelayedRelease system task).bottomMapUpdates =
        system.bottomMapUpdates ∧
      (completeDelayedRelease system task).delayedOperations =
        system.delayedOperations := by
  obtain ⟨updates, operations⟩ := lists_handleExitTaskwait
    (system.modifyTask task fun current =>
      { current with mustDelayRelease := false }) task
  obtain ⟨follows, lightens, cleared⟩ :=
    follows_handleExitTaskwait inside bound
      (fun current => { current with mustDelayRelease := false })
      (List.nil_append (system.task task).work).symm rfl
  unfold completeDelayedRelease
  dsimp only
  refine ⟨follows.trans (follows_modifyTask _ inside fun limited => limited),
    fun other => (lightens other).trans ?_, updates, operations⟩
  refine lightens_modifyTask bound _ task ?_ other
  exact Task.lightens_of_empty bound cleared
    (List.nil_append _).symm fun _ _ => le_refl _

theorem settles_completeDelayedRelease (inside : task ∈ tasks)
    {change : Task → Task}
    (bounded : (system.task task).Bounded bound →
      (change (system.task task)).Bounded bound)
    (changed : (system.task task).Lightens bound
      (change (system.task task))) :
    Settles tasks bound system
      (completeDelayedRelease (system.modifyTask task change) task) := by
  obtain ⟨follows, lightens, updates, operations⟩ :=
    follows_completeDelayedRelease inside bound
      (system.modifyTask task change)
  exact settles_of_lightens
    ((system.follows_modifyTask inside bounded).trans follows)
    (fun other =>
      (system.lightens_modifyTask bound task changed other).trans
        (lightens other)) updates operations

/-! ## Steps of the operations in progress -/

section Ending

variable (within : Within tasks bound system) {rest : List Work}

include within

theorem settles_completeWaitClause
    (working : (system.task task).work = .completeWaitClause :: rest) :
    Settles tasks bound system (completeWaitClause system task rest) := by
  have inside := within.mem_of_work working
  have pending : ∀ counters, (system.task task).Lightens bound
      { system.task task with
        counters := counters
        status := .waitClausePending
        work := rest } := fun counters =>
    Task.lightens_of_ended bound working rfl (fun isOpen => by cases isOpen)
      rfl rfl
  unfold completeWaitClause
  dsimp only
  split
  · exact settles_completeDelayedRelease inside (fun limited => limited)
      (pending _)
  · exact settles_modifyTask system inside (fun limited => limited)
      (pending _)

theorem settles_markAsBlocked
    (working : (system.task task).work = .markAsBlocked :: rest) :
    Settles tasks bound system (markAsBlocked system task rest) := by
  refine settles_modifyTask system (within.mem_of_work working)
    (fun limited => limited) ?_
  dsimp only
  split
  · have dropping : (system.task task).work = [.markAsBlocked] ++ rest :=
      working
    have weightless : ∀ loop ∈ [Work.exitTaskwait],
        loop.weightless = true := by
      simp [Work.weightless]
    exact Task.lightens_of_loops bound weightless dropping rfl
      (fun isOpen => by cases isOpen) rfl rfl
  · exact Task.lightens_of_ended bound working rfl
      (fun isOpen => by cases isOpen) rfl rfl

theorem settles_markAsReleased
    (working : (system.task task).work = .markAsReleased :: rest) :
    Settles tasks bound system (markAsReleased system task rest) := by
  have released : ∀ counters, (system.task task).Lightens bound
      { system.task task with
        counters := counters
        status := .released
        work := rest } := fun counters =>
    Task.lightens_of_ended bound working rfl (fun isOpen => by cases isOpen)
      rfl rfl
  have modified : ∀ counters, Settles tasks bound system
      (system.modifyTask task fun current =>
        { current with
          counters := counters
          status := .released
          work := rest }) := fun counters =>
    settles_modifyTask system (within.mem_of_work working)
      (fun limited => limited) (released counters)
  exact (modified _).of_eq rfl rfl rfl

/-- The bottom map that a task finds when it enters a taskwait counts already
for the loop that is going to enter it. -/
theorem settles_handleEnterTaskwait
    (working : (system.task task).work = .enterTaskwait :: rest) :
    Settles tasks bound system (handleEnterTaskwait system task rest) := by
  have closed :
      ((system.task task).enterTaskwait rest).status.isOpen = false := by
    unfold Task.enterTaskwait
    dsimp only
    split <;> rfl
  have lightens : (system.task task).Lightens bound
      ((system.task task).enterTaskwait rest) := by
    refine Task.lightens_of_work bound
      (fun isOpen => by rw [closed] at isOpen; cases isOpen) rfl rfl
      ?_ ?_ ?_
    · rw [working]
      unfold Task.enterTaskwait
      dsimp only
      split <;> simp [Work.registrationLoad]
    · rw [working]
      unfold Task.enterTaskwait
      dsimp only
      split
      · simp [Work.creationLoad]
      · simp [Work.creationLoad, IntervalMap.weigh]
    · rw [working]
      unfold Task.enterTaskwait
      dsimp only
      split <;> simp [Work.linkingLoad]
  have modified : Settles tasks bound system
      (system.modifyTask task (Task.enterTaskwait rest)) :=
    settles_modifyTask system (within.mem_of_work working)
      (fun limited => limited) lightens
  exact modified.of_eq rfl rfl rfl

theorem settles_decreasePredecessors
    (working : (system.task task).work = .decreasePredecessors :: rest)
    (registering : (system.task task).status = .registering) :
    Settles tasks bound system (decreasePredecessors system task rest) := by
  have inside := within.mem_of_work working
  have registered : (system.task task).Lightens bound
      { system.task task with
        counters :=
          ((system.task task).counters.decreasePredecessors 2).1
        status := .registered
        work := rest
        readyReports :=
          (system.task task).readyReports ++
            if ((system.task task).counters.decreasePredecessors 2).2 then
              [.registrationReturn]
            else [] } :=
    Task.lightens_of_ended bound working rfl
      (fun _ => by rw [registering]; rfl) rfl rfl
  unfold decreasePredecessors
  dsimp only
  split
  · exact settles_modifyTask system inside (fun limited => limited)
      registered
  · refine settles_of_lightens
      ((system.follows_modifyTask inside fun limited => limited).trans
        (follows_modifyTask_of_same tasks bound _ _ rfl rfl rfl))
      (fun other =>
        (system.lightens_modifyTask bound task registered other).trans
          (lightens_modifyTask bound _ _
            (Task.lightens_of_same bound rfl rfl rfl rfl) other)) rfl rfl

end Ending

/-- The operation in progress of a task goes on. -/
theorem settles_advance (within : Within tasks bound system)
    (enrolled : Enrolled system)
    (advanced : advance system task = some next) :
    Settles tasks bound system next := by
  obtain ⟨head, rest, working, _, _, advances⟩ :=
    advances_of_advance advanced
  cases advances with
  | linkTaskAccesses low =>
      obtain ⟨follows, lowers⟩ := lowersAt_linkTaskAccesses within working
      exact ⟨follows, Or.inr ⟨_, lowers⟩⟩
  | replaceMatching _ matched =>
      obtain ⟨follows, lowers⟩ :=
        lowersAt_replaceMatching within working matched
      exact ⟨follows, Or.inr ⟨_, lowers⟩⟩
  | decreasePredecessors =>
      exact settles_decreasePredecessors within working
        (enrolled.isRegistering working rfl).1
  | enterTaskwait => exact settles_handleEnterTaskwait within working
  | createTaskwait low => exact settles_createTaskwait within working
  | createTopLevelSink low => exact settles_createTopLevelSink within working
  | linkToTaskwait linked =>
      exact settles_linkToTaskwait within working linked
  | finalizeFragments low => exact settles_finalizeFragments within working
  | finalizeAccesses region => exact settles_finalizeAccess within working
  | finalizeFragmentsOf region =>
      exact settles_finalizeFragmentsOf within working
  | processDelayedOperations => exact settles_endLoop within working
  | markAsBlocked => exact settles_markAsBlocked within working
  | exitTaskwait => exact settles_exitTaskwait within working
  | completeWaitClause => exact settles_completeWaitClause within working
  | markAsReleased => exact settles_markAsReleased within working

/-! ## Calls of the runtime and disposals -/

theorem settles_disposeTask (inside : task ∈ tasks) :
    Settles tasks bound system (disposeTask system task) := by
  have disposed : (system.task task).Lightens bound
      (system.task task).dispose :=
    Task.lightens_of_empty bound rfl (List.nil_append _).symm
      fun weight _ => Nat.zero_le _
  have deleted : Settles tasks bound system
      (system.modifyTask task Task.dispose) :=
    settles_modifyTask system inside
      (fun _ piece member => absurd member List.not_mem_nil) disposed
  unfold disposeTask
  dsimp only
  split
  · exact deleted.of_eq rfl rfl rfl
  · rename_i parent _
    have parentSame : ∀ counters other,
        ((system.modifyTask task Task.dispose).task other).Lightens bound
          (((system.modifyTask task Task.dispose).modifyTask parent
            fun current => { current with counters := counters }).task
              other) := fun counters other =>
      lightens_modifyTask bound _ parent
        (Task.lightens_of_same bound rfl rfl rfl rfl) other
    have discounted : ∀ counters, Settles tasks bound system
        ((system.modifyTask task Task.dispose).modifyTask parent
          fun current => { current with counters := counters }) :=
      fun counters => settles_of_lightens
        (deleted.1.trans
          (follows_modifyTask_of_same tasks bound _ parent rfl rfl rfl))
        (fun other =>
          (system.lightens_modifyTask bound task disposed other).trans
            (parentSame counters other)) rfl rfl
    exact (discounted _).of_eq rfl rfl rfl

theorem settles_disposeOrUnblockTask (within : Within tasks bound system)
    {index : Nat}
    (disposed : disposeOrUnblockTask system index = some next) :
    Settles tasks bound system next := by
  unfold disposeOrUnblockTask at disposed
  split at disposed
  · cases disposed
  · rename_i task _
    dsimp only at disposed
    split at disposed
    · cases disposed
    · split at disposed
      · rename_i hasFinished
        have inside : task ∈ tasks := by
          refine within.mem_of_status fun unborn => ?_
          rw [unborn] at hasFinished
          cases hasFinished
        split at disposed
        · cases disposed
          obtain ⟨follows, lightens, updates, operations⟩ :=
            follows_completeDelayedRelease inside bound
              { system with
                pendingDisposals := system.pendingDisposals.eraseIdx index }
          exact settles_of_lightens ⟨follows.dormant, follows.bounded⟩
            lightens updates operations
        · cases disposed
          have deleted : Settles tasks bound
              { system with
                pendingDisposals := system.pendingDisposals.eraseIdx index }
              (disposeTask
                { system with
                  pendingDisposals :=
                    system.pendingDisposals.eraseIdx index } task) :=
            settles_disposeTask inside
          exact ⟨⟨deleted.1.dormant, deleted.1.bounded⟩, deleted.2⟩
      · split at disposed
        · rename_i blocked
          cases disposed
          have inside : task ∈ tasks := by
            refine within.mem_of_status fun unborn => ?_
            rw [unborn] at blocked
            cases blocked
          have unblocked : (system.task task).Lightens bound
              { system.task task with
                status := .leavingTaskwait
                work := [.exitTaskwait] } := by
            have weightless : ∀ loop ∈ [Work.exitTaskwait],
                loop.weightless = true := by
              simp [Work.weightless]
            exact Task.lightens_of_loops bound weightless
              (List.append_nil (system.task task).work).symm rfl
              (fun isOpen => by cases isOpen) rfl rfl
          have modified : Settles tasks bound system
              (system.modifyTask task fun current =>
                { current with
                  status := .leavingTaskwait
                  work := [.exitTaskwait] }) :=
            settles_modifyTask system inside (fun limited => limited)
              unblocked
          exact modified.of_eq rfl rfl rfl
        · cases disposed

section Calls

variable (within : Within tasks bound system)

include within

theorem settles_start
    (started : step system (.start task) = some next) :
    Settles tasks bound system next := by
  unfold step at started
  dsimp only at started
  split at started
  · rename_i ready
    cases started
    simp only [Bool.and_eq_true, beq_iff_eq] at ready
    have inside : task ∈ tasks :=
      within.mem_of_status (by rw [ready.1]; simp)
    refine settles_modifyTask system inside (fun limited => limited) ?_
    exact Task.lightens_of_work bound (fun _ => by rw [ready.1]; rfl) rfl rfl
      (le_refl _) (le_refl _) (le_refl _)
  · cases started

/-- A task that calls the runtime runs and has no loop in progress. -/
theorem calls (canCall : (system.task task).canCall = true) :
    task ∈ tasks ∧ (system.task task).status = .running ∧
      (system.task task).work = [] := by
  simp only [Task.canCall, Bool.and_eq_true, beq_iff_eq,
    List.isEmpty_iff] at canCall
  refine ⟨within.mem_of_status ?_, canCall.1.1, canCall.1.2⟩
  rw [canCall.1.1]
  simp

/-- The bottom map of a running task counts for the loop that is going to
enter the taskwait. -/
theorem lightens_enterTaskwait
    (canCall : (system.task task).canCall = true) {after : Task}
    {last : Work} (weightless : last.weightless = true)
    (work : after.work =
      [.enterTaskwait, .processDelayedOperations, last])
    (closed : after.status.isOpen = false)
    (objects : after.objects = (system.task task).objects)
    (bottomMap : after.subaccessBottomMap =
      (system.task task).subaccessBottomMap) :
    (system.task task).Lightens bound after := by
  obtain ⟨_, running, idle⟩ := calls within canCall
  obtain ⟨registration, creation, linking⟩ :=
    Work.loads_of_weightless bound (system.task task).subaccessBottomMap
      weightless
  refine ⟨?_, ?_, ?_, by rw [objects], by rw [objects], by rw [objects]⟩
  · unfold Task.registrationLoad
    rw [work]
    change 0 + (0 + (last.registrationLoad bound + 0)) ≤ _
    rw [registration]
    exact Nat.zero_le _
  · unfold Task.creationLoad
    rw [work, bottomMap, closed, idle, running]
    change (system.task task).subaccessBottomMap.weigh (fun _ => 1) +
        (0 + (last.creationLoad (system.task task).subaccessBottomMap + 0)) +
        0 ≤ 0 + (system.task task).subaccessBottomMap.weigh fun _ => 1
    omega
  · unfold Task.linkingLoad
    rw [work]
    change 0 + (0 + (last.linkingLoad + 0)) ≤ _
    rw [linking]
    exact Nat.zero_le _

theorem settles_enterTaskwait
    (entered : enterTaskwait system task = some next) :
    Settles tasks bound system next := by
  unfold enterTaskwait at entered
  dsimp only at entered
  split at entered
  · cases entered
  · rename_i canCall
    simp only [Bool.not_eq_true, Bool.not_eq_false'] at canCall
    split at entered
    · split at entered
      · cases entered
      · cases entered
        exact settles_of_lightens (.of_eq tasks bound rfl)
          (fun _ => Task.Lightens.refl bound _) rfl rfl
    · cases entered
      have waiting : (system.task task).Lightens bound
          { system.task task with
            status := .enteringTaskwait
            work :=
              [.enterTaskwait, .processDelayedOperations,
                .markAsBlocked] } :=
        lightens_enterTaskwait within canCall rfl rfl rfl rfl rfl
      exact settles_modifyTask system (calls within canCall).1
        (fun limited => limited) waiting

theorem settles_releaseAccessRegion {region : DataAccessRegion}
    (released : releaseAccessRegion system task region = some next) :
    Settles tasks bound system next := by
  unfold releaseAccessRegion at released
  split at released
  · rename_i canCall
    cases released
    obtain ⟨inside, _, idle⟩ := calls within canCall
    have weightless : ∀ loop ∈
        [Work.finalizeAccesses region, Work.processDelayedOperations],
        loop.weightless = true := by
      simp [Work.weightless]
    have releasing : (system.task task).Lightens bound
        { system.task task with
          work := [.finalizeAccesses region, .processDelayedOperations] } :=
      Task.lightens_of_loops bound weightless
        (List.append_nil (system.task task).work).symm rfl id rfl rfl
    exact settles_modifyTask system inside (fun limited => limited) releasing
  · cases released

theorem settles_markAsFinished
    (finished : markAsFinished system task = some next) :
    Settles tasks bound system next := by
  unfold markAsFinished at finished
  dsimp only at finished
  split at finished
  · cases finished
  · rename_i canCall
    simp only [Bool.not_eq_true, Bool.not_eq_false'] at canCall
    obtain ⟨inside, running, idle⟩ := calls within canCall
    split at finished
    · cases finished
      have waiting : (system.task task).Lightens bound
          { system.task task with
            status := .finishing
            work :=
              [.enterTaskwait, .processDelayedOperations,
                .completeWaitClause] } :=
        lightens_enterTaskwait within canCall rfl rfl rfl rfl rfl
      exact settles_modifyTask system inside (fun limited => limited) waiting
    · cases finished
      have ended : (system.task task).Lightens bound
          { system.task task with status := .finished } :=
        Task.lightens_of_work bound (fun _ => by rw [running]; rfl) rfl rfl
          (le_refl _) (le_refl _) (le_refl _)
      exact settles_modifyTask system inside (fun limited => limited) ended

theorem settles_unregisterTaskDataAccesses
    (unregistered : unregisterTaskDataAccesses system task = some next) :
    Settles tasks bound system next := by
  unfold unregisterTaskDataAccesses at unregistered
  dsimp only at unregistered
  split at unregistered
  · rename_i finished
    cases unregistered
    simp only [beq_iff_eq] at finished
    have inside : task ∈ tasks :=
      within.mem_of_status (by rw [finished]; simp)
    refine settles_modifyTask system inside (fun limited => limited) ?_
    refine ⟨Nat.zero_le _, ?_, Nat.zero_le _, le_refl _, le_refl _,
      le_refl _⟩
    unfold Task.creationLoad
    rw [finished]
    simp [Work.creationLoad, TaskStatus.isOpen, IntervalMap.weigh]
  · cases unregistered

end Calls

/-- A submission: the only action that adds to the load. -/
def submits : Action → Bool
  | .submit _ _ _ _ => true
  | _ => false

theorem settles_step (within : Within tasks bound system)
    (enrolled : Enrolled system) {action : Action}
    (noSubmit : submits action = false)
    (taken : step system action = some next) :
    Settles tasks bound system next := by
  cases action with
  | submit parent child declarations mustDelayRelease => cases noSubmit
  | start task => exact settles_start within taken
  | taskwait task => exact settles_enterTaskwait within taken
  | release task region => exact settles_releaseAccessRegion within taken
  | finish task => exact settles_markAsFinished within taken
  | unregister task => exact settles_unregisterTaskDataAccesses within taken
  | advance task => exact settles_advance within enrolled taken
  | bottomMapUpdate index =>
      exact ⟨follows_processBottomMapUpdate within taken,
        Or.inr (lowersAt_processBottomMapUpdate within taken)⟩
  | delayedOperation index =>
      exact ⟨follows_processUpdateOperation within taken,
        Or.inr (lowersAt_processUpdateOperation within taken)⟩
  | disposeOrUnblock index =>
      exact settles_disposeOrUnblockTask within taken

end System

end Nanos6
