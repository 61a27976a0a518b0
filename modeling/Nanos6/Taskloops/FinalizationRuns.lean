import Mathlib.Algebra.Order.BigOperators.Group.List
import Nanos6.Taskloops.FinalizationInvariant

/-!
# Runs to the end of a taskloop

The steps of the scheduler and of the collaborators keep the invariant.  In every
run without overflow a source is marked as finished once, when all its iterations
have been handed out, its dependencies are unregistered once, when its
collaborators have been disposed of, and it is not used after it has been freed.
-/

namespace Nanos6.Finalization

open Foundation

namespace Invariant

variable {config : Config} {state : State}

/-! ### The scheduler -/

/-- The scheduler goes on. -/
theorem schedules (invariant : Invariant config state)
    {scheduler : FIFOScheduler.State}
    (handles : ∀ call ∈ scheduler.calls, HandlesSources config call)
    (pending : ∀ source, config.isSource source = true →
      State.pending { state with scheduler := scheduler } source =
        state.pending source)
    (announced : ∀ source, config.isSource source = true →
      State.announced { state with scheduler := scheduler } source ≤
        (state.life.task source).removalBlockers)
    (delays : ∀ source, config.isSource source = true →
      0 < State.announced { state with scheduler := scheduler } source →
      (state.life.task source).mustDelayRelease = true)
    (complete : ∀ source, config.isSource source = true →
      0 < total (completes source) scheduler.calls + state.finishes source →
      (state.taskloopInfo source).remainingPartitions = 0) :
    Invariant config { state with scheduler := scheduler } := by
  constructor
  · exact invariant.inv
  · exact invariant.source
  · exact handles
  · intro source isSource
    rw [pending source isSource]
    exact invariant.pending source isSource
  · exact invariant.finishes
  · exact announced
  · exact delays
  · exact complete
  · exact invariant.splits
  · exact invariant.fresh
  · exact invariant.collaborates
  · exact invariant.working
  · exact invariant.notified

variable {scheduler : FIFOScheduler.State} {index : Nat}
  {call : FIFOScheduler.Call}

theorem handles_replaced (invariant : Invariant config state)
    {new : List FIFOScheduler.Call}
    (replaced : scheduler.calls =
      replaceAt state.scheduler.calls index new)
    (handles : ∀ other ∈ new, HandlesSources config other) :
    ∀ other ∈ scheduler.calls, HandlesSources config other := by
  intro other member
  rw [replaced] at member
  rcases mem_replaceAt member with isNew | old
  · exact handles other isNew
  · exact invariant.handles other old

/-- A call goes on; what it hands over it hands over as a whole. -/
theorem moves (invariant : Invariant config state)
    (new : List FIFOScheduler.Call)
    (found : state.scheduler.calls[index]? = some call)
    (replaced : scheduler.calls =
      replaceAt state.scheduler.calls index new)
    (handles : ∀ other ∈ new, HandlesSources config other)
    (carried : ∀ source, config.isSource source = true →
      scheduler.readyTasks.count source + total (carries source) new =
        state.scheduler.readyTasks.count source + carries source call)
    (announced : ∀ source, config.isSource source = true →
      total (announces source) new = announces source call)
    (completed : ∀ source, config.isSource source = true →
      total (completes source) new = completes source call) :
    Invariant config { state with scheduler := scheduler } := by
  have same : ∀ source, config.isSource source = true →
      State.announced { state with scheduler := scheduler } source =
        state.announced source := by
    intro source isSource
    have exchanged := total_replaceAt (announces source) new found
    have balance := announced source isSource
    have calls : total (announces source) scheduler.calls =
        total (announces source) state.scheduler.calls := by
      rw [replaced]
      omega
    unfold State.announced
    rw [calls]
    rfl
  apply invariant.schedules
  · exact invariant.handles_replaced replaced handles
  · intro source isSource
    have exchanged := total_replaceAt (carries source) new found
    have balance := carried source isSource
    unfold State.pending
    rw [replaced]
    dsimp only
    omega
  · intro source isSource
    rw [same source isSource]
    exact invariant.announced source isSource
  · intro source isSource
    rw [same source isSource]
    exact invariant.delays source isSource
  · intro source isSource some
    have exchanged := total_replaceAt (completes source) new found
    have balance := completed source isSource
    rw [replaced] at some
    exact invariant.complete source isSource (by omega)

/-- A call without taskloops. -/
theorem handles_of_plain (config : Config) {call : FIFOScheduler.Call}
    (nothing : ∀ task, completes task call = 0)
    (creates : ∀ cpu task, call ≠ .createCollaborator cpu task) :
    HandlesSources config call := by
  intro task handled
  rcases handled with completed | ⟨cpu, rfl⟩
  · rw [nothing task] at completed
    cases completed
  · exact absurd rfl (creates cpu task)

theorem count_push (policy : FIFOScheduler.Policy) (task source : TaskId)
    (queue : List TaskId) :
    (policy.push task queue).count source =
      queue.count source + [task].count source := by
  cases policy with
  | fifo => simp [FIFOScheduler.Policy.push]
  | naive =>
      simp only [FIFOScheduler.Policy.push, List.count_cons, List.count_nil]
      omega

theorem addReadyTask (invariant : Invariant config state)
    {task : TaskId} {hint : ReadyTaskHint} {doGetIdle answer : Bool}
    (found : state.scheduler.calls[index]? =
      some (.addReadyTask task hint doGetIdle))
    (performed : FIFOScheduler.perform config.scheduler state.scheduler index
      answer (.addReadyTask task hint doGetIdle) = some scheduler) :
    Invariant config { state with scheduler := scheduler } := by
  -- The task goes from the hands of the call into the queue of its hint.
  have queued : ∀ source,
      (state.scheduler.queueTask config.scheduler.policy task
        hint).readyTasks.count source =
      state.scheduler.readyTasks.count source +
        carries source (.addReadyTask task hint doGetIdle) := by
    intro source
    simp only [FIFOScheduler.State.queueTask, carries]
    by_cases unblocked : hint = .unblockedTask
    · simp [unblocked]
    · rw [if_neg unblocked, count_push, List.count_singleton]
      by_cases same : task = source
      · simp [same, unblocked]
      · simp [same]
  simp only [FIFOScheduler.perform] at performed
  repeat' split at performed
  · cases performed
  · cases performed
    apply invariant.moves
      [.getIdleCPU task (!state.scheduler.idleCPUs.isEmpty)] found rfl
    · intro other member
      cases List.mem_singleton.mp member
      exact handles_of_plain config (fun _ => rfl) fun _ _ => by simp
    · exact fun source _ => queued source
    · exact fun source _ => rfl
    · exact fun source _ => rfl
  · cases performed
    apply invariant.moves [] found rfl
    · intro other member
      cases member
    · exact fun source _ => queued source
    · exact fun source _ => rfl
    · exact fun source _ => rfl

/-- A call that has no source in its hands ends, or goes on without one. -/
theorem plain (invariant : Invariant config state)
    (new : List FIFOScheduler.Call)
    (found : state.scheduler.calls[index]? = some call)
    (replaced : scheduler.calls =
      replaceAt state.scheduler.calls index new)
    (queue : scheduler.readyTasks = state.scheduler.readyTasks)
    (before : ∀ source, carries source call = 0 ∧
      announces source call = 0 ∧ completes source call = 0)
    (after : ∀ other ∈ new, (∀ source, carries source other = 0 ∧
      announces source other = 0 ∧ completes source other = 0) ∧
      ∀ cpu task, other ≠ .createCollaborator cpu task) :
    Invariant config { state with scheduler := scheduler } := by
  have nothing : ∀ (amount : FIFOScheduler.Call → Nat),
      (∀ other ∈ new, amount other = 0) → total amount new = 0 := by
    intro amount zero
    rw [total, List.sum_eq_zero_iff_forall_eq_nat]
    intro value member
    obtain ⟨other, inside, rfl⟩ := List.mem_map.mp member
    exact zero other inside
  apply invariant.moves new found replaced
  · intro other member
    obtain ⟨zero, creates⟩ := after other member
    exact handles_of_plain config (fun task => (zero task).2.2) creates
  · intro source _
    rw [queue, (before source).1,
      nothing _ fun other member => ((after other member).1 source).1]
  · intro source _
    rw [(before source).2.1,
      nothing _ fun other member => ((after other member).1 source).2.1]
  · intro source _
    rw [(before source).2.2,
      nothing _ fun other member => ((after other member).1 source).2.2]

/-- The loop over the complete taskloops is over. -/
theorem afterTaskloops (invariant : Invariant config state) {cpu : CPU}
    {canMarkAsIdle shouldRecheck answer : Bool} {assigned : Option TaskId}
    {seen : Nat}
    (found : state.scheduler.calls[index]? =
      some (.finishTaskloops cpu canMarkAsIdle [] shouldRecheck assigned seen))
    (performed : FIFOScheduler.perform config.scheduler state.scheduler index
      answer (.finishTaskloops cpu canMarkAsIdle [] shouldRecheck assigned
        seen) = some scheduler) :
    Invariant config { state with scheduler := scheduler } := by
  cases performed
  cases assigned with
  | none =>
      refine invariant.plain
        (FIFOScheduler.afterTaskloops config.scheduler cpu canMarkAsIdle
          shouldRecheck none seen) found ?_ ?_ ?_ ?_
      · rfl
      · rfl
      · exact fun source => ⟨rfl, rfl, rfl⟩
      · intro other member
        simp only [FIFOScheduler.afterTaskloops] at member
        repeat' split at member
        · cases List.mem_singleton.mp member
          exact ⟨fun source => ⟨rfl, rfl, rfl⟩, by simp⟩
        · cases List.mem_singleton.mp member
          exact ⟨fun source => ⟨rfl, rfl, rfl⟩, by simp⟩
        · cases member
  | some task =>
      cases isTaskloop : config.scheduler.isTaskloop task with
      | false =>
          apply invariant.moves [] found
          · simp [FIFOScheduler.State.goesOn, FIFOScheduler.afterTaskloops,
              isTaskloop]
          · intro other member
            cases member
          · exact fun source _ => rfl
          · intro source isSource
            have different : task ≠ source := by
              rintro rfl
              rw [Config.isSource, isTaskloop] at isSource
              cases isSource
            simp [announces, different]
          · exact fun source _ => rfl
      | true =>
          apply invariant.moves [.createCollaborator cpu task] found
          · simp [FIFOScheduler.State.goesOn, FIFOScheduler.afterTaskloops,
              isTaskloop]
          · intro other member
            cases List.mem_singleton.mp member
            intro created handled
            rcases handled with completed | ⟨_, equal⟩
            · cases completed
            · cases equal
              exact isTaskloop
          · exact fun source _ => rfl
          · intro source _
            simp [announces]
          · exact fun source _ => rfl

/-! ### Sources in the queue -/

section Queue

variable {source : TaskId}

/-- A source in the queue, or in the hands of a call, is in its body. -/
theorem inBody (invariant : Invariant config state)
    (isSource : config.isSource source = true)
    (pending : 0 < state.pending source) :
    .body source ∈ state.life.activities := by
  rw [invariant.pending source isSource] at pending
  exact bodies_pos.mp pending

theorem pending_of_mem (member : source ∈ state.scheduler.readyTasks) :
    0 < state.pending source := by
  have counts := List.count_pos_iff.mpr member
  unfold State.pending
  omega

/-- The release of a source in its body is delayed. -/
theorem delays_of_inBody (invariant : Invariant config state)
    (isSource : config.isSource source = true)
    (inBody : .body source ∈ state.life.activities) :
    (state.life.task source).mustDelayRelease = true := by
  obtain ⟨here, -⟩ := invariant.inv.runs inBody
  rw [here.delays]
  exact (invariant.source source isSource).waits here.created

/-- Somebody looks at a task that has not been freed. -/
theorem uses (invariant : Invariant config state) (task : TaskId)
    (alive : (state.life.task task).isFreed = false) :
    Invariant config { state with life := state.life.uses task } := by
  apply invariant.lives (invariant.inv.uses alive)
  apply undisturbed_of_same invariant
  · exact fun source _ => SameSource.refl _
  · exact invariant.announced
  · exact fun source _ => rfl
  · exact fun activity member => Or.inl member
  · exact fun task _ => ⟨rfl, rfl⟩

/-- `notifyCollaboratorHasStarted`. -/
theorem notifyStarted (invariant : Invariant config state)
    (inBody : .body source ∈ state.life.activities) :
    Invariant config
      { state with
        life := (state.life.uses source).modifyTask source
          (Lifecycle.Task.increaseRemovalBlockers 1) } := by
  have taken : Lifecycle.step config.ndebug state.life
      (.increaseRemovalBlockers source) =
      some ((state.life.uses source).modifyTask source
        (Lifecycle.Task.increaseRemovalBlockers 1)) := by
    have blocks : state.life.activities.any
        (Lifecycle.Activity.mayBlockRemoval source) = true :=
      List.any_eq_true.mpr ⟨_, inBody, by
        simp [Lifecycle.Activity.mayBlockRemoval]⟩
    simp [Lifecycle.step, blocks]
  apply invariant.lives (invariant.inv.increaseRemovalBlockers taken)
  exact undisturbed_counters invariant (Or.inr (Or.inr (Or.inl rfl))) rfl taken

theorem count_rotate (rest : List TaskId) (task source : TaskId) :
    (rest ++ [task]).count source = (task :: rest).count source :=
  (List.perm_append_singleton task rest).count_eq source

/-- A source with iterations left is announced a collaborator. -/
theorem scan_pending (invariant : Invariant config state) {cpu : CPU}
    {canMarkAsIdle : Bool} {completeTaskloops rest : List TaskId}
    (isSource : config.isSource source = true)
    (queue : state.scheduler.readyTasks = source :: rest)
    (found : state.scheduler.calls[index]? =
      some (.scanReadyTasks cpu canMarkAsIdle completeTaskloops)) :
    Invariant config
      { state with
        life := (state.life.uses source).modifyTask source
          (Lifecycle.Task.increaseRemovalBlockers 1)
        scheduler := FIFOScheduler.scan config.scheduler state.scheduler index
          cpu canMarkAsIdle completeTaskloops true } := by
  have inBody := invariant.inBody isSource
    (pending_of_mem (by rw [queue]; exact List.mem_cons_self))
  have started := invariant.notifyStarted inBody
  have before := invariant.announced source isSource
  have handled := invariant.handles _ (List.mem_of_getElem? found)
  have isTaskloop : config.scheduler.isTaskloop source = true := isSource
  generalize scanned : FIFOScheduler.scan config.scheduler state.scheduler
    index cpu canMarkAsIdle completeTaskloops true = after
  simp only [FIFOScheduler.scan, queue, isTaskloop, Bool.not_true,
    Bool.false_eq_true, if_false, if_true] at scanned
  have replaced : after.calls = replaceAt state.scheduler.calls index
      [.finishTaskloops cpu canMarkAsIdle completeTaskloops false
        (some source) state.scheduler.queuedSoFar] := by
    rw [← scanned]
    rfl
  have ready : ∀ other, after.readyTasks.count other =
      state.scheduler.readyTasks.count other := by
    intro other
    rw [← scanned, queue]
    simp only [FIFOScheduler.State.goesOn, FIFOScheduler.State.setLock]
    split
    · exact count_rotate rest source other
    · rfl
  have announced : ∀ other, State.announced
      { state with
        life := (state.life.uses source).modifyTask source
          (Lifecycle.Task.increaseRemovalBlockers 1)
        scheduler := after } other =
      state.announced other + (if source = other then 1 else 0) := by
    intro other
    have exchanged := total_replaceAt (announces other)
      [.finishTaskloops cpu canMarkAsIdle completeTaskloops false
        (some source) state.scheduler.queuedSoFar] found
    have children : (((state.life.uses source).modifyTask source
        (Lifecycle.Task.increaseRemovalBlockers 1)).task other).children =
        (state.life.task other).children := by
      rw [Lifecycle.System.task_modifyTask]
      split
      · rename_i same
        rw [same]
        rfl
      · rfl
    unfold State.announced
    rw [children, replaced]
    simp only [total_singleton, announces, Option.some.injEq] at exchanged
    change _ + (state.life.task other).children.countP state.isCollaborating =
      _
    omega
  apply started.schedules
  · apply invariant.handles_replaced replaced
    intro other member
    cases List.mem_singleton.mp member
    intro task completed
    rcases completed with some | ⟨_, absurd⟩
    · exact handled task (Or.inl some)
    · cases absurd
  · intro other _
    have exchanged := total_replaceAt (carries other)
      [.finishTaskloops cpu canMarkAsIdle completeTaskloops false
        (some source) state.scheduler.queuedSoFar] found
    unfold State.pending
    rw [replaced]
    dsimp only
    rw [ready other]
    simp only [total_singleton, carries] at exchanged
    omega
  · intro other isOther
    rw [announced other]
    have own := invariant.announced other isOther
    rw [Lifecycle.System.task_modifyTask]
    split
    · rename_i same
      subst same
      rw [if_pos rfl]
      exact Nat.add_le_add_right own 1
    · rename_i different
      rw [if_neg (Ne.symm different)]
      exact own
  · intro other isOther some
    by_cases same : other = source
    · subst same
      have delays := invariant.delays_of_inBody isOther inBody
      rw [Lifecycle.System.task_modifyTask, if_pos rfl]
      exact delays
    · rw [announced other, if_neg (Ne.symm same), Nat.add_zero] at some
      rw [Lifecycle.System.task_modifyTask, if_neg same]
      exact invariant.delays other isOther some
  · intro other isOther positive
    have exchanged := total_replaceAt (completes other)
      [.finishTaskloops cpu canMarkAsIdle completeTaskloops false
        (some source) state.scheduler.queuedSoFar] found
    rw [replaced] at positive
    simp only [total_singleton, completes] at exchanged
    dsimp only at positive
    exact invariant.complete other isOther (by omega)

/-- A source without iterations is taken off the queue. -/
theorem scan_complete (invariant : Invariant config state) {cpu : CPU}
    {canMarkAsIdle : Bool} {completeTaskloops rest : List TaskId}
    (isSource : config.isSource source = true)
    (queue : state.scheduler.readyTasks = source :: rest)
    (nothing : (state.taskloopInfo source).hasPendingIterations = false)
    (found : state.scheduler.calls[index]? =
      some (.scanReadyTasks cpu canMarkAsIdle completeTaskloops)) :
    Invariant config
      { state with
        life := state.life.uses source
        scheduler := FIFOScheduler.scan config.scheduler state.scheduler index
          cpu canMarkAsIdle completeTaskloops false } := by
  have inBody := invariant.inBody isSource
    (pending_of_mem (by rw [queue]; exact List.mem_cons_self))
  obtain ⟨young, -⟩ := invariant.inv.runs inBody
  have used := invariant.uses source young.isFreed
  have handled := invariant.handles _ (List.mem_of_getElem? found)
  have isTaskloop : config.scheduler.isTaskloop source = true := isSource
  generalize scanned : FIFOScheduler.scan config.scheduler state.scheduler
    index cpu canMarkAsIdle completeTaskloops false = after
  simp only [FIFOScheduler.scan, queue, isTaskloop, Bool.not_true,
    Bool.false_eq_true, if_false] at scanned
  have replaced : after.calls = replaceAt state.scheduler.calls index
      [.scanReadyTasks cpu canMarkAsIdle (completeTaskloops ++ [source])] := by
    rw [← scanned]
    rfl
  have ready : after.readyTasks = rest := by
    rw [← scanned]
    rfl
  have announced : ∀ other, State.announced
      { state with life := state.life.uses source, scheduler := after } other =
      state.announced other := by
    intro other
    have exchanged := total_replaceAt (announces other)
      [.scanReadyTasks cpu canMarkAsIdle (completeTaskloops ++ [source])] found
    unfold State.announced
    rw [replaced]
    simp only [total_singleton, announces, Nat.add_zero] at exchanged
    rw [exchanged]
    rfl
  apply used.schedules
  · apply invariant.handles_replaced replaced
    intro other member
    cases List.mem_singleton.mp member
    intro task completed
    rcases completed with positive | ⟨_, absurd⟩
    · rw [completes, List.count_pos_iff, List.mem_append,
        List.mem_singleton] at positive
      rcases positive with old | rfl
      · exact handled task (Or.inl (List.count_pos_iff.mpr old))
      · exact isSource
    · cases absurd
  · intro other _
    have exchanged := total_replaceAt (carries other)
      [.scanReadyTasks cpu canMarkAsIdle (completeTaskloops ++ [source])] found
    unfold State.pending
    rw [replaced]
    dsimp only
    rw [ready, queue]
    simp only [total_singleton, carries, List.count_append] at exchanged
    rw [List.count_cons]
    rw [List.count_singleton] at exchanged
    omega
  · intro other isOther
    rw [announced other]
    exact invariant.announced other isOther
  · intro other isOther
    rw [announced other]
    exact invariant.delays other isOther
  · intro other isOther positive
    by_cases same : other = source
    · subst same
      simpa [Taskloop.Source.hasPendingIterations] using nothing
    · have exchanged := total_replaceAt (completes other)
        [.scanReadyTasks cpu canMarkAsIdle (completeTaskloops ++ [source])]
        found
      rw [replaced] at positive
      simp only [total_singleton, completes, List.count_append,
        List.count_singleton, beq_false_of_ne (Ne.symm same),
        Bool.false_eq_true, if_false, Nat.add_zero] at exchanged
      dsimp only at positive
      exact invariant.complete other isOther (by omega)

/-- A task that is not a taskloop is taken off the queue, or the queue is
empty. -/
theorem scan_plain (invariant : Invariant config state) {cpu : CPU}
    {canMarkAsIdle : Bool} {completeTaskloops : List TaskId}
    (plain : ∀ task ∈ state.scheduler.readyTasks.head?,
      config.isSource task = false)
    (found : state.scheduler.calls[index]? =
      some (.scanReadyTasks cpu canMarkAsIdle completeTaskloops)) :
    Invariant config
      { state with
        scheduler := FIFOScheduler.scan config.scheduler state.scheduler index
          cpu canMarkAsIdle completeTaskloops false } := by
  have handled := invariant.handles _ (List.mem_of_getElem? found)
  refine invariant.moves
    [.finishTaskloops cpu canMarkAsIdle completeTaskloops false
      state.scheduler.readyTasks.head? state.scheduler.queuedSoFar] found
    ?_ ?_ ?_ ?_ ?_
  · cases queue : state.scheduler.readyTasks with
    | nil =>
        simp only [FIFOScheduler.scan, queue]
        rfl
    | cons task rest =>
        have isPlain : config.scheduler.isTaskloop task = false :=
          plain task (by rw [queue]; rfl)
        simp only [FIFOScheduler.scan, queue, isPlain]
        rfl
  · intro other member
    cases List.mem_singleton.mp member
    intro task completed
    rcases completed with positive | ⟨_, absurd⟩
    · exact handled task (Or.inl positive)
    · cases absurd
  · intro other isOther
    rw [total_singleton]
    cases queue : state.scheduler.readyTasks with
    | nil =>
        simp only [FIFOScheduler.scan, queue]
        exact congrArg (· + _) (congrArg _ queue)
    | cons task rest =>
        have isPlain : config.scheduler.isTaskloop task = false :=
          plain task (by rw [queue]; rfl)
        have different : task ≠ other := by
          rintro rfl
          rw [Config.isSource, isPlain] at isOther
          cases isOther
        simp only [FIFOScheduler.scan, queue, isPlain, Bool.not_false,
          if_true]
        rw [List.count_cons_of_ne different]
        rfl
  · intro other isOther
    rw [total_singleton]
    refine if_neg fun first => ?_
    rw [plain other first] at isOther
    cases isOther
  · intro other _
    rfl

theorem total_completes_le (source : TaskId)
    (calls : List FIFOScheduler.Call) :
    total (completes source) calls ≤ total (carries source) calls := by
  unfold total
  refine List.sum_le_sum fun call _ => ?_
  cases call <;> simp [completes, carries]

/-- `markAsFinished` is called for a source that has been taken off. -/
theorem finishTaskloop (invariant : Invariant config state) {cpu : CPU}
    {canMarkAsIdle shouldRecheck : Bool} {rest : List TaskId}
    {assigned : Option TaskId} {seen : Nat} (answer : Bool) {next : State}
    (found : state.scheduler.calls[index]? =
      some (.finishTaskloops cpu canMarkAsIdle (source :: rest) shouldRecheck
        assigned seen))
    (finished : state.finish config.ndebug source = some next) :
    Invariant config
      { next with
        scheduler := state.scheduler.goesOn index
          [.finishTaskloops cpu canMarkAsIdle rest (shouldRecheck || answer)
            assigned seen] } := by
  have handled := invariant.handles _ (List.mem_of_getElem? found)
  have isSource : config.isSource source = true := by
    refine handled source (Or.inl ?_)
    simp [completes]
  have holds : 0 < total (completes source) state.scheduler.calls := by
    by_contra none
    have zero := eq_zero_of_total (Nat.eq_zero_of_not_pos none)
      (List.mem_of_getElem? found)
    simp [completes] at zero
  have remaining := invariant.complete source isSource (by omega)
  obtain ⟨life, taken, rfl⟩ := Option.map_eq_some_iff.mp finished
  have inv := invariant.inv.finish taken
  simp only [Lifecycle.step] at taken
  split at taken
  case h_2 => cases taken
  case h_1 task isBody =>
  -- The body at that place is the one that is looked for.
  have own : task = source := by
    have pending : 0 < state.pending source := by
      have carried : total (completes source) state.scheduler.calls ≤
          total (carries source) state.scheduler.calls :=
        total_completes_le source _
      unfold State.pending
      omega
    have inBody := invariant.inBody isSource pending
    rw [List.getElem?_idxOf inBody] at isBody
    cases isBody
    rfl
  subst own
  have lifeIs := (Option.some.inj taken).symm
  have tasks : life.task = state.life.task := by
    rw [lifeIs]
    rfl
  have activities : life.activities = replaceAt state.life.activities
      (state.life.activities.idxOf (.body task)) [.markAsFinished task] := by
    rw [lifeIs]
    rfl
  have exchange : ∀ amount : FIFOScheduler.Call → Nat,
      total amount (replaceAt state.scheduler.calls index
        [.finishTaskloops cpu canMarkAsIdle rest (shouldRecheck || answer)
          assigned seen]) +
        amount (.finishTaskloops cpu canMarkAsIdle (task :: rest)
          shouldRecheck assigned seen) =
      total amount state.scheduler.calls +
        amount (.finishTaskloops cpu canMarkAsIdle rest
          (shouldRecheck || answer) assigned seen) := by
    intro amount
    rw [total_replaceAt amount _ found, total_singleton]
  have bodiesOf : ∀ other, bodies life other +
      (if task = other then 1 else 0) = bodies state.life other := by
    intro other
    have counted := bodies_replaceAt other isBody activities
    rw [total_singleton] at counted
    by_cases same : task = other
    · simpa [same] using counted
    · simpa [same] using counted
  have announced : ∀ other, State.announced
      { state with
        life := life
        finishes :=
          Function.update state.finishes task (state.finishes task + 1)
        scheduler := state.scheduler.goesOn index
          [.finishTaskloops cpu canMarkAsIdle rest (shouldRecheck || answer)
            assigned seen] } other = state.announced other := by
    intro other
    have exchanged : total (announces other) (replaceAt state.scheduler.calls
        index [.finishTaskloops cpu canMarkAsIdle rest
          (shouldRecheck || answer) assigned seen]) =
        total (announces other) state.scheduler.calls :=
      Nat.add_right_cancel (exchange (announces other))
    unfold State.announced
    dsimp only [FIFOScheduler.State.goesOn]
    rw [tasks, exchanged]
    rfl
  constructor
  · exact inv
  · intro other isOther
    refine (invariant.source other isOther).congr ?_ ?_
    · dsimp only
      rw [tasks]
      exact SameSource.refl _
    · intro activity member
      dsimp only at member
      rw [activities] at member
      rcases mem_replaceAt member with new | old
      · cases List.mem_singleton.mp new
        exact Or.inr ⟨by simp, by simp⟩
      · exact Or.inl old
  · apply invariant.handles_replaced rfl
    intro other member
    cases List.mem_singleton.mp member
    intro created completed
    rcases completed with positive | ⟨_, absurd⟩
    · refine handled created (Or.inl ?_)
      rw [completes, List.count_pos_iff] at positive ⊢
      exact List.mem_cons_of_mem _ positive
    · cases absurd
  · intro other isOther
    have before := invariant.pending other isOther
    have after := bodiesOf other
    have exchanged := exchange (carries other)
    simp only [carries, List.count_cons] at exchanged
    unfold State.pending at before ⊢
    dsimp only [FIFOScheduler.State.goesOn]
    by_cases same : task = other
    · subst same
      simp only [beq_self_eq_true, if_true] at exchanged after
      omega
    · simp only [beq_false_of_ne same, same, Bool.false_eq_true, if_false]
        at exchanged after
      omega
  · intro other isOther
    have before := invariant.finishes other isOther
    have after := bodiesOf other
    dsimp only
    rw [tasks]
    by_cases same : task = other
    · subst same
      rw [Function.update_self]
      rw [if_pos rfl] at after
      omega
    · rw [Function.update_of_ne (Ne.symm same)]
      rw [if_neg same] at after
      omega
  · intro other isOther
    rw [announced other]
    dsimp only
    rw [tasks]
    exact invariant.announced other isOther
  · intro other isOther
    rw [announced other]
    dsimp only
    rw [tasks]
    exact invariant.delays other isOther
  · intro other isOther positive
    by_cases same : task = other
    · subst same
      exact remaining
    · have exchanged := exchange (completes other)
      simp only [completes, List.count_cons, beq_false_of_ne same,
        Bool.false_eq_true, if_false, Nat.add_zero] at exchanged
      dsimp only [FIFOScheduler.State.goesOn] at positive
      rw [Function.update_of_ne (Ne.symm same)] at positive
      exact invariant.complete other isOther (by omega)
  · dsimp only
    rw [tasks]
    exact invariant.splits
  · dsimp only
    rw [tasks]
    exact invariant.fresh
  · dsimp only
    rw [tasks]
    exact invariant.collaborates
  · intro other works
    obtain ⟨unfinished, outside⟩ := invariant.working other works
    dsimp only
    rw [tasks, activities]
    refine ⟨unfinished, fun inside => ?_⟩
    rcases mem_replaceAt inside with new | old
    · cases List.mem_singleton.mp new
      obtain ⟨collaboration, here, -⟩ := isCollaborating_iff.mp works
      rw [(invariant.collaborates task collaboration here).1] at isSource
      cases isSource
    · exact outside old
  · exact invariant.notified

end Queue

/-! ### Calls of the scheduler -/

/-- A call starts that has no source in its hands. -/
theorem startsCall (invariant : Invariant config state)
    (new : FIFOScheduler.Call)
    (plain : ∀ source, config.isSource source = true →
      carries source new = 0 ∧ announces source new = 0)
    (nothing : ∀ source, completes source new = 0)
    (creates : ∀ cpu task, new ≠ .createCollaborator cpu task) :
    Invariant config
      { state with
        scheduler :=
          { state.scheduler with calls := state.scheduler.calls ++ [new] } } := by
  have announced : ∀ source, config.isSource source = true →
      State.announced
        { state with
          scheduler :=
            { state.scheduler with calls := state.scheduler.calls ++ [new] } }
        source = state.announced source := by
    intro source isSource
    unfold State.announced
    dsimp only
    rw [total_append, total_singleton, (plain source isSource).2, Nat.add_zero]
    rfl
  apply invariant.schedules
  · intro call member
    rcases List.mem_append.mp member with old | added
    · exact invariant.handles call old
    · cases List.mem_singleton.mp added
      exact handles_of_plain config nothing creates
  · intro source isSource
    unfold State.pending
    dsimp only
    rw [total_append, total_singleton, (plain source isSource).1, Nat.add_zero]
  · intro source isSource
    rw [announced source isSource]
    exact invariant.announced source isSource
  · intro source isSource
    rw [announced source isSource]
    exact invariant.delays source isSource
  · intro source isSource positive
    rw [total_append, total_singleton, nothing, Nat.add_zero] at positive
    exact invariant.complete source isSource positive

/-- A source becomes ready. -/
theorem addSource (invariant : Invariant config state) {source : TaskId}
    {hint : ReadyTaskHint} (doGetIdle : Bool) {life : Lifecycle.System}
    (isSource : config.isSource source = true)
    (ready : hint ≠ .unblockedTask)
    (taken : Lifecycle.step config.ndebug state.life (.start source) =
      some life) :
    Invariant config
      { state with
        life := life
        scheduler :=
          { state.scheduler with
            calls := state.scheduler.calls ++
              [.addReadyTask source hint doGetIdle] } } := by
  have inv := invariant.inv.start taken
  simp only [Lifecycle.step] at taken
  split at taken
  case isFalse => cases taken
  case isTrue unstarted =>
  simp only [Bool.and_eq_true, Bool.not_eq_true'] at unstarted
  have lifeIs := (Option.some.inj taken).symm
  have activities : life.activities =
      state.life.activities ++ [.body source] := by
    rw [lifeIs]
    rfl
  have tasks : ∀ other, life.task other =
      { state.life.task other with
        isStarted := (state.life.task other).isStarted ||
          decide (other = source) } := by
    intro other
    rw [lifeIs, Lifecycle.System.task_starts,
      Lifecycle.System.task_modifyTask]
    split
    · rename_i same
      subst same
      simp
    · rename_i different
      simp [different]
  have bodiesOf : ∀ other, bodies life other =
      bodies state.life other + (decide (other = source)).toNat := by
    intro other
    unfold bodies
    rw [activities, total_append, total_singleton]
    by_cases same : other = source
    · simp [same]
    · simp [same, Ne.symm same]
  have announced : ∀ other, State.announced
      { state with
        life := life
        scheduler :=
          { state.scheduler with
            calls := state.scheduler.calls ++
              [.addReadyTask source hint doGetIdle] } } other =
      state.announced other := by
    intro other
    unfold State.announced
    dsimp only
    rw [total_append, total_singleton, tasks]
    rfl
  constructor
  · exact inv
  · intro other isOther
    have lives := invariant.source other isOther
    refine ⟨?_, ?_, ?_, ?_⟩
    · dsimp only
      rw [tasks]
      exact lives.waits
    · dsimp only
      rw [tasks]
      intro absent
      have different : other ≠ source := by
        rintro rfl
        have created := unstarted.1
        rw [created] at absent
        cases absent
      simp [lives.unstarted absent, different]
    · intro activity member
      dsimp only at member
      rw [activities] at member
      rcases List.mem_append.mp member with old | new
      · exact lives.quiet activity old
      · cases List.mem_singleton.mp new
        exact ⟨by simp, by simp⟩
    · dsimp only
      rw [tasks]
      exact lives.blocks
  · intro call member
    rcases List.mem_append.mp member with old | added
    · exact invariant.handles call old
    · cases List.mem_singleton.mp added
      exact handles_of_plain config (fun _ => rfl) fun _ _ => by simp
  · intro other isOther
    have before := invariant.pending other isOther
    unfold State.pending at before ⊢
    dsimp only
    rw [total_append, total_singleton, bodiesOf]
    by_cases same : other = source
    · simp only [carries, same, ready, ne_eq, not_false_eq_true, and_self,
        if_true, decide_true, Bool.toNat_true]
      subst same
      omega
    · simp only [carries, same, Ne.symm same, false_and, if_false,
        decide_false, Bool.toNat_false]
      omega
  · intro other isOther
    have before := invariant.finishes other isOther
    dsimp only
    rw [bodiesOf, tasks]
    by_cases same : other = source
    · subst same
      rw [unstarted.2] at before
      simp only [unstarted.2, decide_true, Bool.false_or, Bool.toNat_true]
      simp only [Bool.toNat_false] at before
      omega
    · simp only [same, decide_false, Bool.or_false, Bool.toNat_false]
      omega
  · intro other isOther
    rw [announced other]
    dsimp only
    rw [tasks]
    exact invariant.announced other isOther
  · intro other isOther
    rw [announced other]
    dsimp only
    rw [tasks]
    exact invariant.delays other isOther
  · intro other isOther positive
    dsimp only at positive
    rw [total_append, total_singleton] at positive
    exact invariant.complete other isOther positive
  · intro other isOther
    dsimp only
    rw [tasks]
    exact invariant.splits other isOther
  · intro other isOther
    dsimp only
    rw [tasks]
    exact invariant.fresh other isOther
  · intro task collaboration here
    dsimp only
    rw [tasks]
    exact invariant.collaborates task collaboration here
  · intro task works
    obtain ⟨unfinished, outside⟩ := invariant.working task works
    dsimp only
    rw [tasks, activities]
    refine ⟨unfinished, fun inside => ?_⟩
    rcases List.mem_append.mp inside with old | new
    · exact outside old
    · cases List.mem_singleton.mp new
  · exact invariant.notified

/-! ### Collaborators -/

section Collaborators

variable {source collaborator : TaskId}

/-- A source that has announced a collaborator can be given one. -/
theorem stands_addChild (invariant : Invariant config state)
    (isSource : config.isSource source = true)
    (announced : 0 < state.announced source) (child : TaskId) :
    (state.life.task source).isCreated = true ∧
      (state.life.task source).isFreed = false ∧
      Lifecycle.Stands (state.life.drivers source) source
        (state.life.undisposed source + 1)
        ((state.life.task source).addChild child) := by
  have blockers : 0 < (state.life.task source).removalBlockers :=
    lt_of_lt_of_le announced (invariant.announced source isSource)
  have delays := invariant.delays source isSource announced
  have created : (state.life.task source).isCreated = true := by
    by_contra absent
    have none := (invariant.inv.pristine source
      (Bool.eq_false_iff.mpr absent)).2.blockers
    omega
  obtain ⟨stage, here, situation⟩ := invariant.inv.stands source created
  have early : stage.isPastWait = false := by
    have delayed := here.delays
    rw [delays] at delayed
    cases stage with
    | young => rfl
    | delayed => rfl
    | _ => cases delayed
  have alive : (state.life.task source).isFreed = false := by
    rw [here.isFreed]
    cases stage with
    | freed => cases early
    | _ => rfl
  -- With a removal blocker the countdown is not over, before and after.
  have isOver : (state.life.task source).isOver
      (state.life.undisposed source) = false := by
    rw [Bool.eq_false_iff]
    intro isOver
    have none := (Lifecycle.Inv.isOver_iff.mp isOver).2
    omega
  have still : ((state.life.task source).addChild child).isOver
      (state.life.undisposed source + 1) = false := by
    rw [Bool.eq_false_iff]
    intro isOver
    have none := (Lifecycle.Inv.isOver_iff.mp isOver).1
    omega
  refine ⟨created, alive, stage, here.addChild early child, ?_⟩
  rw [still]
  rw [isOver] at situation
  exact situation

/-- `createCollaborator`. -/
theorem createCollaborator (invariant : Invariant config state)
    {cpu virtualCPU : CPU} {path : List Nat}
    (found : state.scheduler.calls[index]? =
      some (.createCollaborator cpu source))
    (computed : Taskloop.getPartitionPath config.useDistributionFunction
      (state.taskloopInfo source).partitions.length virtualCPU = some path)
    (absent : (state.life.task collaborator).isCreated = false)
    (differ : collaborator ≠ source)
    (plain : config.isSource collaborator = false) :
    Invariant config
      (state.createCollaborator index source collaborator path) := by
  have isSource : config.isSource source = true :=
    invariant.handles _ (List.mem_of_getElem? found) source
      (Or.inr ⟨cpu, rfl⟩)
  have announced : 0 < state.announced source := by
    have counts : 0 < total (announces source) state.scheduler.calls := by
      by_contra none
      have zero := eq_zero_of_total (Nat.eq_zero_of_not_pos none)
        (List.mem_of_getElem? found)
      simp [announces] at zero
    unfold State.announced
    omega
  obtain ⟨created, alive, stands⟩ := invariant.stands_addChild isSource
    announced collaborator
  obtain ⟨undriven, pristine⟩ := invariant.inv.pristine collaborator absent
  generalize nextIs : state.createCollaborator index source collaborator path =
    next
  have inv : Lifecycle.Inv next.life := by
    rw [← nextIs]
    exact invariant.inv.adopts rfl absent differ created alive stands
  have childTask : next.life.task collaborator =
      { parent := some source, isCreated := true } := by
    rw [← nextIs]
    exact Function.update_self ..
  have sourceTask : next.life.task source =
      (state.life.task source).addChild collaborator := by
    rw [← nextIs]
    exact (Function.update_of_ne differ.symm _ _).trans
      (Function.update_self ..)
  have otherTask : ∀ other, other ≠ collaborator → other ≠ source →
      next.life.task other = state.life.task other := by
    intro other notChild notSource
    rw [← nextIs]
    exact (Function.update_of_ne notChild _ _).trans
      (Function.update_of_ne notSource _ _)
  have activities : next.life.activities = state.life.activities := by
    rw [← nextIs]
    rfl
  have calls : next.scheduler.calls =
      replaceAt state.scheduler.calls index [] := by
    rw [← nextIs]
    rfl
  have queue : next.scheduler.readyTasks = state.scheduler.readyTasks := by
    rw [← nextIs]
    rfl
  have finishes : next.finishes = state.finishes := by
    rw [← nextIs]
    rfl
  have infoSource : next.taskloopInfo source =
      { state.taskloopInfo source with
        collaborators := (state.taskloopInfo source).collaborators ++
          [.requests path] } := by
    rw [← nextIs]
    exact Function.update_self ..
  have infoOther : ∀ other, other ≠ source →
      next.taskloopInfo other = state.taskloopInfo other := by
    intro other different
    rw [← nextIs]
    exact Function.update_of_ne different _ _
  have remaining : ∀ other,
      (next.taskloopInfo other).remainingPartitions =
        (state.taskloopInfo other).remainingPartitions := by
    intro other
    by_cases same : other = source
    · rw [same, infoSource]
    · rw [infoOther other same]
  have own : next.collaborations collaborator =
      some { source := source
             index := (state.taskloopInfo source).collaborators.length } := by
    rw [← nextIs]
    exact Function.update_self ..
  have others : ∀ other, other ≠ collaborator →
      next.collaborations other = state.collaborations other := by
    intro other different
    rw [← nextIs]
    exact Function.update_of_ne different _ _
  have notMember : ∀ other, collaborator ∉
      (state.life.task other).children := by
    intro other member
    have orphan := pristine.parent
    rw [(invariant.inv.mem_children collaborator other).mp member] at orphan
    cases orphan
  have sourceOf : ∀ other, config.isSource other = true →
      other ≠ collaborator := by
    rintro other isOther rfl
    rw [plain] at isOther
    cases isOther
  have collaborating : next.isCollaborating collaborator = true :=
    isCollaborating_iff.mpr ⟨_, own, rfl⟩
  have counted : ∀ other, (state.life.task other).children.countP
      next.isCollaborating =
        (state.life.task other).children.countP state.isCollaborating := by
    intro other
    refine List.countP_congr fun child member => ?_
    have different : child ≠ collaborator := by
      rintro rfl
      exact notMember other member
    rw [State.isCollaborating, others child different]
    rfl
  -- The announcement in the hands of the call becomes a child.
  have sameAnnounced : ∀ other, config.isSource other = true →
      next.announced other = state.announced other := by
    intro other isOther
    have exchanged := total_replaceAt (announces other) [] found
    unfold State.announced
    rw [calls]
    by_cases same : other = source
    · subst same
      rw [sourceTask, Lifecycle.Task.addChild, List.countP_append, counted]
      simp only [total_nil, announces, if_true, Nat.add_zero] at exchanged
      simp only [List.countP_singleton, collaborating, if_true]
      omega
    · rw [otherTask other (sourceOf other isOther) same, counted]
      simp only [total_nil, announces, if_neg (Ne.symm same), Nat.add_zero]
        at exchanged
      omega
  have kept : ∀ other, other ≠ collaborator → ∃ children countdown,
      next.life.task other =
        { state.life.task other with
          children := children
          countdownToBeWokenUp := countdown } := by
    intro other notChild
    by_cases same : other = source
    · rw [same, sourceTask]
      exact ⟨_, _, rfl⟩
    · rw [otherTask other notChild same]
      exact ⟨_, _, rfl⟩
  constructor
  · exact inv
  · intro other isOther
    have lives := invariant.source other isOther
    obtain ⟨children, countdown, equal⟩ := kept other (sourceOf other isOther)
    constructor
    · rw [equal]
      exact lives.waits
    · rw [equal]
      exact lives.unstarted
    · rw [activities]
      exact lives.quiet
    · rw [equal]
      exact lives.blocks
  · apply invariant.handles_replaced calls
    intro other member
    cases member
  · intro other isOther
    have before := invariant.pending other isOther
    have exchanged := total_replaceAt (carries other) [] found
    unfold State.pending bodies at before ⊢
    rw [calls, queue, activities]
    simp only [total_nil, carries, Nat.add_zero] at exchanged
    omega
  · intro other isOther
    obtain ⟨children, countdown, equal⟩ := kept other (sourceOf other isOther)
    unfold bodies
    rw [finishes, activities, equal]
    exact invariant.finishes other isOther
  · intro other isOther
    obtain ⟨children, countdown, equal⟩ := kept other (sourceOf other isOther)
    rw [sameAnnounced other isOther, equal]
    exact invariant.announced other isOther
  · intro other isOther
    obtain ⟨children, countdown, equal⟩ := kept other (sourceOf other isOther)
    rw [sameAnnounced other isOther, equal]
    exact invariant.delays other isOther
  · intro other isOther positive
    have exchanged := total_replaceAt (completes other) [] found
    simp only [total_nil, completes, Nat.add_zero] at exchanged
    rw [calls, finishes] at positive
    rw [remaining]
    exact invariant.complete other isOther (by omega)
  · intro other isOther isCreated
    obtain ⟨children, countdown, equal⟩ := kept other (sourceOf other isOther)
    rw [equal] at isCreated
    have splits := invariant.splits other isOther isCreated
    by_cases same : other = source
    · subst same
      rw [infoSource]
      exact ⟨splits.fits,
        splits.runs.create config.partitions.2 computed⟩
    · rw [infoOther other same]
      exact splits
  · intro other isOther uncreated
    obtain ⟨children, countdown, equal⟩ := kept other (sourceOf other isOther)
    rw [equal] at uncreated
    have different : other ≠ source := by
      rintro rfl
      rw [created] at uncreated
      cases uncreated
    rw [infoOther other different]
    exact invariant.fresh other isOther uncreated
  · intro task collaboration here
    by_cases same : task = collaborator
    · subst same
      rw [own] at here
      cases here
      rw [childTask]
      exact ⟨plain, isSource, rfl⟩
    · obtain ⟨children, countdown, equal⟩ := kept task same
      rw [others task same] at here
      rw [equal]
      exact invariant.collaborates task collaboration here
  · intro task works
    rw [activities]
    by_cases same : task = collaborator
    · subst same
      rw [childTask]
      refine ⟨rfl, fun inside => ?_⟩
      have drives : .markAsFinished task ∈ state.life.drivers task :=
        List.mem_filter.mpr ⟨inside,
          drives_self task (.markAsFinished task) rfl rfl⟩
      rw [undriven] at drives
      cases drives
    · obtain ⟨children, countdown, equal⟩ := kept task same
      rw [equal]
      rw [State.isCollaborating, others task same] at works
      exact invariant.working task works
  · intro task collaboration here hasNotified
    by_cases same : task = collaborator
    · subst same
      rw [own] at here
      cases here
      cases hasNotified
    · rw [others task same] at here
      have returned := invariant.notified task collaboration here hasNotified
      by_cases ofSource : collaboration.source = source
      · rw [ofSource, infoSource]
        rw [ofSource] at returned
        obtain ⟨inside, -⟩ := List.getElem?_eq_some_iff.mp returned
        exact (List.getElem?_append_left inside).trans returned
      · rw [infoOther _ ofSource]
        exact returned

/-- A collaborator in its body is a child that has not been disposed of. -/
theorem undisposed_pos (invariant : Invariant config state)
    {collaboration : Collaboration}
    (here : state.collaborations collaborator = some collaboration)
    (inBody : .body collaborator ∈ state.life.activities) :
    0 < state.life.undisposed collaboration.source := by
  obtain ⟨young, -⟩ := invariant.inv.runs inBody
  have parent := (invariant.collaborates collaborator collaboration here).2.2
  refine List.countP_pos_iff.mpr ⟨collaborator,
    (invariant.inv.mem_children collaborator _).mpr parent, ?_⟩
  rw [young.unlinked]
  rfl

/-- The source of a collaborator in its body has not been freed. -/
theorem source_alive (invariant : Invariant config state)
    {collaboration : Collaboration}
    (here : state.collaborations collaborator = some collaboration)
    (inBody : .body collaborator ∈ state.life.activities) :
    (state.life.task collaboration.source).isCreated = true ∧
      (state.life.task collaboration.source).isFreed = false := by
  have positive := invariant.undisposed_pos here inBody
  have parent := (invariant.collaborates collaborator collaboration here).2.2
  have created := invariant.inv.created_of_member
    ((invariant.inv.mem_children collaborator _).mpr parent)
  refine ⟨created, ?_⟩
  obtain ⟨stage, there, -⟩ := invariant.inv.stands _ created
  by_contra freed
  have frees : (state.life.task collaboration.source).frees = 1 := by
    rw [Bool.not_eq_false, there.isFreed] at freed
    rw [there.frees, freed]
    rfl
  have childless := ((Lifecycle.livesProperly_of_inv invariant.inv
    collaboration.source).frees frees).2.1
  rw [← Lifecycle.System.undisposed_eq_zero] at childless
  omega

/-- The iterations of a source go on. -/
theorem informs (invariant : Invariant config state)
    {info : Taskloop.Source}
    (created : (state.life.task source).isCreated = true)
    (splits : Splits config source info)
    (fewer : info.remainingPartitions ≤
      (state.taskloopInfo source).remainingPartitions)
    (returned : ∀ place : Nat,
      (state.taskloopInfo source).collaborators[place]? = some .returned →
      info.collaborators[place]? = some .returned) :
    Invariant config
      { state with
        taskloopInfo := Function.update state.taskloopInfo source info } := by
  constructor
  · exact invariant.inv
  · exact invariant.source
  · exact invariant.handles
  · exact invariant.pending
  · exact invariant.finishes
  · exact invariant.announced
  · exact invariant.delays
  · intro other isOther positive
    have nothing := invariant.complete other isOther positive
    dsimp only
    by_cases same : other = source
    · subst same
      rw [Function.update_self]
      omega
    · rw [Function.update_of_ne same]
      exact nothing
  · intro other isOther isCreated
    dsimp only
    by_cases same : other = source
    · subst same
      rw [Function.update_self]
      exact splits
    · rw [Function.update_of_ne same]
      exact invariant.splits other isOther isCreated
  · intro other isOther uncreated
    have different : other ≠ source := by
      rintro rfl
      rw [created] at uncreated
      cases uncreated
    dsimp only
    rw [Function.update_of_ne different]
    exact invariant.fresh other isOther uncreated
  · exact invariant.collaborates
  · exact invariant.working
  · intro task collaboration here hasNotified
    have before := invariant.notified task collaboration here hasNotified
    dsimp only
    by_cases same : collaboration.source = source
    · rw [same, Function.update_self]
      rw [same] at before
      exact returned _ before
    · rw [Function.update_of_ne same]
      exact before

/-- A step of `run`. -/
theorem run (invariant : Invariant config state)
    {collaboration : Collaboration} {info : Taskloop.Source}
    (here : state.collaborations collaborator = some collaboration)
    (inBody : .body collaborator ∈ state.life.activities)
    (permitted : Taskloop.Permitted (state.taskloopInfo collaboration.source)
      (.perform collaboration.index))
    (taken : Taskloop.step config.useDistributionFunction
      (state.taskloopInfo collaboration.source)
      (.perform collaboration.index) = some info) :
    Invariant config
      { state with
        life := state.life.uses collaboration.source
        taskloopInfo :=
          Function.update state.taskloopInfo collaboration.source info } := by
  have isSource := (invariant.collaborates collaborator collaboration
    here).2.1
  obtain ⟨created, alive⟩ := invariant.source_alive here inBody
  have splits := invariant.splits collaboration.source isSource created
  obtain ⟨place, found, performed⟩ := Option.bind_eq_some_iff.mp taken
  obtain ⟨normal, small, -⟩ := Taskloop.Bounds.isNormal_setChunksize
    (config.normalized collaboration.source) config.partitionCount
  refine (invariant.uses collaboration.source alive).informs created ?_ ?_ ?_
  · exact ⟨splits.fits, splits.runs.step normal small splits.fits
      config.partitions permitted taken⟩
  · exact splits.runs.invariant.remaining_perform found performed
  · exact fun other returned =>
      Taskloop.returned_perform found performed returned

/-- A collaborator that notifies is not announced any more. -/
theorem announced_notify (invariant : Invariant config state)
    {collaboration : Collaboration}
    (here : state.collaborations collaborator = some collaboration)
    (busy : collaboration.hasNotified = false) (other : TaskId) :
    (state.notify collaborator collaboration).announced other +
        (if collaboration.source = other then 1 else 0) =
      state.announced other := by
  have parent := (invariant.collaborates collaborator collaboration here).2.2
  have children : ((state.notify collaborator collaboration).life.task
      other).children = (state.life.task other).children := by
    change ((state.life.modifyTask collaboration.source
      Lifecycle.Task.decreaseRemovalBlockers).task other).children = _
    rw [Lifecycle.System.task_modifyTask]
    split
    · rename_i same
      rw [same]
      rfl
    · rfl
  have others : ∀ task, task ≠ collaborator →
      (state.notify collaborator collaboration).isCollaborating task =
        state.isCollaborating task := by
    intro task different
    unfold State.isCollaborating State.notify
    dsimp only
    rw [Function.update_of_ne different]
  have before : state.isCollaborating collaborator = true :=
    isCollaborating_iff.mpr ⟨collaboration, here, busy⟩
  have after : (state.notify collaborator collaboration).isCollaborating
      collaborator = false := by
    unfold State.isCollaborating State.notify
    dsimp only
    rw [Function.update_self]
    rfl
  unfold State.announced
  rw [children]
  by_cases same : collaboration.source = other
  · subst same
    have exchanged := countP_exchange state.isCollaborating
      (state.notify collaborator collaboration).isCollaborating
      (invariant.inv.nodup collaboration.source)
      ((invariant.inv.mem_children collaborator _).mpr parent) others
    rw [before, after, Bool.toNat_true, Bool.toNat_false] at exchanged
    rw [if_pos rfl]
    change total _ state.scheduler.calls + _ + 1 = _
    omega
  · have counted : (state.life.task other).children.countP
        (state.notify collaborator collaboration).isCollaborating =
        (state.life.task other).children.countP state.isCollaborating := by
      refine List.countP_congr fun child member => ?_
      rw [others child]
      rintro rfl
      rw [(invariant.inv.mem_children child other).mp member] at parent
      exact same (Option.some.inj parent).symm
    rw [counted, if_neg same]
    rfl

/-- `notifyCollaboratorHasFinished` can ignore the result of the decrement: the
collaborator itself is a child of the source. -/
theorem inv_notify (invariant : Invariant config state)
    {collaboration : Collaboration}
    (here : state.collaborations collaborator = some collaboration)
    (busy : collaboration.hasNotified = false)
    (inBody : .body collaborator ∈ state.life.activities) :
    Lifecycle.Inv (state.notify collaborator collaboration).life := by
  have isSource := (invariant.collaborates collaborator collaboration
    here).2.1
  obtain ⟨created, -⟩ := invariant.source_alive here inBody
  have undisposed := invariant.undisposed_pos here inBody
  have announced := invariant.announced_notify here busy collaboration.source
  rw [if_pos rfl] at announced
  have bounded := invariant.announced collaboration.source isSource
  obtain ⟨stage, there, -⟩ := invariant.inv.stands collaboration.source created
  have countdown := there.countdown
  have positive : 0 <
      (state.life.task collaboration.source).removalBlockers := by
    omega
  have taken : Lifecycle.step config.ndebug state.life
      (.decreaseRemovalBlockers collaboration.source true) =
      some (state.notify collaborator collaboration).life := by
    simp only [Lifecycle.step, if_pos positive]
    rw [if_neg]
    · rfl
    · rw [Lifecycle.System.task_modifyTask, if_pos rfl]
      simp only [Lifecycle.Task.decreaseRemovalBlockers,
        Lifecycle.System.task_uses, beq_iff_eq]
      omega
  refine invariant.inv.decreaseRemovalBlockers ?_ taken
  intro caller _
  omega

theorem notify (invariant : Invariant config state)
    {collaboration : Collaboration}
    (here : state.collaborations collaborator = some collaboration)
    (inBody : .body collaborator ∈ state.life.activities)
    (busy : collaboration.hasNotified = false)
    (returned : (state.taskloopInfo
      collaboration.source).collaborators[collaboration.index]? =
      some .returned) :
    Invariant config (state.notify collaborator collaboration) := by
  have announced := invariant.announced_notify here busy
  have tasks : ∀ other, ∃ countdown blockers,
      (state.notify collaborator collaboration).life.task other =
        { state.life.task other with
          countdownToBeWokenUp := countdown
          removalBlockers := blockers } ∧
      blockers + (if collaboration.source = other then 1 else 0) ≥
        (state.life.task other).removalBlockers := by
    intro other
    by_cases same : other = collaboration.source
    · subst same
      refine ⟨_, _, Function.update_self .., ?_⟩
      rw [if_pos rfl]
      change (state.life.task collaboration.source).removalBlockers - 1 + 1 ≥ _
      omega
    · refine ⟨_, _, Function.update_of_ne same _ _, ?_⟩
      exact Nat.le_add_right _ _
  have own : (state.notify collaborator collaboration).collaborations
      collaborator = some { collaboration with hasNotified := true } :=
    Function.update_self ..
  have others : ∀ task, task ≠ collaborator →
      (state.notify collaborator collaboration).collaborations task =
        state.collaborations task :=
    fun task different => Function.update_of_ne different _ _
  constructor
  · exact invariant.inv_notify here busy inBody
  · intro other isOther
    have lives := invariant.source other isOther
    obtain ⟨countdown, blockers, equal, -⟩ := tasks other
    refine ⟨?_, ?_, lives.quiet, ?_⟩
    · rw [equal]
      exact lives.waits
    · rw [equal]
      exact lives.unstarted
    · rw [equal]
      exact lives.blocks
  · exact invariant.handles
  · exact invariant.pending
  · intro other isOther
    obtain ⟨countdown, blockers, equal, -⟩ := tasks other
    rw [equal]
    exact invariant.finishes other isOther
  · intro other isOther
    obtain ⟨countdown, blockers, equal, enough⟩ := tasks other
    have before := invariant.announced other isOther
    have fewer := announced other
    rw [equal]
    dsimp only
    split at enough
    · rename_i same
      rw [if_pos same] at fewer
      omega
    · rename_i different
      rw [if_neg different] at fewer
      omega
  · intro other isOther some
    obtain ⟨countdown, blockers, equal, -⟩ := tasks other
    have fewer := announced other
    rw [equal]
    exact invariant.delays other isOther (by omega)
  · exact invariant.complete
  · intro other isOther isCreated
    obtain ⟨countdown, blockers, equal, -⟩ := tasks other
    rw [equal] at isCreated
    exact invariant.splits other isOther isCreated
  · intro other isOther uncreated
    obtain ⟨countdown, blockers, equal, -⟩ := tasks other
    rw [equal] at uncreated
    exact invariant.fresh other isOther uncreated
  · intro task current there
    obtain ⟨countdown, blockers, equal, -⟩ := tasks task
    rw [equal]
    by_cases same : task = collaborator
    · subst same
      rw [own] at there
      cases there
      exact invariant.collaborates task collaboration here
    · rw [others task same] at there
      exact invariant.collaborates task current there
  · intro task works
    obtain ⟨countdown, blockers, equal, -⟩ := tasks task
    rw [equal]
    obtain ⟨current, there, works⟩ := isCollaborating_iff.mp works
    by_cases same : task = collaborator
    · subst same
      rw [own] at there
      cases there
      cases works
    · rw [others task same] at there
      exact invariant.working task
        (isCollaborating_iff.mpr ⟨current, there, works⟩)
  · intro task current there hasNotified
    by_cases same : task = collaborator
    · subst same
      rw [own] at there
      cases there
      exact returned
    · rw [others task same] at there
      exact invariant.notified task current there hasNotified

end Collaborators

/-! ### Steps -/

/-- The loop over the ready tasks. -/
theorem scan (invariant : Invariant config state) {cpu : CPU}
    {canMarkAsIdle : Bool} {completeTaskloops : List TaskId}
    (found : state.scheduler.calls[index]? =
      some (.scanReadyTasks cpu canMarkAsIdle completeTaskloops)) :
    Invariant config
      (state.scan config index cpu canMarkAsIdle completeTaskloops) := by
  unfold State.scan
  dsimp only
  split
  · rename_i task rest queue
    split
    · rename_i isSource
      cases pending : (state.taskloopInfo task).hasPendingIterations with
      | true =>
          unfold State.announce
          rw [if_pos pending]
          exact invariant.scan_pending isSource queue found
      | false =>
          unfold State.announce
          rw [pending, if_neg Bool.false_ne_true]
          exact invariant.scan_complete isSource queue pending found
    · rename_i isPlain
      refine invariant.scan_plain ?_ found
      intro first isFirst
      rw [queue] at isFirst
      cases isFirst
      exact Bool.eq_false_iff.mpr isPlain
  · rename_i queue
    refine invariant.scan_plain ?_ found
    intro first isFirst
    rw [queue] at isFirst
    cases isFirst

/-- A call of the scheduler goes on. -/
theorem performs (invariant : Invariant config state) {answer : Bool}
    {next : State} (found : state.scheduler.calls[index]? = some call)
    (performed : state.performs config index answer call = some next) :
    Invariant config next := by
  cases call with
  | addReadyTask task hint doGetIdle =>
      obtain ⟨after, taken, rfl⟩ := Option.map_eq_some_iff.mp performed
      exact invariant.addReadyTask found taken
  | getIdleCPU task someIdle =>
      cases performed
      refine invariant.plain [] found ?_ ?_ ?_ ?_
      · rfl
      · rfl
      · exact fun source => ⟨rfl, rfl, rfl⟩
      · intro other member
        cases member
  | getReadyTask cpu canMarkAsIdle =>
      obtain ⟨after, taken, rfl⟩ := Option.map_eq_some_iff.mp performed
      simp only [FIFOScheduler.perform] at taken
      repeat' split at taken
      · cases taken
      · cases taken
        refine invariant.plain [] found ?_ ?_ ?_ ?_
        · rfl
        · rfl
        · exact fun source => ⟨rfl, rfl, rfl⟩
        · intro other member
          cases member
      · cases taken
        refine invariant.plain [.scanReadyTasks cpu canMarkAsIdle []] found
          ?_ ?_ ?_ ?_
        · rfl
        · rfl
        · exact fun source => ⟨rfl, rfl, rfl⟩
        · intro other member
          cases List.mem_singleton.mp member
          exact ⟨fun source => ⟨rfl, rfl, rfl⟩, by simp⟩
  | scanReadyTasks cpu canMarkAsIdle completeTaskloops =>
      cases performed
      exact invariant.scan found
  | finishTaskloops cpu canMarkAsIdle completeTaskloops shouldRecheck assigned
      seen =>
      cases completeTaskloops with
      | nil =>
          simp only [State.performs] at performed
          obtain ⟨after, taken, rfl⟩ := Option.map_eq_some_iff.mp performed
          exact invariant.afterTaskloops found taken
      | cons taskloop rest =>
          obtain ⟨finished, taken, rfl⟩ := Option.map_eq_some_iff.mp performed
          exact invariant.finishTaskloop answer found taken
  | createCollaborator cpu taskloop => cases performed
  | cpuBecomesIdle cpu seen =>
      cases performed
      refine invariant.plain [] found ?_ ?_ ?_ ?_
      · rfl
      · rfl
      · exact fun source => ⟨rfl, rfl, rfl⟩
      · intro other member
        cases member

/-- One permitted step. -/
theorem step {next : State} {action : Action}
    (invariant : Invariant config state)
    (permitted : Permitted config state action)
    (taken : Finalization.step config state action = some next) :
    Invariant config next := by
  cases action with
  | life action =>
      simp only [Finalization.step] at taken
      split at taken
      · rename_i may
        obtain ⟨life, lives, rfl⟩ := Option.map_eq_some_iff.mp taken
        exact invariant.lives (invariant.inv.step permitted.ofLife lives)
          (undisturbed_step invariant may permitted lives)
      · cases taken
  | addReadyTask task hint doGetIdle =>
      simp only [Finalization.step] at taken
      repeat' split at taken
      · cases taken
      · rename_i isSource ready
        obtain ⟨life, starts, rfl⟩ := Option.map_eq_some_iff.mp taken
        exact invariant.addSource doGetIdle isSource ready starts
      · rename_i isPlain
        cases taken
        refine invariant.startsCall _ ?_ (fun _ => rfl) fun _ _ => by simp
        intro source isSource
        refine ⟨if_neg ?_, rfl⟩
        rintro ⟨rfl, -⟩
        exact isPlain isSource
  | getReadyTask cpu canMarkAsIdle =>
      cases taken
      exact invariant.startsCall _ (fun source _ => ⟨rfl, rfl⟩)
        (fun _ => rfl) fun _ _ => by simp
  | perform index answer =>
      obtain ⟨call, found, performed⟩ := Option.bind_eq_some_iff.mp taken
      exact invariant.performs found performed
  | createCollaborator index collaborator virtualCPU =>
      simp only [Finalization.step] at taken
      split at taken
      · rename_i cpu source found
        split at taken
        · rename_i new
          obtain ⟨path, computed, rfl⟩ := Option.map_eq_some_iff.mp taken
          exact invariant.createCollaborator found computed new.1 new.2.1
            new.2.2
        · cases taken
      · cases taken
  | run collaborator =>
      simp only [Finalization.step] at taken
      split at taken
      · rename_i collaboration here
        split at taken
        · rename_i inBody
          obtain ⟨info, moved, rfl⟩ := Option.map_eq_some_iff.mp taken
          refine invariant.run here inBody ?_ moved
          rw [Permitted, permits, here] at permitted
          exact permitted
        · cases taken
      · cases taken
  | notifyCollaboratorHasFinished collaborator =>
      simp only [Finalization.step] at taken
      split at taken
      · rename_i collaboration here
        split at taken
        · rename_i ready
          cases taken
          exact invariant.notify here ready.1 ready.2.1 ready.2.2
        · cases taken
      · cases taken

theorem initial (config : Config) :
    Invariant config (initialState config) := by
  have runnable : ∀ source, config.isSource source = true →
      source ≠ config.main := by
    rintro source isSource rfl
    rw [Config.isSource, config.runnable] at isSource
    cases isSource
  have task : ∀ source, config.isSource source = true →
      (initialState config).life.task source = {} := by
    intro source isSource
    exact if_neg (runnable source isSource)
  have outside : ∀ source, config.isSource source = true →
      bodies (initialState config).life source = 0 := by
    intro source isSource
    refine Nat.eq_zero_of_not_pos fun positive => ?_
    cases List.mem_singleton.mp (bodies_pos.mp positive)
    exact runnable config.main isSource rfl
  have announced : ∀ source, config.isSource source = true →
      (initialState config).announced source = 0 := by
    intro source isSource
    unfold State.announced
    rw [task source isSource]
    rfl
  constructor
  · exact Lifecycle.Inv.initial config.main
  · intro source isSource
    refine ⟨?_, ?_, ?_, ?_⟩
    · rw [task source isSource]
      intro impossible
      cases impossible
    · rw [task source isSource]
      exact fun _ => rfl
    · intro activity member
      cases List.mem_singleton.mp member
      exact ⟨by simp, by simp⟩
    · rw [task source isSource]
      exact fun _ => rfl
  · intro call member
    cases member
  · intro source isSource
    rw [outside source isSource]
    rfl
  · intro source isSource
    rw [outside source isSource, task source isSource]
    rfl
  · intro source isSource
    rw [announced source isSource]
    exact Nat.zero_le _
  · intro source isSource positive
    rw [announced source isSource] at positive
    cases positive
  · intro source isSource positive
    cases positive
  · intro source isSource created
    rw [task source isSource] at created
    cases created
  · intro source _ _
    rfl
  · intro collaborator collaboration here
    cases here
  · intro collaborator works
    cases works
  · intro collaborator collaboration here
    cases here

end Invariant

/-! ### Whole runs -/

/-- The end of a source in order. -/
structure State.FinalizesOnce (config : Config) (state : State)
    (source : TaskId) : Prop where
  /-- A source that has become ready is in the ready queue, or in the hands of
  one call, or has been marked as finished once. -/
  once : state.pending source + state.finishes source =
    (state.life.task source).isStarted.toNat
  /-- It is taken off the queue and marked as finished only when all its
  iterations have been handed out. -/
  exhausted : 0 < total (completes source) state.scheduler.calls +
      state.finishes source →
    ∀ iteration, (config.bounds source).lowerBound ≤ iteration →
      iteration < (config.bounds source).upperBound →
      ∃ chunk ∈ (state.taskloopInfo source).obtained,
        chunk.Contains iteration
  unregistered_le : (state.life.task source).unregistrations ≤ 1
  /-- Its dependencies are unregistered after it has been marked as finished,
  when every collaborator that was announced has been created, has run and has
  been disposed of. -/
  unregistered : (state.life.task source).unregistrations = 1 →
    state.finishes source = 1 ∧ state.announced source = 0 ∧
      ∀ collaborator collaboration,
        state.collaborations collaborator = some collaboration →
        collaboration.source = source →
        (state.taskloopInfo source).collaborators[collaboration.index]? =
            some .returned ∧
          (state.life.task collaborator).isUnlinked = true
  /-- They are unregistered when nothing is left that they wait for. -/
  unregisters : state.life.drivers source = [] →
    state.finishes source = 1 → (state.life.task source).events = 0 →
    state.life.Childless source →
    (state.life.task source).removalBlockers = 0 →
    (state.life.task source).unregistrations = 1
  /-- It is freed after that. -/
  freed : (state.life.task source).isFreed = true →
    (state.life.task source).unregistrations = 1

namespace Invariant

variable {config : Config} {state : State} {source : TaskId}

/-- Without partitions that remain every iteration has been handed out. -/
theorem exhausted (invariant : Invariant config state)
    (isSource : config.isSource source = true)
    (created : (state.life.task source).isCreated = true)
    (nothing : (state.taskloopInfo source).remainingPartitions = 0)
    {iteration : Nat}
    (above : (config.bounds source).lowerBound ≤ iteration)
    (below : iteration < (config.bounds source).upperBound) :
    ∃ chunk ∈ (state.taskloopInfo source).obtained,
      chunk.Contains iteration := by
  obtain ⟨fits, runs⟩ := invariant.splits source isSource created
  obtain ⟨normal, -, lower, upper⟩ := Taskloop.Bounds.isNormal_setChunksize
    (config.normalized source) config.partitionCount
  have consecutive := Taskloop.consecutive_splitIterations normal fits
    config.partitions.1
  rw [lower, upper] at consecutive
  obtain ⟨part, member, inside⟩ := consecutive.covers above below
  obtain ⟨place, inPart⟩ := List.mem_iff_getElem?.mp member
  obtain ⟨current, here⟩ : ∃ current,
      (state.taskloopInfo source).partitions[place]? = some current := by
    obtain ⟨bound, -⟩ := List.getElem?_eq_some_iff.mp inPart
    rw [← runs.invariant.length] at bound
    exact ⟨_, List.getElem?_eq_getElem bound⟩
  have follows := runs.invariant.follows place part current inPart here
  have closed := runs.invariant.isOpen_of_remaining nothing here
  rw [Taskloop.Partition.isOpen, decide_eq_false_iff_not, not_lt] at closed
  refine follows.covered iteration inside.1 inside.2 ?_
  have bound := follows.upperBound
  have last := inside.2
  omega

/-- A source that has been started has been created. -/
theorem created_of_started (invariant : Invariant config state)
    (isSource : config.isSource source = true)
    (started : (state.life.task source).isStarted = true) :
    (state.life.task source).isCreated = true := by
  by_contra absent
  rw [(invariant.source source isSource).unstarted
    (Bool.eq_false_iff.mpr absent)] at started
  cases started

/-- A source that has finished has been marked by the scheduler. -/
theorem finishes_of_finished (invariant : Invariant config state)
    (isSource : config.isSource source = true)
    (created : (state.life.task source).isCreated = true)
    (finished : (state.life.task source).hasFinished = true) :
    state.finishes source = 1 := by
  have counted := invariant.finishes source isSource
  have outside : bodies state.life source = 0 := by
    refine Nat.eq_zero_of_not_pos fun positive => ?_
    obtain ⟨young, -⟩ := invariant.inv.runs (bodies_pos.mp positive)
    rw [young.finished] at finished
    cases finished
  obtain ⟨stage, here, -⟩ := invariant.inv.stands source created
  have started : (state.life.task source).isStarted = true := by
    refine here.started ?_
    rintro rfl
    rw [here.finished] at finished
    cases finished
  rw [outside, started] at counted
  exact counted

theorem finalizesOnce (invariant : Invariant config state)
    (isSource : config.isSource source = true) :
    state.FinalizesOnce config source := by
  have proper := Lifecycle.livesProperly_of_inv invariant.inv source
  have counted := invariant.finishes source isSource
  have pending := invariant.pending source isSource
  have startedOf : 0 < state.pending source + state.finishes source →
      (state.life.task source).isStarted = true := by
    intro positive
    cases started : (state.life.task source).isStarted with
    | true => rfl
    | false =>
        rw [started, Bool.toNat_false] at counted
        omega
  have createdOf : (state.life.task source).unregistrations = 1 →
      (state.life.task source).isCreated = true := by
    intro unregistered
    by_contra absent
    rw [(invariant.inv.pristine source
      (Bool.eq_false_iff.mpr absent)).2.unregistrations] at unregistered
    cases unregistered
  constructor
  · omega
  · intro positive iteration above below
    have some : 0 < state.pending source + state.finishes source := by
      have carried := total_completes_le source state.scheduler.calls
      unfold State.pending
      omega
    exact invariant.exhausted isSource
      (invariant.created_of_started isSource (startedOf some))
      (invariant.complete source isSource positive) above below
  · exact proper.unregistered_le
  · intro unregistered
    have created := createdOf unregistered
    obtain ⟨finished, -, childless⟩ := proper.unregistered unregistered
    have disposed := childless
      ((invariant.source source isSource).waits created)
    obtain ⟨stage, here, -⟩ := invariant.inv.stands source created
    have nobody : state.announced source = 0 := by
      refine Nat.eq_zero_of_not_pos fun positive => ?_
      have delays := invariant.delays source isSource positive
      have passed := here.unregistrations
      rw [here.delays] at delays
      rw [unregistered] at passed
      cases stage <;>
        simp [Lifecycle.Stage.delays, Lifecycle.Stage.isUnregistered]
          at delays passed
    refine ⟨invariant.finishes_of_finished isSource created finished, nobody,
      ?_⟩
    rintro collaborator collaboration there rfl
    have parent := (invariant.collaborates collaborator collaboration
      there).2.2
    have member := (invariant.inv.mem_children collaborator _).mpr parent
    refine ⟨?_, disposed collaborator member⟩
    have idle : state.isCollaborating collaborator = false := by
      refine Bool.eq_false_iff.mpr fun works => ?_
      have counts : 0 < (state.life.task
          collaboration.source).children.countP state.isCollaborating :=
        List.countP_pos_iff.mpr ⟨collaborator, member, works⟩
      unfold State.announced at nobody
      omega
    refine invariant.notified collaborator collaboration there ?_
    by_contra busy
    rw [isCollaborating_iff.mpr ⟨collaboration, there,
      Bool.eq_false_iff.mpr busy⟩] at idle
    cases idle
  · intro undriven finishes events childless blockers
    have started := startedOf (by omega)
    have created := invariant.created_of_started isSource started
    refine proper.unregisters undriven ?_ events fun _ =>
      ⟨childless, blockers⟩
    -- Without an activity a source that has started is past its body.
    obtain ⟨stage, here, ⟨-, rests⟩ | ⟨driver, only, -⟩⟩ :=
      invariant.inv.stands source created
    · by_contra unfinished
      have blocks := (invariant.source source isSource).blocks
        (Bool.eq_false_iff.mpr unfinished)
      rw [here.finished] at unfinished
      have young : stage = .young := by
        cases stage <;> first
          | rfl
          | exact absurd rfl unfinished
      rw [young, blocks, started] at rests
      cases rests
    · rw [undriven] at only
      cases only
  · intro freed
    have created : (state.life.task source).isCreated = true := by
      by_contra absent
      rw [(invariant.inv.pristine source
        (Bool.eq_false_iff.mpr absent)).2.isFreed] at freed
      cases freed
    obtain ⟨stage, here, -⟩ := invariant.inv.stands source created
    have last := here.isFreed
    rw [freed] at last
    have isLast : stage = .freed := beq_iff_eq.mp last.symm
    rw [here.unregistrations, isLast]
    rfl

end Invariant

theorem lacksComputePlace_performs {config : Config} {state next : State}
    {index : Nat} {answer : Bool} {call : FIFOScheduler.Call}
    (performed : state.performs config index answer call = some next) :
    next.life.lacksComputePlace = state.life.lacksComputePlace := by
  cases call with
  | scanReadyTasks cpu canMarkAsIdle completeTaskloops =>
      cases performed
      unfold State.scan State.announce
      repeat' split
      all_goals rfl
  | finishTaskloops cpu canMarkAsIdle completeTaskloops shouldRecheck assigned
      seen =>
      cases completeTaskloops with
      | nil =>
          simp only [State.performs] at performed
          obtain ⟨scheduler, -, rfl⟩ := Option.map_eq_some_iff.mp performed
          rfl
      | cons taskloop rest =>
          obtain ⟨finished, taken, rfl⟩ := Option.map_eq_some_iff.mp performed
          obtain ⟨life, finishes, rfl⟩ := Option.map_eq_some_iff.mp taken
          have permitted : Lifecycle.Permitted config.ndebug state.life
              (.finish (state.life.activities.idxOf (.body taskloop))) := rfl
          exact Lifecycle.lacksComputePlace_step permitted finishes
  | createCollaborator cpu taskloop => cases performed
  | _ =>
      simp only [State.performs] at performed
      obtain ⟨scheduler, -, rfl⟩ := Option.map_eq_some_iff.mp performed
      rfl

/-- Outside the steps of the tasks nothing completes a wait clause. -/
theorem lacksComputePlace_step {config : Config} {state next : State}
    {action : Action} (permitted : Permitted config state action)
    (taken : step config state action = some next) :
    next.life.lacksComputePlace = state.life.lacksComputePlace := by
  cases action with
  | life action =>
      simp only [step] at taken
      split at taken
      · obtain ⟨life, lives, rfl⟩ := Option.map_eq_some_iff.mp taken
        exact Lifecycle.lacksComputePlace_step permitted.ofLife lives
      · cases taken
  | addReadyTask task hint doGetIdle =>
      simp only [step] at taken
      repeat' split at taken
      · cases taken
      · obtain ⟨life, starts, rfl⟩ := Option.map_eq_some_iff.mp taken
        have permitted : Lifecycle.Permitted config.ndebug state.life
            (.start task) := rfl
        exact Lifecycle.lacksComputePlace_step permitted starts
      · cases taken
        rfl
  | getReadyTask cpu canMarkAsIdle =>
      cases taken
      rfl
  | perform index answer =>
      obtain ⟨call, -, performed⟩ := Option.bind_eq_some_iff.mp taken
      exact lacksComputePlace_performs performed
  | createCollaborator index collaborator virtualCPU =>
      simp only [step] at taken
      repeat' split at taken
      · obtain ⟨path, -, rfl⟩ := Option.map_eq_some_iff.mp taken
        rfl
      all_goals cases taken
  | run collaborator =>
      simp only [step] at taken
      repeat' split at taken
      · obtain ⟨info, -, rfl⟩ := Option.map_eq_some_iff.mp taken
        rfl
      all_goals cases taken
  | notifyCollaboratorHasFinished collaborator =>
      simp only [step] at taken
      repeat' split at taken
      all_goals cases taken
      rfl

theorem lacksComputePlace_of_run {config : Config} {state : State}
    (run : Run (step config) (Permitted config) (initialState config) state) :
    state.life.lacksComputePlace = false := by
  induction run with
  | refl => rfl
  | tail _ permitted taken inductionHypothesis =>
      rw [lacksComputePlace_step permitted taken]
      exact inductionHypothesis

/-- In every permitted run the sources come to their end in order, no task is
used after it has been freed, and no wait clause is completed without a compute
place. -/
theorem finalizesOnce_of_run {config : Config} {state : State}
    (run : Run (step config) (Permitted config) (initialState config) state) :
    (∀ source, config.isSource source = true →
      state.FinalizesOnce config source) ∧
      state.life.usedAfterFree = false ∧
      state.life.lacksComputePlace = false := by
  have invariant : Invariant config state :=
    run.invariant (Invariant.initial config)
      fun _ _ _ invariant permitted taken => invariant.step permitted taken
  exact ⟨fun source isSource => invariant.finalizesOnce isSource,
    invariant.inv.unused, lacksComputePlace_of_run run⟩

/-- The main task 0 and the source 1, under the FIFO scheduler. -/
def oneSource (partitionCount : Nat)
    (partitions : 0 < partitionCount ∧ partitionCount < 2 ^ 31)
    (bounds : Taskloop.Bounds) (normalized : bounds.IsGiven) : Config where
  scheduler :=
    { policy := .fifo, isRequeueEnabled := false, isTaskloop := (· == 1) }
  ndebug := true
  useDistributionFunction := false
  partitionCount := partitionCount
  main := 0
  bounds := fun _ => bounds
  runnable := rfl
  partitions := partitions
  normalized := fun _ => normalized

/-- The source is created and queued. -/
def becomesReady : List Action :=
  [.life (.submit 0 1 true), .addReadyTask 1 .noHint false, .perform 0 false]

/-- A thread finds the source with iterations left and executes a
collaborator. -/
def collaborates (collaborator : TaskId) : List Action :=
  [.getReadyTask 0 false, .perform 0 false, .perform 0 false,
    .perform 0 false, .createCollaborator 0 collaborator 0,
    .life (.start collaborator)]

/-- A thread finds the source without iterations and marks it as finished. -/
def completesSource : List Action :=
  .getReadyTask 0 false :: List.replicate 4 (.perform 0 false)

def twoIterations : Taskloop.Bounds where
  lowerBound := 0
  upperBound := 2
  chunksize := 2

def smallLoop : Config :=
  oneSource 1 (by decide) twoIterations ⟨by decide, by decide, rfl, by decide⟩

/-- The collaborator is disposed of after the source has been marked, and takes
the source with it. -/
def lastCollaborator : List Action :=
  List.flatten
    [becomesReady, collaborates 2, List.replicate 5 (.run 2),
      [.notifyCollaboratorHasFinished 2], completesSource,
      List.replicate 2 (.life (.perform 1 0)), [.life (.finish 1)],
      List.replicate 16 (.life (.perform 1 0))]

theorem finalizesOnce_lastCollaborator :
    ∃ state,
      Run (step smallLoop) (Permitted smallLoop) (initialState smallLoop)
        state ∧
      state.finishes 1 = 1 ∧ (state.life.task 1).unregistrations = 1 ∧
      (state.life.task 1).isFreed = true ∧
      ((∀ source, smallLoop.isSource source = true →
        state.FinalizesOnce smallLoop source) ∧
        state.life.usedAfterFree = false ∧
        state.life.lacksComputePlace = false) := by
  let isOver (state : State) : Bool :=
    state.finishes 1 == 1 && (state.life.task 1).unregistrations == 1 &&
      (state.life.task 1).isFreed
  obtain ⟨state, run, holds⟩ :
      ∃ state, Run (step smallLoop) (Permitted smallLoop)
        (initialState smallLoop) state ∧ isOver state = true :=
    exists_run_of_executeAllowed lastCollaborator _ isOver
      (by decide +kernel)
  simp only [isOver, Bool.and_eq_true, beq_iff_eq] at holds
  obtain ⟨⟨finished, unregistered⟩, freed⟩ := holds
  exact ⟨state, run, finished, unregistered, freed,
    finalizesOnce_of_run run⟩

/-- A chunk of the largest power of two that leaves room for a second
partition. -/
def hugeChunks : Taskloop.Bounds where
  lowerBound := 0
  upperBound := 2 ^ 62 + 10
  chunksize := 2 ^ 62

def hugeLoop : Config :=
  oneSource 2 (by decide) hugeChunks ⟨by decide, by decide, rfl, by decide⟩

/-- Three collaborators come too late for the first partition and take its
counter back to zero, so that it is handed out twice, in the place of the
second. -/
def lateRequests : List Action :=
  List.flatten
    [becomesReady, collaborates 2, collaborates 3, collaborates 4,
      collaborates 5,
      [.run 2, .run 3, .run 4, .run 5, .run 2, .run 2, .run 2, .run 3, .run 4,
        .run 5],
      List.replicate 4 (.run 2), completesSource]

theorem finalizesOnce_fails :
    ¬ ∀ (config : Config) (state : State),
      Run (step config) (fun _ _ => True) (initialState config) state →
        ∀ source, config.isSource source = true →
          state.FinalizesOnce config source := by
  intro holds
  let lost (state : State) : Bool :=
    state.finishes 1 == 1 && (state.taskloopInfo 1).obtained.all fun chunk =>
      !decide (chunk.Contains (2 ^ 62))
  obtain ⟨state, run, wrong⟩ :
      ∃ state, Run (step hugeLoop) (fun _ _ => True)
        (initialState hugeLoop) state ∧ lost state = true :=
    exists_run_of_executeAllowed lateRequests _ lost (by decide +kernel)
  simp only [lost, Bool.and_eq_true, beq_iff_eq, List.all_eq_true] at wrong
  have finalizes := holds hugeLoop state run 1 rfl
  have marked : 0 < total (completes 1) state.scheduler.calls +
      state.finishes 1 := by
    rw [wrong.1]
    exact Nat.succ_pos _
  obtain ⟨chunk, member, contained⟩ :=
    finalizes.exhausted marked (2 ^ 62) (by decide) (by decide)
  have absent := wrong.2 chunk member
  rw [decide_eq_true contained] at absent
  cases absent

end Nanos6.Finalization
