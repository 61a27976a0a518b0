import Nanos6.Taskloops.Finalization
import Nanos6.Tasks.LifecycleFrames

/-!
# The invariant of the end of a taskloop

The countdown of a source covers every collaborator from its announcement to its
disposal: first as a removal blocker, then as a child.  The source is in the ready
queue, or in the hands of one call, as long as it has not been marked as finished.
-/

namespace Nanos6.Finalization

open Foundation

/-- How many activities are in the body of the task. -/
def bodies (life : Lifecycle.System) (task : TaskId) : Nat :=
  total (fun activity : Lifecycle.Activity =>
    (decide (activity = .body task)).toNat) life.activities

/-- A source has a wait clause and never leaves its body before it finishes. -/
structure SourceLife (life : Lifecycle.System) (source : TaskId) : Prop where
  waits : (life.task source).isCreated = true →
    (life.task source).hasWaitClause = true
  unstarted : (life.task source).isCreated = false →
    (life.task source).isStarted = false
  quiet : ∀ activity ∈ life.activities,
    activity ≠ .markAsBlocked source ∧ activity ≠ .markAsUnblocked source
  blocks : (life.task source).hasFinished = false →
    (life.task source).blocksRemoval = true

/-- The complete taskloops in the hands of a call, and the one for which it
creates a collaborator, are sources. -/
def HandlesSources (config : Config) (call : FIFOScheduler.Call) : Prop :=
  ∀ task,
    0 < completes task call ∨ (∃ cpu, call = .createCollaborator cpu task) →
    config.isSource task = true

/-- The iterations of a source that has been created. -/
structure Splits (config : Config) (source : TaskId)
    (info : Taskloop.Source) : Prop where
  fits : ((config.bounds source).setChunksize config.partitionCount).Fits
  runs : Taskloop.Runs
    ((config.bounds source).setChunksize config.partitionCount)
    config.partitionCount info

structure Invariant (config : Config) (state : State) : Prop where
  inv : Lifecycle.Inv state.life
  source : ∀ source, config.isSource source = true →
    SourceLife state.life source
  handles : ∀ call ∈ state.scheduler.calls, HandlesSources config call
  pending : ∀ source, config.isSource source = true →
    state.pending source = bodies state.life source
  finishes : ∀ source, config.isSource source = true →
    state.finishes source + bodies state.life source =
      (state.life.task source).isStarted.toNat
  announced : ∀ source, config.isSource source = true →
    state.announced source ≤ (state.life.task source).removalBlockers
  delays : ∀ source, config.isSource source = true →
    0 < state.announced source →
    (state.life.task source).mustDelayRelease = true
  complete : ∀ source, config.isSource source = true →
    0 < total (completes source) state.scheduler.calls +
      state.finishes source →
    (state.taskloopInfo source).remainingPartitions = 0
  splits : ∀ source, config.isSource source = true →
    (state.life.task source).isCreated = true →
    Splits config source (state.taskloopInfo source)
  fresh : ∀ source, config.isSource source = true →
    (state.life.task source).isCreated = false →
    state.taskloopInfo source =
      Taskloop.initialized config.partitionCount (config.bounds source)
  collaborates : ∀ task collaboration,
    state.collaborations task = some collaboration →
    config.isSource task = false ∧
      config.isSource collaboration.source = true ∧
      (state.life.task task).parent = some collaboration.source
  working : ∀ task, state.isCollaborating task = true →
    (state.life.task task).hasFinished = false ∧
      .markAsFinished task ∉ state.life.activities
  notified : ∀ task collaboration,
    state.collaborations task = some collaboration →
    collaboration.hasNotified = true →
    (state.taskloopInfo
      collaboration.source).collaborators[collaboration.index]? =
      some .returned

theorem isCollaborating_iff {state : State} {task : TaskId} :
    state.isCollaborating task = true ↔
      ∃ collaboration, state.collaborations task = some collaboration ∧
        collaboration.hasNotified = false := by
  unfold State.isCollaborating
  cases state.collaborations task <;> simp

/-! ### Bodies -/

section Bodies

variable {life : Lifecycle.System} {task : TaskId}

theorem bodies_pos : 0 < bodies life task ↔ .body task ∈ life.activities := by
  constructor
  · intro some
    by_contra outside
    refine absurd ?_ (Nat.ne_of_gt some)
    rw [bodies, total, List.sum_eq_zero_iff_forall_eq_nat]
    intro amount member
    obtain ⟨activity, inside, rfl⟩ := List.mem_map.mp member
    have different : activity ≠ .body task := by
      rintro rfl
      exact outside inside
    simp [different]
  · intro inside
    by_contra nothing
    have zero := eq_zero_of_total (Nat.eq_zero_of_not_pos nothing) inside
    simp at zero

theorem bodies_replaceAt (task : TaskId) {index : Nat}
    {activity : Lifecycle.Activity}
    (found : life.activities[index]? = some activity)
    {new : List Lifecycle.Activity} {next : Lifecycle.System}
    (replaced : next.activities = replaceAt life.activities index new) :
    bodies next task + (decide (activity = .body task)).toNat =
      bodies life task + total (fun activity : Lifecycle.Activity =>
        (decide (activity = .body task)).toNat) new := by
  unfold bodies
  rw [replaced]
  exact total_replaceAt _ new found

theorem total_bodies_eq_zero {new : List Lifecycle.Activity}
    (none : .body task ∉ new) :
    total (fun activity : Lifecycle.Activity =>
      (decide (activity = .body task)).toNat) new = 0 := by
  rw [total, List.sum_eq_zero_iff_forall_eq_nat]
  intro amount member
  obtain ⟨activity, inside, rfl⟩ := List.mem_map.mp member
  have different : activity ≠ .body task := by
    rintro rfl
    exact none inside
  simp [different]

end Bodies

/-! ### Steps of the life of the tasks -/

/-- What the steps of the tasks leave to the scheduler. -/
structure Undisturbed (config : Config) (state : State)
    (life : Lifecycle.System) : Prop where
  source : ∀ source, config.isSource source = true →
    SourceLife life source
  bodies : ∀ source, config.isSource source = true →
    bodies life source = bodies state.life source
  isStarted : ∀ source, config.isSource source = true →
    (life.task source).isStarted = (state.life.task source).isStarted
  children : ∀ source, config.isSource source = true →
    (life.task source).children = (state.life.task source).children
  announced : ∀ source, config.isSource source = true →
    state.announced source ≤ (life.task source).removalBlockers
  delays : ∀ source, config.isSource source = true →
    0 < state.announced source →
    (life.task source).mustDelayRelease = true
  splits : ∀ source, config.isSource source = true →
    (life.task source).isCreated = true →
    Splits config source (state.taskloopInfo source)
  created : ∀ source, config.isSource source = true →
    (life.task source).isCreated = false →
    (state.life.task source).isCreated = false
  parent : ∀ task collaboration,
    state.collaborations task = some collaboration →
    (life.task task).parent = (state.life.task task).parent
  working : ∀ task, state.isCollaborating task = true →
    (life.task task).hasFinished = false ∧
      .markAsFinished task ∉ life.activities

namespace Invariant

variable {config : Config} {state : State}

/-- A collaborator has been created. -/
theorem created_of_collaboration (invariant : Invariant config state)
    {task : TaskId} {collaboration : Collaboration}
    (here : state.collaborations task = some collaboration) :
    (state.life.task task).isCreated = true := by
  by_contra absent
  have parent := (invariant.collaborates task collaboration here).2.2
  rw [(invariant.inv.pristine task
    (Bool.eq_false_iff.mpr absent)).2.parent] at parent
  cases parent

/-- A step of the tasks. -/
theorem lives (invariant : Invariant config state)
    {life : Lifecycle.System} (inv : Lifecycle.Inv life)
    (undisturbed : Undisturbed config state life) :
    Invariant config { state with life := life } := by
  have announced : ∀ source, config.isSource source = true →
      State.announced { state with life := life } source =
        state.announced source := by
    intro source isSource
    unfold State.announced
    rw [undisturbed.children source isSource]
    rfl
  constructor
  · exact inv
  · exact undisturbed.source
  · exact invariant.handles
  · intro source isSource
    rw [undisturbed.bodies source isSource]
    exact invariant.pending source isSource
  · intro source isSource
    rw [undisturbed.bodies source isSource,
      undisturbed.isStarted source isSource]
    exact invariant.finishes source isSource
  · intro source isSource
    rw [announced source isSource]
    exact undisturbed.announced source isSource
  · intro source isSource
    rw [announced source isSource]
    exact undisturbed.delays source isSource
  · exact invariant.complete
  · exact undisturbed.splits
  · intro source isSource absent
    exact invariant.fresh source isSource
      (undisturbed.created source isSource absent)
  · intro task collaboration here
    rw [undisturbed.parent task collaboration here]
    exact invariant.collaborates task collaboration here
  · exact undisturbed.working
  · exact invariant.notified

end Invariant

/-- What the scheduler knows of a source stays. -/
structure SameSource (before after : Lifecycle.Task) : Prop where
  isCreated : after.isCreated = before.isCreated
  isStarted : after.isStarted = before.isStarted
  hasWaitClause : after.hasWaitClause = before.hasWaitClause
  children : after.children = before.children
  mustDelayRelease : after.mustDelayRelease = before.mustDelayRelease
  hasFinished : after.hasFinished = before.hasFinished
  blocksRemoval : after.blocksRemoval = before.blocksRemoval

theorem SameSource.refl (task : Lifecycle.Task) : SameSource task task :=
  ⟨rfl, rfl, rfl, rfl, rfl, rfl, rfl⟩

theorem SourceLife.congr {life next : Lifecycle.System} {source : TaskId}
    (lives : SourceLife life source)
    (same : SameSource (life.task source) (next.task source))
    (quiet : ∀ activity ∈ next.activities, activity ∈ life.activities ∨
      activity ≠ .markAsBlocked source ∧
        activity ≠ .markAsUnblocked source) :
    SourceLife next source := by
  constructor
  · rw [same.isCreated, same.hasWaitClause]
    exact lives.waits
  · rw [same.isCreated, same.isStarted]
    exact lives.unstarted
  · intro activity member
    rcases quiet activity member with old | apart
    · exact lives.quiet activity old
    · exact apart
  · rw [same.hasFinished, same.blocksRemoval]
    exact lives.blocks

section Kept

variable {config : Config} {state : State} {life : Lifecycle.System}

/-- A step that does not concern the sources. -/
theorem undisturbed_of_same (invariant : Invariant config state)
    (same : ∀ source, config.isSource source = true →
      SameSource (state.life.task source) (life.task source))
    (announced : ∀ source, config.isSource source = true →
      state.announced source ≤ (life.task source).removalBlockers)
    (bodies : ∀ source, config.isSource source = true →
      bodies life source = Finalization.bodies state.life source)
    (quiet : ∀ activity ∈ life.activities,
      activity ∈ state.life.activities ∨
        (∀ source, config.isSource source = true →
          activity ≠ .markAsBlocked source ∧
            activity ≠ .markAsUnblocked source) ∧
        ∀ task, state.isCollaborating task = true →
          activity ≠ .markAsFinished task)
    (kept : ∀ task, (state.life.task task).isCreated = true →
      (life.task task).parent = (state.life.task task).parent ∧
        (life.task task).hasFinished = (state.life.task task).hasFinished) :
    Undisturbed config state life := by
  constructor
  · intro source isSource
    refine (invariant.source source isSource).congr (same source isSource) ?_
    intro activity member
    exact (quiet activity member).imp_right fun apart =>
      apart.1 source isSource
  · exact bodies
  · exact fun source isSource => (same source isSource).isStarted
  · exact fun source isSource => (same source isSource).children
  · exact announced
  · intro source isSource some
    rw [(same source isSource).mustDelayRelease]
    exact invariant.delays source isSource some
  · intro source isSource
    rw [(same source isSource).isCreated]
    exact invariant.splits source isSource
  · intro source isSource
    rw [(same source isSource).isCreated]
    exact fun absent => absent
  · intro task collaboration here
    exact (kept task (invariant.created_of_collaboration here)).1
  · intro task works
    obtain ⟨collaboration, here, -⟩ := isCollaborating_iff.mp works
    obtain ⟨unfinished, outside⟩ := invariant.working task works
    refine ⟨?_, fun inside => ?_⟩
    · rw [(kept task (invariant.created_of_collaboration here)).2]
      exact unfinished
    · rcases quiet _ inside with old | apart
      · exact outside old
      · exact apart.2 task works rfl

/-- The activity at the index goes on as one that is not in the body of a
source. -/
theorem bodies_goesOn {index : Nat} {activity : Lifecycle.Activity}
    {source : TaskId} (found : life.activities[index]? = some activity)
    (apart : activity ≠ .body source) {new : List Lifecycle.Activity}
    (none : .body source ∉ new) {next : Lifecycle.System}
    (replaced : next.activities = replaceAt life.activities index new) :
    bodies next source = bodies life source := by
  have counted := bodies_replaceAt source found replaced
  rw [decide_eq_false apart, total_bodies_eq_zero none] at counted
  exact counted

theorem bodies_append {source : TaskId} {new : List Lifecycle.Activity}
    (none : .body source ∉ new) {next : Lifecycle.System}
    (appended : next.activities = life.activities ++ new) :
    bodies next source = bodies life source := by
  unfold bodies
  rw [appended, total_append, total_bodies_eq_zero none, Nat.add_zero]

theorem drives_self (task : TaskId) (activity : Lifecycle.Activity)
    (own : activity.task = task)
    (plain : (activity matches .assertReleased _ false _) = false) :
    activity.drives task = true := by
  subst own
  cases activity with
  | assertReleased task readyOrDisposable hasComputePlace =>
      cases readyOrDisposable with
      | false => cases plain
      | true => simp [Lifecycle.Activity.drives, Lifecycle.Activity.task]
  | _ => simp [Lifecycle.Activity.drives, Lifecycle.Activity.task]

/-- A source that has not finished keeps its part of the countdown. -/
theorem blocks_perform (invariant : Invariant config state)
    {source : TaskId} (isSource : config.isSource source = true)
    {index accesses : Nat} {activity : Lifecycle.Activity}
    (found : state.life.activities[index]? = some activity)
    (performed : Lifecycle.perform config.ndebug state.life index accesses
      activity = some life)
    (unfinished : (life.task source).hasFinished = false) :
    (life.task source).blocksRemoval = true := by
  have lives := invariant.source source isSource
  have kept := Lifecycle.perform_follows performed source
  have before : (state.life.task source).blocksRemoval = true := by
    rcases kept.finishes with same | rfl
    · rw [same] at unfinished
      exact lives.blocks unfinished
    · obtain ⟨stage, here, fits, -⟩ := invariant.inv.driven found
        (drives_self source (.markAsFinished source) rfl rfl)
      simp only [Lifecycle.Activity.fits, Bool.and_eq_true] at fits
      exact fits.1.2
  -- Only a task that has finished gives its part up.
  have finished : ∀ stage : Lifecycle.Stage,
      (state.life.task source).IsAt stage (state.life.undisposed source) →
      stage.isFinished = true → activity ≠ .markAsFinished source →
      False := by
    intro stage here isFinished apart
    rcases kept.finishes with same | finishes
    · rw [same, here.finished, isFinished] at unfinished
      cases unfinished
    · exact apart finishes
  rcases kept.blocks with same | blocks | rfl | rfl | ⟨caller, rfl⟩
  · rw [same]
    exact before
  · exact blocks
  · exact absurd rfl (lives.quiet _ (List.mem_of_getElem? found)).1
  · obtain ⟨stage, here, fits, -⟩ := invariant.inv.driven found
      (drives_self source (.delayRelease source) rfl rfl)
    simp only [Lifecycle.Activity.fits, Bool.and_eq_true, beq_iff_eq] at fits
    refine (finished stage here ?_ (by simp)).elim
    rw [fits.1]
    rfl
  · obtain ⟨stage, here, fits, -⟩ := invariant.inv.driven found
      (drives_self source (.markAsReleased source caller) rfl rfl)
    simp only [Lifecycle.Activity.fits, Bool.and_eq_true, beq_iff_eq] at fits
    refine (finished stage here ?_ (by simp)).elim
    rw [fits.1]
    rfl

/-- The steps of the activities. -/
theorem undisturbed_perform (invariant : Invariant config state)
    {index accesses : Nat} {activity : Lifecycle.Activity}
    (found : state.life.activities[index]? = some activity)
    (performed : Lifecycle.perform config.ndebug state.life index accesses
      activity = some life) :
    Undisturbed config state life := by
  have follows := Lifecycle.perform_follows performed
  obtain ⟨new, replaced, inside⟩ := Lifecycle.perform_activities performed
  have member := List.mem_of_getElem? found
  -- What a new activity of a source would need is not there.
  have quiet : ∀ source, config.isSource source = true →
      ∀ other ∈ new, other.isInside source = false := by
    intro source isSource other isNew
    have lives := invariant.source source isSource
    by_contra within
    rcases inside source other isNew (Bool.not_eq_false _ ▸ within) with
      ⟨-, wakes⟩ | ⟨-, blocks | ⟨disposes, unfinished⟩⟩
    · exact (lives.quiet activity member).2 wakes
    · exact (lives.quiet activity member).1 blocks
    · obtain ⟨hasComputePlace, rfl⟩ := disposes
      obtain ⟨stage, here, fits, -⟩ := invariant.inv.driven found
        (drives_self source (.disposeOrUnblockTask source hasComputePlace)
          rfl rfl)
      simp [Lifecycle.Activity.fits, Lifecycle.Stage.isCalled,
        lives.blocks unfinished] at fits
  have finishing : ∀ task, .markAsFinished task ∉ new := by
    intro task isNew
    rcases inside task _ isNew (by simp [Lifecycle.Activity.isInside]) with
      ⟨absurd, -⟩ | ⟨absurd, -⟩
    · cases absurd
    · cases absurd
  constructor
  · intro source isSource
    have lives := invariant.source source isSource
    have kept := follows source
    constructor
    · rw [kept.isCreated, kept.hasWaitClause]
      exact lives.waits
    · rw [kept.isCreated, kept.isStarted]
      exact lives.unstarted
    · intro other isThere
      rw [replaced] at isThere
      rcases mem_replaceAt isThere with isNew | old
      · have outside := quiet source isSource other isNew
        constructor
        · rintro rfl
          simp [Lifecycle.Activity.isInside] at outside
        · rintro rfl
          simp [Lifecycle.Activity.isInside] at outside
      · exact lives.quiet other old
    · intro unfinished
      exact blocks_perform invariant isSource found performed unfinished
  · intro source isSource
    have apart : activity ≠ .body source := by
      rintro rfl
      cases performed
    refine bodies_goesOn found apart (fun isNew => ?_) replaced
    have outside := quiet source isSource _ isNew
    simp [Lifecycle.Activity.isInside] at outside
  · exact fun source _ => (follows source).isStarted
  · exact fun source _ => (follows source).children
  · intro source isSource
    exact (invariant.announced source isSource).trans
      (follows source).removalBlockers
  · intro source isSource some
    rcases (follows source).delays with same | ⟨caller, rfl⟩
    · rw [same]
      exact invariant.delays source isSource some
    · obtain ⟨stage, here, fits, -⟩ := invariant.inv.driven found
        (drives_self source (.completeDelayedRelease source caller) rfl rfl)
      simp only [Lifecycle.Activity.fits, Bool.and_eq_true] at fits
      have none := (Lifecycle.Inv.isOver_iff.mp fits.2).2
      have bounded := invariant.announced source isSource
      omega
  · intro source isSource created
    rw [(follows source).isCreated] at created
    exact invariant.splits source isSource created
  · intro source _ absent
    rwa [(follows source).isCreated] at absent
  · exact fun task _ _ => (follows task).parent
  · intro task works
    obtain ⟨unfinished, outside⟩ := invariant.working task works
    constructor
    · rcases (follows task).finishes with same | rfl
      · rw [same]
        exact unfinished
      · exact absurd member outside
    · intro isThere
      rw [replaced] at isThere
      rcases mem_replaceAt isThere with isNew | old
      · exact finishing task isNew
      · exact outside old

/-- A step that changes the record of one task, which is not a source. -/
theorem undisturbed_of_other (invariant : Invariant config state)
    {task : TaskId} (plain : config.isSource task = false)
    (others : ∀ other, other ≠ task →
      life.task other = state.life.task other)
    (parent : (life.task task).parent = (state.life.task task).parent)
    (finished : (life.task task).hasFinished =
      (state.life.task task).hasFinished)
    (bodies : ∀ source, config.isSource source = true →
      bodies life source = Finalization.bodies state.life source)
    (quiet : ∀ activity ∈ life.activities,
      activity ∈ state.life.activities ∨
        (∀ source, config.isSource source = true →
          activity ≠ .markAsBlocked source ∧
            activity ≠ .markAsUnblocked source) ∧
        ∀ task, state.isCollaborating task = true →
          activity ≠ .markAsFinished task) :
    Undisturbed config state life := by
  have same : ∀ source, config.isSource source = true →
      life.task source = state.life.task source := by
    intro source isSource
    refine others source ?_
    rintro rfl
    rw [plain] at isSource
    cases isSource
  refine undisturbed_of_same invariant ?_ ?_ bodies quiet ?_
  · intro source isSource
    rw [same source isSource]
    exact SameSource.refl _
  · intro source isSource
    rw [same source isSource]
    exact invariant.announced source isSource
  · intro other _
    by_cases equal : other = task
    · rw [equal]
      exact ⟨parent, finished⟩
    · rw [others other equal]
      exact ⟨rfl, rfl⟩

theorem undisturbed_start (invariant : Invariant config state)
    {task : TaskId} (plain : config.isSource task = false)
    (taken : Lifecycle.step config.ndebug state.life (.start task) =
      some life) : Undisturbed config state life := by
  simp only [Lifecycle.step] at taken
  split at taken
  · cases taken
    have own : ∀ source, config.isSource source = true →
        .body source ∉ [Lifecycle.Activity.body task] := by
      intro source isSource isNew
      cases List.mem_singleton.mp isNew
      rw [plain] at isSource
      cases isSource
    refine undisturbed_of_other invariant plain ?_ ?_ ?_ ?_ ?_
    · intro other different
      rw [Lifecycle.System.task_starts, Lifecycle.System.task_modifyTask,
        if_neg different, Lifecycle.System.task_uses]
    · rw [Lifecycle.System.task_starts, Lifecycle.System.task_modifyTask,
        if_pos rfl, Lifecycle.System.task_uses]
    · rw [Lifecycle.System.task_starts, Lifecycle.System.task_modifyTask,
        if_pos rfl, Lifecycle.System.task_uses]
    · intro source isSource
      exact bodies_append (own source isSource) rfl
    · intro activity member
      rcases List.mem_append.mp member with old | new
      · exact Or.inl old
      · cases List.mem_singleton.mp new
        exact Or.inr ⟨fun _ _ => ⟨by simp, by simp⟩, fun _ _ => by simp⟩
  · cases taken

theorem undisturbed_taskwait (invariant : Invariant config state)
    {index : Nat} (may : mayAct config state (.taskwait index) = true)
    (taken : Lifecycle.step config.ndebug state.life (.taskwait index) =
      some life) : Undisturbed config state life := by
  simp only [Lifecycle.step] at taken
  split at taken
  · rename_i task found
    simp only [mayAct, found, Bool.not_eq_true'] at may
    have apart : ∀ source, config.isSource source = true →
        task ≠ source := by
      rintro source isSource rfl
      rw [may] at isSource
      cases isSource
    refine undisturbed_of_other invariant may ?_ ?_ ?_ ?_ ?_
    · intro other different
      split at taken <;> cases taken <;> rfl
    · split at taken <;> cases taken <;> rfl
    · split at taken <;> cases taken <;> rfl
    · intro source isSource
      split at taken
      · cases taken
        rfl
      · cases taken
        refine bodies_goesOn found ?_ ?_ rfl
        · intro equal
          cases equal
          exact apart task isSource rfl
        · simp
    · intro activity member
      split at taken
      · cases taken
        exact Or.inl member
      · cases taken
        rcases mem_replaceAt member with new | old
        · cases List.mem_singleton.mp new
          refine Or.inr ⟨fun source isSource => ⟨?_, by simp⟩,
            fun _ _ => by simp⟩
          intro equal
          cases equal
          exact apart task isSource rfl
        · exact Or.inl old
  · cases taken

theorem undisturbed_finish (invariant : Invariant config state)
    {index : Nat} (may : mayAct config state (.finish index) = true)
    (taken : Lifecycle.step config.ndebug state.life (.finish index) =
      some life) : Undisturbed config state life := by
  simp only [Lifecycle.step] at taken
  split at taken
  · rename_i task found
    simp only [mayAct, found, Bool.and_eq_true, Bool.not_eq_true'] at may
    obtain ⟨plain, idle⟩ := may
    cases taken
    refine undisturbed_of_other invariant plain (fun _ _ => rfl) rfl rfl ?_ ?_
    · intro source isSource
      refine bodies_goesOn found ?_ ?_ rfl
      · intro equal
        cases equal
        rw [plain] at isSource
        cases isSource
      · simp
    · intro activity member
      rcases mem_replaceAt member with new | old
      · cases List.mem_singleton.mp new
        refine Or.inr ⟨fun _ _ => ⟨by simp, by simp⟩, fun other works => ?_⟩
        intro equal
        cases equal
        rw [idle] at works
        cases works
      · exact Or.inl old
  · cases taken

/-- A counter of a task changes, and an activity may start. -/
theorem undisturbed_of_change (invariant : Invariant config state)
    {task : TaskId} {change : Lifecycle.Task → Lifecycle.Task}
    {started : List Lifecycle.Activity}
    (tasks : ∀ other, life.task other =
      (state.life.modifyTask task change).task other)
    (activities : life.activities = state.life.activities ++ started)
    (outside : ∀ activity ∈ started, ∀ other,
      activity.isInside other = false)
    (same : SameSource (state.life.task task)
      (change (state.life.task task)))
    (parent : (change (state.life.task task)).parent =
      (state.life.task task).parent)
    (announced : config.isSource task = true →
      state.announced task ≤
        (change (state.life.task task)).removalBlockers) :
    Undisturbed config state life := by
  refine undisturbed_of_same invariant ?_ ?_ ?_ ?_ ?_
  · intro source _
    rw [tasks, Lifecycle.System.task_modifyTask]
    split
    · rename_i equal
      rw [equal]
      exact same
    · exact SameSource.refl _
  · intro source isSource
    rw [tasks, Lifecycle.System.task_modifyTask]
    split
    · rename_i equal
      subst equal
      exact announced isSource
    · exact invariant.announced source isSource
  · intro source _
    refine bodies_append (fun isNew => ?_) activities
    have apart := outside _ isNew source
    simp [Lifecycle.Activity.isInside] at apart
  · intro activity member
    rw [activities] at member
    rcases List.mem_append.mp member with old | new
    · exact Or.inl old
    · refine Or.inr ⟨fun source _ => ?_, fun other _ => ?_⟩
      · have apart := outside _ new source
        constructor
        · rintro rfl
          simp [Lifecycle.Activity.isInside] at apart
        · rintro rfl
          simp [Lifecycle.Activity.isInside] at apart
      · have apart := outside _ new other
        rintro rfl
        simp [Lifecycle.Activity.isInside] at apart
  · intro other _
    rw [tasks, Lifecycle.System.task_modifyTask]
    split
    · rename_i equal
      rw [equal]
      exact ⟨parent, same.hasFinished⟩
    · exact ⟨rfl, rfl⟩

theorem undisturbed_counters (invariant : Invariant config state)
    {action : Lifecycle.Action} {task : TaskId}
    (counts : (∃ amount, action = .increaseEvents task amount) ∨
      (∃ amount, action = .decreaseEvents task amount) ∨
      action = .increaseRemovalBlockers task ∨
      ∃ hasComputePlace,
        action = .decreaseRemovalBlockers task hasComputePlace)
    (may : mayAct config state action = true)
    (taken : Lifecycle.step config.ndebug state.life action = some life) :
    Undisturbed config state life := by
  have nothing : ∀ activity ∈ ([] : List Lifecycle.Activity), ∀ other,
      activity.isInside other = false := by
    intro activity member
    cases member
  have bounded := fun isSource => invariant.announced task isSource
  rcases counts with ⟨amount, rfl⟩ | ⟨amount, rfl⟩ | rfl |
    ⟨hasComputePlace, rfl⟩
  · simp only [Lifecycle.step] at taken
    split at taken
    · cases taken
      exact undisturbed_of_change invariant (fun _ => rfl)
        (List.append_nil _).symm nothing ⟨rfl, rfl, rfl, rfl, rfl, rfl, rfl⟩
        rfl bounded
    · cases taken
  · simp only [Lifecycle.step] at taken
    repeat' split at taken
    · cases taken
      refine undisturbed_of_change invariant (fun _ => rfl) rfl ?_
        ⟨rfl, rfl, rfl, rfl, rfl, rfl, rfl⟩ rfl bounded
      intro activity member other
      cases List.mem_singleton.mp member
      rfl
    · cases taken
      exact undisturbed_of_change invariant (fun _ => rfl)
        (List.append_nil _).symm nothing ⟨rfl, rfl, rfl, rfl, rfl, rfl, rfl⟩
        rfl bounded
    · cases taken
  · simp only [Lifecycle.step] at taken
    split at taken
    · cases taken
      exact undisturbed_of_change invariant (fun _ => rfl)
        (List.append_nil _).symm nothing ⟨rfl, rfl, rfl, rfl, rfl, rfl, rfl⟩
        rfl fun isSource => (bounded isSource).trans (Nat.le_add_right _ _)
    · cases taken
  · have remains : state.announced task ≤
        (state.life.task task).decreaseRemovalBlockers.removalBlockers :=
      Nat.le_sub_one_of_lt (of_decide_eq_true may)
    simp only [Lifecycle.step] at taken
    repeat' split at taken
    · cases taken
      refine undisturbed_of_change invariant (fun _ => rfl) rfl ?_
        ⟨rfl, rfl, rfl, rfl, rfl, rfl, rfl⟩ rfl fun _ => remains
      intro activity member other
      cases List.mem_singleton.mp member
      rfl
    · cases taken
      exact undisturbed_of_change invariant (fun _ => rfl)
        (List.append_nil _).symm nothing ⟨rfl, rfl, rfl, rfl, rfl, rfl, rfl⟩
        rfl fun _ => remains
    · cases taken

/-- A task is created; if it is a source, its iterations are split. -/
theorem undisturbed_submit (invariant : Invariant config state)
    {parent child : TaskId} {hasWaitClause : Bool}
    (may : mayAct config state (.submit parent child hasWaitClause) = true)
    (fits : config.isSource child = true →
      ((config.bounds child).setChunksize config.partitionCount).Fits)
    (taken : Lifecycle.step config.ndebug state.life
      (.submit parent child hasWaitClause) = some life) :
    Undisturbed config state life := by
  simp only [mayAct, Bool.and_eq_true, Bool.not_eq_true', Bool.or_eq_true]
    at may
  obtain ⟨plain, clause⟩ := may
  simp only [Lifecycle.step] at taken
  split at taken
  case isFalse => cases taken
  case isTrue allowed =>
  obtain ⟨-, absent, differ⟩ := allowed
  obtain ⟨-, pristine⟩ := invariant.inv.pristine child absent
  have lifeIs := (Option.some.inj taken).symm
  have childTask : life.task child =
      { parent := some parent
        isCreated := true
        mustDelayRelease := hasWaitClause
        hasWaitClause := hasWaitClause } := by
    rw [lifeIs, Lifecycle.System.task_modifyTask, if_pos rfl]
  have parentTask : life.task parent =
      (state.life.task parent).addChild child := by
    rw [lifeIs, Lifecycle.System.task_modifyTask, if_neg differ.symm,
      Lifecycle.System.task_modifyTask, if_pos rfl,
      Lifecycle.System.task_uses]
  have otherTask : ∀ other, other ≠ child → other ≠ parent →
      life.task other = state.life.task other := by
    intro other notChild notParent
    rw [lifeIs, Lifecycle.System.task_modifyTask, if_neg notChild,
      Lifecycle.System.task_modifyTask, if_neg notParent,
      Lifecycle.System.task_uses]
  have activities : life.activities = state.life.activities := by
    rw [lifeIs]
    rfl
  have sourceTask : ∀ source, config.isSource source = true →
      source ≠ child → life.task source = state.life.task source := by
    intro source isSource notChild
    refine otherTask source notChild ?_
    rintro rfl
    rw [plain] at isSource
    cases isSource
  constructor
  · intro source isSource
    have lives := invariant.source source isSource
    by_cases isChild : source = child
    · subst isChild
      refine ⟨fun _ => ?_, ?_, ?_, ?_⟩
      · rw [childTask]
        rcases clause with waits | other
        · exact waits
        · rw [isSource] at other
          cases other
      · rw [childTask]
        intro impossible
        cases impossible
      · rw [activities]
        exact lives.quiet
      · rw [childTask]
        exact fun _ => rfl
    · refine lives.congr ?_ fun activity member => ?_
      · rw [sourceTask source isSource isChild]
        exact SameSource.refl _
      · rw [activities] at member
        exact Or.inl member
  · intro source _
    unfold bodies
    rw [activities]
  · intro source isSource
    by_cases isChild : source = child
    · subst isChild
      rw [childTask, (invariant.source source isSource).unstarted absent]
    · rw [sourceTask source isSource isChild]
  · intro source isSource
    by_cases isChild : source = child
    · rw [isChild, childTask, pristine.children]
    · rw [sourceTask source isSource isChild]
  · intro source isSource
    have bounded := invariant.announced source isSource
    by_cases isChild : source = child
    · subst isChild
      rw [pristine.blockers] at bounded
      exact bounded.trans (Nat.zero_le _)
    · rwa [sourceTask source isSource isChild]
  · intro source isSource some
    by_cases isChild : source = child
    · subst isChild
      have bounded := invariant.announced source isSource
      rw [pristine.blockers] at bounded
      omega
    · rw [sourceTask source isSource isChild]
      exact invariant.delays source isSource some
  · intro source isSource created
    by_cases isChild : source = child
    · subst isChild
      rw [invariant.fresh source isSource absent]
      obtain ⟨normal, -⟩ := Taskloop.Bounds.isNormal_setChunksize
        (config.normalized source) config.partitionCount
      exact ⟨fits isSource, Taskloop.Runs.initial normal (fits isSource)
        config.partitions.1 (config.partitions.2.trans (by decide)) rfl⟩
    · rw [sourceTask source isSource isChild] at created
      exact invariant.splits source isSource created
  · intro source isSource uncreated
    by_cases isChild : source = child
    · rw [isChild, childTask] at uncreated
      cases uncreated
    · rwa [sourceTask source isSource isChild] at uncreated
  · intro task collaboration here
    have notChild : task ≠ child := by
      rintro rfl
      rw [invariant.created_of_collaboration here] at absent
      cases absent
    by_cases isParent : task = parent
    · rw [isParent, parentTask]
      rfl
    · rw [otherTask task notChild isParent]
  · intro task works
    obtain ⟨collaboration, here, -⟩ := isCollaborating_iff.mp works
    obtain ⟨unfinished, outside⟩ := invariant.working task works
    have notChild : task ≠ child := by
      rintro rfl
      rw [invariant.created_of_collaboration here] at absent
      cases absent
    rw [activities]
    refine ⟨?_, outside⟩
    by_cases isParent : task = parent
    · rw [isParent, parentTask]
      rw [isParent] at unfinished
      exact unfinished
    · rw [otherTask task notChild isParent]
      exact unfinished

/-- The steps of the tasks in which the scheduler has no part. -/
theorem undisturbed_step (invariant : Invariant config state)
    {action : Lifecycle.Action} (may : mayAct config state action = true)
    (permitted : Permitted config state (.life action))
    (taken : Lifecycle.step config.ndebug state.life action = some life) :
    Undisturbed config state life := by
  cases action with
  | submit parent child hasWaitClause =>
      refine undisturbed_submit invariant may (fun isSource => ?_) taken
      simp only [Permitted, permits, isSource, Bool.not_true, Bool.false_or,
        Bool.and_eq_true, decide_eq_true_eq] at permitted
      exact permitted.2
  | start task =>
      exact undisturbed_start invariant (by simpa [mayAct] using may) taken
  | taskwait index => exact undisturbed_taskwait invariant may taken
  | finish index => exact undisturbed_finish invariant may taken
  | increaseEvents task amount =>
      exact undisturbed_counters invariant (Or.inl ⟨amount, rfl⟩) may taken
  | decreaseEvents task amount =>
      exact undisturbed_counters invariant (Or.inr (Or.inl ⟨amount, rfl⟩))
        may taken
  | increaseRemovalBlockers task =>
      exact undisturbed_counters invariant (Or.inr (Or.inr (Or.inl rfl))) may
        taken
  | decreaseRemovalBlockers task hasComputePlace =>
      exact undisturbed_counters invariant
        (Or.inr (Or.inr (Or.inr ⟨hasComputePlace, rfl⟩))) may taken
  | perform index accesses =>
      simp only [Lifecycle.step] at taken
      split at taken
      · rename_i activity found
        exact undisturbed_perform invariant found taken
      · cases taken

end Kept

end Nanos6.Finalization
