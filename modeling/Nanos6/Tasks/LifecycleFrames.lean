import Nanos6.Foundation.Pending
import Nanos6.Tasks.LifecycleRuns

/-!
# What the steps leave alone

The end of a task is a long sequence of steps, most of which change one flag or
one counter of one task.  Here it is said once which fields of a task a step may
change, and which activities may follow which.
-/

namespace Nanos6.Lifecycle

open Foundation

variable {system next : System} {index : Nat} {activity : Activity}
  {ndebug : Bool} {accesses : Nat}

/-- What a step of an activity does to a task. -/
structure Task.Follows (activity : Activity) (id : TaskId)
    (before after : Task) : Prop where
  parent : after.parent = before.parent
  children : after.children = before.children
  isCreated : after.isCreated = before.isCreated
  isStarted : after.isStarted = before.isStarted
  hasWaitClause : after.hasWaitClause = before.hasWaitClause
  removalBlockers : before.removalBlockers ≤ after.removalBlockers
  delays : after.mustDelayRelease = before.mustDelayRelease ∨
    ∃ caller, activity = .completeDelayedRelease id caller
  finishes : after.hasFinished = before.hasFinished ∨
    activity = .markAsFinished id
  blocks : after.blocksRemoval = before.blocksRemoval ∨
    after.blocksRemoval = true ∨ activity = .markAsBlocked id ∨
    activity = .delayRelease id ∨ ∃ caller, activity = .markAsReleased id caller

theorem Task.Follows.refl (activity : Activity) (id : TaskId) (task : Task) :
    task.Follows activity id task :=
  ⟨rfl, rfl, rfl, rfl, rfl, le_rfl, Or.inl rfl, Or.inl rfl, Or.inl rfl⟩

/-- One task changes. -/
theorem follows_modifyTask (system : System) (task id : TaskId)
    {change : Task → Task} (activity : Activity)
    (follows : (system.task task).Follows activity task
      (change (system.task task))) :
    (system.task id).Follows activity id
      ((system.modifyTask task change).task id) := by
  rw [System.task_modifyTask]
  split
  · rename_i same
    subst same
    exact follows
  · exact Task.Follows.refl activity id _

theorem perform_follows
    (performed : perform ndebug system index accesses activity = some next)
    (id : TaskId) :
    (system.task id).Follows activity id (next.task id) := by
  cases activity with
  | body task => cases performed
  | markAsBlocked task =>
      cases performed
      rw [System.task_goesOn]
      refine follows_modifyTask (system.uses task) task id _ ?_
      exact ⟨rfl, rfl, rfl, rfl, rfl, le_rfl, Or.inl rfl, Or.inl rfl,
        Or.inr (Or.inr (Or.inl rfl))⟩
  | markAsUnblocked task =>
      cases performed
      rw [System.task_goesOn]
      refine follows_modifyTask (system.uses task) task id _ ?_
      exact ⟨rfl, rfl, rfl, rfl, rfl, le_rfl, Or.inl rfl, Or.inl rfl,
        Or.inr (Or.inl rfl)⟩
  | markAsFinished task =>
      cases performed
      rw [System.task_goesOn]
      refine follows_modifyTask (system.uses task) task id _ ?_
      exact ⟨rfl, rfl, rfl, rfl, rfl, le_rfl, Or.inl rfl, Or.inr rfl,
        Or.inl rfl⟩
  | delayRelease task =>
      cases performed
      rw [System.task_goesOn]
      refine follows_modifyTask (system.uses task) task id _ ?_
      exact ⟨rfl, rfl, rfl, rfl, rfl, le_rfl, Or.inl rfl, Or.inl rfl,
        Or.inr (Or.inr (Or.inr (Or.inl rfl)))⟩
  | completeDelayedRelease task caller =>
      cases performed
      rw [System.task_goesOn]
      refine follows_modifyTask (system.uses task) task id _ ?_
      exact ⟨rfl, rfl, rfl, rfl, rfl, le_rfl, Or.inr ⟨caller, rfl⟩,
        Or.inl rfl, Or.inl rfl⟩
  | handleExitTaskwait task caller =>
      cases performed
      rw [System.task_goesOn]
      refine follows_modifyTask (system.uses task) task id _ ?_
      exact ⟨rfl, rfl, rfl, rfl, rfl, Nat.le_add_right _ _, Or.inl rfl,
        Or.inl rfl, Or.inl rfl⟩
  | increaseRemovalBlockingCount task caller =>
      cases performed
      rw [System.task_goesOn]
      refine follows_modifyTask (system.uses task) task id _ ?_
      exact ⟨rfl, rfl, rfl, rfl, rfl, le_rfl, Or.inl rfl, Or.inl rfl,
        Or.inr (Or.inl rfl)⟩
  | decreaseReleaseCount task caller =>
      cases performed
      rw [System.task_goesOn]
      refine follows_modifyTask (system.uses task) task id _ ?_
      exact ⟨rfl, rfl, rfl, rfl, rfl, le_rfl, Or.inl rfl, Or.inl rfl,
        Or.inl rfl⟩
  | unregisterTaskDataAccesses task caller =>
      cases performed
      rw [System.task_goesOn]
      refine follows_modifyTask (system.uses task) task id _ ?_
      exact ⟨rfl, rfl, rfl, rfl, rfl, le_rfl, Or.inl rfl, Or.inl rfl,
        Or.inl rfl⟩
  | markAsReleased task caller =>
      cases performed
      rw [System.task_goesOn]
      refine follows_modifyTask (system.uses task) task id _ ?_
      exact ⟨rfl, rfl, rfl, rfl, rfl, le_rfl, Or.inl rfl, Or.inl rfl,
        Or.inr (Or.inr (Or.inr (Or.inr ⟨caller, rfl⟩)))⟩
  | assertReleased task readyOrDisposable hasComputePlace =>
      cases performed
      exact Task.Follows.refl _ id _
  | disposeOrUnblockTask task hasComputePlace =>
      simp only [perform] at performed
      repeat' split at performed
      all_goals cases performed
      all_goals exact Task.Follows.refl _ id _
  | unlinkFromParent task hasComputePlace =>
      have unlinks : (system.task id).Follows
          (.unlinkFromParent task hasComputePlace) id
          (((system.uses task).modifyTask task fun current =>
            { current with isUnlinked := true }).task id) :=
        follows_modifyTask (system.uses task) task id _
          ⟨rfl, rfl, rfl, rfl, rfl, le_rfl, Or.inl rfl, Or.inl rfl,
            Or.inl rfl⟩
      simp only [perform] at performed
      split at performed
      · cases performed
        exact unlinks
      · rename_i parent above
        cases performed
        rw [System.task_goesOn, System.task_modifyTask]
        split
        · rename_i same
          subst same
          exact ⟨unlinks.parent, unlinks.children, unlinks.isCreated,
            unlinks.isStarted, unlinks.hasWaitClause, unlinks.removalBlockers,
            unlinks.delays, unlinks.finishes, unlinks.blocks⟩
        · exact unlinks
  | free task following hasComputePlace =>
      cases performed
      rw [System.task_goesOn]
      refine follows_modifyTask (system.uses task) task id _ ?_
      exact ⟨rfl, rfl, rfl, rfl, rfl, le_rfl, Or.inl rfl, Or.inl rfl,
        Or.inl rfl⟩

/-- The activities at which a task is in its body, or leaves it. -/
def Activity.isInside (task : TaskId) : Activity → Bool
  | .body other => other = task
  | .markAsBlocked other => other = task
  | .markAsUnblocked other => other = task
  | .markAsFinished other => other = task
  | _ => false

theorem isInside_leave (ndebug : Bool) (task id : TaskId) (caller : Caller) :
    ∀ other ∈ leave ndebug task caller, other.isInside id = false := by
  cases caller with
  | disposeOrUnblockTask =>
      cases ndebug <;> simp [leave, leaveWaitClause, Activity.isInside]
  | _ => simp [leave]

theorem isInside_dispose (ndebug : Bool) (task id : TaskId)
    (caller : Caller) :
    ∀ other ∈ dispose ndebug task caller, other.isInside id = false := by
  cases caller with
  | disposeOrUnblockTask =>
      cases ndebug <;> simp [dispose, leaveWaitClause, Activity.isInside]
  | _ => simp [dispose, Activity.isInside]

theorem isInside_continueWith (id : TaskId) (hasComputePlace : Bool)
    (following : Option TaskId) :
    ∀ other ∈ continueWith hasComputePlace following,
      other.isInside id = false := by
  cases following <;> simp [continueWith, Activity.isInside]

/-- A task that does not wait and is not woken up does not get back to its body;
no other activity leads into it. -/
theorem perform_activities
    (performed : perform ndebug system index accesses activity = some next) :
    ∃ new, next.activities = replaceAt system.activities index new ∧
      ∀ task, ∀ other ∈ new, other.isInside task = true →
        (other = .body task ∧ activity = .markAsUnblocked task) ∨
        (other = .markAsUnblocked task ∧
          (activity = .markAsBlocked task ∨
            (∃ hasComputePlace,
              activity = .disposeOrUnblockTask task hasComputePlace) ∧
              (system.task task).hasFinished = false)) := by
  cases activity with
  | body task => cases performed
  | markAsBlocked task =>
      cases performed
      refine ⟨_, rfl, ?_⟩
      intro id other member inside
      split at member
      · obtain rfl := List.mem_singleton.mp member
        obtain rfl := of_decide_eq_true inside
        exact Or.inr ⟨rfl, Or.inl rfl⟩
      · cases member
  | markAsUnblocked task =>
      cases performed
      refine ⟨_, rfl, ?_⟩
      intro id other member inside
      obtain rfl := List.mem_singleton.mp member
      obtain rfl := of_decide_eq_true inside
      exact Or.inl ⟨rfl, rfl⟩
  | disposeOrUnblockTask task hasComputePlace =>
      simp only [perform] at performed
      split at performed
      · repeat' split at performed
        all_goals cases performed
        all_goals refine ⟨_, rfl, ?_⟩
        all_goals simp [Activity.isInside]
      · rename_i unfinished
        cases performed
        refine ⟨_, rfl, ?_⟩
        intro id other member inside
        obtain rfl := List.mem_singleton.mp member
        obtain rfl := of_decide_eq_true inside
        exact Or.inr ⟨rfl, Or.inr ⟨⟨hasComputePlace, rfl⟩,
          Bool.eq_false_iff.mpr unfinished⟩⟩
  | unlinkFromParent task hasComputePlace =>
      simp only [perform] at performed
      split at performed
      · cases performed
        refine ⟨_, rfl, ?_⟩
        intro id other member inside
        obtain rfl := List.mem_singleton.mp member
        cases inside
      · cases performed
        refine ⟨_, rfl, ?_⟩
        intro id other member inside
        obtain rfl := List.mem_singleton.mp member
        cases inside
  | _ =>
      cases performed
      refine ⟨_, rfl, ?_⟩
      intro id other member inside
      refine absurd inside ?_
      rw [Bool.not_eq_true]
      clear inside
      revert other
      repeat' split
      all_goals first
        | exact isInside_leave ndebug _ id _
        | exact isInside_dispose ndebug _ id _
        | exact isInside_continueWith id _ _
        | simp [Activity.isInside]

end Nanos6.Lifecycle
