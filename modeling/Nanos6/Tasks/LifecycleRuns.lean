import Nanos6.Tasks.LifecycleInvariant

/-!
# Runs of the life cycle

The two orders in which the end of a task goes wrong are left out of the runs
considered here, and so are a wait clause that is completed without a compute
place and an event counter that overflows; in all other runs the parties agree on
who unregisters the accesses of a task and who frees it.
-/

namespace Nanos6.Lifecycle

open Foundation

/-- The thread has counted the accesses of the task again but not yet the task
itself. -/
def Activity.restores (task : TaskId) : Activity → Bool
  | .increaseRemovalBlockingCount other _ => other == task
  | _ => false

/-- The last removal blocker must not go while a thread completes the wait
clause and has not counted the task itself again.  The assertion of
`disposeOrUnblockTask` must not look at a task that another thread has
freed, and with the assertions the wait clause must not be completed without a
compute place.  The counter of events must not overflow. -/
def permits (ndebug : Bool) (system : System) : Action → Bool
  | .increaseEvents task amount =>
      (system.task task).countdownToRelease + amount < 2 ^ 31
  | .decreaseRemovalBlockers task _ =>
      !system.activities.any (Activity.restores task) ||
        (system.task task).countdownToBeWokenUp != 1
  | .perform index _ =>
      match system.activities[index]? with
      | some (.assertReleased task _ _) => !(system.task task).isFreed
      | some (.disposeOrUnblockTask task hasComputePlace) =>
          ndebug || hasComputePlace || !(system.task task).hasFinished ||
            !(system.task task).mustDelayRelease
      | _ => true
  | _ => true

def Permitted (ndebug : Bool) (system : System) (action : Action) : Prop :=
  permits ndebug system action = true

instance (ndebug : Bool) (system : System) (action : Action) :
    Decidable (Permitted ndebug system action) :=
  inferInstanceAs (Decidable (permits ndebug system action = true))

/-- A thread that completes a wait clause has a compute place, or the assertions
are left out. -/
theorem Permitted.present {system : System} {ndebug : Bool}
    {index accesses : Nat} {task : TaskId} {hasComputePlace : Bool}
    (permitted : Permitted ndebug system (.perform index accesses))
    (found : system.activities[index]? =
      some (.disposeOrUnblockTask task hasComputePlace))
    (finished : (system.task task).hasFinished = true)
    (delays : (system.task task).mustDelayRelease = true) :
    (ndebug || hasComputePlace) = true := by
  simpa [Permitted, permits, found, finished, delays] using permitted

theorem Inv.step {system next : System} (inv : Inv system) {ndebug : Bool}
    {action : Action} (permitted : Permitted ndebug system action)
    (taken : step ndebug system action = some next) : Inv next := by
  cases action with
  | submit parent child hasWaitClause => exact inv.submit taken
  | start task => exact inv.start taken
  | taskwait index => exact inv.taskwait taken
  | finish index => exact inv.finish taken
  | increaseEvents task amount =>
      exact inv.increaseEvents (of_decide_eq_true permitted) taken
  | decreaseEvents task amount => exact inv.decreaseEvents taken
  | increaseRemovalBlockers task => exact inv.increaseRemovalBlockers taken
  | decreaseRemovalBlockers task hasComputePlace =>
      refine inv.decreaseRemovalBlockers ?_ taken
      intro caller restores
      simp only [Permitted, permits, Bool.or_eq_true, Bool.not_eq_true',
        List.any_eq_false, bne_iff_ne] at permitted
      rcases permitted with none | differ
      · exact absurd (by simp [Activity.restores]) (none _ restores)
      · exact differ
  | perform index accesses =>
      simp only [Lifecycle.step] at taken
      split at taken
      · rename_i activity found
        refine inv.perform found ?_ ?_ rfl taken
        · intro readyOrDisposable hasComputePlace isAssertion
          have assertion := found
          rw [isAssertion] at assertion
          simpa [Permitted, permits, assertion] using permitted
        · intro hasComputePlace disposes
          rw [disposes] at found
          exact permitted.present found
      · cases taken

theorem Inv.initial (main : TaskId) : Inv (initialSystem main) := by
  have other : ∀ task, task ≠ main →
      (initialSystem main).task task = {} := by
    intro task differ
    simp [initialSystem, differ]
  have here : (initialSystem main).task main =
      { isCreated := true, isStarted := true } := by
    simp [initialSystem]
  have noChildren : ∀ task,
      ((initialSystem main).task task).children = [] ∧
        ((initialSystem main).task task).parent = none := by
    intro task
    by_cases isMain : task = main
    · rw [isMain, here]
      exact ⟨rfl, rfl⟩
    · rw [other task isMain]
      exact ⟨rfl, rfl⟩
  refine ⟨?_, ?_, ?_, ?_, ?_, rfl⟩
  · intro task parent
    rw [(noChildren parent).1, (noChildren task).2]
    simp
  · intro task
    rw [(noChildren task).1]
    exact List.nodup_nil
  · intro task
    rw [(noChildren task).2]
    simp
  · intro task created
    have isMain : task = main := by
      by_contra differ
      rw [other task differ] at created
      cases created
    subst isMain
    have childless : (initialSystem task).undisposed task = 0 := by
      simp [System.undisposed, here]
    rw [childless, here]
    refine ⟨.young, ?_, Or.inr ⟨.body task, ?_, rfl⟩⟩
    · exact
        { created := rfl
          started := fun later => absurd rfl later
          finished := rfl
          delays := rfl
          waits := fun waits => by cases waits
          blocksRelease := rfl
          unregistrations := rfl
          unlinked := rfl
          isFreed := rfl
          frees := rfl
          childless := fun past => by cases past
          events := fun fulfilled => by cases fulfilled
          awaits := fun awaits => by cases awaits
          countdown := rfl
          release := rfl
          fits := by decide }
    · simp [System.drivers, initialSystem, Activity.drives, Activity.task]
  · intro task absent
    have differ : task ≠ main := by
      rintro rfl
      rw [here] at absent
      cases absent
    rw [other task differ]
    refine ⟨?_, by constructor <;> rfl⟩
    simp [System.drivers, initialSystem, Activity.drives, Activity.task,
      differ]

theorem inv_of_run {ndebug : Bool} {main : TaskId} {system : System}
    (run : Run (step ndebug) (Permitted ndebug) (initialSystem main)
      system) : Inv system :=
  run.invariant (Inv.initial main) fun _ _ _ inv permitted taken =>
    inv.step permitted taken

/-- Only a wait clause that is completed without a compute place fails. -/
theorem lacksComputePlace_perform {system next : System} {ndebug : Bool}
    {index accesses : Nat} {activity : Activity}
    (present : ∀ task hasComputePlace,
      activity = .disposeOrUnblockTask task hasComputePlace →
      (system.task task).hasFinished = true →
      (system.task task).mustDelayRelease = true →
        (ndebug || hasComputePlace) = true)
    (performed : perform ndebug system index accesses activity =
      some next) :
    next.lacksComputePlace = system.lacksComputePlace := by
  cases activity with
  | body task => cases performed
  | disposeOrUnblockTask task hasComputePlace =>
      simp only [perform] at performed
      split at performed
      · rename_i finished
        split at performed
        · rename_i delays
          rw [if_pos (present task hasComputePlace rfl finished delays)]
            at performed
          cases performed
          rfl
        · cases performed
          rfl
      · cases performed
        rfl
  | unlinkFromParent task hasComputePlace =>
      simp only [perform] at performed
      split at performed
      · cases performed
        rfl
      · cases performed
        rfl
  | _ =>
      cases performed
      rfl

theorem lacksComputePlace_step {system next : System} {ndebug : Bool}
    {action : Action} (permitted : Permitted ndebug system action)
    (taken : step ndebug system action = some next) :
    next.lacksComputePlace = system.lacksComputePlace := by
  cases action with
  | perform index accesses =>
      simp only [step] at taken
      split at taken
      · rename_i activity found
        refine lacksComputePlace_perform ?_ taken
        intro task hasComputePlace disposes
        rw [disposes] at found
        exact permitted.present found
      · cases taken
  | _ =>
      simp only [step] at taken
      repeat' split at taken
      all_goals cases taken
      all_goals rfl

theorem lacksComputePlace_of_run {ndebug : Bool} {main : TaskId}
    {system : System}
    (run : Run (step ndebug) (Permitted ndebug) (initialSystem main)
      system) : system.lacksComputePlace = false := by
  induction run with
  | refl => rfl
  | tail _ permitted taken inductionHypothesis =>
      rw [lacksComputePlace_step permitted taken]
      exact inductionHypothesis

/-- Every child of the task has been removed from it. -/
def System.Childless (system : System) (task : TaskId) : Prop :=
  ∀ child ∈ (system.task task).children,
    (system.task child).isUnlinked = true

/-- What is wanted of the end of a task.  The last two fields say that nothing
is forgotten: they are about a task that no thread drives. -/
structure System.LivesProperly (system : System) (task : TaskId) : Prop where
  unregistered_le : (system.task task).unregistrations ≤ 1
  unregistered : (system.task task).unregistrations = 1 →
    (system.task task).hasFinished = true ∧ (system.task task).events = 0 ∧
      ((system.task task).hasWaitClause = true → system.Childless task)
  frees_le : (system.task task).frees ≤ 1
  frees : (system.task task).frees = 1 →
    (system.task task).unregistrations = 1 ∧ system.Childless task ∧
      (system.task task).removalBlockers = 0
  countdown : 0 ≤ (system.task task).countdownToBeWokenUp
  release : 0 ≤ (system.task task).countdownToRelease
  unregisters : system.drivers task = [] →
    (system.task task).hasFinished = true → (system.task task).events = 0 →
    ((system.task task).hasWaitClause = true →
      system.Childless task ∧ (system.task task).removalBlockers = 0) →
    (system.task task).unregistrations = 1
  isFreed : system.drivers task = [] →
    (system.task task).unregistrations = 1 → system.Childless task →
    (system.task task).removalBlockers = 0 → (system.task task).frees = 1

theorem System.undisposed_eq_zero {system : System} {task : TaskId} :
    system.undisposed task = 0 ↔ system.Childless task := by
  simp [System.undisposed, System.Childless, List.countP_eq_zero]

/-- A freed task has nothing left to wait for. -/
theorem isOver_of_freed {drivers : List Activity} {id : TaskId}
    {undisposed : Nat} {task : Task} (stands : Stands drivers id undisposed task)
    (freed : task.frees = 1) :
    task.isOver undisposed = true ∧ task.unregistrations = 1 := by
  obtain ⟨stage, here, situation⟩ := stands
  have isFreed : stage = .freed := by
    by_contra differ
    have none := here.frees
    rw [freed, beq_eq_false_iff_ne.mpr differ] at none
    cases none
  subst isFreed
  refine ⟨?_, here.unregistrations⟩
  rcases situation with ⟨-, rests⟩ | ⟨driver, -, fits⟩
  · simp only [Stage.rests, Bool.and_eq_true] at rests
    exact rests.2
  · exact absurd rfl (Activity.fits_ne_freed fits)

theorem livesProperly_of_inv {system : System} (inv : Inv system)
    (task : TaskId) : system.LivesProperly task := by
  cases created : (system.task task).isCreated with
  | false =>
      obtain ⟨-, pristine⟩ := inv.pristine task created
      have none := pristine.unregistrations
      have kept := pristine.frees
      have countdown := pristine.countdown
      have release := pristine.release
      have running := pristine.finished
      refine ⟨by omega, ?_, by omega, ?_, by omega, by omega, ?_, ?_⟩
      · intro once
        omega
      · intro once
        omega
      · intro _ finished
        rw [running] at finished
        cases finished
      · intro _ once
        omega
  | true =>
      have stands := inv.stands task created
      obtain ⟨stage, here, situation⟩ := inv.stands task created
      have counted := here.unregistrations
      have freed := here.frees
      have countdown := here.countdown
      have release := here.release
      have unregisteredIff : (system.task task).unregistrations = 1 ↔
          stage.isUnregistered = true := by
        rw [counted]
        cases stage.isUnregistered <;> simp
      refine ⟨?_, ?_, ?_, ?_, by omega, by omega, ?_, ?_⟩
      · rw [counted]
        exact Bool.toNat_le _
      · intro once
        have late := unregisteredIff.mp once
        refine ⟨?_, here.events ?_, fun waits => ?_⟩
        · rw [here.finished]
          cases stage <;> simp_all [Stage.isUnregistered, Stage.isFinished]
        · cases stage <;> simp_all [Stage.isUnregistered, Stage.isFulfilled]
        · rw [← System.undisposed_eq_zero]
          refine here.childless ?_ waits
          cases stage <;> simp_all [Stage.isUnregistered, Stage.isPastWait]
      · rw [freed]
        exact Bool.toNat_le _
      · intro once
        obtain ⟨isOver, unregistered⟩ := isOver_of_freed stands once
        obtain ⟨childless, unblocked⟩ := Inv.isOver_iff.mp isOver
        exact ⟨unregistered, System.undisposed_eq_zero.mp childless,
          unblocked⟩
      · intro undriven finished fulfilled waited
        rcases situation with ⟨-, rests⟩ | ⟨driver, only, -⟩
        · rw [unregisteredIff]
          cases stage with
          | young =>
              rw [here.finished] at finished
              cases finished
          | delayed =>
              obtain ⟨childless, unblocked⟩ := waited (here.waits rfl)
              have isOver : (system.task task).isOver
                  (system.undisposed task) = true :=
                Inv.isOver_iff.mpr
                  ⟨System.undisposed_eq_zero.mpr childless, unblocked⟩
              simp [Stage.rests, isOver] at rests
          | awaiting =>
              have left := here.awaits rfl
              omega
          | restoring => cases rests
          | restored => cases rests
          | fulfilled => cases rests
          | unregistered => rfl
          | unlinked => cases rests
          | freed => rfl
        · rw [undriven] at only
          cases only
      · intro undriven once childless unblocked
        have late := unregisteredIff.mp once
        have isOver : (system.task task).isOver (system.undisposed task) =
            true :=
          Inv.isOver_iff.mpr
            ⟨System.undisposed_eq_zero.mpr childless, unblocked⟩
        rcases situation with ⟨-, rests⟩ | ⟨driver, only, -⟩
        · rw [freed]
          cases stage <;>
            simp_all [Stage.rests, Stage.isUnregistered]
        · rw [undriven] at only
          cases only

/-- In every run of any number of tasks, with or without the assertions, that
avoids what is left out every task comes to its end as it should, no thread
uses a freed task and none lacks a compute place. -/
theorem livesProperly_of_run {ndebug : Bool} {main : TaskId} {system : System}
    (run : Run (step ndebug) (Permitted ndebug) (initialSystem main)
      system) :
    (∀ task, system.LivesProperly task) ∧ system.usedAfterFree = false ∧
      system.lacksComputePlace = false := by
  exact ⟨livesProperly_of_inv (inv_of_run run), (inv_of_run run).unused,
    lacksComputePlace_of_run run⟩

/-- A task with a wait clause finishes before its child, which waits for an
event; the child and then the accesses complete the clause. -/
theorem livesProperly_wait_clause :
    ∃ system,
      Run (step false) (Permitted false) (initialSystem 0) system ∧
        (system.task 1).frees = 1 ∧
        (∀ task, system.LivesProperly task) ∧
        system.usedAfterFree = false ∧
        system.lacksComputePlace = false := by
  obtain ⟨system, run, freed⟩ :=
    exists_run_of_executeAllowed
      ([.submit 0 1 true, .increaseRemovalBlockers 1, .start 1,
        .submit 1 2 false, .start 2, .increaseEvents 2 1, .finish 1,
        .perform 1 0, .perform 1 0, .finish 1, .perform 1 0, .perform 1 0,
        .decreaseEvents 2 1, .perform 1 0, .perform 1 0, .perform 1 0,
        .perform 1 0, .decreaseRemovalBlockers 1 true, .perform 1 0,
        .perform 1 0, .perform 1 0, .perform 1 1, .perform 1 0, .perform 1 0,
        .perform 1 0, .perform 1 0, .perform 1 0,
        .decreaseRemovalBlockers 1 true, .perform 1 0, .perform 1 0,
        .perform 1 0] : List Action)
      (initialSystem 0) (fun system => (system.task 1).frees == 1)
      (by decide +kernel : (executeAllowed (step false) (Permitted false)
        (initialSystem 0) _).any _ = true)
  exact ⟨system, run, by simpa using freed, livesProperly_of_run run⟩

/-- The task has released its accesses before its body ends, so the accesses
that `handleExitTaskwait` counts again can go at once: the thread that takes
them back frees a task whose accesses have not been unregistered, and the
thread that completes the wait clause then uses it. -/
theorem livesProperly_fails :
    ¬ ∀ system : System,
      Run (step true) (fun _ _ => True) (initialSystem 0) system →
        (∀ task, system.LivesProperly task) ∧
          system.usedAfterFree = false ∧
          system.lacksComputePlace = false := by
  intro always
  obtain ⟨system, run, wrong⟩ :=
    exists_run_of_executeAllowed
      ([.submit 0 1 true, .increaseRemovalBlockers 1, .start 1, .finish 1,
        .perform 1 0, .decreaseRemovalBlockers 1 true, .perform 1 0,
        .perform 1 0, .perform 1 1, .decreaseRemovalBlockers 1 true, .perform 2 0,
        .perform 2 0, .perform 2 0, .perform 1 0] : List Action)
      (initialSystem 0)
      (fun system =>
        (system.task 1).frees == 1 && (system.task 1).unregistrations == 0 &&
          system.usedAfterFree)
      (by decide +kernel : (executeAllowed (step true) (fun _ _ => True)
        (initialSystem 0) _).any _ = true)
  simp only [Bool.and_eq_true, beq_iff_eq] at wrong
  have lives := (always system run).1 1
  have unregistered := (lives.frees wrong.1.1).1
  rw [wrong.1.2] at unregistered
  cases unregistered

end Nanos6.Lifecycle
