import Nanos6.Scheduling.ConservationRuns
import Nanos6.Scheduling.Wakeups

/-!
# No task is in two places

A waiting call may leave its polling slot too early, and the task in it is then
lost.  A run may lose tasks, but it never has one twice: a task that is
somewhere in the scheduler has been added once more than it has been returned,
and is in no second place.  A task that is added again is therefore nowhere.
-/

namespace Nanos6.Scheduling

open Foundation

/-! ## What a step does -/

/-- The arguments of the call, as long as it looks for a place for its task. -/
def Call.addition : Call → Option Addition
  | .addReadyTask add => some add
  | .takePollingSlot add => some add
  | .lockGlobal add => some add
  | _ => none

/-- A step that moves no task; the call may drop the one in its hands. -/
structure Quiet (system : System) (id : CallId) (call : Call)
    (new : Option Call) (next : System) : Prop where
  calls : next.call = Function.update system.call id new
  carries : new.bind Call.carries = none ∨
    new.bind Call.carries = call.carries
  addition : new.bind Call.addition = none ∨
    new.bind Call.addition = call.addition
  pushes : Wakeups.pushKey call = none ∧
    new.bind Wakeups.pushKey = none
  stores : new.bind Call.stores = none ∨
    new.bind Call.stores = system.pollingSlot
  tasks : next.classes = system.classes ∧ next.slot = system.slot ∧
    next.schedulerData = system.schedulerData ∧
    next.priority = system.priority
  slots : next.nextSlot = system.nextSlot ∧
    (next.pollingSlot = system.pollingSlot ∨ next.pollingSlot = none)
  history : next.adds = system.adds ∧ next.returns = system.returns

/-- A step that is not quiet does one thing, in the calls that can do it. -/
inductive Effect (system : System) (id : CallId) : Call → System → Prop
  | quiet {call : Call} {new : Option Call} {next : System} :
      Quiet system id call new next → Effect system id call next
  | succeeds {add : Addition} {cpu : CPU} :
      Effect system id (.addReadyTask add)
        ({ system with
          schedulerData :=
            Function.update system.schedulerData cpu (some add.task) }.ends
          id)
  | fills {add : Addition} {slot : SlotId} {locked globalLocked : Bool} :
      Effect system id (.storeTask add slot locked)
        ({ system with
          slot := Function.update system.slot slot (some add.task)
          globalLocked := globalLocked }.ends id)
  | locks {add : Addition} {next : System} :
      system.locksClass id add.computePlace add.task (negated add.priority)
        add.hint.pushesFront add.doGetIdle = some next →
      Effect system id (.lockGlobal add) next
  | queues {cpu : CPU} {task : TaskId} {next : System} :
      system.locksClass id (some cpu) task (negated (system.priority task))
        false false = some next →
      Effect system id (.queueDisabled cpu task) next
  | pushes {computePlace : Option CPU} {task : TaskId} {key : Int}
      {front doGetIdle : Bool} {new : Option Call} :
      new.bind Call.carries = none → new.bind Call.addition = none →
      new.bind Wakeups.pushKey = none → new.bind Call.stores = none →
      Effect system id (.pushTask computePlace task key front doGetIdle)
        ({ system.recordsQueued task with
          classes :=
            withClass key (PriorityClass.push front task)
              system.classes }.setCall id new)
  | gets {cpu : CPU} {chosen : System} {task : Option TaskId} :
      system.chooseTask cpu = some (chosen, task) →
      Effect system id (.getReadyTask cpu)
        (match task with
        | none => (chosen.idles cpu).ends id
        | some task => chosen.returnsTask id (some task))
  | polls {cpu : CPU} {chosen : System} {task : TaskId} :
      system.chooseTask cpu = some (chosen, some task) →
      Effect system id (.requestPolling cpu)
        { { chosen with nextSlot := chosen.nextSlot + 1 }.goesOn id
            (.testTask cpu chosen.nextSlot none) with
          slot :=
            Function.update chosen.slot chosen.nextSlot (some task) }
  | registers {cpu : CPU} {chosen : System} :
      system.chooseTask cpu = some (chosen, none) →
      Effect system id (.requestPolling cpu)
        { { chosen with nextSlot := chosen.nextSlot + 1 }.goesOn id
            (.testTask cpu chosen.nextSlot none) with
          pollingSlot := some chosen.nextSlot }
  | idles {cpu : CPU} {chosen : System} :
      system.chooseTask cpu = some (chosen, none) →
      Effect system id (.requestPolling cpu) ((chosen.idles cpu).ends id)
  | takes {cpu : CPU} {slot : SlotId} :
      Effect system id (.getTask cpu slot)
        ({ system with
          slot := Function.update system.slot slot none }.goesOn id
          (.testTask cpu slot (system.slot slot)))
  | returns {cpu : CPU} {slot : SlotId} {task : TaskId} :
      Effect system id (.checkAcceptsWork cpu slot (some task))
        (system.returnsTask id (some task))
  | leaves {cpu : CPU} {slot : SlotId} {task : Option TaskId} :
      Effect system id (.lastGetTask cpu slot task)
        ({ system with
          slot := Function.update system.slot slot none }.returnsTask id
          (system.slot slot))
  | disables {cpu : CPU} {task : TaskId} :
      system.schedulerData cpu = some task →
      Effect system id (.disableComputePlace cpu)
        ({ system with
          schedulerData :=
            Function.update system.schedulerData cpu none }.goesOn id
          (.queueDisabled cpu task))

section Effects

variable {system next : System} {id : CallId}

/-- The call goes on, or ends, and touches nothing that matters here. -/
theorem Effect.goesOn {call new : Call}
    (calls : next.call = Function.update system.call id (some new))
    (carries : new.carries = call.carries)
    (addition : new.addition = none ∨ new.addition = call.addition)
    (pushes : Wakeups.pushKey call = none ∧ Wakeups.pushKey new = none)
    (stores : new.stores = none ∨ new.stores = system.pollingSlot)
    (tasks : next.classes = system.classes ∧ next.slot = system.slot ∧
      next.schedulerData = system.schedulerData ∧
      next.priority = system.priority)
    (slots : next.nextSlot = system.nextSlot ∧
      (next.pollingSlot = system.pollingSlot ∨ next.pollingSlot = none))
    (history : next.adds = system.adds ∧ next.returns = system.returns) :
    Effect system id call next :=
  .quiet
    { calls, carries := Or.inr carries, addition, pushes, stores, tasks,
      slots, history }

theorem Effect.ends {call : Call}
    (calls : next.call = Function.update system.call id none)
    (pushes : Wakeups.pushKey call = none)
    (tasks : next.classes = system.classes ∧ next.slot = system.slot ∧
      next.schedulerData = system.schedulerData ∧
      next.priority = system.priority)
    (slots : next.nextSlot = system.nextSlot ∧
      (next.pollingSlot = system.pollingSlot ∨ next.pollingSlot = none))
    (history : next.adds = system.adds ∧ next.returns = system.returns) :
    Effect system id call next :=
  .quiet
    { calls, carries := Or.inl rfl, addition := Or.inl rfl,
      pushes := ⟨pushes, rfl⟩,
      stores := Or.inl rfl, tasks, slots, history }

theorem effect_of_perform {call : Call}
    (performed : perform system id call = some next) :
    Effect system id call next := by
  have same : system.pollingSlot = system.pollingSlot ∨
      system.pollingSlot = none := Or.inl rfl
  cases call with
  | addReadyTask add =>
      simp only [perform] at performed
      split at performed
      · cases performed
        exact .goesOn rfl rfl (Or.inr rfl) ⟨rfl, rfl⟩ (Or.inl rfl)
          ⟨rfl, rfl, rfl, rfl⟩ ⟨rfl, same⟩ ⟨rfl, rfl⟩
      · split at performed
        · cases performed
          exact .succeeds
        · cases performed
          exact .goesOn rfl rfl (Or.inr rfl) ⟨rfl, rfl⟩ (Or.inl rfl)
            ⟨rfl, rfl, rfl, rfl⟩ ⟨rfl, same⟩ ⟨rfl, rfl⟩
  | takePollingSlot add =>
      simp only [perform] at performed
      split at performed
      · rename_i slot registered
        cases performed
        exact .goesOn rfl rfl (Or.inl rfl) ⟨rfl, rfl⟩ (Or.inr registered.symm)
          ⟨rfl, rfl, rfl, rfl⟩ ⟨rfl, Or.inr rfl⟩ ⟨rfl, rfl⟩
      · cases performed
        exact .goesOn rfl rfl (Or.inr rfl) ⟨rfl, rfl⟩ (Or.inl rfl)
          ⟨rfl, rfl, rfl, rfl⟩ ⟨rfl, same⟩ ⟨rfl, rfl⟩
  | lockGlobal add =>
      simp only [perform] at performed
      split at performed
      · cases performed
      · split at performed
        · rename_i slot registered
          cases performed
          exact .goesOn rfl rfl (Or.inl rfl) ⟨rfl, rfl⟩ (Or.inr registered.symm)
            ⟨rfl, rfl, rfl, rfl⟩ ⟨rfl, Or.inr rfl⟩ ⟨rfl, rfl⟩
        · exact .locks performed
  | storeTask add slot locked =>
      simp only [perform] at performed
      split at performed
      · cases performed
        exact .fills
      · -- The slot is full, and the task is lost.
        cases performed
        exact .ends rfl rfl ⟨rfl, rfl, rfl, rfl⟩ ⟨rfl, same⟩ ⟨rfl, rfl⟩
  | pushTask computePlace task key front doGetIdle =>
      simp only [perform] at performed
      split at performed
      · cases performed
        exact .pushes rfl rfl rfl rfl
      · cases performed
        exact .pushes rfl rfl rfl rfl
  | getIdleCPU computePlace task =>
      simp only [perform] at performed
      split at performed
      · cases performed
        exact .ends rfl rfl ⟨rfl, rfl, rfl, rfl⟩ ⟨rfl, same⟩ ⟨rfl, rfl⟩
      · cases performed
        exact .ends rfl rfl ⟨rfl, rfl, rfl, rfl⟩ ⟨rfl, same⟩ ⟨rfl, rfl⟩
  | getReadyTask cpu =>
      simp only [perform] at performed
      split at performed
      · cases performed
      obtain ⟨⟨chosen, task⟩, isChosen, rfl⟩ :=
        Option.map_eq_some_iff.mp performed
      exact .gets isChosen
  | requestPolling cpu =>
      simp only [perform] at performed
      split at performed
      · cases performed
      obtain ⟨⟨chosen, task⟩, isChosen, rfl⟩ :=
        Option.map_eq_some_iff.mp performed
      cases task with
      | some task => exact .polls isChosen
      | none =>
          dsimp only
          split
          · exact .registers isChosen
          · exact .idles isChosen
  | testTask cpu slot task =>
      cases task with
      | some task =>
          cases performed
          exact .goesOn rfl rfl (Or.inl rfl) ⟨rfl, rfl⟩ (Or.inl rfl)
            ⟨rfl, rfl, rfl, rfl⟩ ⟨rfl, same⟩ ⟨rfl, rfl⟩
      | none =>
          simp only [perform] at performed
          split at performed
          · cases performed
            exact .goesOn rfl rfl (Or.inl rfl) ⟨rfl, rfl⟩ (Or.inl rfl)
              ⟨rfl, rfl, rfl, rfl⟩ ⟨rfl, same⟩ ⟨rfl, rfl⟩
          · cases performed
            exact .goesOn rfl rfl (Or.inl rfl) ⟨rfl, rfl⟩ (Or.inl rfl)
              ⟨rfl, rfl, rfl, rfl⟩ ⟨rfl, same⟩ ⟨rfl, rfl⟩
  | testAcceptsWork cpu slot =>
      simp only [perform] at performed
      split at performed
      · cases performed
        exact .goesOn rfl rfl (Or.inl rfl) ⟨rfl, rfl⟩ (Or.inl rfl)
          ⟨rfl, rfl, rfl, rfl⟩ ⟨rfl, same⟩ ⟨rfl, rfl⟩
      · cases performed
        exact .goesOn rfl rfl (Or.inl rfl) ⟨rfl, rfl⟩ (Or.inl rfl)
          ⟨rfl, rfl, rfl, rfl⟩ ⟨rfl, same⟩ ⟨rfl, rfl⟩
  | getTask cpu slot =>
      cases performed
      exact .takes
  | testMustExit cpu slot task =>
      simp only [perform] at performed
      split at performed
      · cases performed
        exact .goesOn rfl rfl (Or.inl rfl) ⟨rfl, rfl⟩ (Or.inl rfl)
          ⟨rfl, rfl, rfl, rfl⟩ ⟨rfl, same⟩ ⟨rfl, rfl⟩
      · cases performed
        exact .goesOn rfl rfl (Or.inl rfl) ⟨rfl, rfl⟩ (Or.inl rfl)
          ⟨rfl, rfl, rfl, rfl⟩ ⟨rfl, same⟩ ⟨rfl, rfl⟩
  | releasePolling cpu slot task exiting =>
      simp only [perform] at performed
      split at performed
      · cases performed
        exact .goesOn rfl rfl (Or.inl rfl) ⟨rfl, rfl⟩ (Or.inl rfl)
          ⟨rfl, rfl, rfl, rfl⟩ ⟨rfl, Or.inr rfl⟩ ⟨rfl, rfl⟩
      · cases exiting with
        | true =>
            cases performed
            exact .goesOn rfl rfl (Or.inl rfl) ⟨rfl, rfl⟩ (Or.inl rfl)
              ⟨rfl, rfl, rfl, rfl⟩ ⟨rfl, same⟩ ⟨rfl, rfl⟩
        | false =>
            cases performed
            exact .goesOn rfl rfl (Or.inl rfl) ⟨rfl, rfl⟩ (Or.inl rfl)
              ⟨rfl, rfl, rfl, rfl⟩ ⟨rfl, same⟩ ⟨rfl, rfl⟩
  | cpuBecomesIdle cpu slot task exiting =>
      cases exiting with
      | true =>
          cases performed
          exact .goesOn rfl rfl (Or.inl rfl) ⟨rfl, rfl⟩ (Or.inl rfl)
            ⟨rfl, rfl, rfl, rfl⟩ ⟨rfl, same⟩ ⟨rfl, rfl⟩
      | false =>
          cases performed
          exact .goesOn rfl rfl (Or.inl rfl) ⟨rfl, rfl⟩ (Or.inl rfl)
            ⟨rfl, rfl, rfl, rfl⟩ ⟨rfl, same⟩ ⟨rfl, rfl⟩
  | checkAcceptsWork cpu slot task =>
      simp only [perform] at performed
      split at performed
      · cases task with
        | none =>
            cases performed
            exact .ends rfl rfl ⟨rfl, rfl, rfl, rfl⟩ ⟨rfl, same⟩ ⟨rfl, rfl⟩
        | some task =>
            cases performed
            exact .returns
      · cases performed
        exact .goesOn rfl rfl (Or.inl rfl) ⟨rfl, rfl⟩ (Or.inl rfl)
          ⟨rfl, rfl, rfl, rfl⟩ ⟨rfl, same⟩ ⟨rfl, rfl⟩
  | lastGetTask cpu slot task =>
      cases performed
      exact .leaves
  | disableComputePlace cpu =>
      simp only [perform] at performed
      split at performed
      · cases performed
        exact .ends rfl rfl ⟨rfl, rfl, rfl, rfl⟩ ⟨rfl, same⟩ ⟨rfl, rfl⟩
      · rename_i task found
        cases performed
        exact .disables found
  | queueDisabled cpu task =>
      simp only [perform] at performed
      split at performed
      · cases performed
      · exact .queues performed

end Effects

/-! ## Possession -/

/-- The task has been added and not returned yet. -/
def System.IsPending (system : System) (task : TaskId) : Prop :=
  system.adds task = system.returns task + 1

/-- Only pending tasks are in the scheduler, each in one place at most. -/
def System.Possesses (system : System) : Prop :=
  Separate system.IsPending (queuedTasks system.classes) system.content

namespace System.Possesses

variable {system next : System} {id : CallId}

/-- No task is moved; the call may drop the one in its hands. -/
theorem keeps (possesses : system.Possesses) {new : Option Call}
    (calls : next.call = Function.update system.call id new)
    (carried : new.bind Call.carries = none ∨
      new.bind Call.carries = system.carries id)
    (queue : queuedTasks next.classes = queuedTasks system.classes)
    (others : next.slot = system.slot ∧
      next.schedulerData = system.schedulerData)
    (history : next.adds = system.adds ∧ next.returns = system.returns) :
    next.Possesses := by
  have pending : next.IsPending = system.IsPending := by
    unfold System.IsPending
    rw [history.1, history.2]
  unfold System.Possesses System.content
  rw [pending, queue, calls, others.1, others.2, contentOf_call]
  obtain dropped | same := carried
  · rw [dropped]
    exact possesses.drop (.call id)
  · rw [same]
    have unchanged : Function.update (contentOf system.schedulerData
        system.slot system.call) (.call id) (system.carries id) =
        system.content :=
      Function.update_eq_self_iff.mpr rfl
    rw [unchanged]
    exact possesses

/-- A call puts the task in its hands somewhere else. -/
theorem hands (possesses : system.Possesses) {task : TaskId}
    (carried : system.carries id = some task)
    (pending : next.IsPending = system.IsPending)
    (put : ∀ present : TaskId → Prop, ¬ present task →
      Separate present (queuedTasks system.classes)
        (Function.update system.content (.call id) none) →
      Separate (fun other => present other ∨ other = task)
        (queuedTasks next.classes) next.content) : next.Possesses := by
  have full : system.content (.call id) = some task := carried
  have isPending := (possesses.contained task _ full).1
  have taken := possesses.takeFromCell full
  have given := put _ (fun present => present.2 rfl) taken
  unfold System.Possesses
  rw [pending]
  exact given.restores isPending

/-- A task that is in no place has been returned. -/
theorem returned {rest : List TaskId} {content : Holder → Option TaskId}
    {task : TaskId}
    (left : Separate (fun other => system.IsPending other ∧ other ≠ task)
      rest content)
    (queue : queuedTasks next.classes = rest)
    (kept : next.content = content)
    (adds : next.adds = system.adds)
    (returns : next.returns =
      Function.update system.returns task (system.returns task + 1)) :
    next.Possesses := by
  subst queue kept
  refine Separate.mono left ?_
  rintro other ⟨pending, differ⟩
  unfold System.IsPending at pending ⊢
  rw [adds, returns, Function.update_of_ne differ]
  exact pending

/-- What a choice leaves; the chosen task is nowhere. -/
theorem chooses (possesses : system.Possesses) {cpu : CPU}
    {task : Option TaskId} (chooses : Chooses system cpu next task) :
    Separate (fun other => system.IsPending other ∧ task ≠ some other)
      (queuedTasks next.classes) next.content ∧
      ∀ chosen, task = some chosen → system.IsPending chosen := by
  cases chooses with
  | nothing noClass noSuccessor =>
      exact ⟨possesses.mono fun other pending => ⟨pending, by simp⟩,
        fun chosen none => by cases none⟩
  | @successor successor found =>
      have full : system.content (.successor cpu) = some successor := found
      refine ⟨?_, ?_⟩
      · show Separate _ _ (contentOf _ _ _)
        rw [contentOf_successor]
        refine (possesses.takeFromCell full).mono ?_
        rintro other ⟨pending, differ⟩
        exact ⟨pending, by simpa using Ne.symm differ⟩
      · rintro chosen ⟨⟩
        exact (possesses.contained successor _ full).1
  | @queued front popped noSuccessor split =>
      refine ⟨?_, ?_⟩
      · refine (possesses.takeFromQueue split).mono ?_
        rintro other ⟨pending, differ⟩
        exact ⟨pending, by simpa using Ne.symm differ⟩
      · rintro chosen ⟨⟩
        exact (possesses.queued front
          (split.mem_iff.mpr (List.mem_cons_self ..))).1
  | @exchanged front successor popped found split =>
      have full : system.content (.successor cpu) = some successor := found
      have waits := (possesses.contained successor _ full).1
      have inQueue := possesses.queued front
        (split.mem_iff.mpr (List.mem_cons_self ..))
      have differ : successor ≠ front := by
        rintro rfl
        exact inQueue.2 _ full
      have taken := (possesses.takeFromCell full).takeFromQueue split
      have put := taken.putInQueue (fun present => present.1.2 rfl)
        (queuedTasks_push (negated (system.priority successor)) false
          successor popped)
      refine ⟨?_, ?_⟩
      · show Separate _ _ (contentOf _ _ _)
        rw [contentOf_successor]
        refine put.mono ?_
        rintro other (⟨⟨pending, -⟩, apart⟩ | rfl)
        · exact ⟨pending, by simpa using Ne.symm apart⟩
        · exact ⟨waits, by simpa using Ne.symm differ⟩
      · rintro chosen ⟨⟩
        exact inQueue.1

/-- The task of a call that is just choosing does not matter. -/
theorem content_of_empty {new : Option Call}
    (empty : system.carries id = none) (stays : new.bind Call.carries = none) :
    contentOf system.schedulerData system.slot
      (Function.update system.call id new) = system.content := by
  rw [contentOf_call, stays]
  exact Function.update_eq_self_iff.mpr empty.symm

theorem locksClass (possesses : system.Possesses)
    {computePlace : Option CPU} {task : TaskId} {key : Int}
    {front doGetIdle : Bool} (carried : system.carries id = some task)
    (locked : system.locksClass id computePlace task key front doGetIdle =
      some next) : next.Possesses := by
  unfold System.locksClass at locked
  split at locked
  · cases locked
  · cases locked
    exact possesses.keeps rfl (Or.inr carried.symm)
      (queuedTasks_lock key system.classes) ⟨rfl, rfl⟩ ⟨rfl, rfl⟩

theorem gets (possesses : system.Possesses) {cpu : CPU} {chosen : System}
    {task : Option TaskId} (empty : system.carries id = none)
    (isChosen : system.chooseTask cpu = some (chosen, task)) :
    (match task with
    | none => (chosen.idles cpu).ends id
    | some task => chosen.returnsTask id (some task)).Possesses := by
  have chooses := chooses_of_chooseTask isChosen
  obtain ⟨calls, -, -, -, -, adds, returns⟩ := frame_of_chooses chooses
  have left := (possesses.chooses chooses).1
  have content : contentOf chosen.schedulerData chosen.slot
      (Function.update chosen.call id none) = chosen.content := by
    refine content_of_empty ?_ rfl
    unfold System.carries at empty ⊢
    rw [calls]
    exact empty
  cases task with
  | none =>
      show Separate _ (queuedTasks chosen.classes)
        (contentOf chosen.schedulerData chosen.slot
          (Function.update chosen.call id none))
      rw [content]
      refine left.mono ?_
      rintro other ⟨pending, -⟩
      show chosen.adds other = chosen.returns other + 1
      rw [adds, returns]
      exact pending
  | some task =>
      have apart : Separate
          (fun other => system.IsPending other ∧ other ≠ task)
          (queuedTasks chosen.classes) chosen.content := by
        refine left.mono ?_
        rintro other ⟨pending, differ⟩
        exact ⟨pending, fun same => differ (congrArg some same.symm)⟩
      refine returned apart rfl content adds ?_
      rw [← returns]
      rfl

/-- A waiting call that has chosen a task puts it in its own slot. -/
theorem polls (possesses : system.Possesses) {cpu : CPU} {chosen : System}
    {task : TaskId} (empty : system.carries id = none)
    (isChosen : system.chooseTask cpu = some (chosen, some task)) :
    Separate chosen.IsPending (queuedTasks chosen.classes)
      (contentOf chosen.schedulerData
        (Function.update chosen.slot chosen.nextSlot (some task))
        (Function.update chosen.call id
          (some (.testTask cpu chosen.nextSlot none)))) := by
  have chooses := chooses_of_chooseTask isChosen
  obtain ⟨calls, -, -, -, -, adds, returns⟩ := frame_of_chooses chooses
  obtain ⟨left, waiting⟩ := possesses.chooses chooses
  have pending : chosen.IsPending = system.IsPending := by
    unfold System.IsPending
    rw [adds, returns]
  have content : contentOf chosen.schedulerData chosen.slot
      (Function.update chosen.call id
        (some (.testTask cpu chosen.nextSlot none))) = chosen.content := by
    refine content_of_empty ?_ rfl
    unfold System.carries at empty ⊢
    rw [calls]
    exact empty
  rw [contentOf_slot, content, pending]
  have put := left.putInCell (fun present => present.2 rfl)
    (.slot chosen.nextSlot)
  refine put.mono ?_
  rintro other (⟨isPending, -⟩ | rfl)
  · exact isPending
  · exact waiting other rfl

/-- A waiting call that has found nothing goes on, or ends. -/
theorem waits (possesses : system.Possesses) {cpu : CPU} {chosen : System}
    {new : Option Call} (empty : system.carries id = none)
    (stays : new.bind Call.carries = none)
    (isChosen : system.chooseTask cpu = some (chosen, none)) :
    Separate chosen.IsPending (queuedTasks chosen.classes)
      (contentOf chosen.schedulerData chosen.slot
        (Function.update chosen.call id new)) := by
  have chooses := chooses_of_chooseTask isChosen
  obtain ⟨calls, -, -, -, -, adds, returns⟩ := frame_of_chooses chooses
  have pending : chosen.IsPending = system.IsPending := by
    unfold System.IsPending
    rw [adds, returns]
  have content : contentOf chosen.schedulerData chosen.slot
      (Function.update chosen.call id new) = chosen.content := by
    refine content_of_empty ?_ stays
    unfold System.carries at empty ⊢
    rw [calls]
    exact empty
  rw [content, pending]
  exact (possesses.chooses chooses).1.mono fun other present => present.1

theorem takes (possesses : system.Possesses) (cpu : CPU) (slot : SlotId) :
    Separate system.IsPending (queuedTasks system.classes)
      (contentOf system.schedulerData
        (Function.update system.slot slot none)
        (Function.update system.call id
          (some (.testTask cpu slot (system.slot slot))))) := by
  have content : contentOf system.schedulerData
      (Function.update system.slot slot none)
      (Function.update system.call id
        (some (.testTask cpu slot (system.slot slot)))) =
      Function.update (Function.update system.content (.slot slot) none)
        (.call id) (system.slot slot) := by
    rw [contentOf_call, contentOf_slot]
    rfl
  rw [content]
  cases full : system.slot slot with
  | none => exact (possesses.drop (.slot slot)).drop (.call id)
  | some task =>
      have held : system.content (.slot slot) = some task := full
      have taken := possesses.takeFromCell held
      have put := taken.putInCell (fun present => present.2 rfl) (.call id)
      exact put.restores (possesses.contained task _ held).1

/-- A waiting call returns what is in its slot; what it has in its hands is
lost. -/
theorem leaves (possesses : system.Possesses) (slot : SlotId) :
    ({ system with
      slot := Function.update system.slot slot none }.returnsTask id
      (system.slot slot)).Possesses := by
  have content : contentOf system.schedulerData
      (Function.update system.slot slot none)
      (Function.update system.call id none) =
      Function.update (Function.update system.content (.slot slot) none)
        (.call id) none := by
    rw [contentOf_call, contentOf_slot]
    rfl
  cases full : system.slot slot with
  | none =>
      show Separate system.IsPending (queuedTasks system.classes)
        (contentOf system.schedulerData
          (Function.update system.slot slot none)
          (Function.update system.call id none))
      rw [content]
      exact (possesses.drop (.slot slot)).drop (.call id)
  | some task =>
      have held : system.content (.slot slot) = some task := full
      have left := (possesses.takeFromCell held).drop (.call id)
      exact returned left rfl content rfl rfl

theorem effect (possesses : system.Possesses) {call : Call}
    (found : system.call id = some call)
    (effect : Effect system id call next) : next.Possesses := by
  have carried : system.carries id = call.carries := by
    simp [System.carries, found]
  cases effect with
  | quiet quiet =>
      refine possesses.keeps quiet.calls ?_ ?_ ⟨quiet.tasks.2.1,
        quiet.tasks.2.2.1⟩ quiet.history
      · rw [carried]
        exact quiet.carries
      · rw [quiet.tasks.1]
  | @succeeds add cpu =>
      refine possesses.hands carried rfl ?_
      intro present absent separate
      show Separate _ _
        (contentOf (Function.update system.schedulerData cpu (some add.task))
          system.slot (Function.update system.call id none))
      rw [contentOf_successor, contentOf_call]
      exact separate.putInCell absent (.successor cpu)
  | @fills add slot locked globalLocked =>
      refine possesses.hands carried rfl ?_
      intro present absent separate
      show Separate _ _
        (contentOf system.schedulerData
          (Function.update system.slot slot (some add.task))
          (Function.update system.call id none))
      rw [contentOf_slot, contentOf_call]
      exact separate.putInCell absent (.slot slot)
  | locks locked => exact possesses.locksClass carried locked
  | queues locked => exact possesses.locksClass carried locked
  | @pushes computePlace task key front doGetIdle new empty =>
      refine possesses.hands carried rfl ?_
      intro present absent separate
      show Separate _ _
        (contentOf system.schedulerData system.slot
          (Function.update system.call id new))
      rw [contentOf_call, empty]
      exact separate.putInQueue absent (queuedTasks_push key front task _)
  | gets isChosen => exact possesses.gets carried isChosen
  | polls isChosen => exact possesses.polls carried isChosen
  | registers isChosen => exact possesses.waits carried rfl isChosen
  | idles isChosen => exact possesses.waits carried rfl isChosen
  | takes => exact possesses.takes _ _
  | @returns cpu slot task =>
      have full : system.content (.call id) = some task := carried
      refine returned (possesses.takeFromCell full) rfl ?_ rfl rfl
      show contentOf system.schedulerData system.slot
        (Function.update system.call id none) = _
      rw [contentOf_call]
      rfl
  | leaves => exact possesses.leaves _
  | @disables cpu task waiting =>
      have held : system.content (.successor cpu) = some task := waiting
      have taken := possesses.takeFromCell held
      have put := taken.putInCell (fun present => present.2 rfl) (.call id)
      show Separate system.IsPending (queuedTasks system.classes)
        (contentOf (Function.update system.schedulerData cpu none)
          system.slot
          (Function.update system.call id (some (.queueDisabled cpu task))))
      rw [contentOf_call, contentOf_successor]
      exact put.restores (possesses.contained task _ held).1

/-! ## Runs -/

/-- A call without a task starts. -/
theorem startsEmpty (possesses : system.Possesses) {call : Call}
    (empty : call.carries = none)
    (started : system.starts call = some next) : next.Possesses := by
  unfold System.starts at started
  split at started
  · cases started
  · cases started
    have none : (some call).bind Call.carries = none := empty
    exact possesses.keeps rfl (Or.inl none) rfl ⟨rfl, rfl⟩ ⟨rfl, rfl⟩

theorem adds (possesses : system.Possesses) {task : TaskId}
    {computePlace : Option CPU} {hint : ReadyTaskHint} {priority : Option Int}
    {doGetIdle : Bool}
    (taken : step system
      (.addReadyTask task computePlace hint priority doGetIdle) =
        some next) : next.Possesses := by
  simp only [step] at taken
  split at taken
  · rename_i balanced
    unfold System.starts at taken
    split at taken
    · cases taken
    · cases taken
      have absent : ¬ system.IsPending task := by
        intro pending
        unfold System.IsPending at pending
        exact absurd (balanced.symm.trans pending) (Nat.ne_of_lt
          (Nat.lt_succ_self _))
      show Separate _ (queuedTasks system.classes)
        (contentOf system.schedulerData system.slot
          (Function.update system.call system.nextCall (some _)))
      rw [contentOf_call]
      refine (possesses.putInCell absent (.call system.nextCall)).mono ?_
      rintro other (pending | rfl)
      · have differ : other ≠ task := by
          rintro rfl
          exact absent pending
        show Function.update system.adds task _ other = _
        rw [Function.update_of_ne differ]
        exact pending
      · show Function.update system.adds other _ other = _
        rw [Function.update_self, balanced]
        rfl
  · cases taken

theorem initial : ({} : System).Possesses where
  nodup := List.nodup_nil
  queued := fun task member => by cases member
  contained := fun task holder full => by
    cases holder with
    | successor cpu => cases full
    | slot slot => cases full
    | call id => cases full

end System.Possesses

/-! ## New slots -/

/-- Nobody has used a slot that no call has got yet. -/
def System.HasNewSlots (system : System) : Prop :=
  ∀ slot, system.nextSlot ≤ slot →
    system.slot slot = none ∧ system.pollingSlot ≠ some slot ∧
      ∀ id, system.stores id ≠ some slot

namespace System.HasNewSlots

variable {system next : System} {id : CallId}

theorem keeps (newSlots : system.HasNewSlots) {new : Option Call}
    (calls : next.call = Function.update system.call id new)
    (bound : system.nextSlot ≤ next.nextSlot)
    (slots : ∀ slot, next.nextSlot ≤ slot →
      next.slot slot = none ∧ next.pollingSlot ≠ some slot ∧
        new.bind Call.stores ≠ some slot) : next.HasNewSlots := by
  intro slot above
  obtain ⟨empty, unregistered, notStored⟩ := slots slot above
  refine ⟨empty, unregistered, ?_⟩
  intro other
  unfold System.stores
  rw [SlotsOwned.bind_update Call.stores calls]
  split
  · exact notStored
  · exact (newSlots slot (Nat.le_trans bound above)).2.2 other

/-- Slots are emptied, or left alone. -/
theorem empties (newSlots : system.HasNewSlots) {new : Option Call}
    (calls : next.call = Function.update system.call id new)
    (stores : new.bind Call.stores = none ∨
      new.bind Call.stores = system.pollingSlot)
    (bound : next.nextSlot = system.nextSlot)
    (slots : ∀ slot, system.slot slot = none → next.slot slot = none)
    (polling : next.pollingSlot = system.pollingSlot ∨
      next.pollingSlot = none) : next.HasNewSlots := by
  refine newSlots.keeps calls (Nat.le_of_eq bound.symm) ?_
  intro slot above
  rw [bound] at above
  obtain ⟨empty, unregistered, -⟩ := newSlots slot above
  refine ⟨slots slot empty, ?_, ?_⟩
  · obtain same | gone := polling
    · rw [same]
      exact unregistered
    · rw [gone]
      simp
  · obtain none | taken := stores
    · rw [none]
      simp
    · rw [taken]
      exact unregistered

theorem empty_of_update {slots : SlotId → Option TaskId} {slot other : SlotId}
    (empty : slots other = none) :
    Function.update slots slot none other = none := by
  by_cases same : other = slot
  · rw [same, Function.update_self]
  · rw [Function.update_of_ne same]
    exact empty

theorem effect (newSlots : system.HasNewSlots) {call : Call}
    (found : system.call id = some call)
    (effect : Effect system id call next) : next.HasNewSlots := by
  have unstored : (none : Option Call).bind Call.stores = none := rfl
  have same : ∀ slot, system.slot slot = none → system.slot slot = none :=
    fun _ empty => empty
  cases effect with
  | quiet quiet =>
      refine newSlots.empties quiet.calls quiet.stores quiet.slots.1 ?_
        quiet.slots.2
      rw [quiet.tasks.2.1]
      exact same
  | succeeds =>
      exact newSlots.empties rfl (Or.inl unstored) rfl same (Or.inl rfl)
  | @fills add filled locked globalLocked =>
      have storing : system.stores id = some filled := by
        simp [System.stores, found, Call.stores]
      refine newSlots.keeps rfl (Nat.le_refl _) ?_
      intro slot above
      obtain ⟨empty, unregistered, notStored⟩ := newSlots slot above
      refine ⟨?_, unregistered, by simp⟩
      have differ : slot ≠ filled := by
        rintro rfl
        exact notStored id storing
      show Function.update system.slot filled (some add.task) slot = none
      rw [Function.update_of_ne differ]
      exact empty
  | locks locked =>
      unfold System.locksClass at locked
      split at locked
      · cases locked
      · cases locked
        exact newSlots.empties rfl (Or.inl rfl) rfl same (Or.inl rfl)
  | queues locked =>
      unfold System.locksClass at locked
      split at locked
      · cases locked
      · cases locked
        exact newSlots.empties rfl (Or.inl rfl) rfl same (Or.inl rfl)
  | pushes _ _ _ stores =>
      exact newSlots.empties rfl (Or.inl stores) rfl same (Or.inl rfl)
  | @gets cpu chosen task isChosen =>
      obtain ⟨calls, -, slots, nextSlot, polling, -, -⟩ :=
        frame_of_chooses (chooses_of_chooseTask isChosen)
      have kept : ∀ slot, system.slot slot = none →
          chosen.slot slot = none := by
        rw [slots]
        exact same
      have updated : Function.update chosen.call id none =
          Function.update system.call id none := by
        rw [calls]
      cases task with
      | none =>
          exact newSlots.empties updated (Or.inl unstored) nextSlot kept
            (Or.inl polling)
      | some task =>
          exact newSlots.empties updated (Or.inl unstored) nextSlot kept
            (Or.inl polling)
  | @polls cpu chosen task isChosen =>
      obtain ⟨calls, -, slots, nextSlot, polling, -, -⟩ :=
        frame_of_chooses (chooses_of_chooseTask isChosen)
      have updated : Function.update chosen.call id
          (some (.testTask cpu chosen.nextSlot none)) =
          Function.update system.call id
            (some (.testTask cpu chosen.nextSlot none)) := by
        rw [calls]
      refine newSlots.keeps updated ?_ ?_
      · show system.nextSlot ≤ chosen.nextSlot + 1
        rw [nextSlot]
        exact Nat.le_succ _
      · intro slot above
        have later : chosen.nextSlot < slot := above
        obtain ⟨empty, unregistered, -⟩ := newSlots slot
          (Nat.le_of_lt (nextSlot ▸ later))
        refine ⟨?_, ?_, fun stored => by cases stored⟩
        · show Function.update chosen.slot chosen.nextSlot (some task) slot =
            none
          rw [Function.update_of_ne (Nat.ne_of_gt later), slots]
          exact empty
        · show chosen.pollingSlot ≠ some slot
          rw [polling]
          exact unregistered
  | @registers cpu chosen isChosen =>
      obtain ⟨calls, -, slots, nextSlot, polling, -, -⟩ :=
        frame_of_chooses (chooses_of_chooseTask isChosen)
      have updated : Function.update chosen.call id
          (some (.testTask cpu chosen.nextSlot none)) =
          Function.update system.call id
            (some (.testTask cpu chosen.nextSlot none)) := by
        rw [calls]
      refine newSlots.keeps updated ?_ ?_
      · show system.nextSlot ≤ chosen.nextSlot + 1
        rw [nextSlot]
        exact Nat.le_succ _
      · intro slot above
        have later : chosen.nextSlot < slot := above
        obtain ⟨empty, -, -⟩ := newSlots slot
          (Nat.le_of_lt (nextSlot ▸ later))
        refine ⟨?_, ?_, fun stored => by cases stored⟩
        · show chosen.slot slot = none
          rw [slots]
          exact empty
        · show some chosen.nextSlot ≠ some slot
          exact fun same => Nat.ne_of_lt later (Option.some.inj same)
  | @idles cpu chosen isChosen =>
      obtain ⟨calls, -, slots, nextSlot, polling, -, -⟩ :=
        frame_of_chooses (chooses_of_chooseTask isChosen)
      have updated : Function.update chosen.call id none =
          Function.update system.call id none := by
        rw [calls]
      refine newSlots.empties updated (Or.inl unstored) nextSlot ?_
        (Or.inl polling)
      show ∀ slot, system.slot slot = none → chosen.slot slot = none
      rw [slots]
      exact same
  | takes =>
      exact newSlots.empties rfl (Or.inl rfl) rfl
        (fun slot empty => empty_of_update empty) (Or.inl rfl)
  | returns =>
      exact newSlots.empties rfl (Or.inl unstored) rfl same (Or.inl rfl)
  | leaves =>
      unfold System.returnsTask
      split
      · exact newSlots.empties rfl (Or.inl unstored) rfl
          (fun slot empty => empty_of_update empty) (Or.inl rfl)
      · exact newSlots.empties rfl (Or.inl unstored) rfl
          (fun slot empty => empty_of_update empty) (Or.inl rfl)
  | disables =>
      exact newSlots.empties rfl (Or.inl rfl) rfl same (Or.inl rfl)

end System.HasNewSlots

end Nanos6.Scheduling
