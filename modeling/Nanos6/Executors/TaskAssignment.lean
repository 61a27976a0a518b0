import Nanos6.Executors.ThreadResumption

/-!
# Tasks given to threads

A thread that blocks may get a task that another thread has to run; it gives the task
to an idle thread before it resumes that thread.  No task is lost or run twice as long
as a thread that has been given a task does not get idle again before it has run it,
and every unblocking matches one block.  `activationCheck` makes
the thread idle when the CPU turns out to be disabled and there is no other one; then
its task is overwritten when the thread is given another one.
-/

namespace Nanos6.ThreadManager

open Foundation

/-- How a thread has a task. -/
inductive Kind where
  | current
  | saved
  | handedOver
  deriving DecidableEq, Repr

def Worker.holdsTask (worker : Worker) : Kind → TaskId → Prop
  | .current, task => worker.task = some task
  | .saved, task => some task ∈ worker.saved
  | .handedOver, task => worker.point.handedOver = some task

inductive TaskHolder where
  | worker (thread : ThreadId) (kind : Kind)
  | finished
  deriving DecidableEq, Repr

def State.holdsTask (state : State) : TaskHolder → TaskId → Prop
  | .worker thread kind, task => (state.worker thread).holdsTask kind task
  | .finished, task => task ∈ state.finished

/-- A thread that is here has no task. -/
def Point.isFree : Point → Bool
  | .idling _ | .handleServices => true
  | _ => false

theorem Point.isFree_of_isActive {point : Point}
    (inactive : point.isActive = false) : point.isFree = false := by
  cases point <;> first | rfl | cases inactive

/-- The law of the tasks. -/
structure KeepsTasks (state : State) : Prop where
  held : ∀ task, ∃ holder, HeldBy state.holdsTask task holder ∧
    (holder = none ↔ state.nextTask ≤ task)
  savedOnce : ∀ thread task, (state.worker thread).saved.count (some task) ≤ 1
  finishedOnce : state.finished.Nodup
  free : ∀ thread, (state.worker thread).point.isFree = true →
    (state.worker thread).task = none
  idle : ∀ node thread, thread ∈ state.idleThreads node →
    (state.worker thread).task = none
  passed : state.assignmentFailed = false

theorem keepsTasks_init : KeepsTasks {} where
  held := by
    intro task
    refine ⟨none, ?_, by simp⟩
    intro holder
    refine iff_of_false ?_ (by simp)
    cases holder with
    | finished => simp [State.holdsTask]
    | worker thread kind =>
        cases kind <;>
          simp [State.holdsTask, Worker.holdsTask, Point.handedOver]
  savedOnce := by
    intro thread task
    simp
  finishedOnce := List.nodup_nil
  free := fun _ _ => rfl
  idle := by
    intro node thread member
    cases member
  passed := rfl

section Laws

variable {state next : State} {thread : ThreadId} {worker : Worker}
  {task : TaskId} {holder : TaskHolder}

theorem holdsTask_setWorker_self (kind : Kind) :
    (state.setWorker thread worker).holdsTask (.worker thread kind) task ↔
      worker.holdsTask kind task := by
  change (Function.update state.worker thread worker thread).holdsTask kind
    task ↔ _
  rw [Function.update_self]

theorem holdsTask_setWorker_of_ne
    (different : ∀ kind, holder ≠ .worker thread kind) :
    (state.setWorker thread worker).holdsTask holder task ↔
      state.holdsTask holder task := by
  cases holder with
  | finished => exact Iff.rfl
  | worker other kind =>
      have apart : other ≠ thread := by
        intro same
        exact different kind (by rw [same])
      change (Function.update state.worker thread worker other).holdsTask kind
        task ↔ _
      rw [Function.update_of_ne apart]
      rfl

/-- The thread has the same tasks. -/
structure Worker.SameTasks (worker before : Worker) : Prop where
  current : worker.task = before.task
  saved : worker.saved = before.saved
  handedOver : worker.point.handedOver = before.point.handedOver

theorem Worker.SameTasks.holdsTask {before : Worker}
    (same : worker.SameTasks before) (kind : Kind) :
    worker.holdsTask kind task ↔ before.holdsTask kind task := by
  cases kind with
  | current => simp only [Worker.holdsTask, same.current]
  | saved => simp only [Worker.holdsTask, same.saved]
  | handedOver => simp only [Worker.holdsTask, same.handedOver]

namespace KeepsTasks

/-- A change of a thread that leaves it its tasks. -/
theorem setWorker (keeps : KeepsTasks state)
    (same : worker.SameTasks (state.worker thread))
    (free : worker.point.isFree = true → worker.task = none) :
    KeepsTasks (state.setWorker thread worker) where
  held := by
    intro task
    obtain ⟨holder, held, fresh⟩ := keeps.held task
    refine ⟨holder, held.congr ?_, fresh⟩
    intro other
    by_cases isThread : ∃ kind, other = .worker thread kind
    · obtain ⟨kind, rfl⟩ := isThread
      rw [holdsTask_setWorker_self, same.holdsTask]
      rfl
    · exact holdsTask_setWorker_of_ne fun kind is => isThread ⟨kind, is⟩
  savedOnce := by
    intro other task
    change (Function.update state.worker thread worker other).saved.count
      (some task) ≤ 1
    by_cases isThread : other = thread
    · rw [isThread, Function.update_self, same.saved]
      exact keeps.savedOnce thread task
    · rw [Function.update_of_ne isThread]
      exact keeps.savedOnce other task
  finishedOnce := keeps.finishedOnce
  free := by
    intro other isFree
    change (Function.update state.worker thread worker other).point.isFree =
      true at isFree
    change (Function.update state.worker thread worker other).task = none
    by_cases isThread : other = thread
    · rw [isThread, Function.update_self] at isFree ⊢
      exact free isFree
    · rw [Function.update_of_ne isThread] at isFree ⊢
      exact keeps.free other isFree
  idle := by
    intro node other member
    change (Function.update state.worker thread worker other).task = none
    by_cases isThread : other = thread
    · rw [isThread, Function.update_self, same.current]
      rw [isThread] at member
      exact keeps.idle node thread member
    · rw [Function.update_of_ne isThread]
      exact keeps.idle node other member
  passed := keeps.passed

/-- What the law does not look at. -/
theorem reframe (keeps : KeepsTasks state)
    (worker : next.worker = state.worker)
    (idleThreads : next.idleThreads = state.idleThreads)
    (finished : next.finished = state.finished)
    (nextTask : next.nextTask = state.nextTask)
    (failed : next.assignmentFailed = state.assignmentFailed) :
    KeepsTasks next where
  held := by
    intro task
    obtain ⟨holder, held, fresh⟩ := keeps.held task
    refine ⟨holder, held.congr ?_, by rw [fresh, nextTask]⟩
    intro other
    cases other <;> simp only [State.holdsTask, worker, finished]
  savedOnce := by
    rw [worker]
    exact keeps.savedOnce
  finishedOnce := by
    rw [finished]
    exact keeps.finishedOnce
  free := by
    rw [worker]
    exact keeps.free
  idle := by
    rw [worker, idleThreads]
    exact keeps.idle
  passed := by
    rw [failed]
    exact keeps.passed

/-- A thread that is about to get idle has no task. -/
theorem addIdler (keeps : KeepsTasks state)
    (free : (state.worker thread).task = none) :
    KeepsTasks (state.addIdler thread) where
  held := by
    intro task
    obtain ⟨holder, held, fresh⟩ := keeps.held task
    exact ⟨holder, held.congr fun other => by cases other <;> rfl, fresh⟩
  savedOnce := keeps.savedOnce
  finishedOnce := keeps.finishedOnce
  free := keeps.free
  idle := by
    intro node other member
    change other ∈ Function.update state.idleThreads _
      (thread :: state.idleThreads _) node at member
    change (state.worker other).task = none
    by_cases isHere : node = (state.worker thread).originalNumaNode
    · rw [isHere, Function.update_self, List.mem_cons] at member
      rcases member with isThread | before
      · rw [isThread]
        exact free
      · exact keeps.idle _ other before
    · rw [Function.update_of_ne isHere] at member
      exact keeps.idle node other member
  passed := keeps.passed

/-- The idle thread that is found has no task. -/
theorem task_getIdleThread (keeps : KeepsTasks state)
    (numaNode : CPUId → Nat) (cpu : CPUId) :
    ((state.getIdleThread numaNode cpu).2.worker
      (state.getIdleThread numaNode cpu).1).task = none := by
  rcases getIdleThread_cases state numaNode cpu with
    ⟨rest, listed, popped⟩ | ⟨isNew, created⟩
  · rw [popped]
    refine keeps.idle (numaNode cpu) _ ?_
    rw [listed]
    exact List.mem_cons_self
  · rw [created, isNew]
    change (Function.update state.worker state.totalThreads _
      state.totalThreads).task = none
    rw [Function.update_self]

theorem createWorkerThread (keeps : KeepsTasks state)
    (coherent : IsCoherent state none) (numaNode : CPUId → Nat)
    (cpu : CPUId) : KeepsTasks (state.createWorkerThread numaNode cpu) := by
  have unborn := coherent.unborn state.totalThreads (Nat.le_refl _)
  have same : Worker.SameTasks
      { cpu := cpu
        originalNumaNode := numaNode cpu
        point := .suspended .loop } (state.worker state.totalThreads) := by
    rw [unborn]
    exact ⟨rfl, rfl, rfl⟩
  exact (keeps.setWorker same fun _ => rfl).reframe rfl rfl rfl rfl rfl

theorem getIdleThread (keeps : KeepsTasks state)
    (coherent : IsCoherent state none) (numaNode : CPUId → Nat)
    (cpu : CPUId) : KeepsTasks (state.getIdleThread numaNode cpu).2 := by
  rcases getIdleThread_cases state numaNode cpu with
    ⟨rest, listed, popped⟩ | ⟨-, created⟩
  · have member : (state.getIdleThread numaNode cpu).1 ∈
        state.idleThreads (numaNode cpu) := by
      rw [listed]
      exact List.mem_cons_self
    rw [popped]
    exact
      { held := by
          intro task
          obtain ⟨holder, held, fresh⟩ := keeps.held task
          exact ⟨holder, held.congr fun other => by cases other <;> rfl, fresh⟩
        savedOnce := keeps.savedOnce
        finishedOnce := keeps.finishedOnce
        free := keeps.free
        idle := by
          intro node other isIdle
          change other ∈ Function.update state.idleThreads (numaNode cpu) rest
            node at isIdle
          refine keeps.idle node other ?_
          by_cases isHere : node = numaNode cpu
          · rw [isHere, Function.update_self] at isIdle
            rw [isHere, listed]
            exact List.mem_cons_of_mem _ isIdle
          · rw [Function.update_of_ne isHere] at isIdle
            exact isIdle
        passed := by
          change (state.assignmentFailed || (state.worker _).task.isSome) = false
          rw [keeps.passed, keeps.idle _ _ member]
          rfl }
  · rw [created]
    exact keeps.createWorkerThread coherent numaNode cpu

/-- Nobody has a task that has not been taken out of the scheduler. -/
theorem not_holds_nextTask (keeps : KeepsTasks state) (holder : TaskHolder) :
    ¬ state.holdsTask holder state.nextTask := by
  obtain ⟨held, isHeld, fresh⟩ := keeps.held state.nextTask
  rw [fresh.mpr (Nat.le_refl _)] at isHeld
  intro holds
  cases isHeld.eq_some holds

theorem heldBy_of_holds (keeps : KeepsTasks state)
    (holds : state.holdsTask holder task) :
    HeldBy state.holdsTask task (some holder) := by
  obtain ⟨held, isHeld, -⟩ := keeps.held task
  rw [isHeld.eq_some holds] at isHeld
  exact isHeld

theorem lt_nextTask (keeps : KeepsTasks state)
    (holds : state.holdsTask holder task) : task < state.nextTask := by
  obtain ⟨held, isHeld, fresh⟩ := keeps.held task
  rw [isHeld.eq_some holds] at fresh
  by_contra late
  cases fresh.mpr (Nat.le_of_not_lt late)

/-- The thread has other tasks, or has them in other ways. -/
theorem move {finished : List TaskId} {nextTask : TaskId}
    (keeps : KeepsTasks state)
    (located : ∀ task, ∃ holder,
      HeldBy ({ state.setWorker thread worker with
        finished := finished
        nextTask := nextTask } : State).holdsTask task holder ∧
      (holder = none ↔ nextTask ≤ task))
    (savedOnce : ∀ task, worker.saved.count (some task) ≤ 1)
    (finishedOnce : finished.Nodup)
    (free : worker.point.isFree = true → worker.task = none)
    (notIdle : ∀ node, thread ∉ state.idleThreads node) :
    KeepsTasks
      { state.setWorker thread worker with
        finished := finished
        nextTask := nextTask } where
  held := located
  savedOnce := by
    intro other task
    change (Function.update state.worker thread worker other).saved.count
      (some task) ≤ 1
    by_cases isThread : other = thread
    · rw [isThread, Function.update_self]
      exact savedOnce task
    · rw [Function.update_of_ne isThread]
      exact keeps.savedOnce other task
  finishedOnce := finishedOnce
  free := by
    intro other isFree
    change (Function.update state.worker thread worker other).point.isFree =
      true at isFree
    change (Function.update state.worker thread worker other).task = none
    by_cases isThread : other = thread
    · rw [isThread, Function.update_self] at isFree ⊢
      exact free isFree
    · rw [Function.update_of_ne isThread] at isFree ⊢
      exact keeps.free other isFree
  idle := by
    intro node other member
    change (Function.update state.worker thread worker other).task = none
    have different : other ≠ thread := by
      intro same
      rw [same] at member
      exact notIdle node member
    rw [Function.update_of_ne different]
    exact keeps.idle node other member
  passed := keeps.passed

/-- Who has a task after such a move. -/
theorem heldBy_move {finished : List TaskId} {nextTask : TaskId}
    {after : Option TaskHolder}
    (own : ∀ kind, worker.holdsTask kind task ↔
      after = some (.worker thread kind))
    (ended : task ∈ finished ↔ after = some .finished)
    (others : ∀ other kind, other ≠ thread →
      (state.holdsTask (.worker other kind) task ↔
        after = some (.worker other kind))) :
    HeldBy ({ state.setWorker thread worker with
      finished := finished
      nextTask := nextTask } : State).holdsTask task after := by
  intro holder
  cases holder with
  | finished => exact ended
  | worker other kind =>
      change (Function.update state.worker thread worker other).holdsTask kind
        task ↔ _
      by_cases same : other = thread
      · rw [same, Function.update_self]
        exact own kind
      · rw [Function.update_of_ne same]
        exact others other kind same

/-- The thread runs a new task, and may save the old one. -/
theorem start (keeps : KeepsTasks state) {saved : List (Option TaskId)}
    (kept : ∀ task, some task ∈ saved ↔ (state.worker thread).task = some task ∨
      some task ∈ (state.worker thread).saved)
    (once : ∀ task, saved.count (some task) ≤ 1)
    (point : (state.worker thread).point.handedOver = none)
    (notIdle : ∀ node, thread ∉ state.idleThreads node) :
    KeepsTasks (state.start thread saved) := by
  refine keeps.move ?_ once keeps.finishedOnce (fun isFree => by cases isFree)
    notIdle
  intro task
  by_cases isNew : task = state.nextTask
  · -- The new task.
    subst isNew
    have nobody := keeps.not_holds_nextTask
    refine ⟨some (.worker thread .current), heldBy_move ?_ ?_ ?_, ?_⟩
    · intro kind
      cases kind with
      | current => simp [Worker.holdsTask]
      | saved =>
          refine iff_of_false ?_ (by simp)
          intro isSaved
          rcases (kept _).mp isSaved with current | before
          · exact nobody (.worker thread .current) current
          · exact nobody (.worker thread .saved) before
      | handedOver =>
          exact iff_of_false (by simp [Worker.holdsTask, Point.handedOver])
            (by simp)
    · exact iff_of_false (nobody .finished) (by simp)
    · intro other kind different
      refine iff_of_false (nobody _) ?_
      simp [Ne.symm different]
    · exact iff_of_false (by simp) (Nat.not_le.mpr (Nat.lt_succ_self _))
  · obtain ⟨holder, held, fresh⟩ := keeps.held task
    have notCurrent : some state.nextTask ≠ some task := by
      simpa using Ne.symm isNew
    have later : state.nextTask ≤ task ↔ state.nextTask + 1 ≤ task :=
      ⟨fun before => Nat.lt_of_le_of_ne before (Ne.symm isNew),
        Nat.le_of_succ_le⟩
    have neverHandedOver : holder ≠ some (.worker thread .handedOver) := by
      intro isHolder
      have holds : (state.worker thread).point.handedOver = some task :=
        (held (.worker thread .handedOver)).mpr isHolder
      rw [point] at holds
      cases holds
    by_cases wasCurrent : holder = some (.worker thread .current)
    · -- The task that gets saved.
      refine ⟨some (.worker thread .saved), heldBy_move ?_ ?_ ?_, ?_⟩
      · intro kind
        cases kind with
        | current => exact iff_of_false notCurrent (by simp)
        | saved =>
            refine iff_of_true ?_ rfl
            exact (kept task).mpr
              (Or.inl ((held (.worker thread .current)).mpr wasCurrent))
        | handedOver =>
            exact iff_of_false (by simp [Worker.holdsTask, Point.handedOver])
              (by simp)
      · refine iff_of_false ?_ (by simp)
        intro ended
        have holds : state.holdsTask .finished task := ended
        rw [held, wasCurrent] at holds
        cases holds
      · intro other kind different
        rw [held, wasCurrent]
        simp [Ne.symm different]
      · refine iff_of_false (by simp) ?_
        rw [← later, ← fresh, wasCurrent]
        simp
    · refine ⟨holder, heldBy_move ?_ (held .finished) (fun other kind _ => held _),
        fresh.trans later⟩
      intro kind
      cases kind with
      | current => exact iff_of_false notCurrent wasCurrent
      | saved =>
          rw [← held]
          refine (kept task).trans ⟨?_, Or.inr⟩
          rintro (current | before)
          · exact absurd ((held (.worker thread .current)).mp current) wasCurrent
          · exact before
      | handedOver =>
          exact iff_of_false (by simp [Worker.holdsTask, Point.handedOver])
            neverHandedOver

/-- The thread keeps a new task for another one. -/
theorem recruiting (keeps : KeepsTasks state)
    (point : (state.worker thread).point.handedOver = none)
    (notIdle : ∀ node, thread ∉ state.idleThreads node) :
    KeepsTasks
      { state.setPoint thread (.recruiting (some state.nextTask)) with
        nextTask := state.nextTask + 1 } := by
  refine keeps.move ?_ (keeps.savedOnce thread) keeps.finishedOnce
    (fun isFree => by cases isFree) notIdle
  intro task
  by_cases isNew : task = state.nextTask
  · subst isNew
    have nobody := keeps.not_holds_nextTask
    refine ⟨some (.worker thread .handedOver), heldBy_move ?_ ?_ ?_, ?_⟩
    · intro kind
      cases kind with
      | current => exact iff_of_false (nobody (.worker thread .current)) (by simp)
      | saved => exact iff_of_false (nobody (.worker thread .saved)) (by simp)
      | handedOver => exact iff_of_true rfl rfl
    · exact iff_of_false (nobody .finished) (by simp)
    · intro other kind different
      refine iff_of_false (nobody _) ?_
      simp [Ne.symm different]
    · exact iff_of_false (by simp) (Nat.not_le.mpr (Nat.lt_succ_self _))
  · obtain ⟨holder, held, fresh⟩ := keeps.held task
    have later : state.nextTask ≤ task ↔ state.nextTask + 1 ≤ task :=
      ⟨fun before => Nat.lt_of_le_of_ne before (Ne.symm isNew),
        Nat.le_of_succ_le⟩
    refine ⟨holder, heldBy_move ?_ (held .finished) (fun other kind _ => held _),
      fresh.trans later⟩
    intro kind
    cases kind with
    | current => exact held (.worker thread .current)
    | saved => exact held (.worker thread .saved)
    | handedOver =>
        refine iff_of_false ?_ ?_
        · simpa [Worker.holdsTask, Point.handedOver] using Ne.symm isNew
        · intro isHolder
          have holds : (state.worker thread).point.handedOver = some task :=
            (held (.worker thread .handedOver)).mpr isHolder
          rw [point] at holds
          cases holds

/-- The task of the thread ends, and the thread goes on with one that it has
saved. -/
theorem finish (keeps : KeepsTasks state)
    (pending : ∀ task, some task ∈ (state.worker thread).saved ↔
      worker.task = some task ∨ some task ∈ worker.saved)
    (apart : ∀ task, worker.task = some task → some task ∉ worker.saved)
    (once : ∀ task, worker.saved.count (some task) ≤ 1)
    (before : (state.worker thread).point.handedOver = none)
    (point : worker.point.handedOver = none)
    (free : worker.point.isFree = true → worker.task = none)
    (notIdle : ∀ node, thread ∉ state.idleThreads node) :
    KeepsTasks
      { state.setWorker thread worker with
        finished := state.finished ++ (state.worker thread).task.toList } := by
  have finishes : ∀ task,
      task ∈ state.finished ++ (state.worker thread).task.toList ↔
        state.holdsTask .finished task ∨
          state.holdsTask (.worker thread .current) task := by
    intro task
    rw [List.mem_append, Option.mem_toList]
    rfl
  refine keeps.move ?_ once ?_ free notIdle
  · intro task
    obtain ⟨holder, held, fresh⟩ := keeps.held task
    have notFresh : ∀ {has : TaskHolder}, holder = some has →
        ¬ state.nextTask ≤ task := by
      intro has isHolder
      rw [← fresh, isHolder]
      simp
    have handsOver : ¬ worker.holdsTask .handedOver task := by
      simp [Worker.holdsTask, point]
    by_cases wasSaved : holder = some (.worker thread .saved)
    · -- One of the saved tasks, perhaps the one that goes on.
      have notEnded : ¬ (state.holdsTask .finished task ∨
          state.holdsTask (.worker thread .current) task) := by
        rw [held, held, wasSaved]
        simp
      have notOthers : ∀ other kind, other ≠ thread →
          ¬ state.holdsTask (.worker other kind) task := by
        intro other kind different
        rw [held, wasSaved]
        simp [Ne.symm different]
      rcases (pending task).mp ((held (.worker thread .saved)).mpr wasSaved) with
        goesOn | staysSaved
      · refine ⟨some (.worker thread .current), heldBy_move ?_ ?_ ?_,
          iff_of_false (by simp) (notFresh wasSaved)⟩
        · intro kind
          cases kind with
          | current => exact iff_of_true goesOn rfl
          | saved => exact iff_of_false (apart task goesOn) (by simp)
          | handedOver => exact iff_of_false handsOver (by simp)
        · exact iff_of_false (fun ended => notEnded ((finishes task).mp ended))
            (by simp)
        · intro other kind different
          exact iff_of_false (notOthers other kind different)
            (by simp [Ne.symm different])
      · refine ⟨some (.worker thread .saved), heldBy_move ?_ ?_ ?_,
          iff_of_false (by simp) (notFresh wasSaved)⟩
        · intro kind
          cases kind with
          | current =>
              exact iff_of_false (fun goesOn => apart task goesOn staysSaved)
                (by simp)
          | saved => exact iff_of_true staysSaved rfl
          | handedOver => exact iff_of_false handsOver (by simp)
        · exact iff_of_false (fun ended => notEnded ((finishes task).mp ended))
            (by simp)
        · intro other kind different
          exact iff_of_false (notOthers other kind different)
            (by simp [Ne.symm different])
    · have notPending : ¬ (worker.task = some task ∨
          some task ∈ worker.saved) := by
        intro has
        exact wasSaved ((held (.worker thread .saved)).mp ((pending task).mpr has))
      have hasNone : ∀ kind, ¬ worker.holdsTask kind task := by
        intro kind
        cases kind with
        | current => exact fun goesOn => notPending (Or.inl goesOn)
        | saved => exact fun isSaved => notPending (Or.inr isSaved)
        | handedOver => exact handsOver
      by_cases wasCurrent : holder = some (.worker thread .current)
      · -- The task that ends.
        refine ⟨some .finished, heldBy_move ?_ ?_ ?_,
          iff_of_false (by simp) (notFresh wasCurrent)⟩
        · exact fun kind => iff_of_false (hasNone kind) (by simp)
        · refine iff_of_true ((finishes task).mpr (Or.inr ?_)) rfl
          exact (held _).mpr wasCurrent
        · intro other kind different
          rw [held, wasCurrent]
          simp [Ne.symm different]
      · refine ⟨holder, heldBy_move ?_ ?_ (fun other kind _ => held _), fresh⟩
        · intro kind
          refine iff_of_false (hasNone kind) ?_
          cases kind with
          | current => exact wasCurrent
          | saved => exact wasSaved
          | handedOver =>
              intro isHolder
              have holds : (state.worker thread).point.handedOver = some task :=
                (held (.worker thread .handedOver)).mpr isHolder
              rw [before] at holds
              cases holds
        · rw [finishes, held, held]
          exact or_iff_left wasCurrent
  · refine List.nodup_append.mpr ⟨keeps.finishedOnce, ?_, ?_⟩
    · cases (state.worker thread).task with
      | none => exact List.nodup_nil
      | some task => exact by simp
    · intro task ended other isCurrent same
      have runs : state.holdsTask (.worker thread .current) task := by
        rw [same]
        exact Option.mem_toList.mp isCurrent
      have isFinished : state.holdsTask .finished task := ended
      cases (keeps.heldBy_of_holds runs).unique runs isFinished

/-- A thread gives a task to another one. -/
theorem give (keeps : KeepsTasks state) {other : ThreadId} {given : TaskId}
    {point : Point} (different : thread ≠ other)
    (giver : (state.worker thread).point.handedOver = some given)
    (hasNone : (state.worker other).task = none)
    (away : (state.worker other).point.isFree = false)
    (gives : point.handedOver = none) (busy : point.isFree = false)
    (notIdle : ∀ node, other ∉ state.idleThreads node) :
    KeepsTasks ((state.setTask other (some given)).setPoint thread point) := by
  have giverAfter : ((state.setTask other (some given)).setPoint thread
      point).worker thread = { state.worker thread with point := point } := by
    change Function.update (state.setTask other (some given)).worker thread
      { (state.setTask other (some given)).worker thread with
        point := point } thread = _
    rw [Function.update_self, worker_setTask_of_ne different]
  have takerAfter : ((state.setTask other (some given)).setPoint thread
      point).worker other = { state.worker other with task := some given } := by
    change Function.update (Function.update state.worker other _) thread _
      other = _
    rw [Function.update_of_ne different.symm, Function.update_self]
  have same : ∀ third, third ≠ thread → third ≠ other →
      ((state.setTask other (some given)).setPoint thread point).worker third =
        state.worker third := by
    intro third notGiver notTaker
    change Function.update (Function.update state.worker other _) thread _
      third = _
    rw [Function.update_of_ne notGiver, Function.update_of_ne notTaker]
  have has : ∀ holder task,
      ((state.setTask other (some given)).setPoint thread point).holdsTask
        holder task ↔
      (state.holdsTask holder task ∧ holder ≠ .worker thread .handedOver) ∨
        (holder = .worker other .current ∧ task = given) := by
    intro holder task
    cases holder with
    | finished => simp [State.holdsTask, State.setTask, State.setPoint,
        State.setWorker]
    | worker third kind =>
        by_cases isGiver : third = thread
        · subst isGiver
          simp only [State.holdsTask, giverAfter]
          cases kind <;>
            simp [Worker.holdsTask, gives, different]
        · by_cases isTaker : third = other
          · subst isTaker
            simp only [State.holdsTask, takerAfter]
            cases kind with
            | current => simp [Worker.holdsTask, hasNone, eq_comm]
            | saved => simp [Worker.holdsTask]
            | handedOver => simp [Worker.holdsTask, isGiver]
          · simp only [State.holdsTask, same third isGiver isTaker]
            simp [isGiver, isTaker]
  have wasGiven : state.holdsTask (.worker thread .handedOver) given := giver
  exact
    { held := by
        intro task
        by_cases isGiven : task = given
        · subst isGiven
          have held := keeps.heldBy_of_holds wasGiven
          refine ⟨some (.worker other .current), ?_,
            iff_of_false (by simp) (Nat.not_le.mpr (keeps.lt_nextTask wasGiven))⟩
          intro holder
          rw [has, held]
          constructor
          · rintro (⟨isGiver, isOther⟩ | ⟨isTaker, -⟩)
            · exact absurd (Option.some.inj isGiver).symm isOther
            · rw [isTaker]
          · intro isTaker
            exact Or.inr ⟨(Option.some.inj isTaker).symm, rfl⟩
        · obtain ⟨holder, held, fresh⟩ := keeps.held task
          refine ⟨holder, held.congr ?_, fresh⟩
          intro party
          rw [has]
          constructor
          · rintro (⟨before, -⟩ | ⟨-, isTask⟩)
            · exact before
            · exact absurd isTask isGiven
          · intro before
            refine Or.inl ⟨before, ?_⟩
            intro isGiver
            rw [isGiver] at before
            have handsOver : (state.worker thread).point.handedOver =
                some task := before
            rw [giver] at handsOver
            exact isGiven (Option.some.inj handsOver).symm
      savedOnce := by
        intro third task
        by_cases isGiver : third = thread
        · rw [isGiver, giverAfter]
          exact keeps.savedOnce thread task
        · by_cases isTaker : third = other
          · rw [isTaker, takerAfter]
            exact keeps.savedOnce other task
          · rw [same third isGiver isTaker]
            exact keeps.savedOnce third task
      finishedOnce := keeps.finishedOnce
      free := by
        intro third isFree
        by_cases isGiver : third = thread
        · rw [isGiver, giverAfter] at isFree
          change point.isFree = true at isFree
          rw [busy] at isFree
          cases isFree
        · by_cases isTaker : third = other
          · rw [isTaker, takerAfter] at isFree
            change (state.worker other).point.isFree = true at isFree
            rw [away] at isFree
            cases isFree
          · rw [same third isGiver isTaker] at isFree ⊢
            exact keeps.free third isFree
      idle := by
        intro node third member
        have wasIdle : third ∈ state.idleThreads node := member
        by_cases isGiver : third = thread
        · rw [isGiver] at wasIdle ⊢
          rw [giverAfter]
          exact keeps.idle node thread wasIdle
        · have notTaker : third ≠ other := by
            intro isTaker
            rw [isTaker] at wasIdle
            exact notIdle node wasIdle
          rw [same third isGiver notTaker]
          exact keeps.idle node third wasIdle
      passed := by
        change (state.assignmentFailed || (state.worker other).task.isSome) =
          false
        rw [keeps.passed, hasNone]
        rfl }

/-- `WorkerThreadBase::resume` -/
theorem resume (keeps : KeepsTasks state) (thread : ThreadId) (cpu : CPUId) :
    KeepsTasks (state.resume thread cpu) := by
  have resumed : KeepsTasks
      (state.setWorker thread
        { state.worker thread with
          cpuToBeResumedOn := some cpu
          signaled := true }) :=
    keeps.setWorker ⟨rfl, rfl, rfl⟩ (keeps.free thread)
  exact resumed.reframe rfl rfl rfl rfl rfl

theorem findsNothing (keeps : KeepsTasks state) (cpu : CPUId) (idles : Bool) :
    KeepsTasks (state.findsNothing cpu idles) := by
  cases idles <;> exact keeps.reframe rfl rfl rfl rfl rfl

theorem claim (keeps : KeepsTasks state) (other : ThreadId) :
    KeepsTasks (state.claim other) :=
  keeps.setWorker ⟨rfl, rfl, rfl⟩ (keeps.free other)

/-- A thread goes to another point, with the same tasks. -/
theorem setPoint (keeps : KeepsTasks state) {point : Point}
    (handedOver : point.handedOver = (state.worker thread).point.handedOver)
    (free : point.isFree = true → (state.worker thread).task = none) :
    KeepsTasks (state.setPoint thread point) :=
  keeps.setWorker ⟨rfl, rfl, handedOver⟩ free

/-- The current task is not one of those that the thread has saved. -/
theorem savedOnce_push (keeps : KeepsTasks state) (task : TaskId) :
    ((state.worker thread).task :: (state.worker thread).saved).count
      (some task) ≤ 1 := by
  by_cases isCurrent : (state.worker thread).task = some task
  · have current : state.holdsTask (.worker thread .current) task := isCurrent
    have notSaved : some task ∉ (state.worker thread).saved := by
      intro member
      have saved : state.holdsTask (.worker thread .saved) task := member
      cases (keeps.heldBy_of_holds current).unique current saved
    have notCounted := List.count_eq_zero.mpr notSaved
    rw [isCurrent, List.count_cons_self]
    omega
  · rw [List.count_cons_of_ne isCurrent]
    exact keeps.savedOnce thread task

end KeepsTasks

end Laws

/-! ## Steps -/

/-- No thread that has a task gets idle. -/
def NotIdleWithTask (state : State) : Action → Prop
  | .activationCheck thread =>
      state.activationStatus (state.worker thread).cpu = .disabled →
        (state.worker thread).task = none
  | .getIdleComputePlace thread none => (state.worker thread).task = none
  | _ => True

instance (state : State) (action : Action) :
    Decidable (NotIdleWithTask state action) :=
  match action with
  | .activationCheck thread =>
      inferInstanceAs (Decidable
        (state.activationStatus (state.worker thread).cpu = .disabled →
          (state.worker thread).task = none))
  | .getIdleComputePlace thread none =>
      inferInstanceAs (Decidable ((state.worker thread).task = none))
  | .getIdleComputePlace _ (some _)
  | .initializeCPU _ _ | .enable _ _ | .disable _ | .getIdleCPU _ _
  | .getIdleThread _ | .getReleasedThread _ _ | .resume _ | .addReadyTask _
  | .getReadyTask _ _ | .handleTask _
  | .handleServices _ | .addIdler _ | .switchTo _ | .wake _ | .recruit _
  | .blockCurrentTask _ | .taskBlocks _ | .waitForIf0Task _ | .executeInline _
  | .preempt _ _ | .finish _ _ => .isTrue trivial

def Permitted (state : State) (action : Action) : Prop :=
  NotIdleWithTask state action ∧ MatchesBlock state action

instance (state : State) (action : Action) :
    Decidable (Permitted state action) :=
  inferInstanceAs (Decidable (_ ∧ _))

section Steps

variable {numaNode : CPUId → Nat} {state next : State} {thread : ThreadId}

theorem worker_claim (other : ThreadId) :
    (state.claim other).worker thread =
      { state.worker thread with
        ready := ((state.claim other).worker thread).ready } := by
  by_cases same : thread = other
  · have claimed : (state.claim other).worker other =
        { state.worker other with ready := false } :=
      Function.update_self _ _ _
    rw [same, claimed]
  · rw [worker_claim_of_ne same]

/-- Every step keeps the law. -/
theorem keepsTasks_steps {action : Action} (coherent : IsCoherent state none)
    (keeps : KeepsTasks state) (permitted : Permitted state action)
    (steps : Steps numaNode state action next) : KeepsTasks next := by
  obtain ⟨allowed, matchesBlock⟩ := permitted
  cases steps with
  | @initializeCPU caller cpu status free =>
      have started : KeepsTasks (state.setStatus cpu .starting) :=
        keeps.reframe rfl rfl rfl rfl rfl
      exact (started.createWorkerThread (coherent.setStatus _ _) numaNode
        cpu).reframe rfl rfl rfl rfl rfl
  | enableUninitialized status => exact keeps.reframe rfl rfl rfl rfl rfl
  | enableAgain => exact keeps
  | enableDisabling status => exact keeps.reframe rfl rfl rfl rfl rfl
  | enableDisabled status free => exact keeps.reframe rfl rfl rfl rfl rfl
  | disableEnabled status => exact keeps.reframe rfl rfl rfl rfl rfl
  | disableEnabling status => exact keeps.reframe rfl rfl rfl rfl rfl
  | disableAgain => exact keeps
  | getIdleCPU free idle => exact keeps.reframe rfl rfl rfl rfl rfl
  | getIdleThread content =>
      exact (keeps.getIdleThread coherent numaNode _).reframe rfl rfl rfl rfl
        rfl
  | @getReleasedThread caller thread cpu content waiting =>
      have released : KeepsTasks
          (state.setWorker thread
            { state.worker thread with waiting := false }) :=
        keeps.setWorker ⟨rfl, rfl, rfl⟩ (keeps.free thread)
      exact released.reframe rfl rfl rfl rfl rfl
  | @resume caller thread cpu content =>
      have left : KeepsTasks (state.setCaller caller .free) :=
        keeps.reframe rfl rfl rfl rfl rfl
      exact left.resume thread cpu
  | addReadyTask waiting =>
      exact keeps.setWorker ⟨rfl, rfl, rfl⟩ (keeps.free _)
  | addEarly point =>
      exact keeps.setWorker ⟨rfl, rfl, by rw [point]; rfl⟩
        (fun isFree => by cases isFree)
  | addAgain again => exact absurd (matchesBlock.1 _ rfl) again
  | turn turns point => exact absurd point (matchesBlock.2 _ turns)
  | checkStarting point status => exact keeps.reframe rfl rfl rfl rfl rfl
  | checkEnabled point status =>
      exact keeps.setPoint (by rw [point]; rfl) (fun isFree => by cases isFree)
  | @checkEnabling thread point status =>
      have enabled : KeepsTasks
          (state.setStatus (state.worker thread).cpu .enabled) :=
        keeps.reframe rfl rfl rfl rfl rfl
      refine enabled.setPoint ?_ (fun isFree => by cases isFree)
      change _ = (state.worker thread).point.handedOver
      rw [point]
      rfl
  | @checkDisabling thread point status =>
      have disabled : KeepsTasks
          (state.setStatus (state.worker thread).cpu .disabled) :=
        keeps.reframe rfl rfl rfl rfl rfl
      refine disabled.setPoint ?_ (fun isFree => by cases isFree)
      change _ = (state.worker thread).point.handedOver
      rw [point]
      rfl
  | checkDisabled point status =>
      exact keeps.setPoint (by rw [point]; rfl) (fun _ => allowed status)
  | stay point =>
      exact keeps.setPoint (by rw [point]; rfl) (fun _ => allowed)
  | @migrate thread cpu point idle =>
      have moved : KeepsTasks
          (state.setWorker thread
            { state.worker thread with
              cpu := cpu
              point := .activationCheck }) :=
        keeps.setWorker ⟨rfl, rfl, by rw [point]; rfl⟩
          (fun isFree => by cases isFree)
      exact moved.reframe rfl rfl rfl rfl rfl
  | findNothing point task =>
      refine (keeps.findsNothing _ _).setPoint ?_ (fun _ => ?_)
      · rw [worker_findsNothing, point]
        rfl
      · rw [worker_findsNothing]
        exact task
  | @findFresh thread inline point task =>
      refine keeps.start ?_ (keeps.savedOnce thread) (by rw [point]; rfl)
        (coherent.not_idle_of_shows (shows_active_of_point point rfl))
      intro other
      rw [task]
      simp
  | @findAssigned thread other point task ready =>
      refine (keeps.claim other).setPoint ?_ ?_
      · rw [worker_claim, point]
        rfl
      · rw [worker_claim]
        exact fun _ => task
  | replaceNothing point =>
      refine (keeps.findsNothing _ _).setPoint ?_ (fun isFree => by cases isFree)
      rw [worker_findsNothing, point]
      rfl
  | @replaceOwn thread point ready =>
      refine (keeps.claim thread).setPoint ?_ (fun isFree => by cases isFree)
      rw [worker_claim, point]
      rfl
  | @replaceInline thread inline point waiting =>
      have shown : (state.worker thread).shows .waiting = true := waiting
      refine keeps.start ?_ keeps.savedOnce_push (by rw [point]; rfl)
        (coherent.not_idle_of_shows shown)
      intro task
      rw [List.mem_cons, eq_comm]
  | @replaceFresh thread inline point =>
      exact keeps.recruiting (by rw [point]; rfl)
        (coherent.not_idle_of_point (by rw [point]; rfl))
  | @replaceAssigned thread other point ready different =>
      refine (keeps.claim other).setPoint ?_ (fun isFree => by cases isFree)
      rw [worker_claim, point]
      rfl
  | handleTask point =>
      exact keeps.setPoint (by rw [point]; rfl) (fun isFree => by cases isFree)
  | handleServices point =>
      refine keeps.setPoint (by rw [point]; rfl) (fun _ => ?_)
      exact keeps.free _ (by rw [point]; rfl)
  | @addIdler thread replacement point =>
      have switching : KeepsTasks
          (state.setPoint thread (.switching replacement .loop)) :=
        keeps.setPoint (by rw [point]; rfl) (fun isFree => by cases isFree)
      refine switching.addIdler ?_
      change (Function.update state.worker thread _ thread).task = none
      rw [Function.update_self]
      exact keeps.free thread (by rw [point]; rfl)
  | leave point =>
      exact keeps.setPoint (by rw [point]; rfl) (fun isFree => by cases isFree)
  | @switchTo thread other resumption point =>
      have left : KeepsTasks (state.setPoint thread (.suspended resumption)) :=
        keeps.setPoint (by rw [point]; rfl) (fun isFree => by cases isFree)
      exact (left.resume other _).reframe rfl rfl rfl rfl rfl
  | @wake thread resumption point signaled =>
      have woken : KeepsTasks
          (state.setWorker thread
            { state.worker thread with
              cpu := (state.worker thread).cpuToBeResumedOn.getD
                (state.worker thread).cpu
              cpuToBeResumedOn := none
              signaled := false
              point := resumption.point }) := by
        refine keeps.setWorker ⟨rfl, rfl, ?_⟩ ?_
        · rw [point]
          cases resumption <;> rfl
        · intro isFree
          cases resumption <;> cases isFree
      exact woken.reframe rfl rfl rfl rfl rfl
  | @recruit thread task point =>
      have born : (state.worker thread).point ≠ .unborn := by
        rw [point]
        simp
      have awake : (state.worker thread).point.isResting = false := by
        rw [point]
        rfl
      have kept := worker_getIdleThread (coherent.born_of_point born) numaNode
        (state.worker thread).cpu
      have found := keeps.getIdleThread coherent numaNode
        (state.worker thread).cpu
      cases task with
      | none =>
          refine found.setPoint ?_ (fun isFree => by cases isFree)
          rw [kept, point]
          rfl
      | some task =>
          have detached := coherent.getIdleThread numaNode
            (state.worker thread).cpu
          have different := coherent.getIdleThread_ne awake born numaNode
            (state.worker thread).cpu
          refine found.give different.symm ?_ (keeps.task_getIdleThread numaNode _)
            (Point.isFree_of_isActive detached.showsOnly_none.active) rfl rfl ?_
          · rw [kept, point]
            rfl
          · intro node member
            exact detached.not_holds_of_detached (.idle node) member
  | blockCurrentTask point =>
      exact keeps.setWorker ⟨rfl, rfl, by rw [point]; rfl⟩
        (fun isFree => by cases isFree)
  | blockUnblocked point =>
      exact keeps.setPoint (by rw [point]; rfl) (fun isFree => by cases isFree)
  | taskBlocks point =>
      exact keeps.setWorker ⟨rfl, rfl, by rw [point]; rfl⟩
        (fun isFree => by cases isFree)
  | waitForIf0Task point =>
      exact keeps.setWorker ⟨rfl, rfl, by rw [point]; rfl⟩
        (fun isFree => by cases isFree)
  | @executeInline thread point =>
      refine keeps.start ?_ keeps.savedOnce_push (by rw [point]; rfl)
        (coherent.not_idle_of_shows (shows_active_of_point point rfl))
      intro task
      rw [List.mem_cons, eq_comm]
  | @preempt thread released point waiting =>
      have different := coherent.ne_of_waiting
        (shows_active_of_point point rfl) waiting
      have kept : (state.setWorker released
          { state.worker released with waiting := false }).worker thread =
          state.worker thread :=
        Function.update_of_ne different.symm _ _
      have free : KeepsTasks
          (state.setWorker released
            { state.worker released with waiting := false }) :=
        keeps.setWorker ⟨rfl, rfl, rfl⟩ (keeps.free released)
      refine free.setWorker ?_ (fun isFree => by cases isFree)
      rw [kept]
      exact ⟨rfl, rfl, by rw [point]; rfl⟩
  | @finish thread fulfilled point saved =>
      have shown := shows_active_of_point point rfl
      refine keeps.finish ?_ ?_ ?_ (by rw [point]; rfl) rfl
        (fun isFree => by cases isFree) (coherent.not_idle_of_shows shown)
      · rw [saved]
        simp
      · intro task none
        cases none
      · rw [saved]
        simp
  | @finishInline thread fulfilled old rest point saved =>
      have shown := shows_active_of_point point rfl
      have once := keeps.savedOnce thread
      rw [saved] at once
      refine keeps.finish ?_ ?_ ?_ (by rw [point]; rfl) ?_ ?_
        (coherent.not_idle_of_shows shown)
      · intro task
        rw [saved, List.mem_cons, eq_comm]
      · intro task isOld member
        have isOnce := once task
        have isOld : old = some task := isOld
        rw [isOld, List.count_cons_self] at isOnce
        have again : 0 < rest.count (some task) := List.count_pos_iff.mpr member
        omega
      · intro task
        exact Nat.le_trans (List.count_le_count_cons) (once task)
      · cases fulfilled <;> rfl
      · cases fulfilled <;> exact fun isFree => by cases isFree

end Steps

/-! ## Runs -/

theorem keepsTasks_of_allowed {numaNode : CPUId → Nat} {state : State}
    (run : Run (step numaNode) Permitted {} state) :
    KeepsTasks state := by
  have coherentAlong : ∀ state,
      Run (step numaNode) Permitted {} state → IsCoherent state none :=
    fun _ before => isCoherent_of_run (fun _ _ permitted => permitted.2) before
  refine run.invariant_with coherentAlong keepsTasks_init ?_
  intro before action after coherent _ keeps allowed taken
  exact keepsTasks_steps coherent keeps allowed (steps_of_step taken)

/-- Every task that has been taken out of the scheduler is with one thread, in one
way, or has finished. -/
structure State.AssignsOnce (state : State) : Prop where
  held : ∀ task, task < state.nextTask →
    ∃! holder, state.holdsTask holder task
  taken : ∀ holder task, state.holdsTask holder task → task < state.nextTask
  finishedOnce : state.finished.Nodup
  idle : ∀ node thread, thread ∈ state.idleThreads node →
    (state.worker thread).task = none
  /-- The assertions of `getIdleThread` and `setTask`. -/
  passed : state.assignmentFailed = false

/-- No task is lost or run twice when no thread gets idle that has been given one, and
every unblocking matches one block. -/
theorem assignsOnce_of_run (numaNode : CPUId → Nat) {state : State}
    (run : Run (step numaNode) Permitted {} state) :
    state.AssignsOnce := by
  have keeps := keepsTasks_of_allowed run
  refine ⟨?_, fun _ _ => keeps.lt_nextTask, keeps.finishedOnce, keeps.idle,
    keeps.passed⟩
  intro task taken
  obtain ⟨holder, held, fresh⟩ := keeps.held task
  cases holder with
  | none => exact absurd (fresh.mp rfl) (Nat.not_le.mpr taken)
  | some holder =>
      refine ⟨holder, (held holder).mpr rfl, ?_⟩
      intro other holds
      exact (Option.some.inj (held.eq_some holds)).symm

/-- A task that has been unblocked blocks, and its thread gives a new task to a new
thread. -/
def giveTask : List Action :=
  [.initializeCPU 0 0, .resume 0, .wake 0, .activationCheck 0,
    .activationCheck 0, .getReadyTask 0 (.fresh false), .addReadyTask 0,
    .blockCurrentTask 0, .getReadyTask 0 (.fresh false), .recruit 0,
    .switchTo 0, .wake 1]

/-- The new thread runs its task and resumes the first one. -/
theorem assignsOnce_given :
    ∃ state : State, Run (step fun _ => 0) Permitted {} state ∧
      state.finished = [1] ∧ (state.worker 0).point = .running ∧
      (state.worker 0).task = some 0 ∧ state.AssignsOnce := by
  obtain ⟨state, run, reached⟩ : ∃ state : State,
      Run (step fun _ => 0) Permitted {} state ∧
        (decide (state.finished = [1]) &&
          decide ((state.worker 0).point = .running) &&
            decide ((state.worker 0).task = some 0)) = true :=
    exists_run_of_executeAllowed
      (giveTask ++
        [.activationCheck 1, .handleTask 1, .finish 1 true,
          .activationCheck 1, .getReadyTask 1 (.assigned 0), .addIdler 1,
          .switchTo 1, .wake 0]) {}
      (fun state : State =>
        decide (state.finished = [1]) &&
          decide ((state.worker 0).point = .running) &&
            decide ((state.worker 0).task = some 0))
      (by decide)
  simp only [Bool.and_eq_true, decide_eq_true_eq] at reached
  exact ⟨state, run, reached.1.1, reached.1.2, reached.2,
    assignsOnce_of_run _ run⟩

/-- The CPU is disabled before the new thread has run its task. -/
example :
    (executeAllowed (step fun _ => 0) (fun _ _ => True) {}
      (giveTask ++
        [.disable 0, .activationCheck 1, .getIdleComputePlace 1 none,
          .addIdler 1, .switchTo 1, .enable 0 0, .getIdleThread 0])).any
      (·.assignmentFailed) = true := by
  decide

end Nanos6.ThreadManager
