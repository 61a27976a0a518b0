import Nanos6.Executors.ThreadPlaces

/-!
# Threads are resumed exactly once

Every step moves threads from one place to another, so the law of the places holds
along every run in which each unblocking matches one block, whatever CPUs are enabled
and disabled meanwhile.  A taskwait before the block would take the unblocking for its
own, and a thread that has been resumed must not be resumed again.
-/

namespace Nanos6.ThreadManager

open Foundation

section Steps

variable {numaNode : CPUId → Nat} {state next : State}
  {detached : Option ThreadId} {thread : ThreadId} {worker : Worker}

theorem setWorker_setWorker (first second : Worker) :
    (state.setWorker thread first).setWorker thread second =
      state.setWorker thread second := by
  unfold State.setWorker
  rw [Function.update_idem]

namespace IsCoherent

/-- A thread shows at most one place. -/
theorem showsOnly (coherent : IsCoherent state detached) {own : Own}
    (shown : (state.worker thread).shows own = true) :
    (state.worker thread).ShowsOnly (some own) := by
  rw [Worker.showsOnly_iff]
  have holds : state.holds (.own own) thread := shown
  have held := coherent.heldBy_of_holds holds
  intro other
  constructor
  · intro alsoShown
    have alsoHolds : state.holds (.own other) thread := alsoShown
    rw [Place.own.inj (held.unique holds alsoHolds)]
  · intro same
    cases same
    exact shown

theorem showsOnly_none (coherent : IsCoherent state (some thread)) :
    (state.worker thread).ShowsOnly none := by
  rw [Worker.showsOnly_iff]
  intro own
  have absent := coherent.not_holds_of_detached (.own own)
  exact iff_of_false absent (by simp)

theorem not_idle_of_shows (coherent : IsCoherent state detached) {own : Own}
    (shown : (state.worker thread).shows own = true) (node : Nat) :
    thread ∉ state.idleThreads node := by
  have absent := coherent.elsewhere_of_shows shown (.idle node)
    (by simp)
  exact absent

theorem not_idle_of_point (coherent : IsCoherent state detached)
    (awake : (state.worker thread).point.isResting = false) (node : Nat) :
    thread ∉ state.idleThreads node := by
  intro member
  rw [coherent.rests node thread member] at awake
  cases awake

theorem born_of_shows (coherent : IsCoherent state detached) {own : Own}
    (shown : (state.worker thread).shows own = true) :
    thread < state.totalThreads := by
  have holds : state.holds (.own own) thread := shown
  exact coherent.born_of_holds holds

/-- A thread that shows its place shows another one. -/
theorem goTo (coherent : IsCoherent state detached) {before after : Own}
    (shown : (state.worker thread).shows before = true)
    (shows : worker.ShowsOnly (some after))
    (pointer : worker.point.replacement =
      (state.worker thread).point.replacement)
    (resumed : worker.cpuToBeResumedOn.isSome = worker.signaled) :
    IsCoherent (state.setWorker thread worker) detached := by
  refine coherent.moveOwn ⟨coherent.born_of_shows shown, resumed, ?_, ?_⟩ shown
    shows pointer
  · intro node member
    exact absurd member (coherent.not_idle_of_shows shown node)
  · rw [pointer]
    exact coherent.selfless thread

/-- A thread that shows its place is taken from there. -/
theorem take (coherent : IsCoherent state none) {before : Own}
    (shown : (state.worker thread).shows before = true)
    (shows : worker.ShowsOnly none)
    (pointer : worker.point.replacement =
      (state.worker thread).point.replacement)
    (resumed : worker.cpuToBeResumedOn.isSome = worker.signaled) :
    IsCoherent (state.setWorker thread worker) (some thread) := by
  refine coherent.detachOwn ⟨coherent.born_of_shows shown, resumed, ?_, ?_⟩
    shown shows pointer
  · intro node member
    exact absurd member (coherent.not_idle_of_shows shown node)
  · rw [pointer]
    exact coherent.selfless thread

/-- The task of a blocked thread is taken out of the scheduler. -/
theorem claim (coherent : IsCoherent state none)
    (ready : (state.worker thread).ready = true) :
    IsCoherent (state.claim thread) (some thread) := by
  have shown : (state.worker thread).shows .ready = true := ready
  have only := coherent.showsOnly shown
  exact coherent.take shown ⟨only.active, only.waiting, rfl, only.signaled⟩ rfl
    (coherent.resumed thread)

/-- The blocked thread is resumed without going through the scheduler. -/
theorem release (coherent : IsCoherent state none)
    (waiting : (state.worker thread).waiting = true) :
    IsCoherent
      (state.setWorker thread { state.worker thread with waiting := false })
      (some thread) := by
  have shown : (state.worker thread).shows .waiting = true := waiting
  have only := coherent.showsOnly shown
  exact coherent.take shown ⟨only.active, rfl, only.ready, only.signaled⟩ rfl
    (coherent.resumed thread)

/-- `WorkerThreadBase::resume` for a thread that is nowhere else. -/
theorem resume (coherent : IsCoherent state (some thread)) (cpu : CPUId) :
    IsCoherent (state.resume thread cpu) none := by
  have nothing := coherent.showsOnly_none
  have attached : IsCoherent
      (state.setWorker thread
        { state.worker thread with
          cpuToBeResumedOn := some cpu
          signaled := true }) none := by
    have shows : Worker.ShowsOnly
        { state.worker thread with
          cpuToBeResumedOn := some cpu
          signaled := true } (some .signaled) :=
      ⟨nothing.active, nothing.waiting, nothing.ready, rfl⟩
    refine coherent.attachOwn
      ⟨coherent.born thread rfl, rfl, ?_, coherent.selfless thread⟩ shows rfl
    intro node member
    exact coherent.rests node thread member
  refine attached.reframe rfl rfl rfl rfl ?_
  change (state.resumptionFailed || _ || _) = state.resumptionFailed
  rw [coherent.resumed, nothing.signaled]
  simp

theorem getIdleThread (coherent : IsCoherent state none)
    (numaNode : CPUId → Nat) (cpu : CPUId) :
    IsCoherent (state.getIdleThread numaNode cpu).2
      (some (state.getIdleThread numaNode cpu).1) := by
  rcases getIdleThread_cases state numaNode cpu with
    ⟨rest, listed, popped⟩ | ⟨isNew, created⟩
  · rw [popped]
    exact coherent.popIdleThread listed
  · rw [created, isNew]
    exact coherent.createWorkerThread numaNode cpu

/-- What happens to the CPUs. -/
theorem setStatus (coherent : IsCoherent state detached) (cpu : CPUId)
    (status : ActivationStatus) :
    IsCoherent (state.setStatus cpu status) detached :=
  coherent.reframe rfl rfl rfl rfl rfl

theorem findsNothing (coherent : IsCoherent state detached) (cpu : CPUId)
    (idles : Bool) : IsCoherent (state.findsNothing cpu idles) detached := by
  cases idles <;> exact coherent.reframe rfl rfl rfl rfl rfl

theorem unidleCPU (coherent : IsCoherent state detached) (cpu : CPUId) :
    IsCoherent (state.unidleCPU cpu) detached :=
  coherent.reframe rfl rfl rfl rfl rfl

/-- A move of an active thread. -/
theorem move (coherent : IsCoherent state detached) {before after : Point}
    (here : (state.worker thread).point = before)
    (active : before.isActive = true) (staysActive : after.isActive = true)
    (pointer : after.replacement = before.replacement) :
    IsCoherent (state.setPoint thread after) detached := by
  subst here
  have shown : (state.worker thread).shows .active = true := active
  have only := coherent.showsOnly shown
  have shows : Worker.ShowsOnly { state.worker thread with point := after }
      (some .active) :=
    ⟨staysActive, only.waiting, only.ready, only.signaled⟩
  exact coherent.goTo shown shows pointer (coherent.resumed thread)

/-- A move of a thread that is not active. -/
theorem moveInactive (coherent : IsCoherent state detached)
    {before after : Point} (here : (state.worker thread).point = before)
    (born : before ≠ .unborn) (inactive : before.isActive = false)
    (staysInactive : after.isActive = false)
    (rests : before.isResting = true → after.isResting = true)
    (pointer : after.replacement = before.replacement) :
    IsCoherent (state.setPoint thread after) detached := by
  subst here
  refine coherent.setWorker_same ⟨coherent.born_of_point born,
    coherent.resumed thread, ?_, ?_⟩ ?_ pointer
  · intro node member
    exact rests (coherent.rests node thread member)
  · change after.replacement ≠ _
    rw [pointer]
    exact coherent.selfless thread
  · intro own
    cases own with
    | active => exact staysInactive.trans inactive.symm
    | waiting => rfl
    | ready => rfl
    | signaled => rfl

/-- An active or blocked thread runs a task. -/
theorem start (coherent : IsCoherent state detached) {own : Own}
    (shown : (state.worker thread).shows own = true)
    (idle : own = .active ∨ own = .waiting)
    (pointer : (state.worker thread).point.replacement = none)
    (saved : List (Option TaskId)) :
    IsCoherent (state.start thread saved) detached := by
  have only := coherent.showsOnly shown
  have started : IsCoherent
      (state.setWorker thread
        { state.worker thread with
          task := some state.nextTask
          saved := saved
          point := .running
          waiting := false }) detached := by
    have shows : Worker.ShowsOnly
        { state.worker thread with
          task := some state.nextTask
          saved := saved
          point := .running
          waiting := false } (some .active) := by
      refine ⟨rfl, rfl, ?_, ?_⟩
      · rw [only.ready]
        rcases idle with rfl | rfl <;> rfl
      · rw [only.signaled]
        rcases idle with rfl | rfl <;> rfl
    exact coherent.goTo shown shows pointer.symm (coherent.resumed thread)
  exact started.reframe rfl rfl rfl rfl rfl

/-- The thread is going to resume another one. -/
theorem replaceBy {other : ThreadId} {before after : Point}
    (coherent : IsCoherent state (some other)) (different : other ≠ thread)
    (here : (state.worker thread).point = before) (born : before ≠ .unborn)
    (same : after.isActive = before.isActive)
    (awake : before.isResting = false) (alone : before.replacement = none)
    (replaced : after.replacement = some other) :
    IsCoherent (state.setPoint thread after) none := by
  subst here
  refine coherent.attachReplacement ⟨coherent.born_of_point born,
    coherent.resumed thread, ?_, ?_⟩ ?_ alone replaced
  · intro node member
    exact absurd member (coherent.not_idle_of_point awake node)
  · change after.replacement ≠ some thread
    rw [replaced]
    simpa using different
  · intro own
    cases own with
    | active => exact same
    | waiting => rfl
    | ready => rfl
    | signaled => rfl

end IsCoherent

/-- The point of a thread decides whether it is active. -/
theorem shows_active_of_point {point : Point}
    (here : (state.worker thread).point = point)
    (active : point.isActive = true) :
    (state.worker thread).shows .active = true := by
  change (state.worker thread).point.isActive = true
  rw [here]
  exact active

theorem worker_findsNothing (state : State) (cpu : CPUId) (idles : Bool) :
    (state.findsNothing cpu idles).worker = state.worker := by
  cases idles <;> rfl

theorem worker_claim_of_ne {other : ThreadId} (different : thread ≠ other) :
    (state.claim other).worker thread = state.worker thread :=
  Function.update_of_ne different _ _

theorem setPoint_claim (point : Point) :
    (state.claim thread).setPoint thread point =
      state.setWorker thread
        { state.worker thread with ready := false, point := point } := by
  have claimed : (state.claim thread).worker thread =
      { state.worker thread with ready := false } :=
    Function.update_self _ _ _
  unfold State.setPoint
  rw [claimed]
  exact setWorker_setWorker _ _

theorem caller_getIdleThread (state : State) (numaNode : CPUId → Nat)
    (cpu : CPUId) :
    (state.getIdleThread numaNode cpu).2.caller = state.caller := by
  rcases getIdleThread_cases state numaNode cpu with
    ⟨rest, -, popped⟩ | ⟨-, created⟩
  · rw [popped]
    rfl
  · rw [created]
    rfl

/-- Only a new thread is changed. -/
theorem worker_getIdleThread (born : thread < state.totalThreads)
    (numaNode : CPUId → Nat) (cpu : CPUId) :
    (state.getIdleThread numaNode cpu).2.worker thread =
      state.worker thread := by
  rcases getIdleThread_cases state numaNode cpu with
    ⟨rest, -, popped⟩ | ⟨-, created⟩
  · rw [popped]
    rfl
  · rw [created]
    exact Function.update_of_ne (Nat.ne_of_lt born) _ _

/-- A thread that is not at rest does not get itself. -/
theorem IsCoherent.getIdleThread_ne (coherent : IsCoherent state none)
    (awake : (state.worker thread).point.isResting = false)
    (born : (state.worker thread).point ≠ .unborn)
    (numaNode : CPUId → Nat) (cpu : CPUId) :
    (state.getIdleThread numaNode cpu).1 ≠ thread := by
  rcases getIdleThread_cases state numaNode cpu with
    ⟨rest, listed, -⟩ | ⟨isNew, -⟩
  · intro same
    refine coherent.not_idle_of_point awake (numaNode cpu) ?_
    rw [listed, same]
    exact List.mem_cons_self
  · rw [isNew]
    exact (Nat.ne_of_lt (coherent.born_of_point born)).symm

/-- `setTask` does not change the place of the thread. -/
theorem IsCoherent.setTask (coherent : IsCoherent state (some thread))
    (task : Option TaskId) :
    IsCoherent (state.setTask thread task) (some thread) := by
  cases task with
  | none => exact coherent
  | some task =>
      have assigned : IsCoherent
          (state.setWorker thread
            { state.worker thread with task := some task }) (some thread) := by
        refine coherent.setWorker_same ⟨coherent.born thread rfl,
          coherent.resumed thread, ?_, coherent.selfless thread⟩ ?_ rfl
        · intro node member
          exact coherent.rests node thread member
        · intro own
          cases own <;> rfl
      exact assigned.reframe rfl rfl rfl rfl rfl

theorem worker_setTask_of_ne {other : ThreadId} (different : thread ≠ other)
    (task : Option TaskId) :
    (state.setTask other task).worker thread = state.worker thread := by
  cases task with
  | none => rfl
  | some task => exact Function.update_of_ne different _ _

/-- A thread that gets another one to replace it does not change itself. -/
theorem IsCoherent.worker_recruit (coherent : IsCoherent state none)
    {task : Option TaskId}
    (point : (state.worker thread).point = .recruiting task)
    (numaNode : CPUId → Nat) (cpu : CPUId) :
    ((state.getIdleThread numaNode cpu).2.setTask
      (state.getIdleThread numaNode cpu).1 task).worker thread =
        state.worker thread := by
  have born : (state.worker thread).point ≠ .unborn := by
    rw [point]
    simp
  have different := coherent.getIdleThread_ne (by rw [point]; rfl) born numaNode
    cpu
  rw [worker_setTask_of_ne different.symm,
    worker_getIdleThread (coherent.born_of_point born)]

/-- A thread that goes on by itself is not one that waits. -/
theorem IsCoherent.ne_of_waiting (coherent : IsCoherent state detached)
    {other : ThreadId} (active : (state.worker thread).shows .active = true)
    (waiting : (state.worker other).waiting = true) : other ≠ thread := by
  intro same
  rw [same, (coherent.showsOnly active).waiting] at waiting
  cases waiting

/-- A task blocks and waits for `addReadyTask`. -/
theorem IsCoherent.block (coherent : IsCoherent state detached)
    (point : (state.worker thread).point = .running) :
    IsCoherent
      (state.setWorker thread
        { state.worker thread with waiting := true, point := .blocking })
      detached := by
  have shown := shows_active_of_point point rfl
  have only := coherent.showsOnly shown
  have shows : Worker.ShowsOnly
      { state.worker thread with waiting := true, point := .blocking }
      (some .waiting) :=
    ⟨rfl, rfl, only.ready, only.signaled⟩
  exact coherent.goTo shown shows (by rw [point]; rfl) (coherent.resumed thread)

/-- A task that has been unblocked is not unblocked again before it goes on, and does not
block for another reason, run another task or end before it gets to its block. -/
def MatchesBlock (state : State) (action : Action) : Prop :=
  (∀ thread ∈ action.unblocks, (state.worker thread).waiting = true ∨
    (state.worker thread).point = .running) ∧
  ∀ thread ∈ action.turnsFrom, (state.worker thread).point ≠ .unblocked

instance (state : State) (action : Action) :
    Decidable (MatchesBlock state action) :=
  inferInstanceAs (Decidable ((∀ thread ∈ action.unblocks, _) ∧ _))

/-- Every step keeps the law. -/
theorem isCoherent_steps {action : Action} (coherent : IsCoherent state none)
    (matchesBlock : MatchesBlock state action)
    (steps : Steps numaNode state action next) : IsCoherent next none := by
  cases steps with
  | initializeCPU status free =>
      refine ((coherent.setStatus _ _).createWorkerThread numaNode
        _).attachCaller ?_ rfl
      change (state.caller _).thread = none
      rw [free]
      rfl
  | enableUninitialized status => exact coherent.setStatus _ _
  | enableAgain => exact coherent
  | enableDisabling status => exact coherent.setStatus _ _
  | enableDisabled status free =>
      refine (coherent.setStatus _ _).setCaller_same ?_
      change _ = (state.caller _).thread
      rw [free]
      rfl
  | disableEnabled status => exact coherent.setStatus _ _
  | disableEnabling status => exact coherent.setStatus _ _
  | disableAgain => exact coherent
  | getIdleCPU free idle =>
      refine (coherent.unidleCPU _).setCaller_same ?_
      change _ = (state.caller _).thread
      rw [free]
      rfl
  | getIdleThread content =>
      refine (coherent.getIdleThread numaNode _).attachCaller ?_ rfl
      rw [caller_getIdleThread, content]
      rfl
  | getReleasedThread content waiting =>
      refine (coherent.release waiting).attachCaller ?_ rfl
      change (state.caller _).thread = none
      rw [content]
      rfl
  | resume content =>
      refine (coherent.detachCaller ?_ rfl).resume _
      rw [content]
      rfl
  | @addReadyTask thread waiting =>
      have shown : (state.worker thread).shows .waiting = true := waiting
      have only := coherent.showsOnly shown
      have shows : Worker.ShowsOnly
          { state.worker thread with waiting := false, ready := true }
          (some .ready) :=
        ⟨only.active, rfl, rfl, only.signaled⟩
      exact coherent.goTo shown shows rfl (coherent.resumed thread)
  | @addEarly thread point =>
      have shown := shows_active_of_point point rfl
      have only := coherent.showsOnly shown
      have shows : Worker.ShowsOnly
          { state.worker thread with ready := true, point := .unblocked }
          (some .ready) :=
        ⟨rfl, only.waiting, rfl, only.signaled⟩
      exact coherent.goTo shown shows (by rw [point]; rfl)
        (coherent.resumed thread)
  | addAgain again => exact absurd (matchesBlock.1 _ rfl) again
  | turn turns point => exact absurd point (matchesBlock.2 _ turns)
  | checkStarting point status => exact coherent.setStatus _ _
  | checkEnabled point status =>
      exact coherent.move point rfl rfl rfl
  | checkEnabling point status =>
      exact (coherent.setStatus _ _).move point rfl rfl rfl
  | checkDisabling point status =>
      exact (coherent.setStatus _ _).move point rfl rfl rfl
  | checkDisabled point status =>
      exact coherent.move point rfl rfl rfl
  | stay point =>
      exact coherent.move point rfl rfl rfl
  | @migrate thread cpu point idle =>
      have shown := shows_active_of_point point rfl
      have only := coherent.showsOnly shown
      have shows : Worker.ShowsOnly
          { state.worker thread with cpu := cpu, point := .activationCheck }
          (some .active) :=
        ⟨rfl, only.waiting, only.ready, only.signaled⟩
      exact (coherent.unidleCPU cpu).goTo shown shows
        (by change _ = (state.worker thread).point.replacement; rw [point]; rfl)
        (coherent.resumed thread)
  | @findNothing thread idles point task =>
      have here : ((state.findsNothing (state.worker thread).cpu idles).worker
          thread).point = .getReadyTask := by
        rw [worker_findsNothing, point]
      exact (coherent.findsNothing _ _).move here rfl rfl rfl
  | findFresh point task =>
      exact coherent.start (shows_active_of_point point rfl) (Or.inl rfl)
        (by rw [point]; rfl) _
  | @findAssigned thread other point task ready =>
      have shown := shows_active_of_point point rfl
      have different : other ≠ thread := by
        intro same
        rw [same, (coherent.showsOnly shown).ready] at ready
        cases ready
      have kept : (state.claim other).worker thread = state.worker thread :=
        worker_claim_of_ne different.symm
      exact (coherent.claim ready).replaceBy different
        ((congrArg Worker.point kept).trans point) (by simp) rfl rfl rfl rfl
  | @replaceNothing thread idles point =>
      have here : ((state.findsNothing (state.worker thread).cpu idles).worker
          thread).point = .blocking := by
        rw [worker_findsNothing, point]
      exact (coherent.findsNothing _ _).moveInactive here (by simp) rfl rfl
        (by simp [Point.isResting]) rfl
  | @replaceOwn thread point ready =>
      have shown : (state.worker thread).shows .ready = true := ready
      have only := coherent.showsOnly shown
      have shows : Worker.ShowsOnly
          { state.worker thread with ready := false, point := .running }
          (some .active) :=
        ⟨rfl, only.waiting, rfl, only.signaled⟩
      rw [setPoint_claim]
      exact coherent.goTo shown shows (by rw [point]; rfl)
        (coherent.resumed thread)
  | @replaceInline thread inline point waiting =>
      have shown : (state.worker thread).shows .waiting = true := waiting
      exact coherent.start shown (Or.inr rfl) (by rw [point]; rfl) _
  | replaceFresh point =>
      have moved : IsCoherent
          (state.setPoint _ (.recruiting (some state.nextTask))) none :=
        coherent.moveInactive point (by simp) rfl rfl
          (by simp [Point.isResting]) rfl
      exact moved.reframe rfl rfl rfl rfl rfl
  | @replaceAssigned thread other point ready different =>
      have kept : (state.claim other).worker thread = state.worker thread :=
        worker_claim_of_ne different.symm
      exact (coherent.claim ready).replaceBy different
        ((congrArg Worker.point kept).trans point) (by simp) rfl rfl rfl rfl
  | handleTask point =>
      exact coherent.move point rfl rfl rfl
  | handleServices point =>
      exact coherent.move point rfl rfl rfl
  | @addIdler thread replacement point =>
      have shown := shows_active_of_point point rfl
      have only := coherent.showsOnly shown
      have shows : Worker.ShowsOnly
          { state.worker thread with point := .switching replacement .loop }
          none :=
        ⟨rfl, only.waiting, only.ready, only.signaled⟩
      refine (coherent.take shown shows ?_ (coherent.resumed thread)).addIdler ?_
      · rw [point]
        rfl
      · change (Function.update state.worker thread _ thread).point.isResting =
          true
        rw [Function.update_self]
        rfl
  | leave point =>
      refine coherent.moveInactive point (by simp) rfl rfl (fun rests => ?_) rfl
      rename_i resumption
      cases resumption with
      | loop => rfl
      | task => cases rests
  | @switchTo thread other resumption point =>
      have before : (state.worker thread).point.replacement = some other := by
        rw [point]
        rfl
      have selfless := coherent.selfless thread
      rw [before] at selfless
      have different : other ≠ thread := fun same => selfless (by rw [same])
      have left : IsCoherent (state.setPoint thread (.suspended resumption))
          (some other) := by
        refine coherent.detachReplacement
          ⟨coherent.born_of_point (by rw [point]; simp),
            coherent.resumed thread, ?_, by simp [Point.replacement]⟩ ?_
          before rfl
        · intro node member
          have rests := coherent.rests node thread member
          rw [point] at rests
          cases resumption with
          | loop => rfl
          | task => cases rests
        · intro own
          cases own with
          | active =>
              change _ = (state.worker thread).point.isActive
              rw [point]
              rfl
          | waiting => rfl
          | ready => rfl
          | signaled => rfl
      refine (left.resume _).reframe rfl rfl rfl rfl ?_
      simp [different]
  | @wake thread resumption point signaled =>
      have shown : (state.worker thread).shows .signaled = true := signaled
      have only := coherent.showsOnly shown
      have isResumed := coherent.resumed thread
      rw [signaled] at isResumed
      have woken : IsCoherent
          (state.setWorker thread
            { state.worker thread with
              cpu := (state.worker thread).cpuToBeResumedOn.getD
                (state.worker thread).cpu
              cpuToBeResumedOn := none
              signaled := false
              point := resumption.point }) none := by
        have shows : Worker.ShowsOnly
            { state.worker thread with
              cpu := (state.worker thread).cpuToBeResumedOn.getD
                (state.worker thread).cpu
              cpuToBeResumedOn := none
              signaled := false
              point := resumption.point } (some .active) :=
          ⟨by cases resumption <;> rfl, only.waiting, only.ready, rfl⟩
        refine coherent.goTo shown shows ?_ rfl
        rw [point]
        cases resumption <;> rfl
      refine woken.reframe rfl rfl rfl rfl ?_
      change (state.resumptionFailed || _) = state.resumptionFailed
      rw [Option.isNone_eq_false_iff.mpr isResumed, Bool.or_false]
  | @recruit thread task point =>
      have kept := coherent.worker_recruit point numaNode
        (state.worker thread).cpu
      have different := coherent.getIdleThread_ne (by rw [point]; rfl)
        (by rw [point]; simp) numaNode (state.worker thread).cpu
      exact ((coherent.getIdleThread numaNode _).setTask task).replaceBy
        different ((congrArg Worker.point kept).trans point) (by simp) rfl rfl
        rfl rfl
  | blockCurrentTask point => exact coherent.block point
  | blockUnblocked point =>
      exact coherent.moveInactive point (by simp) rfl rfl
        (by simp [Point.isResting]) rfl
  | taskBlocks point => exact coherent.block point
  | @waitForIf0Task thread point =>
      have shown := shows_active_of_point point rfl
      have only := coherent.showsOnly shown
      have shows : Worker.ShowsOnly
          { state.worker thread with
            waiting := true
            point := .recruiting none } (some .waiting) :=
        ⟨rfl, rfl, only.ready, only.signaled⟩
      exact coherent.goTo shown shows (by rw [point]; rfl)
        (coherent.resumed thread)
  | executeInline point =>
      exact coherent.start (shows_active_of_point point rfl) (Or.inl rfl)
        (by rw [point]; rfl) _
  | @preempt thread released point waiting =>
      have shown := shows_active_of_point point rfl
      have only := coherent.showsOnly shown
      have different := coherent.ne_of_waiting shown waiting
      have kept : (state.setWorker released
          { state.worker released with waiting := false }).worker thread =
          state.worker thread :=
        Function.update_of_ne different.symm _ _
      -- The thread gives up its own place first, and then gets the other one.
      have blocked : IsCoherent
          ((state.setWorker released
            { state.worker released with waiting := false }).setWorker thread
              { state.worker thread with ready := true, point := .blocking })
          (some released) := by
        have shows : Worker.ShowsOnly
            { state.worker thread with ready := true, point := .blocking }
            (some .ready) :=
          ⟨rfl, only.waiting, rfl, only.signaled⟩
        have stillShown : ((state.setWorker released
            { state.worker released with waiting := false }).worker
              thread).shows .active = true := by
          rw [kept]
          exact shown
        refine (coherent.release waiting).goTo stillShown shows ?_ ?_
        · rw [kept, point]
          rfl
        · exact coherent.resumed thread
      have here : (((state.setWorker released
          { state.worker released with waiting := false }).setWorker thread
            { state.worker thread with
              ready := true
              point := .blocking }).worker thread) =
          { state.worker thread with ready := true, point := .blocking } :=
        Function.update_self _ _ _
      have switching : IsCoherent
          (((state.setWorker released
            { state.worker released with waiting := false }).setWorker thread
              { state.worker thread with
                ready := true
                point := .blocking }).setPoint thread
                  (.switching (some released) .task)) none := by
        exact blocked.replaceBy different (congrArg Worker.point here) (by simp)
          rfl rfl rfl rfl
      rw [State.setPoint, here, setWorker_setWorker] at switching
      exact switching
  | @finish thread fulfilled point saved =>
      have shown := shows_active_of_point point rfl
      have only := coherent.showsOnly shown
      have ended : IsCoherent
          (state.setWorker thread
            { state.worker thread with
              task := none
              point := .activationCheck }) none := by
        have shows : Worker.ShowsOnly
            { state.worker thread with
              task := none
              point := .activationCheck } (some .active) :=
          ⟨rfl, only.waiting, only.ready, only.signaled⟩
        exact coherent.goTo shown shows (by rw [point]; rfl)
          (coherent.resumed thread)
      exact ended.reframe rfl rfl rfl rfl rfl
  | @finishInline thread fulfilled old rest point saved =>
      have shown := shows_active_of_point point rfl
      have only := coherent.showsOnly shown
      have ended : IsCoherent
          (state.setWorker thread
            { state.worker thread with
              task := old
              saved := rest
              waiting := !fulfilled
              point := if fulfilled then .running else .blocking }) none := by
        have shows : Worker.ShowsOnly
            { state.worker thread with
              task := old
              saved := rest
              waiting := !fulfilled
              point := if fulfilled then .running else .blocking }
            (some (if fulfilled then .active else .waiting)) := by
          cases fulfilled
          · exact ⟨rfl, rfl, only.ready, only.signaled⟩
          · exact ⟨rfl, rfl, only.ready, only.signaled⟩
        refine coherent.goTo shown shows ?_ (coherent.resumed thread)
        rw [point]
        cases fulfilled <;> rfl
      exact ended.reframe rfl rfl rfl rfl rfl

end Steps

/-! ## Runs -/

theorem isCoherent_of_run {numaNode : CPUId → Nat} {state : State}
    {allowed : State → Action → Prop}
    (matchesBlock : ∀ state action, allowed state action →
      MatchesBlock state action)
    (run : Run (step numaNode) allowed {} state) : IsCoherent state none :=
  run.invariant isCoherent_init fun state action _ coherent isAllowed taken =>
    isCoherent_steps coherent (matchesBlock state action isAllowed)
      (steps_of_step taken)

/-- Every thread that has been created is in exactly one place. -/
structure State.ResumesOnce (state : State) : Prop where
  place : ∀ thread, thread < state.totalThreads →
    ∃! place, state.holds place thread
  /-- A list of idle threads holds no thread twice. -/
  nodup : ∀ node, (state.idleThreads node).Nodup
  /-- A thread has a CPU to go to exactly when it has been resumed. -/
  resumed : ∀ thread, (state.worker thread).cpuToBeResumedOn.isSome =
    (state.worker thread).signaled
  /-- The assertions of `addIdler`, `resume`, `signal`, `switchTo` and
  `suspend`. -/
  passed : state.resumptionFailed = false

/-- No thread is resumed twice or is left without a place, and none of the assertions
fails. -/
theorem resumesThreads_of_run (numaNode : CPUId → Nat) {state : State}
    (run : Run (step numaNode) MatchesBlock {} state) : state.ResumesOnce := by
  have coherent := isCoherent_of_run (fun _ _ matchesBlock => matchesBlock) run
  refine ⟨?_, coherent.nodup, coherent.resumed, coherent.passed⟩
  intro thread born
  obtain ⟨place, held, nowhere⟩ := coherent.located thread
  cases place with
  | none =>
      rcases nowhere.mp rfl with unborn | isDetached
      · exact absurd born (Nat.not_lt.mpr unborn)
      · cases isDetached
  | some place =>
      refine ⟨place, (held place).mpr rfl, ?_⟩
      intro other holds
      exact (Option.some.inj (held.eq_some holds)).symm

/-- The second thread gets idle and is resumed before it has suspended itself.  The task
of the first one is unblocked before it blocks, so that the second thread resumes the
first one while it still runs. -/
def resumeEarly : List Action :=
  [.initializeCPU 0 0, .initializeCPU 1 1, .resume 0, .resume 1, .wake 0,
    .wake 1, .activationCheck 0, .activationCheck 0, .activationCheck 1,
    .activationCheck 1, .getReadyTask 0 (.fresh false),
    .getReadyTask 1 (.nothing true), .handleServices 1, .addIdler 1,
    .getIdleCPU 0 1, .getIdleThread 0, .resume 0, .addReadyTask 0, .switchTo 1,
    .wake 1, .activationCheck 1, .getReadyTask 1 (.assigned 0), .addIdler 1,
    .switchTo 1, .blockCurrentTask 0, .getReadyTask 0 (.nothing true),
    .switchTo 0, .wake 0]

/-- The first thread goes on with its task on the other CPU. -/
theorem resumesThreads_early :
    ∃ state : State, Run (step fun _ => 0) MatchesBlock {} state ∧
      (state.worker 0).point = .running ∧ (state.worker 0).cpu = 1 ∧
      state.ResumesOnce := by
  obtain ⟨state, run, reached⟩ : ∃ state : State,
      Run (step fun _ => 0) MatchesBlock {} state ∧
        (decide ((state.worker 0).point = .running) &&
          decide ((state.worker 0).cpu = 1)) = true :=
    exists_run_of_executeAllowed resumeEarly {}
      (fun state : State =>
        decide ((state.worker 0).point = .running) &&
          decide ((state.worker 0).cpu = 1))
      (by decide)
  rw [Bool.and_eq_true, decide_eq_true_eq, decide_eq_true_eq] at reached
  exact ⟨state, run, reached.1, reached.2, resumesThreads_of_run _ run⟩

end Nanos6.ThreadManager
