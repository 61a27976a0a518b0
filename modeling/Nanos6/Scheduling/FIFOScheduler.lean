import Nanos6.Foundation.LabelledRun
import Nanos6.Foundation.Pending
import Nanos6.Scheduling.PriorityScheduler

/-!
# The FIFO and naive schedulers

Two queues under one lock.  The schedulers differ in the end at which they insert
a task.  `getReadyTask` takes tasks from the front; a taskloop at the front is
left there, or moved to the back, as long as it has iterations left, and taken
off and finished afterwards by the thread that finds that it has none.

The lock is released before the taskloops are finished, and `getReadyTask` marks
its CPU as idle after that.  Whether a taskloop has iterations left, and whether
its dependencies could be released when it was finished, is told by the actions.
-/

namespace Nanos6.FIFOScheduler

open Foundation
export Scheduling (TaskId CPU ReadyTaskHint)

inductive Policy where
  | fifo
  | naive
  deriving DecidableEq, Repr

structure Config where
  policy : Policy
  isRequeueEnabled : Bool
  isTaskloop : TaskId → Bool

/-- A call in progress, at the point of the source that it performs next. -/
inductive Call where
  | addReadyTask (task : TaskId) (hint : ReadyTaskHint) (doGetIdle : Bool)
  /-- With the lock, after the task has been queued; and whether some CPU was
  idle then. -/
  | getIdleCPU (task : TaskId) (someIdle : Bool)
  | getReadyTask (cpu : CPU) (canMarkAsIdle : Bool)
  /-- The loop over the ready tasks, with the lock. -/
  | scanReadyTasks (cpu : CPU) (canMarkAsIdle : Bool)
      (completeTaskloops : List TaskId)
  /-- The loop over the complete taskloops; with the task that was taken, and the
  number of tasks queued so far when the lock was released. -/
  | finishTaskloops (cpu : CPU) (canMarkAsIdle : Bool)
      (completeTaskloops : List TaskId) (shouldRecheck : Bool)
      (assigned : Option TaskId) (seen : Nat)
  | createCollaborator (cpu : CPU) (taskloop : TaskId)
  | cpuBecomesIdle (cpu : CPU) (seen : Nat)
  deriving DecidableEq, Repr

/-- What a call of `addReadyTask` that looks for an idle CPU has found. -/
structure Outcome where
  someIdle : Bool
  cpu : Option CPU
  deriving DecidableEq, Repr

structure State where
  readyTasks : List TaskId := []
  unblockedTasks : List TaskId := []
  globalLock : Bool := false
  idleCPUs : List CPU := []
  calls : List Call := []
  /-- The fields below are not in the source; they record the history.  The
  number of tasks queued so far. -/
  queuedSoFar : Nat := 0
  /-- The tasks that were queued when the CPU was last marked as idle. -/
  idledBeside : CPU → List TaskId := fun _ => []
  outcomes : List Outcome := []

/-- Insert a task at the end of the policy. -/
def Policy.push (policy : Policy) (task : TaskId) (queue : List TaskId) :
    List TaskId :=
  match policy with
  | .fifo => queue ++ [task]
  | .naive => task :: queue

namespace State

def goesOn (state : State) (index : Nat) (next : List Call) : State :=
  { state with calls := replaceAt state.calls index next }

def setLock (state : State) (locked : Bool) : State :=
  { state with globalLock := locked }

/-- The tasks in the queues. -/
def queued (state : State) : List TaskId :=
  state.readyTasks ++ state.unblockedTasks

def queueTask (state : State) (policy : Policy) (task : TaskId)
    (hint : ReadyTaskHint) : State :=
  { state with
    readyTasks :=
      if hint = .unblockedTask then state.readyTasks
      else policy.push task state.readyTasks
    unblockedTasks :=
      if hint = .unblockedTask then policy.push task state.unblockedTasks
      else state.unblockedTasks
    queuedSoFar := state.queuedSoFar + 1 }

/-- `CPUManager::getIdleCPU`, with what it has found. -/
def takesIdle (state : State) (someIdle : Bool) : State :=
  { state with
    idleCPUs := state.idleCPUs.filter fun cpu =>
      some cpu != state.idleCPUs.min?
    outcomes :=
      { someIdle := someIdle, cpu := state.idleCPUs.min? } :: state.outcomes }

/-- `CPUManager::cpuBecomesIdle`. -/
def becomesIdle (state : State) (cpu : CPU) : State :=
  { state with
    idleCPUs := state.idleCPUs.insert cpu
    idledBeside := Function.update state.idledBeside cpu state.queued }

end State

/-- One iteration of the loop over the ready tasks; `hasPendingIterations` is
that of the first task. -/
def scan (config : Config) (state : State) (index : Nat) (cpu : CPU)
    (canMarkAsIdle : Bool) (completeTaskloops : List TaskId)
    (hasPendingIterations : Bool) : State :=
  let leaves (after : State) (assigned : Option TaskId) : State :=
    (after.setLock false).goesOn index
      [.finishTaskloops cpu canMarkAsIdle completeTaskloops false assigned
        after.queuedSoFar]
  match state.readyTasks with
  | [] => leaves state none
  | task :: rest =>
      if !config.isTaskloop task then
        leaves { state with readyTasks := rest } (some task)
      else if hasPendingIterations then
        leaves
          { state with
            readyTasks :=
              if config.isRequeueEnabled then rest ++ [task]
              else state.readyTasks }
          (some task)
      else
        { state with readyTasks := rest }.goesOn index
          [.scanReadyTasks cpu canMarkAsIdle (completeTaskloops ++ [task])]

/-- Where `getReadyTask` goes on after the taskloops are finished. -/
def afterTaskloops (config : Config) (cpu : CPU)
    (canMarkAsIdle shouldRecheck : Bool) (assigned : Option TaskId)
    (seen : Nat) : List Call :=
  match assigned with
  | some task =>
      if config.isTaskloop task then [.createCollaborator cpu task] else []
  | none =>
      if shouldRecheck then [.getReadyTask cpu true]
      else if canMarkAsIdle then [.cpuBecomesIdle cpu seen]
      else []

/-- One step of a call.  The answer is that of `hasPendingIterations` or
`markAsFinished`. -/
def perform (config : Config) (state : State) (index : Nat)
    (answer : Bool) : Call → Option State
  | .addReadyTask task hint doGetIdle =>
      if state.globalLock then none
      else
        let queued := state.queueTask config.policy task hint
        if doGetIdle then
          some <| (queued.setLock true).goesOn index
            [.getIdleCPU task (!state.idleCPUs.isEmpty)]
        else some (queued.goesOn index [])
  | .getIdleCPU _ someIdle =>
      some (((state.takesIdle someIdle).setLock false).goesOn index [])
  | .getReadyTask cpu canMarkAsIdle =>
      if state.globalLock then none
      else
        match state.unblockedTasks with
        | _ :: rest =>
            some ({ state with unblockedTasks := rest }.goesOn index [])
        | [] =>
            some <| (state.setLock true).goesOn index
              [.scanReadyTasks cpu canMarkAsIdle []]
  | .scanReadyTasks cpu canMarkAsIdle completeTaskloops =>
      some (scan config state index cpu canMarkAsIdle completeTaskloops
        answer)
  | .finishTaskloops cpu canMarkAsIdle (_ :: rest) shouldRecheck assigned
      seen =>
      some <| state.goesOn index
        [.finishTaskloops cpu canMarkAsIdle rest (shouldRecheck || answer)
          assigned seen]
  | .finishTaskloops cpu canMarkAsIdle [] shouldRecheck assigned seen =>
      some <| state.goesOn index
        (afterTaskloops config cpu canMarkAsIdle shouldRecheck assigned seen)
  | .createCollaborator _ _ => some (state.goesOn index [])
  | .cpuBecomesIdle cpu _ => some ((state.becomesIdle cpu).goesOn index [])

inductive Action where
  | addReadyTask (task : TaskId) (hint : ReadyTaskHint) (doGetIdle : Bool)
  | getReadyTask (cpu : CPU) (canMarkAsIdle : Bool)
  | perform (index : Nat) (answer : Bool)
  deriving DecidableEq

def step (config : Config) (state : State) : Action → Option State
  | .addReadyTask task hint doGetIdle =>
      some
        { state with
          calls := state.calls ++ [.addReadyTask task hint doGetIdle] }
  | .getReadyTask cpu canMarkAsIdle =>
      some
        { state with calls := state.calls ++ [.getReadyTask cpu canMarkAsIdle] }
  | .perform index answer =>
      state.calls[index]?.bind (perform config state index answer)

/-- No task has been queued since the call that marks its CPU as idle has found
the queues empty. -/
def permits (state : State) : Action → Bool
  | .perform index _ =>
      match state.calls[index]? with
      | some (.cpuBecomesIdle _ seen) => seen == state.queuedSoFar
      | _ => true
  | _ => true

def Permitted (state : State) (action : Action) : Prop :=
  permits state action = true

instance (state : State) (action : Action) :
    Decidable (Permitted state action) :=
  inferInstanceAs (Decidable (permits state action = true))

/-! ## The invariant -/

namespace Call

def holdsLock : Call → Nat
  | .getIdleCPU _ _ => 1
  | .scanReadyTasks _ _ _ => 1
  | _ => 0

/-- The call has found the queues empty when so many tasks had been queued, and
has not got a task. -/
def foundNothing : Call → Option Nat
  | .finishTaskloops _ _ _ _ none seen => some seen
  | .cpuBecomesIdle _ seen => some seen
  | _ => none

def isScanning : Call → Bool
  | .scanReadyTasks _ _ _ => true
  | _ => false

/-- The call has queued a task while some CPU was idle. -/
def expectsIdle : Call → Bool
  | .getIdleCPU _ someIdle => someIdle
  | _ => false

end Call

/-- What a call may rely on. -/
structure State.Allows (state : State) (call : Call) : Prop where
  seen : ∀ seen, call.foundNothing = some seen →
    seen ≤ state.queuedSoFar ∧ (seen = state.queuedSoFar → state.queued = [])
  scanning : call.isScanning = true → state.unblockedTasks = []
  idle : call.expectsIdle = true → state.idleCPUs ≠ []

/-- A call that relies on nothing. -/
theorem State.allows_of_plain (state : State) {call : Call}
    (found : call.foundNothing = none) (scans : call.isScanning = false)
    (expects : call.expectsIdle = false) : state.Allows call where
  seen := by
    intro seen impossible
    rw [found] at impossible
    cases impossible
  scanning := by
    intro impossible
    rw [scans] at impossible
    cases impossible
  idle := by
    intro impossible
    rw [expects] at impossible
    cases impossible

structure Invariant (state : State) : Prop where
  locked : total Call.holdsLock state.calls = state.globalLock.toNat
  allows : ∀ call ∈ state.calls, state.Allows call
  beside : ∀ cpu, state.idledBeside cpu = []
  outcomes : ∀ outcome ∈ state.outcomes, outcome.someIdle = true →
    outcome.cpu.isSome = true

/-- Tasks may leave the queues and CPUs may become idle, but nothing is
queued. -/
structure State.Calm (state after : State) : Prop where
  queuedSoFar : after.queuedSoFar = state.queuedSoFar
  queued : state.queued = [] → after.queued = []
  unblocked : state.unblockedTasks = [] → after.unblockedTasks = []
  idle : state.idleCPUs ≠ [] → after.idleCPUs ≠ []

theorem State.Calm.allows {state after : State} (calm : state.Calm after)
    {call : Call} (allows : state.Allows call) : after.Allows call where
  seen := by
    intro seen found
    obtain ⟨bound, empty⟩ := allows.seen seen found
    rw [calm.queuedSoFar]
    exact ⟨bound, fun equal => calm.queued (empty equal)⟩
  scanning := fun scans => calm.unblocked (allows.scanning scans)
  idle := fun expects => calm.idle (allows.idle expects)

namespace Invariant

variable {state after next : State} {index : Nat} {call : Call}

/-- A call goes on. -/
theorem goesOn (invariant : Invariant state) (calls : List Call)
    (found : state.calls[index]? = some call)
    (same : after.calls = state.calls)
    (lock : after.globalLock.toNat + call.holdsLock =
      state.globalLock.toNat + total Call.holdsLock calls)
    (others : ∀ other ∈ state.calls.eraseIdx index, after.Allows other)
    (allows : ∀ new ∈ calls, after.Allows new)
    (beside : ∀ cpu, after.idledBeside cpu = [])
    (outcomes : ∀ outcome ∈ after.outcomes, outcome.someIdle = true →
      outcome.cpu.isSome = true) :
    Invariant (after.goesOn index calls) where
  locked := by
    have before := invariant.locked
    have replaced := total_replaceAt Call.holdsLock calls found
    change total _ (replaceAt after.calls index calls) =
      after.globalLock.toNat
    rw [same]
    omega
  allows := by
    intro other member
    change other ∈ replaceAt after.calls index calls at member
    rw [same] at member
    have carries : after.Allows other →
        (after.goesOn index calls).Allows other :=
      fun allowed => ⟨allowed.seen, allowed.scanning, allowed.idle⟩
    rcases mem_replaceAt_or member with new | old
    · exact carries (allows other new)
    · exact carries (others other old)
  beside := beside
  outcomes := outcomes

/-- A call goes on, and nothing is queued. -/
theorem moves (invariant : Invariant state) (calls : List Call)
    (found : state.calls[index]? = some call)
    (calm : state.Calm after) (same : after.calls = state.calls)
    (lock : after.globalLock.toNat + call.holdsLock =
      state.globalLock.toNat + total Call.holdsLock calls)
    (allows : ∀ new ∈ calls, after.Allows new)
    (beside : after.idledBeside = state.idledBeside)
    (outcomes : after.outcomes = state.outcomes) :
    Invariant (after.goesOn index calls) := by
  apply invariant.goesOn calls found same lock _ allows
  · rw [beside]
    exact invariant.beside
  · rw [outcomes]
    exact invariant.outcomes
  · intro other member
    exact calm.allows
      (invariant.allows other (List.mem_of_mem_eraseIdx member))

/-- While the lock is free, no call has it. -/
theorem unlocked (invariant : Invariant state)
    (free : state.globalLock = false) {other : Call}
    (member : other ∈ state.calls) : other.holdsLock = 0 := by
  apply eq_zero_of_total _ member
  rw [invariant.locked, free]
  rfl

/-- While a call has the lock, no other one has it. -/
theorem alone (invariant : Invariant state)
    (found : state.calls[index]? = some call)
    (holds : call.holdsLock = 1) {other : Call}
    (member : other ∈ state.calls.eraseIdx index) : other.holdsLock = 0 := by
  apply eq_zero_of_total _ member
  have counted := total_eraseIdx Call.holdsLock found
  have locked := invariant.locked
  have bit := Bool.toNat_le state.globalLock
  omega

theorem isLocked (invariant : Invariant state)
    (found : state.calls[index]? = some call)
    (holds : call.holdsLock = 1) : state.globalLock = true := by
  have counted := total_eraseIdx Call.holdsLock found
  have locked := invariant.locked
  cases lock : state.globalLock with
  | true => rfl
  | false =>
      rw [lock, Bool.toNat_false] at locked
      omega

theorem not_scanning {other : Call} (without : other.holdsLock = 0) :
    other.isScanning = false ∧ other.expectsIdle = false := by
  cases other <;> simp_all [Call.holdsLock, Call.isScanning, Call.expectsIdle]

theorem addReadyTask (invariant : Invariant state) {config : Config}
    {answer : Bool} {task : TaskId} {hint : ReadyTaskHint} {doGetIdle : Bool}
    (found : state.calls[index]? = some (.addReadyTask task hint doGetIdle))
    (performed : perform config state index answer
      (.addReadyTask task hint doGetIdle) = some next) :
    Invariant next := by
  simp only [FIFOScheduler.perform] at performed
  split at performed
  · cases performed
  · rename_i unlocked
    rw [Bool.not_eq_true] at unlocked
    have others : ∀ other ∈ state.calls.eraseIdx index,
        (state.queueTask config.policy task hint).Allows other := by
      intro other member
      have inCalls := List.mem_of_mem_eraseIdx member
      have without := not_scanning (invariant.unlocked unlocked inCalls)
      refine ⟨?_, ?_, ?_⟩
      · intro seen before
        have bound := ((invariant.allows other inCalls).seen seen before).1
        change seen ≤ state.queuedSoFar + 1 ∧
          (seen = state.queuedSoFar + 1 → _)
        exact ⟨by omega, fun equal => by omega⟩
      · intro scans
        rw [without.1] at scans
        cases scans
      · intro expects
        rw [without.2] at expects
        cases expects
    split at performed
    · cases performed
      refine invariant.goesOn _ found rfl ?_ ?_ ?_ invariant.beside
        invariant.outcomes
      · rw [unlocked]
        rfl
      · intro other member
        have allowed := others other member
        exact ⟨allowed.seen, allowed.scanning, allowed.idle⟩
      · intro new member
        rw [List.mem_singleton.mp member]
        refine ⟨fun seen impossible => (by cases impossible),
          fun impossible => (by cases impossible), ?_⟩
        intro someIdle empty
        change (!state.idleCPUs.isEmpty) = true at someIdle
        change state.idleCPUs = [] at empty
        rw [empty] at someIdle
        cases someIdle
    · cases performed
      refine invariant.goesOn _ found rfl rfl others ?_ invariant.beside
        invariant.outcomes
      intro new member
      cases member

theorem getIdleCPU (invariant : Invariant state) {task : TaskId}
    {someIdle : Bool}
    (found : state.calls[index]? = some (.getIdleCPU task someIdle)) :
    Invariant
      (((state.takesIdle someIdle).setLock false).goesOn index []) := by
  have locked := invariant.isLocked found rfl
  refine invariant.goesOn _ found rfl ?_ ?_ ?_ invariant.beside ?_
  · rw [locked]
    rfl
  · intro other member
    have allowed := invariant.allows other (List.mem_of_mem_eraseIdx member)
    have without := not_scanning (invariant.alone found rfl member)
    refine ⟨allowed.seen, allowed.scanning, ?_⟩
    intro expects
    rw [without.2] at expects
    cases expects
  · intro new member
    cases member
  · intro outcome member expected
    rcases List.mem_cons.mp member with rfl | old
    · have nonempty := (invariant.allows _ (List.mem_of_getElem? found)).idle
        expected
      change state.idleCPUs.min?.isSome = true
      rw [← Option.ne_none_iff_isSome, Ne, List.min?_eq_none_iff]
      exact nonempty
    · exact invariant.outcomes outcome old expected

theorem getReadyTask (invariant : Invariant state) {config : Config}
    {answer : Bool} {cpu : CPU} {canMarkAsIdle : Bool}
    (found : state.calls[index]? = some (.getReadyTask cpu canMarkAsIdle))
    (performed : perform config state index answer
      (.getReadyTask cpu canMarkAsIdle) = some next) :
    Invariant next := by
  simp only [FIFOScheduler.perform] at performed
  split at performed
  · cases performed
  · rename_i unlocked
    rw [Bool.not_eq_true] at unlocked
    split at performed
    · rename_i first rest unblocked
      cases performed
      refine invariant.moves _ found ⟨rfl, ?_, ?_, fun idle => idle⟩ rfl rfl
        ?_ rfl rfl
      · intro empty
        rw [State.queued, unblocked, List.append_eq_nil_iff] at empty
        cases empty.2
      · intro empty
        rw [unblocked] at empty
        cases empty
      · intro new member
        cases member
    · rename_i unblocked
      cases performed
      refine invariant.moves _ found
        ⟨rfl, fun empty => empty, fun empty => empty, fun idle => idle⟩ rfl
        ?_ ?_ rfl rfl
      · rw [unlocked]
        rfl
      · intro new member
        rw [List.mem_singleton.mp member]
        exact ⟨fun seen impossible => (by cases impossible),
          fun _ => unblocked, fun impossible => (by cases impossible)⟩

/-- Taking off the first ready task. -/
theorem calm_tail {task : TaskId} {rest : List TaskId}
    (queue : state.readyTasks = task :: rest) (ready : List TaskId) :
    state.Calm { state with readyTasks := ready } := by
  refine ⟨rfl, ?_, fun empty => empty, fun idle => idle⟩
  intro empty
  rw [State.queued, queue] at empty
  cases empty

theorem scanReadyTasks (invariant : Invariant state) (config : Config)
    (answer : Bool) {cpu : CPU} {canMarkAsIdle : Bool}
    {complete : List TaskId}
    (found : state.calls[index]? =
      some (.scanReadyTasks cpu canMarkAsIdle complete)) :
    Invariant (scan config state index cpu canMarkAsIdle complete
      answer) := by
  have locked := invariant.isLocked found rfl
  have unblocked :=
    (invariant.allows _ (List.mem_of_getElem? found)).scanning rfl
  have assigns : ∀ (ready : List TaskId) (task : TaskId),
      state.Calm { state with readyTasks := ready } →
      Invariant
        ((State.setLock { state with readyTasks := ready } false).goesOn
          index
          [.finishTaskloops cpu canMarkAsIdle complete false (some task)
            state.queuedSoFar]) := by
    intro ready task calm
    refine invariant.moves _ found
      ⟨calm.queuedSoFar, calm.queued, calm.unblocked, calm.idle⟩ rfl ?_ ?_
      rfl rfl
    · rw [locked]
      rfl
    · intro new member
      rw [List.mem_singleton.mp member]
      exact State.allows_of_plain _ rfl rfl rfl
  unfold scan
  dsimp only
  split
  · rename_i empty
    refine invariant.moves _ found
      ⟨rfl, fun empty => empty, fun empty => empty, fun idle => idle⟩ rfl ?_
      ?_ rfl rfl
    · rw [locked]
      rfl
    · intro new member
      rw [List.mem_singleton.mp member]
      refine ⟨?_, fun impossible => (by cases impossible),
        fun impossible => (by cases impossible)⟩
      rintro seen ⟨⟩
      refine ⟨le_rfl, fun _ => ?_⟩
      change state.readyTasks ++ state.unblockedTasks = []
      rw [empty, unblocked]
      rfl
  · rename_i task rest queue
    have calm := fun ready => calm_tail queue ready
    split
    · exact assigns _ _ (calm rest)
    · split
      · exact assigns _ _ (calm _)
      · refine invariant.moves _ found (calm rest) rfl ?_ ?_ rfl rfl
        · rfl
        · intro new member
          rw [List.mem_singleton.mp member]
          exact ⟨fun seen impossible => (by cases impossible),
            fun _ => unblocked, fun impossible => (by cases impossible)⟩

theorem calm_refl (state : State) : state.Calm state :=
  ⟨rfl, fun empty => empty, fun empty => empty, fun idle => idle⟩

theorem finishTaskloops (invariant : Invariant state) {config : Config}
    {answer : Bool} {cpu : CPU} {canMarkAsIdle shouldRecheck : Bool}
    {complete : List TaskId} {assigned : Option TaskId} {seen : Nat}
    (found : state.calls[index]? = some (.finishTaskloops cpu canMarkAsIdle
      complete shouldRecheck assigned seen))
    (performed : perform config state index answer
      (.finishTaskloops cpu canMarkAsIdle complete shouldRecheck assigned
        seen) = some next) : Invariant next := by
  have allowed := invariant.allows _ (List.mem_of_getElem? found)
  cases complete with
  | cons first rest =>
      cases performed
      refine invariant.moves _ found (calm_refl state) rfl rfl ?_ rfl rfl
      intro new member
      rw [List.mem_singleton.mp member]
      refine ⟨?_, fun impossible => (by cases impossible),
        fun impossible => (by cases impossible)⟩
      cases assigned with
      | none => exact allowed.seen
      | some task => exact fun seen impossible => (by cases impossible)
  | nil =>
      cases performed
      unfold afterTaskloops
      cases assigned with
      | some task =>
          dsimp only
          split
          · refine invariant.moves _ found (calm_refl state) rfl rfl ?_ rfl
              rfl
            intro new member
            rw [List.mem_singleton.mp member]
            exact State.allows_of_plain _ rfl rfl rfl
          · refine invariant.moves _ found (calm_refl state) rfl rfl ?_ rfl
              rfl
            intro new member
            cases member
      | none =>
          dsimp only
          split
          · refine invariant.moves _ found (calm_refl state) rfl rfl ?_ rfl
              rfl
            intro new member
            rw [List.mem_singleton.mp member]
            exact State.allows_of_plain _ rfl rfl rfl
          · split
            · refine invariant.moves _ found (calm_refl state) rfl rfl ?_ rfl
                rfl
              intro new member
              rw [List.mem_singleton.mp member]
              exact ⟨allowed.seen, fun impossible => (by cases impossible),
                fun impossible => (by cases impossible)⟩
            · refine invariant.moves _ found (calm_refl state) rfl rfl ?_ rfl
                rfl
              intro new member
              cases member

theorem cpuBecomesIdle (invariant : Invariant state) {cpu : CPU}
    {seen : Nat}
    (found : state.calls[index]? = some (.cpuBecomesIdle cpu seen))
    (undisturbed : seen = state.queuedSoFar) :
    Invariant ((state.becomesIdle cpu).goesOn index []) := by
  have empty := ((invariant.allows _ (List.mem_of_getElem? found)).seen seen
    rfl).2 undisturbed
  refine invariant.goesOn _ found rfl rfl ?_ ?_ ?_ invariant.outcomes
  · intro other member
    have allowed := invariant.allows other (List.mem_of_mem_eraseIdx member)
    refine ⟨allowed.seen, allowed.scanning, ?_⟩
    intro _ impossible
    have here : cpu ∈ state.idleCPUs.insert cpu := List.mem_insert_self
    change state.idleCPUs.insert cpu = [] at impossible
    rw [impossible] at here
    cases here
  · intro new member
    cases member
  · intro other
    change Function.update state.idledBeside cpu state.queued other = []
    by_cases same : other = cpu
    · subst same
      rw [Function.update_self, empty]
    · rw [Function.update_of_ne same]
      exact invariant.beside other

theorem perform (invariant : Invariant state) {config : Config}
    {answer : Bool} (found : state.calls[index]? = some call)
    (permitted : Permitted state (.perform index answer))
    (performed : perform config state index answer call = some next) :
    Invariant next := by
  cases call with
  | addReadyTask task hint doGetIdle =>
      exact invariant.addReadyTask found performed
  | getIdleCPU task someIdle =>
      cases performed
      exact invariant.getIdleCPU found
  | getReadyTask cpu canMarkAsIdle =>
      exact invariant.getReadyTask found performed
  | scanReadyTasks cpu canMarkAsIdle complete =>
      cases performed
      exact invariant.scanReadyTasks config answer found
  | finishTaskloops cpu canMarkAsIdle complete shouldRecheck assigned seen =>
      exact invariant.finishTaskloops found performed
  | createCollaborator cpu taskloop =>
      cases performed
      refine invariant.moves _ found (calm_refl state) rfl rfl ?_ rfl rfl
      intro new member
      cases member
  | cpuBecomesIdle cpu seen =>
      cases performed
      have undisturbed : seen = state.queuedSoFar := by
        simpa [Permitted, permits, found] using permitted
      exact invariant.cpuBecomesIdle found undisturbed

/-- A call is made. -/
theorem starts (invariant : Invariant state) (new : Call)
    (without : new.holdsLock = 0) (plain : state.Allows new) :
    Invariant { state with calls := state.calls ++ [new] } where
  locked := by
    rw [total_append, total_singleton, without]
    exact invariant.locked
  allows := by
    intro other member
    have carries : state.Allows other →
        State.Allows { state with calls := state.calls ++ [new] } other :=
      fun allowed => ⟨allowed.seen, allowed.scanning, allowed.idle⟩
    rcases List.mem_append.mp member with old | added
    · exact carries (invariant.allows other old)
    · rw [List.mem_singleton] at added
      rw [← added] at plain
      exact carries plain
  beside := invariant.beside
  outcomes := invariant.outcomes

theorem step (invariant : Invariant state) {config : Config}
    {action : Action} (permitted : Permitted state action)
    (taken : step config state action = some next) : Invariant next := by
  cases action with
  | addReadyTask task hint doGetIdle =>
      cases taken
      exact invariant.starts _ rfl (State.allows_of_plain _ rfl rfl rfl)
  | getReadyTask cpu canMarkAsIdle =>
      cases taken
      exact invariant.starts _ rfl (State.allows_of_plain _ rfl rfl rfl)
  | perform index answer =>
      obtain ⟨call, found, performed⟩ := Option.bind_eq_some_iff.mp taken
      exact invariant.perform found permitted performed

theorem initial : Invariant {} where
  locked := rfl
  allows := fun _ member => by cases member
  beside := fun _ => rfl
  outcomes := fun _ member => by cases member

end Invariant

/-! ## No lost wake-up -/

structure State.WakesUp (config : Config) (state : State) : Prop where
  /-- No CPU is marked as idle beside a queued task that is no taskloop. -/
  idled : ∀ cpu, ∀ task ∈ state.idledBeside cpu,
    config.isTaskloop task = true
  /-- A task that is queued while some CPU is idle resumes one. -/
  resumed : ∀ outcome ∈ state.outcomes, outcome.someIdle = true →
    outcome.cpu.isSome = true
  /-- No task is queued beside a CPU that has become idle after it. -/
  quiet : state.calls = [] → ∀ cpu ∈ state.idleCPUs,
    ∀ task ∈ state.queued, task ∉ state.idledBeside cpu

theorem wakesUpIdle_of_run {config : Config} {state : State}
    (run : Run (step config) Permitted {} state) : state.WakesUp config := by
  have invariant : Invariant state :=
    run.invariant Invariant.initial
      fun _ _ _ invariant permitted taken => invariant.step permitted taken
  refine ⟨?_, invariant.outcomes, ?_⟩
  · intro cpu task member
    rw [invariant.beside cpu] at member
    cases member
  · intro _ cpu _ task _ member
    rw [invariant.beside cpu] at member
    cases member

def plainTasks (policy : Policy) : Config where
  policy := policy
  isRequeueEnabled := false
  isTaskloop := fun _ => false

/-- CPU 0 finds nothing and becomes idle, and the next task resumes it. -/
def resuming : List Action :=
  .getReadyTask 0 true :: List.replicate 4 (.perform 0 false) ++
    .addReadyTask 7 .noHint true :: List.replicate 2 (.perform 0 false)

theorem wakesUpIdle_resuming :
    ∃ state, Run (step (plainTasks .fifo)) Permitted {} state ∧
      state.outcomes = [⟨true, some 0⟩] ∧
      state.WakesUp (plainTasks .fifo) := by
  let resumed (state : State) : Bool :=
    decide (state.outcomes = [⟨true, some 0⟩])
  obtain ⟨state, run, holds⟩ :
      ∃ state, Run (step (plainTasks .fifo)) Permitted {} state ∧
        resumed state = true :=
    exists_run_of_executeAllowed resuming _ resumed (by decide)
  exact ⟨state, run, of_decide_eq_true holds, wakesUpIdle_of_run run⟩

/-- A task is queued after CPU 0 has found nothing and before it is marked as
idle. -/
def slippingIn : List Action :=
  .getReadyTask 0 true :: List.replicate 3 (.perform 0 false) ++
    [.addReadyTask 7 .noHint true, .perform 1 false, .perform 1 false,
      .perform 0 false]

theorem not_wakesUp_slippingIn {policy : Policy}
    (executed : (executeAllowed (step (plainTasks policy))
      (fun _ _ => True) {} slippingIn).any
        (fun state => decide (state.idledBeside 0 = [7])) = true) :
    ¬ ∀ state, Run (step (plainTasks policy)) (fun _ _ => True) {} state →
      state.WakesUp (plainTasks policy) := by
  intro holds
  obtain ⟨state, run, wrong⟩ :=
    exists_run_of_executeAllowed slippingIn _ _ executed
  have beside : state.idledBeside 0 = [7] := of_decide_eq_true wrong
  have taskloop := (holds state run).idled 0 7 (by rw [beside]; simp)
  cases taskloop

theorem wakesUpIdle_fails :
    (¬ ∀ state, Run (step (plainTasks .fifo)) (fun _ _ => True) {} state →
      state.WakesUp (plainTasks .fifo)) ∧
    ¬ ∀ state, Run (step (plainTasks .naive)) (fun _ _ => True) {} state →
      state.WakesUp (plainTasks .naive) :=
  ⟨not_wakesUp_slippingIn (by decide), not_wakesUp_slippingIn (by decide)⟩

end Nanos6.FIFOScheduler
