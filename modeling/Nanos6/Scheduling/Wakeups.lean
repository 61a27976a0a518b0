import Nanos6.Scheduling.ConservationRuns

/-!
# No lost wake-up

A thread that polls looks at its own slot only, and an idle CPU looks at
nothing, so no task may be left in a priority class behind either of them.  The
slot is registered under the global lock when no class exists, and
`addReadyTask` creates a class under the same lock after it has found no
registered slot.  `disableComputePlace` creates one without looking at the slot.
-/

namespace Nanos6.Scheduling

open Foundation

namespace Wakeups

/-- A CPU with an immediate successor must not be disabled while a thread
polls. -/
def permits (system : System) : Action → Bool
  | .perform id =>
      match system.call id with
      | some (.queueDisabled _ _) => system.pollingSlot.isNone
      | _ => true
  | _ => true

def Permitted (system : System) (action : Action) : Prop :=
  permits system action = true

instance (system : System) (action : Action) :
    Decidable (Permitted system action) :=
  inferInstanceAs (Decidable (permits system action = true))

/-- The class in which a call is going to insert its task. -/
def pushKey : Call → Option Int
  | .pushTask _ _ key _ _ => some key
  | _ => none

def pushesTo (system : System) (id : CallId) : Option Int :=
  (system.call id).bind pushKey

/-- The class of the key exists and is locked. -/
def LockedIn (classes : List PriorityClass) (key : Int) : Prop :=
  ∃ priorityClass ∈ classes,
    priorityClass.key = key ∧ priorityClass.locked = true

structure Locks (system : System) : Prop where
  /-- While a slot is registered there are no classes. -/
  registered : system.pollingSlot ≠ none → system.classes = []
  /-- A call that inserts a task holds the lock of the class, alone. -/
  locks : ∀ id key, pushesTo system id = some key →
    LockedIn system.classes key
  alone : ∀ id other key, pushesTo system id = some key →
    pushesTo system other = some key → id = other

structure Idles (system : System) : Prop where
  beside : system.idledBesideTask = false
  since : ∀ task, ∀ cpu ∈ system.idleSinceBefore task, cpu ∈ system.idleCPUs
  unresumed : ∀ task, system.unresumed task = true →
    system.idleSinceBefore task = []

structure Inv (system : System) : Prop where
  locks : Locks system
  idles : Idles system

/-! ## Classes and their locks -/

theorem isLocked_of_lockedIn {classes : List PriorityClass} {key : Int}
    (locked : LockedIn classes key) : isLocked key classes = true := by
  obtain ⟨priorityClass, member, rfl, isLocked'⟩ := locked
  exact List.any_eq_true.mpr ⟨priorityClass, member, by simp [isLocked']⟩

/-- A change of one class leaves the others. -/
theorem mem_withClass {key : Int} {change : PriorityClass → PriorityClass}
    {classes : List PriorityClass} {priorityClass : PriorityClass}
    (member : priorityClass ∈ classes) (other : priorityClass.key ≠ key) :
    priorityClass ∈ withClass key change classes := by
  induction classes with
  | nil => cases member
  | cons first rest inductionHypothesis =>
      simp only [withClass]
      split
      · exact List.mem_cons_of_mem _ member
      · split
        · rename_i same
          rcases List.mem_cons.mp member with isFirst | later
          · rw [isFirst] at other
            exact absurd same.symm other
          · exact List.mem_cons_of_mem _ later
        · rcases List.mem_cons.mp member with isFirst | later
          · rw [isFirst]
            exact List.mem_cons_self ..
          · exact List.mem_cons_of_mem _ (inductionHypothesis later)

theorem lockedIn_withClass_lock (key : Int)
    (classes : List PriorityClass) :
    LockedIn (withClass key PriorityClass.lock classes) key := by
  induction classes with
  | nil => exact ⟨_, List.mem_singleton.mpr rfl, rfl, rfl⟩
  | cons first rest inductionHypothesis =>
      simp only [withClass]
      split
      · exact ⟨_, List.mem_cons_self .., rfl, rfl⟩
      · split
        · rename_i same
          exact ⟨_, List.mem_cons_self .., same.symm, rfl⟩
        · obtain ⟨priorityClass, member, isKey, locked⟩ := inductionHypothesis
          exact ⟨priorityClass, List.mem_cons_of_mem _ member, isKey, locked⟩

theorem lockedIn_withClass {key other : Int}
    {change : PriorityClass → PriorityClass} {classes : List PriorityClass}
    (differ : other ≠ key) (locked : LockedIn classes other) :
    LockedIn (withClass key change classes) other := by
  obtain ⟨priorityClass, member, rfl, isLocked'⟩ := locked
  exact ⟨priorityClass, mem_withClass member differ, rfl, isLocked'⟩

/-- A choice removes no locked class. -/
theorem lockedIn_of_chooseTask {system next : System} {cpu : CPU}
    {task : Option TaskId}
    (chosen : system.chooseTask cpu = some (next, task)) {key : Int}
    (locked : LockedIn system.classes key) : LockedIn next.classes key := by
  unfold System.chooseTask at chosen
  split at chosen
  · split at chosen
    · cases chosen
      exact locked
    · cases chosen
      exact locked
  · rename_i first rest classes
    split at chosen
    · rename_i front others unlocked queue
      have popped : LockedIn
          (if others.isEmpty then rest
          else { first with queue := others } :: rest) key := by
        obtain ⟨priorityClass, member, isKey, isLocked'⟩ := locked
        rw [classes] at member
        have later : priorityClass ∈ rest := by
          rcases List.mem_cons.mp member with isFirst | later
          · rw [isFirst, unlocked] at isLocked'
            cases isLocked'
          · exact later
        refine ⟨priorityClass, ?_, isKey, isLocked'⟩
        split
        · exact later
        · exact List.mem_cons_of_mem _ later
      dsimp only at chosen
      generalize (if others.isEmpty then rest
        else { first with queue := others } :: rest) = left at chosen popped
      split at chosen
      · cases chosen
        exact popped
      · split at chosen
        · split at chosen
          · cases chosen
          · rename_i free
            cases chosen
            refine lockedIn_withClass ?_ popped
            rintro rfl
            exact free (isLocked_of_lockedIn popped)
        · cases chosen
          exact locked
    · cases chosen

/-- Without classes a choice creates none, and it returns nothing only when
there are none. -/
theorem classes_of_chooses {system next : System} {cpu : CPU}
    {task : Option TaskId} (chooses : Chooses system cpu next task) :
    (system.classes = [] → next.classes = []) ∧
      (task = none → next.classes = []) := by
  cases chooses with
  | nothing noClass noSuccessor => exact ⟨fun _ => noClass, fun _ => noClass⟩
  | successor found =>
      refine ⟨fun noClass => noClass, ?_⟩
      intro none
      cases none
  | queued noSuccessor split =>
      refine ⟨?_, fun none => by cases none⟩
      intro noClass
      rw [noClass] at split
      exact absurd split.length_eq (by simp [queuedTasks])
  | exchanged found split =>
      refine ⟨?_, fun none => by cases none⟩
      intro noClass
      rw [noClass] at split
      exact absurd split.length_eq (by simp [queuedTasks])

/-- What a choice leaves of the idle CPUs and of the records about them. -/
theorem idle_of_chooses {system next : System} {cpu : CPU}
    {task : Option TaskId} (chooses : Chooses system cpu next task) :
    next.idleCPUs = system.idleCPUs ∧
      next.idledBesideTask = system.idledBesideTask ∧
      ∀ queued,
        (next.idleSinceBefore queued = system.idleSinceBefore queued ∧
          next.unresumed queued = system.unresumed queued) ∨
        (next.idleSinceBefore queued = system.idleCPUs ∧
          next.unresumed queued = false) := by
  cases chooses with
  | nothing noClass noSuccessor =>
      exact ⟨rfl, rfl, fun _ => Or.inl ⟨rfl, rfl⟩⟩
  | successor found => exact ⟨rfl, rfl, fun _ => Or.inl ⟨rfl, rfl⟩⟩
  | queued noSuccessor split =>
      exact ⟨rfl, rfl, fun _ => Or.inl ⟨rfl, rfl⟩⟩
  | @exchanged front successor popped found split =>
      refine ⟨rfl, rfl, ?_⟩
      intro queued
      by_cases same : queued = successor
      · right
        simp [System.recordsQueued, same]
      · left
        simp [System.recordsQueued, same]

/-! ## Steps -/

section Steps

variable {system next : System} {id : CallId}

theorem pushes_update {new : Option Call}
    (calls : next.call = Function.update system.call id new)
    (other : CallId) :
    pushesTo next other =
      if other = id then new.bind pushKey else pushesTo system other :=
  SlotsOwned.bind_update pushKey calls other

/-- A call goes on, ends or starts, and does not hold the lock of a class
afterwards. -/
theorem Locks.plain (locks : Locks system) {new : Option Call}
    (calls : next.call = Function.update system.call id new)
    (unlocked : new.bind pushKey = none)
    (registered : next.pollingSlot ≠ none → next.classes = [])
    (kept : ∀ key,
      (∀ own, pushesTo system id = some own → own ≠ key) →
      LockedIn system.classes key → LockedIn next.classes key) :
    Locks next where
  registered := registered
  locks := by
    intro other key pushes
    rw [pushes_update calls] at pushes
    split at pushes
    · rw [unlocked] at pushes
      cases pushes
    · rename_i differ
      refine kept key ?_ (locks.locks other key pushes)
      rintro own ownPushes rfl
      exact differ (locks.alone other id own pushes ownPushes)
  alone := by
    intro first second key one two
    rw [pushes_update calls] at one two
    split at one
    · rw [unlocked] at one
      cases one
    · split at two
      · rw [unlocked] at two
        cases two
      · exact locks.alone first second key one two

/-- A call locks the class of its task; no slot is registered. -/
theorem Locks.locksClass (locks : Locks system)
    {computePlace : Option CPU} {task : TaskId} {key : Int}
    {front doGetIdle : Bool} (unregistered : system.pollingSlot = none)
    (locked : system.locksClass id computePlace task key front doGetIdle =
      some next) : Locks next := by
  unfold System.locksClass at locked
  split at locked
  · cases locked
  rename_i free
  have calls : next.call = Function.update system.call id
      (some (.pushTask computePlace task key front doGetIdle)) := by
    cases locked
    rfl
  have classes : next.classes =
      withClass key PriorityClass.lock system.classes := by
    cases locked
    rfl
  have slot : next.pollingSlot = none := by
    cases locked
    exact unregistered
  have others : ∀ other own, other ≠ id →
      pushesTo system other = some own → own ≠ key := by
    rintro other own - pushes rfl
    exact free (isLocked_of_lockedIn (locks.locks other own pushes))
  exact
    { registered := fun registered => absurd slot registered
      locks := by
        intro other own pushes
        rw [classes]
        rw [pushes_update calls] at pushes
        split at pushes
        · cases pushes
          exact lockedIn_withClass_lock key system.classes
        · rename_i differ
          exact lockedIn_withClass (others other own differ pushes)
            (locks.locks other own pushes)
      alone := by
        intro first second own one two
        rw [pushes_update calls] at one two
        split at one
        · rename_i isFirst
          cases one
          split at two
          · rename_i isSecond
            rw [isFirst, isSecond]
          · rename_i differ
            exact absurd rfl (others second _ differ two)
        · rename_i differ
          split at two
          · cases two
            exact absurd rfl (others first _ differ one)
          · exact locks.alone first second own one two }

/-- The records about the idle CPUs are left alone. -/
theorem Idles.keeps (idles : Idles system)
    (cpus : next.idleCPUs = system.idleCPUs)
    (beside : next.idledBesideTask = system.idledBesideTask)
    (since : next.idleSinceBefore = system.idleSinceBefore)
    (unresumed : next.unresumed = system.unresumed) : Idles next where
  beside := beside.trans idles.beside
  since := by
    rw [since, cpus]
    exact idles.since
  unresumed := by
    rw [since, unresumed]
    exact idles.unresumed

theorem Idles.chooses (idles : Idles system) {cpu : CPU}
    {task : Option TaskId} (chooses : Chooses system cpu next task) :
    Idles next := by
  obtain ⟨cpus, beside, records⟩ := idle_of_chooses chooses
  refine ⟨beside.trans idles.beside, ?_, ?_⟩
  · intro queued other member
    rw [cpus]
    rcases records queued with ⟨same, -⟩ | ⟨all, -⟩
    · rw [same] at member
      exact idles.since queued other member
    · rw [all] at member
      exact member
  · intro queued isUnresumed
    rcases records queued with ⟨same, kept⟩ | ⟨-, resumed⟩
    · rw [kept] at isUnresumed
      rw [same]
      exact idles.unresumed queued isUnresumed
    · rw [resumed] at isUnresumed
      cases isUnresumed

theorem Idles.becomesIdle (idles : Idles system) (cpu : CPU) :
    Idles (system.becomesIdle cpu) where
  beside := idles.beside
  since := fun task other member =>
    List.mem_insert_of_mem (idles.since task other member)
  unresumed := idles.unresumed

theorem Idles.leavesIdle (idles : Idles system) (cpu : CPU) :
    Idles (system.leavesIdle cpu) where
  beside := idles.beside
  since := by
    intro task other member
    obtain ⟨was, differ⟩ := List.mem_filter.mp member
    exact List.mem_filter.mpr ⟨idles.since task other was, differ⟩
  unresumed := by
    intro task isUnresumed
    show (system.idleSinceBefore task).filter _ = []
    rw [idles.unresumed task isUnresumed]
    rfl

theorem Idles.recordsQueued (idles : Idles system) (task : TaskId) :
    Idles (system.recordsQueued task) where
  beside := idles.beside
  since := by
    intro queued other member
    by_cases same : queued = task
    · simpa [System.recordsQueued, same] using member
    · simp only [System.recordsQueued, Function.update_of_ne same] at member
      exact idles.since queued other member
  unresumed := by
    intro queued isUnresumed
    by_cases same : queued = task
    · simp [System.recordsQueued, same] at isUnresumed
    · simp only [System.recordsQueued, Function.update_of_ne same]
        at isUnresumed ⊢
      exact idles.unresumed queued isUnresumed

/-- A call of `addReadyTask` finds no idle CPU: none has been idle since before
it queued the task. -/
theorem Idles.finds (idles : Idles system) (task : TaskId)
    (none : system.firstIdle = none) :
    Idles
      { system with
        unresumed := Function.update system.unresumed task true } where
  beside := idles.beside
  since := idles.since
  unresumed := by
    intro queued isUnresumed
    by_cases same : queued = task
    · have empty : system.idleCPUs = [] := List.min?_eq_none_iff.mp none
      refine List.eq_nil_iff_forall_not_mem.mpr ?_
      intro cpu member
      have idle := idles.since queued cpu member
      rw [empty] at idle
      cases idle
    · simp only [Function.update_of_ne same] at isUnresumed
      exact idles.unresumed queued isUnresumed

/-- A call goes on or ends without touching the classes; it may take or release
the registered slot. -/
theorem Locks.moves (locks : Locks system) {new : Option Call}
    (calls : next.call = Function.update system.call id new)
    (unlocked : new.bind pushKey = none)
    (classes : next.classes = system.classes)
    (slot : next.pollingSlot = system.pollingSlot ∨
      next.pollingSlot = none) : Locks next := by
  refine locks.plain calls unlocked ?_ ?_
  · intro registered
    rw [classes]
    rcases slot with same | none
    · rw [same] at registered
      exact locks.registered registered
    · exact absurd none registered
  · intro key _ locked
    rw [classes]
    exact locked

theorem Inv.moves (inv : Inv system) {new : Option Call}
    (calls : next.call = Function.update system.call id new)
    (unlocked : new.bind pushKey = none)
    (classes : next.classes = system.classes)
    (slot : next.pollingSlot = system.pollingSlot ∨
      next.pollingSlot = none)
    (idle : next.idleCPUs = system.idleCPUs ∧
      next.idledBesideTask = system.idledBesideTask ∧
      next.idleSinceBefore = system.idleSinceBefore ∧
      next.unresumed = system.unresumed) : Inv next :=
  ⟨inv.locks.moves calls unlocked classes slot,
    inv.idles.keeps idle.1 idle.2.1 idle.2.2.1 idle.2.2.2⟩

theorem Inv.locksClass (inv : Inv system) {call : Call}
    {computePlace : Option CPU} {task : TaskId} {key : Int}
    {front doGetIdle : Bool} (found : system.call id = some call)
    (plain : pushKey call = none) (unregistered : system.pollingSlot = none)
    (locked : system.locksClass id computePlace task key front doGetIdle =
      some next) : Inv next := by
  refine ⟨inv.locks.locksClass unregistered locked, ?_⟩
  unfold System.locksClass at locked
  split at locked
  · cases locked
  · cases locked
    exact inv.idles.keeps rfl rfl rfl rfl

theorem Inv.pushTask (inv : Inv system) {computePlace : Option CPU}
    {task : TaskId} {key : Int} {front doGetIdle : Bool}
    (found : system.call id =
      some (.pushTask computePlace task key front doGetIdle))
    (performed : perform system id
      (.pushTask computePlace task key front doGetIdle) = some next) :
    Inv next := by
  have own : pushesTo system id = some key := by
    simp [pushesTo, found, pushKey]
  have classes : next.classes =
      withClass key (PriorityClass.push front task) system.classes := by
    simp only [perform] at performed
    split at performed <;> cases performed <;> rfl
  have slot : next.pollingSlot = system.pollingSlot := by
    simp only [perform] at performed
    split at performed <;> cases performed <;> rfl
  have locks : ∀ {new : Option Call},
      next.call = Function.update system.call id new →
      new.bind pushKey = none → Locks next := by
    intro new calls unlocked
    refine inv.locks.plain calls unlocked ?_ ?_
    · intro registered
      rw [slot] at registered
      -- The class that the call has locked exists.
      obtain ⟨priorityClass, member, -⟩ := inv.locks.locks id key own
      rw [inv.locks.registered registered] at member
      cases member
    · intro other differ locked
      rw [classes]
      exact lockedIn_withClass (Ne.symm (differ key own)) locked
  have idles := inv.idles.recordsQueued task
  simp only [perform] at performed
  split at performed
  · cases performed
    exact ⟨locks rfl rfl, idles.keeps rfl rfl rfl rfl⟩
  · cases performed
    exact ⟨locks rfl rfl, idles.keeps rfl rfl rfl rfl⟩

theorem Inv.getIdleCPU (inv : Inv system) {computePlace : Option CPU}
    {task : TaskId}
    (performed : perform system id (.getIdleCPU computePlace task) =
      some next) : Inv next := by
  have ended : (none : Option Call).bind pushKey = none := rfl
  simp only [perform] at performed
  split at performed
  · cases performed
    exact ⟨inv.locks.moves rfl ended rfl (Or.inl rfl),
      (inv.idles.leavesIdle _).keeps rfl rfl rfl rfl⟩
  · rename_i none
    cases performed
    exact ⟨inv.locks.moves rfl ended rfl (Or.inl rfl),
      (inv.idles.finds task none).keeps rfl rfl rfl rfl⟩

/-- What a choice leaves; the call itself has not gone on yet. -/
theorem Inv.chooses (inv : Inv system) {cpu : CPU} {task : Option TaskId}
    (chosen : system.chooseTask cpu = some (next, task)) : Inv next := by
  have chooses := chooses_of_chooseTask chosen
  obtain ⟨calls, -, -, -, slot, -⟩ := frame_of_chooses chooses
  have pushes : ∀ other,
      pushesTo next other = pushesTo system other := by
    intro other
    simp [pushesTo, calls]
  refine ⟨⟨?_, ?_, ?_⟩, inv.idles.chooses chooses⟩
  · intro registered
    rw [slot] at registered
    exact (classes_of_chooses chooses).1 (inv.locks.registered registered)
  · intro other key isPushing
    rw [pushes] at isPushing
    exact lockedIn_of_chooseTask chosen (inv.locks.locks other key isPushing)
  · intro first second key one two
    rw [pushes] at one two
    exact inv.locks.alone first second key one two

/-- A call without a task marks its CPU as idle: no class exists. -/
theorem Idles.idles (inv : Idles system) (empty : system.classes = [])
    (cpu : CPU) : Idles (system.idles cpu) := by
  have marked := inv.becomesIdle cpu
  refine ⟨?_, marked.since, marked.unresumed⟩
  simp [System.idles, inv.beside, empty, queuedTasks]

theorem Inv.getReadyTask (inv : Inv system) {cpu : CPU}
    (performed : perform system id (.getReadyTask cpu) = some next) :
    Inv next := by
  have ended : (none : Option Call).bind pushKey = none := rfl
  simp only [perform] at performed
  split at performed
  · cases performed
  obtain ⟨⟨chosen, task⟩, isChosen, rfl⟩ := Option.map_eq_some_iff.mp performed
  have after := inv.chooses isChosen
  cases task with
  | none =>
      have empty :=
        (classes_of_chooses (chooses_of_chooseTask isChosen)).2 rfl
      exact ⟨after.locks.moves rfl ended rfl (Or.inl rfl),
        (after.idles.idles empty cpu).keeps rfl rfl rfl rfl⟩
  | some task =>
      exact after.moves rfl ended rfl (Or.inl rfl) ⟨rfl, rfl, rfl, rfl⟩

theorem Inv.requestPolling (inv : Inv system) {cpu : CPU}
    (performed : perform system id (.requestPolling cpu) = some next) :
    Inv next := by
  have ended : (none : Option Call).bind pushKey = none := rfl
  simp only [perform] at performed
  split at performed
  · cases performed
  obtain ⟨⟨chosen, task⟩, isChosen, rfl⟩ := Option.map_eq_some_iff.mp performed
  have after := inv.chooses isChosen
  have polling : (some (Call.testTask cpu chosen.nextSlot none)).bind
      pushKey = none := rfl
  cases task with
  | some task =>
      exact after.moves rfl polling rfl (Or.inl rfl) ⟨rfl, rfl, rfl, rfl⟩
  | none =>
      have empty :=
        (classes_of_chooses (chooses_of_chooseTask isChosen)).2 rfl
      dsimp only
      split
      · refine ⟨?_, after.idles.keeps rfl rfl rfl rfl⟩
        exact after.locks.plain rfl polling (fun _ => empty)
          fun _ _ locked => locked
      · exact ⟨after.locks.moves rfl ended rfl (Or.inl rfl),
          (after.idles.idles empty cpu).keeps rfl rfl rfl rfl⟩

theorem Inv.perform (inv : Inv system) {call : Call}
    (found : system.call id = some call)
    (permitted : Permitted system (.perform id))
    (performed : Scheduling.perform system id call = some next) :
    Inv next := by
  have ended : (none : Option Call).bind pushKey = none := rfl
  have still : ∀ {new : Call}, pushKey new = none →
      (some new).bind pushKey = none := fun plain => plain
  cases call with
  | pushTask computePlace task key front doGetIdle =>
      exact inv.pushTask found performed
  | getIdleCPU computePlace task => exact inv.getIdleCPU performed
  | getReadyTask cpu => exact inv.getReadyTask performed
  | requestPolling cpu => exact inv.requestPolling performed
  | lockGlobal add =>
      simp only [Scheduling.perform] at performed
      split at performed
      · cases performed
      · split at performed
        · cases performed
          exact inv.moves rfl (still rfl) rfl (Or.inr rfl)
            ⟨rfl, rfl, rfl, rfl⟩
        · rename_i unregistered
          exact inv.locksClass found rfl unregistered performed
  | queueDisabled cpu task =>
      have unregistered : system.pollingSlot = none := by
        simpa [Permitted, permits, found] using permitted
      simp only [Scheduling.perform] at performed
      split at performed
      · cases performed
      · exact inv.locksClass found rfl unregistered performed
  | addReadyTask add =>
      simp only [Scheduling.perform] at performed
      split at performed
      · cases performed
        exact inv.moves rfl (still rfl) rfl (Or.inl rfl) ⟨rfl, rfl, rfl, rfl⟩
      · split at performed
        · cases performed
          exact inv.moves rfl ended rfl (Or.inl rfl) ⟨rfl, rfl, rfl, rfl⟩
        · cases performed
          exact inv.moves rfl (still rfl) rfl (Or.inl rfl)
            ⟨rfl, rfl, rfl, rfl⟩
  | takePollingSlot add =>
      simp only [Scheduling.perform] at performed
      split at performed
      · cases performed
        exact inv.moves rfl (still rfl) rfl (Or.inr rfl) ⟨rfl, rfl, rfl, rfl⟩
      · cases performed
        exact inv.moves rfl (still rfl) rfl (Or.inl rfl) ⟨rfl, rfl, rfl, rfl⟩
  | storeTask add slot locked =>
      simp only [Scheduling.perform] at performed
      split at performed
      · cases performed
        exact inv.moves rfl ended rfl (Or.inl rfl) ⟨rfl, rfl, rfl, rfl⟩
      · cases performed
        exact inv.moves rfl ended rfl (Or.inl rfl) ⟨rfl, rfl, rfl, rfl⟩
  | testTask cpu slot task =>
      simp only [Scheduling.perform] at performed
      split at performed
      · cases performed
        exact inv.moves rfl (still rfl) rfl (Or.inl rfl) ⟨rfl, rfl, rfl, rfl⟩
      · cases performed
        exact inv.moves rfl (still rfl) rfl (Or.inl rfl) ⟨rfl, rfl, rfl, rfl⟩
  | testAcceptsWork cpu slot =>
      simp only [Scheduling.perform] at performed
      split at performed
      · cases performed
        exact inv.moves rfl (still rfl) rfl (Or.inl rfl) ⟨rfl, rfl, rfl, rfl⟩
      · cases performed
        exact inv.moves rfl (still rfl) rfl (Or.inl rfl) ⟨rfl, rfl, rfl, rfl⟩
  | getTask cpu slot =>
      cases performed
      exact inv.moves rfl (still rfl) rfl (Or.inl rfl) ⟨rfl, rfl, rfl, rfl⟩
  | testMustExit cpu slot task =>
      simp only [Scheduling.perform] at performed
      split at performed
      · cases performed
        exact inv.moves rfl (still rfl) rfl (Or.inl rfl) ⟨rfl, rfl, rfl, rfl⟩
      · cases performed
        exact inv.moves rfl (still rfl) rfl (Or.inl rfl) ⟨rfl, rfl, rfl, rfl⟩
  | releasePolling cpu slot task exiting =>
      simp only [Scheduling.perform] at performed
      split at performed
      · cases performed
        exact inv.moves rfl (still rfl) rfl (Or.inr rfl) ⟨rfl, rfl, rfl, rfl⟩
      · cases exiting with
        | true =>
            cases performed
            exact inv.moves rfl (still rfl) rfl (Or.inl rfl)
              ⟨rfl, rfl, rfl, rfl⟩
        | false =>
            cases performed
            exact inv.moves rfl (still rfl) rfl (Or.inl rfl)
              ⟨rfl, rfl, rfl, rfl⟩
  | cpuBecomesIdle cpu slot task exiting =>
      have idles := inv.idles.becomesIdle cpu
      cases exiting with
      | true =>
          cases performed
          exact ⟨inv.locks.moves rfl (still rfl) rfl (Or.inl rfl),
            idles.keeps rfl rfl rfl rfl⟩
      | false =>
          cases performed
          exact ⟨inv.locks.moves rfl (still rfl) rfl (Or.inl rfl),
            idles.keeps rfl rfl rfl rfl⟩
  | checkAcceptsWork cpu slot task =>
      simp only [Scheduling.perform] at performed
      split at performed
      · cases task with
        | none =>
            cases performed
            exact inv.moves rfl ended rfl (Or.inl rfl) ⟨rfl, rfl, rfl, rfl⟩
        | some task =>
            cases performed
            exact inv.moves rfl ended rfl (Or.inl rfl) ⟨rfl, rfl, rfl, rfl⟩
      · cases performed
        exact inv.moves rfl (still rfl) rfl (Or.inl rfl) ⟨rfl, rfl, rfl, rfl⟩
  | lastGetTask cpu slot task =>
      cases performed
      unfold System.returnsTask
      split
      · exact inv.moves rfl ended rfl (Or.inl rfl) ⟨rfl, rfl, rfl, rfl⟩
      · exact inv.moves rfl ended rfl (Or.inl rfl) ⟨rfl, rfl, rfl, rfl⟩
  | disableComputePlace cpu =>
      simp only [Scheduling.perform] at performed
      split at performed
      · cases performed
        exact inv.moves rfl ended rfl (Or.inl rfl) ⟨rfl, rfl, rfl, rfl⟩
      · cases performed
        exact inv.moves rfl (still rfl) rfl (Or.inl rfl) ⟨rfl, rfl, rfl, rfl⟩

theorem Inv.starts (inv : Inv system) {call : Call} {same : System}
    (started : same.starts call = some next)
    (plain : pushKey call = none)
    (others : same.call = system.call ∧ same.classes = system.classes ∧
      same.pollingSlot = system.pollingSlot)
    (idle : same.idleCPUs = system.idleCPUs ∧
      same.idledBesideTask = system.idledBesideTask ∧
      same.idleSinceBefore = system.idleSinceBefore ∧
      same.unresumed = system.unresumed) : Inv next := by
  unfold System.starts at started
  split at started
  · cases started
  · cases started
    have unlocked : (some call).bind pushKey = none := plain
    have calls : Function.update same.call same.nextCall (some call) =
        Function.update system.call same.nextCall (some call) := by
      rw [others.1]
    exact inv.moves calls unlocked others.2.1 (Or.inl others.2.2) idle

theorem Inv.step (inv : Inv system) {action : Action}
    (permitted : Permitted system action)
    (taken : Scheduling.step system action = some next) : Inv next := by
  cases action with
  | addReadyTask task computePlace hint priority doGetIdle =>
      simp only [Scheduling.step] at taken
      split at taken
      · exact inv.starts taken rfl ⟨rfl, rfl, rfl⟩ ⟨rfl, rfl, rfl, rfl⟩
      · cases taken
  | getReadyTask cpu doWait =>
      cases doWait with
      | true =>
          exact inv.starts taken rfl ⟨rfl, rfl, rfl⟩ ⟨rfl, rfl, rfl, rfl⟩
      | false =>
          exact inv.starts taken rfl ⟨rfl, rfl, rfl⟩ ⟨rfl, rfl, rfl, rfl⟩
  | disableComputePlace cpu =>
      exact inv.starts taken rfl ⟨rfl, rfl, rfl⟩ ⟨rfl, rfl, rfl, rfl⟩
  | getIdleComputePlace force =>
      simp only [Scheduling.step] at taken
      split at taken
      · cases taken
      · split at taken
        · cases taken
          exact ⟨{ inv.locks with }, inv.idles.leavesIdle _⟩
        · cases taken
          exact inv
  | setAcceptsWork cpu value =>
      cases taken
      exact ⟨{ inv.locks with }, { inv.idles with }⟩
  | shutdown =>
      cases taken
      exact ⟨{ inv.locks with }, { inv.idles with }⟩
  | perform id =>
      obtain ⟨call, found, performed⟩ := Option.bind_eq_some_iff.mp taken
      exact inv.perform found permitted performed

theorem Inv.initial : Inv {} where
  locks :=
    { registered := fun _ => rfl
      locks := fun _ _ pushes => by cases pushes
      alone := fun _ _ _ pushes => by cases pushes }
  idles :=
    { beside := rfl
      since := fun _ _ member => by cases member
      unresumed := fun _ unresumed => by cases unresumed }

end Steps

/-- What is wanted of the scheduler. -/
structure WakesUp (system : System) : Prop where
  /-- No task is queued behind a polling thread. -/
  polling : system.globalLocked = false → system.pollingSlot ≠ none →
    queuedTasks system.classes = []
  /-- No CPU has become idle for want of tasks beside a queued one. -/
  idled : system.idledBesideTask = false
  /-- No task is queued behind a CPU that was idle before, when its
  `addReadyTask` has looked for an idle CPU and returned none. -/
  resumed : (∀ id, system.call id = none) →
    ¬ ∃ task ∈ queuedTasks system.classes,
      system.idleSinceBefore task ≠ [] ∧ system.unresumed task = true

/-- In every run in which no CPU with an immediate successor is disabled while a
thread polls, no task is left behind a polling thread or an idle CPU. -/
theorem wakesUp_of_run {system : System}
    (run : Run step Permitted {} system) : WakesUp system := by
  have inv : Inv system :=
    run.invariant Inv.initial fun _ _ _ inv permitted taken =>
      inv.step permitted taken
  refine ⟨?_, inv.idles.beside, ?_⟩
  · intro _ registered
    rw [inv.locks.registered registered]
    rfl
  · rintro - ⟨task, -, since, unresumed⟩
    exact since (inv.idles.unresumed task unresumed)

/-- A task is queued, and the idle CPU is returned to be resumed. -/
theorem wakesUp_idle_cpu :
    ∃ system, Run step Permitted {} system ∧
      queuedTasks system.classes = [7] ∧ WakesUp system := by
  obtain ⟨system, run, queued⟩ :=
    exists_run_of_executeAllowed
      ([.getReadyTask 0 false, .perform 0,
        .addReadyTask 7 (some 1) .childTask none true, .perform 1, .perform 1,
        .perform 1, .perform 1, .perform 1] : List Action)
      ({} : System) (fun system => queuedTasks system.classes == [7])
      (by decide +kernel : (executeAllowed step Permitted ({} : System)
        _).any _ = true)
  exact ⟨system, run, by simpa using queued, wakesUp_of_run run⟩

/-- CPU 1 has an immediate successor and is disabled while CPU 0 polls: the
successor is queued, and the polling thread never looks at the queue. -/
theorem wakesUp_fails :
    ¬ ∀ system, Run step (fun _ _ => True) {} system →
      WakesUp system := by
  intro always
  obtain ⟨system, run, stuck⟩ :=
    exists_run_of_executeAllowed
      ([.addReadyTask 7 (some 1) .siblingTask none true, .perform 0,
        .getReadyTask 0 true, .perform 1, .disableComputePlace 1, .perform 2,
        .perform 2, .perform 2] : List Action)
      ({} : System)
      (fun system =>
        !system.globalLocked && system.pollingSlot.isSome &&
          queuedTasks system.classes == [7])
      (by decide +kernel : (executeAllowed step (fun _ _ => True)
        ({} : System) _).any _ = true)
  simp only [Bool.and_eq_true, Bool.not_eq_true', beq_iff_eq] at stuck
  have empty := (always system run).polling stuck.1.1
    (Option.isSome_iff_ne_none.mp stuck.1.2)
  rw [stuck.2] at empty
  cases empty

end Wakeups

end Nanos6.Scheduling
