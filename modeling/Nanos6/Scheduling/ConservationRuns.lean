import Nanos6.Scheduling.Conservation

/-!
# Runs that lose no ready task

What each call does to the places of the tasks, and what follows for runs in
which no waiting call leaves too early.
-/

namespace Nanos6.Scheduling

open Foundation

namespace Inv

variable {system next : System} {id : CallId}

/-! ## Adding a task -/

theorem addReadyTask (inv : Inv system) {add : Addition}
    (found : system.call id = some (.addReadyTask add))
    (performed : perform system id (.addReadyTask add) = some next) :
    Inv next := by
  simp only [perform] at performed
  split at performed
  · cases performed
    exact inv.goesOn (.takePollingSlot add) found ⟨rfl, rfl⟩ ⟨rfl, rfl⟩ rfl
      rfl ⟨rfl, rfl, rfl, rfl, rfl⟩ rfl ⟨rfl, rfl⟩
  · rename_i cpu place
    split at performed
    · rename_i free
      cases performed
      simp only [Bool.and_eq_true, Option.isNone_iff_eq_none] at free
      refine inv.hands found ⟨rfl, rfl⟩ ⟨rfl, rfl⟩ rfl rfl
        ⟨rfl, rfl, rfl, rfl⟩ ⟨rfl, rfl⟩ ?_
      intro place placed outside
      refine ⟨.cell (.successor cpu), by simp, ?_⟩
      show Placed _
        (contentOf (Function.update system.schedulerData cpu (some add.task))
          system.slot (Function.update system.call id none)) _
      rw [contentOf_successor, contentOf_call]
      refine placed.putInCell outside ?_
      simp [System.content, contentOf, free.2]
    · cases performed
      exact inv.goesOn (.takePollingSlot add) found ⟨rfl, rfl⟩ ⟨rfl, rfl⟩ rfl
        rfl ⟨rfl, rfl, rfl, rfl, rfl⟩ rfl ⟨rfl, rfl⟩

/-- Take the registered slot, with or without the lock. -/
theorem takes (inv : Inv system) {call : Call} {add : Addition}
    {slot : SlotId} {locked : Bool} (found : system.call id = some call)
    (plain : call.polls = none ∧ call.stores = none)
    (carried : call.carries = some add.task)
    (registered : system.pollingSlot = some slot)
    (calls : next.call =
      Function.update system.call id (some (.storeTask add slot locked)))
    (others : next.slot = system.slot ∧ next.nextSlot = system.nextSlot ∧
      next.nextCall = system.nextCall ∧ next.pollingSlot = none ∧
      next.schedulerData = system.schedulerData ∧
      next.classes = system.classes)
    (history : next.adds = system.adds ∧ next.returns = system.returns) :
    Inv next := by
  refine ⟨?_, ?_⟩
  · exact inv.owned.takes calls found plain ⟨rfl, rfl⟩ registered
      ⟨others.1, others.2.1, others.2.2.1, others.2.2.2.1⟩
  · refine inv.located.keeps (by rw [others.2.2.2.2.2]) ?_ history.1 history.2
    have kept := content_goesOn (.storeTask add slot locked) found
      carried.symm
    unfold System.content at kept ⊢
    rw [calls, others.1, others.2.2.2.2.1]
    exact kept

theorem takePollingSlot (inv : Inv system) {add : Addition}
    (found : system.call id = some (.takePollingSlot add))
    (performed : perform system id (.takePollingSlot add) = some next) :
    Inv next := by
  simp only [perform] at performed
  split at performed
  · rename_i slot registered
    cases performed
    exact inv.takes found ⟨rfl, rfl⟩ rfl registered rfl
      ⟨rfl, rfl, rfl, rfl, rfl, rfl⟩ ⟨rfl, rfl⟩
  · cases performed
    exact inv.goesOn (.lockGlobal add) found ⟨rfl, rfl⟩ ⟨rfl, rfl⟩ rfl rfl
      ⟨rfl, rfl, rfl, rfl, rfl⟩ rfl ⟨rfl, rfl⟩

theorem locksClass (inv : Inv system) {call : Call}
    {computePlace : Option CPU} {task : TaskId} {key : Int}
    {front doGetIdle : Bool} (found : system.call id = some call)
    (plain : call.polls = none ∧ call.stores = none)
    (carried : call.carries = some task)
    (locked : system.locksClass id computePlace task key front doGetIdle =
      some next) : Inv next := by
  unfold System.locksClass at locked
  split at locked
  · cases locked
  · cases locked
    exact inv.goesOn (.pushTask computePlace task key front doGetIdle) found
      plain ⟨rfl, rfl⟩ carried.symm rfl ⟨rfl, rfl, rfl, rfl, rfl⟩
      (queuedTasks_lock key system.classes) ⟨rfl, rfl⟩

theorem lockGlobal (inv : Inv system) {add : Addition}
    (found : system.call id = some (.lockGlobal add))
    (performed : perform system id (.lockGlobal add) = some next) :
    Inv next := by
  simp only [perform] at performed
  split at performed
  · cases performed
  · split at performed
    · rename_i slot registered
      cases performed
      exact inv.takes found ⟨rfl, rfl⟩ rfl registered rfl
        ⟨rfl, rfl, rfl, rfl, rfl, rfl⟩ ⟨rfl, rfl⟩
    · exact inv.locksClass found ⟨rfl, rfl⟩ rfl performed

theorem storeTask (inv : Inv system) {add : Addition} {slot : SlotId}
    {locked : Bool} (found : system.call id = some (.storeTask add slot locked))
    (performed : perform system id (.storeTask add slot locked) =
      some next) : Inv next := by
  have storing : system.stores id = some slot := by
    simp [System.stores, found, Call.stores]
  have empty := (inv.owned.taken id slot storing).1
  simp only [perform, empty, Option.isNone_none, if_true] at performed
  cases performed
  refine ⟨?_, ?_⟩
  · exact inv.owned.fills rfl found ⟨rfl, rfl⟩ rfl ⟨rfl, rfl, rfl⟩
  · obtain ⟨place, placed, counted⟩ := inv.located
    have full : system.content (.call id) = some add.task := by
      simp [System.content, contentOf, found, Call.carries]
    have here := (placed.contained add.task _).mp full
    have free : Function.update system.content (.call id) none (.slot slot) =
        none := by
      simp [System.content, contentOf, empty]
    refine ⟨Function.update (Function.update place add.task .outside)
      add.task (.cell (.slot slot)), ?_, counted.moved rfl rfl ?_⟩
    · show Placed _
        (contentOf system.schedulerData
          (Function.update system.slot slot (some add.task))
          (Function.update system.call id none)) _
      rw [contentOf_slot, contentOf_call]
      exact (placed.takeFromCell full).putInCell (by simp) free
    · intro other
      by_cases same : other = add.task
      · subst same
        simp [here]
      · simp [same]

theorem pushTask (inv : Inv system) {computePlace : Option CPU}
    {task : TaskId} {key : Int} {front doGetIdle : Bool}
    (found : system.call id =
      some (.pushTask computePlace task key front doGetIdle))
    (performed : perform system id
      (.pushTask computePlace task key front doGetIdle) = some next) :
    Inv next := by
  have pushed : ∀ {new : Option Call}, new.bind Call.polls = none →
      new.bind Call.stores = none → new.bind Call.carries = none →
      Inv
        ({ system.recordsQueued task with
          classes :=
            withClass key (PriorityClass.push front task)
              system.classes }.setCall id new) := by
    intro new polls stores carries
    refine inv.hands found ⟨rfl, rfl⟩ ⟨polls, stores⟩ rfl rfl
      ⟨rfl, rfl, rfl, rfl⟩ ⟨rfl, rfl⟩ ?_
    intro place placed outside
    refine ⟨.queue, by simp, ?_⟩
    show Placed _
      (contentOf system.schedulerData system.slot
        (Function.update system.call id new)) _
    rw [contentOf_call, carries]
    exact placed.putInQueue outside (queuedTasks_push key front task _)
  simp only [perform] at performed
  split at performed
  · cases performed
    exact pushed rfl rfl rfl
  · cases performed
    exact pushed rfl rfl rfl

/-- A call without a task in its hands ends. -/
theorem endsEmpty (inv : Inv system) {call : Call}
    (found : system.call id = some call)
    (plain : call.polls = none ∧ call.stores = none)
    (empty : call.carries = none)
    (calls : next.call = Function.update system.call id none)
    (others : next.slot = system.slot ∧ next.nextSlot = system.nextSlot ∧
      next.pollingSlot = system.pollingSlot ∧
      next.nextCall = system.nextCall ∧
      next.schedulerData = system.schedulerData ∧
      next.classes = system.classes)
    (history : next.adds = system.adds ∧ next.returns = system.returns) :
    Inv next := by
  have below : id < system.nextCall := by
    by_contra above
    rw [inv.owned.fresh id (Nat.not_lt.mp above)] at found
    cases found
  refine ⟨?_, ?_⟩
  · refine inv.owned.plain calls ?_ ⟨rfl, rfl⟩ ?_
      ⟨others.1, others.2.1, others.2.2.1⟩
    · simp [System.polls, System.stores, found, plain.1, plain.2]
    · rw [others.2.2.2.1]
      exact ⟨Nat.le_refl _, below⟩
  · refine inv.located.keeps (by rw [others.2.2.2.2.2]) ?_ history.1 history.2
    unfold System.content
    rw [calls, others.1, others.2.2.2.2.1, contentOf_call]
    refine Function.update_eq_self_iff.mpr ?_
    simp [contentOf, found, empty]

theorem getIdleCPU (inv : Inv system) {computePlace : Option CPU}
    {task : TaskId} (found : system.call id =
      some (.getIdleCPU computePlace task))
    (performed : perform system id (.getIdleCPU computePlace task) =
      some next) : Inv next := by
  simp only [perform] at performed
  split at performed
  · cases performed
    exact inv.endsEmpty found ⟨rfl, rfl⟩ rfl rfl
      ⟨rfl, rfl, rfl, rfl, rfl, rfl⟩ ⟨rfl, rfl⟩
  · cases performed
    exact inv.endsEmpty found ⟨rfl, rfl⟩ rfl rfl
      ⟨rfl, rfl, rfl, rfl, rfl, rfl⟩ ⟨rfl, rfl⟩

/-! ## Getting a task -/

theorem getReadyTask (inv : Inv system) {cpu : CPU}
    (found : system.call id = some (.getReadyTask cpu))
    (performed : perform system id (.getReadyTask cpu) = some next) :
    Inv next := by
  simp only [perform] at performed
  split at performed
  · cases performed
  obtain ⟨⟨chosen, task⟩, isChosen, rfl⟩ := Option.map_eq_some_iff.mp performed
  have chooses := chooses_of_chooseTask isChosen
  obtain ⟨calls, nextCall, slots, nextSlot, pollingSlot, adds, returns⟩ :=
    frame_of_chooses chooses
  have below : id < system.nextCall := by
    by_contra above
    rw [inv.owned.fresh id (Nat.not_lt.mp above)] at found
    cases found
  have plain : system.polls id = none ∧ system.stores id = none := by
    simp [System.polls, System.stores, found, Call.polls, Call.stores]
  obtain ⟨place, placed, counted⟩ := inv.located
  obtain ⟨later, moved, unchanged, taken⟩ := placed_of_chooses chooses placed
  have content : contentOf chosen.schedulerData chosen.slot
      (Function.update chosen.call id none) = chosen.content := by
    rw [contentOf_call]
    refine Function.update_eq_self_iff.mpr ?_
    simp [contentOf, calls, found, Call.carries]
  have ended : ∀ {result : System},
      result.call = Function.update chosen.call id none →
      result.nextCall = chosen.nextCall → result.slot = chosen.slot →
      result.nextSlot = chosen.nextSlot →
      result.pollingSlot = chosen.pollingSlot → SlotsOwned result := by
    intro result resultCalls resultNext resultSlot resultNextSlot
      resultPolling
    have stays : (none : Option Call).bind Call.polls = none ∧
        (none : Option Call).bind Call.stores = none := ⟨rfl, rfl⟩
    refine inv.owned.plain (by rw [resultCalls, calls]) plain stays ?_ ?_
    · rw [resultNext, nextCall]
      exact ⟨Nat.le_refl _, below⟩
    · exact ⟨resultSlot.trans slots, resultNextSlot.trans nextSlot,
        resultPolling.trans pollingSlot⟩
  cases task with
  | none =>
      refine ⟨ended rfl rfl rfl rfl rfl, later, ?_, ?_⟩
      · show Placed (queuedTasks chosen.classes)
          (contentOf chosen.schedulerData chosen.slot
            (Function.update chosen.call id none)) later
        rw [content]
        exact moved
      · refine counted.moved adds returns ?_
        intro other
        rw [unchanged rfl]
  | some task =>
      obtain ⟨inside, outside, others⟩ := taken task rfl
      refine ⟨ended rfl rfl rfl rfl rfl, later, ?_, ?_⟩
      · show Placed (queuedTasks chosen.classes)
          (contentOf chosen.schedulerData chosen.slot
            (Function.update chosen.call id none)) later
        rw [content]
        exact moved
      · refine counted.returned adds ?_ inside outside others
        rw [← returns]
        rfl

theorem requestPolling (inv : Inv system) {cpu : CPU}
    (found : system.call id = some (.requestPolling cpu))
    (performed : perform system id (.requestPolling cpu) = some next) :
    Inv next := by
  simp only [perform] at performed
  split at performed
  · cases performed
  obtain ⟨⟨chosen, task⟩, isChosen, rfl⟩ := Option.map_eq_some_iff.mp performed
  have chooses := chooses_of_chooseTask isChosen
  obtain ⟨calls, nextCall, slots, nextSlot, pollingSlot, adds, returns⟩ :=
    frame_of_chooses chooses
  obtain ⟨place, placed, counted⟩ := inv.located
  obtain ⟨later, moved, unchanged, taken⟩ := placed_of_chooses chooses placed
  have content : ∀ new : Option Call, new.bind Call.carries = none →
      contentOf chosen.schedulerData chosen.slot
        (Function.update chosen.call id new) = chosen.content := by
    intro new empty
    rw [contentOf_call, empty]
    refine Function.update_eq_self_iff.mpr ?_
    simp [contentOf, calls, found, Call.carries]
  have plain : (Call.requestPolling cpu).polls = none ∧
      (Call.requestPolling cpu).stores = none := ⟨rfl, rfl⟩
  cases task with
  | some task =>
      obtain ⟨inside, outside, others⟩ := taken task rfl
      have empty : chosen.content (.slot chosen.nextSlot) = none := by
        by_contra full
        have isFull : system.slot system.nextSlot ≠ none := by
          simpa [System.content, contentOf, slots, nextSlot] using full
        exact inv.owned.unused (Or.inr (Or.inr isFull))
      refine ⟨?_, Function.update later task
        (.cell (.slot chosen.nextSlot)), ?_, ?_⟩
      · refine inv.owned.joins (.testTask cpu chosen.nextSlot none)
          (by rw [← calls]; rfl) found plain ⟨congrArg some nextSlot, rfl, rfl, rfl⟩
          ⟨?_, nextCall⟩ (Or.inl ⟨⟨task, ?_⟩, pollingSlot⟩)
        · show chosen.nextSlot + 1 = _
          rw [nextSlot]
        · show Function.update chosen.slot chosen.nextSlot (some task) = _
          rw [slots, nextSlot]
      · show Placed (queuedTasks chosen.classes)
          (contentOf chosen.schedulerData
            (Function.update chosen.slot chosen.nextSlot (some task))
            (Function.update chosen.call id
              (some (.testTask cpu chosen.nextSlot none)))) _
        rw [contentOf_slot, content _ rfl]
        exact moved.putInCell outside empty
      · refine counted.moved adds returns ?_
        intro other
        by_cases same : other = task
        · subst same
          simp [inside]
        · rw [Function.update_of_ne same, others other same]
  | none =>
      rw [unchanged rfl] at moved
      cases free : chosen.pollingSlot with
      | none =>
          simp only [Option.isNone_none, if_true]
          refine ⟨?_, place, ?_, ?_⟩
          · refine inv.owned.joins (.testTask cpu chosen.nextSlot none)
              (by rw [← calls]; rfl) found plain ⟨congrArg some nextSlot, rfl, rfl, rfl⟩
              ⟨?_, nextCall⟩ (Or.inr ⟨slots, ?_, ?_⟩)
            · show chosen.nextSlot + 1 = _
              rw [nextSlot]
            · rw [← pollingSlot, free]
            · show some chosen.nextSlot = _
              rw [nextSlot]
          · show Placed (queuedTasks chosen.classes)
              (contentOf chosen.schedulerData chosen.slot
                (Function.update chosen.call id
                  (some (.testTask cpu chosen.nextSlot none)))) _
            rw [content _ rfl]
            exact moved
          · exact counted.moved adds returns fun _ => Iff.rfl
      | some slot =>
          have below : id < system.nextCall := by
            by_contra above
            rw [inv.owned.fresh id (Nat.not_lt.mp above)] at found
            cases found
          have stays : (none : Option Call).bind Call.polls = none ∧
              (none : Option Call).bind Call.stores = none := ⟨rfl, rfl⟩
          simp only [Option.isNone_some, Bool.false_eq_true, if_false]
          refine ⟨?_, place, ?_, ?_⟩
          · refine inv.owned.plain (by rw [← calls]; rfl) ?_ stays ?_
              ⟨slots, nextSlot, pollingSlot⟩
            · simp [System.polls, System.stores, found, Call.polls,
                Call.stores]
            · show system.nextCall ≤ chosen.nextCall ∧ id < chosen.nextCall
              rw [nextCall]
              exact ⟨Nat.le_refl _, below⟩
          · show Placed (queuedTasks chosen.classes)
              (contentOf chosen.schedulerData chosen.slot
                (Function.update chosen.call id none)) _
            rw [content none rfl]
            exact moved
          · exact counted.moved adds returns fun _ => Iff.rfl

/-! ## Polling -/

theorem testTask (inv : Inv system) {cpu : CPU} {slot : SlotId}
    {task : Option TaskId} (found : system.call id =
      some (.testTask cpu slot task))
    (performed : perform system id (.testTask cpu slot task) = some next) :
    Inv next := by
  simp only [perform] at performed
  split at performed
  · rename_i waits
    cases performed
    simp only [Bool.and_eq_true, Option.isNone_iff_eq_none] at waits
    exact inv.moves (.testAcceptsWork cpu slot) found rfl rfl waits.1.symm rfl
      (fun released => by cases released) ⟨rfl, rfl, rfl, rfl, rfl⟩
      (Or.inl rfl) ⟨rfl, rfl⟩
  · cases performed
    exact inv.moves (.testMustExit cpu slot task) found rfl rfl rfl rfl
      (fun released => by cases released) ⟨rfl, rfl, rfl, rfl, rfl⟩
      (Or.inl rfl) ⟨rfl, rfl⟩

theorem testAcceptsWork (inv : Inv system) {cpu : CPU} {slot : SlotId}
    (found : system.call id = some (.testAcceptsWork cpu slot))
    (performed : perform system id (.testAcceptsWork cpu slot) =
      some next) : Inv next := by
  simp only [perform] at performed
  split at performed
  · cases performed
    exact inv.moves (.getTask cpu slot) found rfl rfl rfl rfl
      (fun released => by cases released) ⟨rfl, rfl, rfl, rfl, rfl⟩
      (Or.inl rfl) ⟨rfl, rfl⟩
  · cases performed
    exact inv.moves (.testMustExit cpu slot none) found rfl rfl rfl rfl
      (fun released => by cases released) ⟨rfl, rfl, rfl, rfl, rfl⟩
      (Or.inl rfl) ⟨rfl, rfl⟩

/-- The owner of a slot takes the task that is in it. -/
theorem getTask (inv : Inv system) {cpu : CPU} {slot : SlotId}
    (found : system.call id = some (.getTask cpu slot))
    (performed : perform system id (.getTask cpu slot) = some next) :
    Inv next := by
  cases performed
  refine ⟨?_, ?_⟩
  · exact inv.owned.empties (.testTask cpu slot (system.slot slot)) rfl found
      ⟨rfl, rfl⟩ ⟨rfl, rfl, rfl, rfl⟩ rfl ⟨rfl, rfl, rfl⟩
  · obtain ⟨place, placed, counted⟩ := inv.located
    have content : ({ system with
        slot := Function.update system.slot slot none }.goesOn id
          (.testTask cpu slot (system.slot slot))).content =
        Function.update (Function.update system.content (.slot slot) none)
          (.call id) (system.slot slot) := by
      show contentOf system.schedulerData
        (Function.update system.slot slot none)
        (Function.update system.call id
          (some (.testTask cpu slot (system.slot slot)))) = _
      rw [contentOf_call, contentOf_slot]
      rfl
    have carries : system.content (.call id) = none := by
      simp [System.content, contentOf, found, Call.carries]
    cases held : system.slot slot with
    | none =>
        rw [held] at content
        have kept : Function.update system.content (.slot slot) none =
            system.content :=
          Function.update_eq_self_iff.mpr held.symm
        refine ⟨place, ?_, counted.moved rfl rfl fun _ => Iff.rfl⟩
        have still : Function.update system.content (.call id) none =
            system.content :=
          Function.update_eq_self_iff.mpr carries.symm
        rw [content, kept, still]
        exact placed
    | some task =>
        rw [held] at content
        have full : system.content (.slot slot) = some task := held
        have here := (placed.contained task _).mp full
        refine ⟨Function.update (Function.update place task .outside) task
          (.cell (.call id)), ?_, counted.moved rfl rfl ?_⟩
        · rw [content]
          refine (placed.takeFromCell full).putInCell (by simp) ?_
          simp [carries]
        · intro other
          by_cases same : other = task
          · subst same
            simp [here]
          · simp [same]

theorem testMustExit (inv : Inv system) {cpu : CPU} {slot : SlotId}
    {task : Option TaskId} (found : system.call id =
      some (.testMustExit cpu slot task))
    (performed : perform system id (.testMustExit cpu slot task) =
      some next) : Inv next := by
  simp only [perform] at performed
  split at performed
  · cases performed
    exact inv.moves (.releasePolling cpu slot task true) found rfl rfl rfl rfl
      (fun released => by cases released) ⟨rfl, rfl, rfl, rfl, rfl⟩
      (Or.inl rfl) ⟨rfl, rfl⟩
  · cases performed
    exact inv.moves (.checkAcceptsWork cpu slot task) found rfl rfl rfl rfl
      (fun released => by cases released) ⟨rfl, rfl, rfl, rfl, rfl⟩
      (Or.inl rfl) ⟨rfl, rfl⟩

theorem releasePolling (inv : Inv system) {cpu : CPU} {slot : SlotId}
    {task : Option TaskId} {exiting : Bool}
    (found : system.call id = some (.releasePolling cpu slot task exiting))
    (performed : perform system id (.releasePolling cpu slot task exiting) =
      some next) : Inv next := by
  simp only [perform] at performed
  split at performed
  · rename_i registered
    cases performed
    exact inv.moves (.cpuBecomesIdle cpu slot task exiting) found rfl rfl rfl
      rfl (fun _ none => by cases none) ⟨rfl, rfl, rfl, rfl, rfl⟩
      (Or.inr ⟨registered, rfl⟩) ⟨rfl, rfl⟩
  · rename_i unregistered
    cases exiting with
    | true =>
        cases performed
        exact inv.moves (.checkAcceptsWork cpu slot task) found rfl rfl rfl rfl
          (fun released => by cases released) ⟨rfl, rfl, rfl, rfl, rfl⟩
          (Or.inl rfl) ⟨rfl, rfl⟩
    | false =>
        cases performed
        exact inv.moves (.lastGetTask cpu slot task) found rfl rfl rfl rfl
          (fun _ => unregistered) ⟨rfl, rfl, rfl, rfl, rfl⟩
          (Or.inl rfl) ⟨rfl, rfl⟩

theorem cpuBecomesIdle (inv : Inv system) {cpu : CPU} {slot : SlotId}
    {task : Option TaskId} {exiting : Bool}
    (found : system.call id = some (.cpuBecomesIdle cpu slot task exiting))
    (performed : perform system id (.cpuBecomesIdle cpu slot task exiting) =
      some next) : Inv next := by
  have unregistered : system.pollingSlot ≠ some slot :=
    inv.owned.released id slot
      (by simp [System.hasReleased, found, Call.hasReleased])
      (by simp [System.polls, found, Call.polls])
  cases exiting with
  | true =>
      cases performed
      exact inv.moves (.checkAcceptsWork cpu slot task) found rfl rfl rfl rfl
        (fun released => by cases released) ⟨rfl, rfl, rfl, rfl, rfl⟩
        (Or.inl rfl) ⟨rfl, rfl⟩
  | false =>
      cases performed
      exact inv.moves (.lastGetTask cpu slot task) found rfl rfl rfl rfl
        (fun _ => unregistered) ⟨rfl, rfl, rfl, rfl, rfl⟩
        (Or.inl rfl) ⟨rfl, rfl⟩

/-- The owner of a slot that is not in use returns what it has found. -/
theorem leaves (inv : Inv system) {call : Call} {slot : SlotId}
    {task : Option TaskId} (found : system.call id = some call)
    (polling : call.polls = some slot ∧ call.stores = none)
    (holder : Holder)
    (holds : system.content holder = task)
    (held : holder = .slot slot ∨ holder = .call id)
    (alone : ∀ other, other ≠ holder →
      other = .slot slot ∨ other = .call id → system.content other = none)
    (unused : system.pollingSlot ≠ some slot ∧
      ∀ other, system.stores other ≠ some slot) :
    Inv
      ({ system with
        slot := Function.update system.slot slot none }.returnsTask id
          task) := by
  have content : contentOf system.schedulerData
      (Function.update system.slot slot none)
      (Function.update system.call id none) =
      Function.update system.content holder none := by
    rw [contentOf_slot, contentOf_call]
    funext other
    by_cases same : other = holder
    · subst same
      rcases held with rfl | rfl
      · simp
      · simp
    · rw [Function.update_of_ne same]
      by_cases isSlot : other = .slot slot
      · subst isSlot
        simp [alone _ same (Or.inl rfl)]
      · rw [Function.update_of_ne isSlot]
        by_cases isCall : other = .call id
        · subst isCall
          simp [alone _ same (Or.inr rfl)]
        · rw [Function.update_of_ne isCall]
          rfl
  have owned : ∀ {result : System},
      result.call = Function.update system.call id none →
      result.slot = Function.update system.slot slot none →
      result.nextSlot = system.nextSlot →
      result.nextCall = system.nextCall →
      result.pollingSlot = system.pollingSlot → SlotsOwned result := by
    intro result calls slots nextSlot nextCall pollingSlot
    exact inv.owned.leaves calls found polling slots
      ⟨nextSlot, nextCall, pollingSlot⟩ unused
  obtain ⟨place, placed, counted⟩ := inv.located
  cases task with
  | none =>
      refine ⟨owned rfl rfl rfl rfl rfl, place, ?_,
        counted.moved rfl rfl fun _ => Iff.rfl⟩
      show Placed (queuedTasks system.classes)
        (contentOf system.schedulerData
          (Function.update system.slot slot none)
          (Function.update system.call id none)) place
      rw [content, Function.update_eq_self_iff.mpr holds.symm]
      exact placed
  | some task =>
      have here := (placed.contained task _).mp holds
      refine ⟨owned rfl rfl rfl rfl rfl,
        Function.update place task .outside, ?_, ?_⟩
      · show Placed (queuedTasks system.classes)
          (contentOf system.schedulerData
            (Function.update system.slot slot none)
            (Function.update system.call id none)) _
        rw [content]
        exact placed.takeFromCell holds
      · refine counted.returned rfl rfl (by rw [here]; simp) (by simp) ?_
        intro other differ
        rw [Function.update_of_ne differ]

/-- A slot whose owner has got a task from it is not in use. -/
theorem unused_of_carries (inv : Inv system) {slot : SlotId} {task : TaskId}
    (polls : system.polls id = some slot)
    (carries : system.carries id = some task) : ¬ system.Uses slot := by
  intro uses
  obtain ⟨owner, polling, none⟩ := inv.owned.owned slot uses
  have same := inv.owned.unique owner id slot polling polls
  rw [same, carries] at none
  cases none

theorem checkAcceptsWork (inv : Inv system) {cpu : CPU} {slot : SlotId}
    {task : Option TaskId} (found : system.call id =
      some (.checkAcceptsWork cpu slot task))
    (permitted : Permitted system (.perform id))
    (performed : perform system id (.checkAcceptsWork cpu slot task) =
      some next) : Inv next := by
  simp only [perform] at performed
  split at performed
  · rename_i accepts
    have polls : system.polls id = some slot := by
      simp [System.polls, found, Call.polls]
    have unused : ¬ system.Uses slot := by
      cases task with
      | some task =>
          have carries : system.carries id = some task := by
            simp [System.carries, found, Call.carries]
          exact inv.unused_of_carries polls carries
      | none =>
          simp only [Permitted, permits, found, accepts, Bool.not_true,
            Bool.false_or, Bool.and_eq_true, bne_iff_ne,
            Option.isNone_iff_eq_none, Bool.not_eq_true'] at permitted
          obtain ⟨⟨unregistered, empty⟩, unstored⟩ := permitted
          rintro (registered | ⟨other, storing⟩ | full)
          · exact unregistered registered
          · exact inv.stores_of_isStoring unstored other storing
          · exact full empty
    have empty : system.slot slot = none := by
      by_contra full
      exact unused (Or.inr (Or.inr full))
    have holds : system.content (.call id) = task := by
      simp [System.content, contentOf, found, Call.carries]
    have left := inv.leaves found ⟨rfl, rfl⟩ (.call id) holds (Or.inr rfl)
      (by
        rintro other differ (rfl | rfl)
        · exact empty
        · exact absurd rfl differ)
      ⟨fun registered => unused (Or.inl registered),
        fun other storing => unused (Or.inr (Or.inl ⟨other, storing⟩))⟩
    rw [Function.update_eq_self_iff.mpr empty.symm] at left
    cases performed
    exact left
  · cases performed
    exact inv.moves (.releasePolling cpu slot task false) found rfl rfl rfl
      rfl (fun released => by cases released) ⟨rfl, rfl, rfl, rfl, rfl⟩
      (Or.inl rfl) ⟨rfl, rfl⟩

theorem lastGetTask (inv : Inv system) {cpu : CPU} {slot : SlotId}
    {task : Option TaskId} (found : system.call id =
      some (.lastGetTask cpu slot task))
    (permitted : Permitted system (.perform id))
    (performed : perform system id (.lastGetTask cpu slot task) =
      some next) : Inv next := by
  simp only [Permitted, permits, found, Bool.and_eq_true,
    Option.isNone_iff_eq_none, Bool.not_eq_true'] at permitted
  obtain ⟨rfl, unstored⟩ := permitted
  have unregistered : system.pollingSlot ≠ some slot :=
    inv.owned.released id slot
      (by simp [System.hasReleased, found, Call.hasReleased])
      (by simp [System.polls, found, Call.polls])
  cases performed
  refine inv.leaves found ⟨rfl, rfl⟩ (.slot slot) rfl (Or.inl rfl) ?_
    ⟨unregistered, inv.stores_of_isStoring unstored⟩
  rintro other differ (rfl | rfl)
  · exact absurd rfl differ
  · simp [System.content, contentOf, found, Call.carries]

/-! ## Disabling a CPU -/

theorem disableComputePlace (inv : Inv system) {cpu : CPU}
    (found : system.call id = some (.disableComputePlace cpu))
    (performed : perform system id (.disableComputePlace cpu) = some next) :
    Inv next := by
  simp only [perform] at performed
  split at performed
  · cases performed
    exact inv.endsEmpty found ⟨rfl, rfl⟩ rfl rfl
      ⟨rfl, rfl, rfl, rfl, rfl, rfl⟩ ⟨rfl, rfl⟩
  · rename_i task waits
    cases performed
    have below : id < system.nextCall := by
      by_contra above
      rw [inv.owned.fresh id (Nat.not_lt.mp above)] at found
      cases found
    obtain ⟨place, placed, counted⟩ := inv.located
    have full : system.content (.successor cpu) = some task := waits
    have here := (placed.contained task _).mp full
    have stays :
        (some (Call.queueDisabled cpu task)).bind Call.polls = none ∧
          (some (Call.queueDisabled cpu task)).bind Call.stores = none :=
      ⟨rfl, rfl⟩
    refine ⟨?_, Function.update (Function.update place task .outside) task
      (.cell (.call id)), ?_, counted.moved rfl rfl ?_⟩
    · refine inv.owned.plain rfl ?_ stays ⟨Nat.le_refl _, below⟩
        ⟨rfl, rfl, rfl⟩
      simp [System.polls, System.stores, found, Call.polls, Call.stores]
    · show Placed _
        (contentOf (Function.update system.schedulerData cpu none)
          system.slot (Function.update system.call id
            (some (.queueDisabled cpu task)))) _
      rw [contentOf_call, contentOf_successor]
      refine (placed.takeFromCell full).putInCell (by simp) ?_
      simp [System.content, contentOf, found, Call.carries]
    · intro other
      by_cases same : other = task
      · subst same
        simp [here]
      · simp [same]

theorem queueDisabled (inv : Inv system) {cpu : CPU} {task : TaskId}
    (found : system.call id = some (.queueDisabled cpu task))
    (performed : perform system id (.queueDisabled cpu task) = some next) :
    Inv next := by
  simp only [perform] at performed
  split at performed
  · cases performed
  · exact inv.locksClass found ⟨rfl, rfl⟩ rfl performed

theorem perform (inv : Inv system) {call : Call}
    (found : system.call id = some call)
    (permitted : Permitted system (.perform id))
    (performed : Scheduling.perform system id call = some next) :
    Inv next := by
  cases call with
  | addReadyTask add => exact inv.addReadyTask found performed
  | takePollingSlot add => exact inv.takePollingSlot found performed
  | lockGlobal add => exact inv.lockGlobal found performed
  | storeTask add slot locked => exact inv.storeTask found performed
  | pushTask computePlace task key front doGetIdle =>
      exact inv.pushTask found performed
  | getIdleCPU computePlace task => exact inv.getIdleCPU found performed
  | getReadyTask cpu => exact inv.getReadyTask found performed
  | requestPolling cpu => exact inv.requestPolling found performed
  | testTask cpu slot task => exact inv.testTask found performed
  | testAcceptsWork cpu slot => exact inv.testAcceptsWork found performed
  | getTask cpu slot => exact inv.getTask found performed
  | testMustExit cpu slot task => exact inv.testMustExit found performed
  | releasePolling cpu slot task exiting =>
      exact inv.releasePolling found performed
  | cpuBecomesIdle cpu slot task exiting =>
      exact inv.cpuBecomesIdle found performed
  | checkAcceptsWork cpu slot task =>
      exact inv.checkAcceptsWork found permitted performed
  | lastGetTask cpu slot task =>
      exact inv.lastGetTask found permitted performed
  | disableComputePlace cpu => exact inv.disableComputePlace found performed
  | queueDisabled cpu task => exact inv.queueDisabled found performed

/-! ## Whole runs -/

/-- A call starts; it carries the task that is added, if any. -/
theorem starts (inv : Inv system) {call : Call} {same : System}
    (started : same.starts call = some next)
    (plain : call.polls = none ∧ call.stores = none)
    (others : same.slot = system.slot ∧ same.nextSlot = system.nextSlot ∧
      same.pollingSlot = system.pollingSlot ∧
      same.nextCall = system.nextCall ∧ same.call = system.call)
    (located : ∀ place, Placed (queuedTasks system.classes) system.content
        place → Counted system place →
      ∃ later, Placed (queuedTasks same.classes)
          (Function.update system.content (.call system.nextCall)
            call.carries) later ∧ Counted same later)
    (data : same.schedulerData = system.schedulerData) : Inv next := by
  unfold System.starts at started
  split at started
  · cases started
  · cases started
    have stays : (some call).bind Call.polls = none ∧
        (some call).bind Call.stores = none := plain
    have gone : system.call system.nextCall = none :=
      inv.owned.fresh _ (Nat.le_refl _)
    refine ⟨?_, ?_⟩
    · refine inv.owned.plain (by
        show Function.update same.call same.nextCall (some call) = _
        rw [others.2.2.2.2, others.2.2.2.1]) ?_ stays ?_
        ⟨others.1, others.2.1, others.2.2.1⟩
      · simp [System.polls, System.stores, gone]
      · show system.nextCall ≤ same.nextCall + 1 ∧
          system.nextCall < same.nextCall + 1
        rw [others.2.2.2.1]
        exact ⟨Nat.le_succ _, Nat.lt_succ_self _⟩
    · obtain ⟨place, placed, counted⟩ := inv.located
      obtain ⟨later, moved, recounted⟩ := located place placed counted
      refine ⟨later, ?_, recounted⟩
      show Placed (queuedTasks same.classes)
        (contentOf same.schedulerData same.slot
          (Function.update same.call same.nextCall (some call))) later
      rw [data, others.1, others.2.2.2.2, others.2.2.2.1, contentOf_call]
      exact moved

theorem startsEmpty (inv : Inv system) {call : Call}
    (plain : call.polls = none ∧ call.stores = none)
    (empty : call.carries = none)
    (started : system.starts call = some next) : Inv next := by
  refine inv.starts started plain ⟨rfl, rfl, rfl, rfl, rfl⟩ ?_ rfl
  intro place placed counted
  refine ⟨place, ?_, counted⟩
  have gone : system.call system.nextCall = none :=
    inv.owned.fresh _ (Nat.le_refl _)
  have kept : Function.update system.content (.call system.nextCall)
      call.carries = system.content := by
    refine Function.update_eq_self_iff.mpr ?_
    simp [System.content, contentOf, gone, empty]
  rw [kept]
  exact placed

theorem step (inv : Inv system) {action : Action}
    (permitted : Permitted system action)
    (taken : Scheduling.step system action = some next) : Inv next := by
  cases action with
  | addReadyTask task computePlace hint priority doGetIdle =>
      simp only [Scheduling.step] at taken
      split at taken
      · rename_i outside
        refine inv.starts taken ⟨rfl, rfl⟩ ⟨rfl, rfl, rfl, rfl, rfl⟩ ?_ rfl
        intro place placed counted
        have isOutside : place task = .outside := by
          by_contra inside
          have count := counted task
          rw [if_neg inside, outside] at count
          omega
        have gone : system.call system.nextCall = none :=
          inv.owned.fresh _ (Nat.le_refl _)
        refine ⟨_, placed.putInCell isOutside
          (by simp [System.content, contentOf, gone]), ?_⟩
        intro other
        by_cases same : other = task
        · subst same
          simp [outside]
        · simpa [same] using counted other
      · cases taken
  | getReadyTask cpu doWait =>
      cases doWait with
      | true => exact inv.startsEmpty ⟨rfl, rfl⟩ rfl taken
      | false => exact inv.startsEmpty ⟨rfl, rfl⟩ rfl taken
  | disableComputePlace cpu => exact inv.startsEmpty ⟨rfl, rfl⟩ rfl taken
  | getIdleComputePlace force =>
      simp only [Scheduling.step] at taken
      split at taken
      · cases taken
      · split at taken
        · cases taken
          exact ⟨{ inv.owned with }, inv.located⟩
        · cases taken
          exact inv
  | setAcceptsWork cpu value =>
      cases taken
      exact ⟨{ inv.owned with }, inv.located⟩
  | shutdown =>
      cases taken
      exact ⟨{ inv.owned with }, inv.located⟩
  | perform id =>
      obtain ⟨call, found, performed⟩ := Option.bind_eq_some_iff.mp taken
      exact inv.perform found permitted performed

end Inv

theorem Inv.initial : Inv {} where
  owned :=
    { fresh := fun _ _ => rfl
      bound := fun _ _ polls => by cases polls
      unique := fun _ _ _ polls => by cases polls
      owned := by
        rintro slot (registered | ⟨id, storing⟩ | full)
        · cases registered
        · cases storing
        · exact absurd rfl full
      registered := fun _ registered => by cases registered
      taken := fun _ _ storing => by cases storing
      released := fun _ _ released => by cases released }
  located := by
    refine ⟨fun _ => .outside, ⟨List.nodup_nil, ?_, ?_⟩, fun _ => rfl⟩
    · intro task
      simp [queuedTasks]
    · intro task holder
      cases holder <;> simp [System.content, contentOf]

/-- The task is in the place. -/
def System.Has (system : System) (task : TaskId) : Place → Prop
  | .outside => False
  | .queue => task ∈ queuedTasks system.classes
  | .cell holder => system.content holder = some task

/-- What is wanted of the scheduler. -/
structure System.KeepsTasks (system : System) : Prop where
  /-- A task that has been added and not returned is in exactly one place, and
  no other task is in any. -/
  inside : ∀ task, system.adds task = system.returns task + 1 →
    ∃! place, system.Has task place
  outside : ∀ task, system.adds task ≠ system.returns task + 1 →
    system.adds task = system.returns task ∧ ∀ place, ¬ system.Has task place
  /-- No task is twice in the priority classes. -/
  nodup : (queuedTasks system.classes).Nodup
  /-- A polling slot that holds a task, or is going to, is being polled. -/
  polled : ∀ slot,
    (system.slot slot ≠ none ∨ ∃ id, system.stores id = some slot) →
    ∃ id, system.polls id = some slot

theorem keepsTasks_of_inv {system : System} (inv : Inv system) :
    system.KeepsTasks := by
  obtain ⟨place, placed, counted⟩ := inv.located
  have has : ∀ task location, location ≠ .outside →
      (system.Has task location ↔ place task = location) := by
    intro task location inside
    cases location with
    | outside => exact absurd rfl inside
    | queue => exact placed.queued task
    | cell holder => exact placed.contained task holder
  have notOutside : ∀ {task location}, system.Has task location →
      location ≠ .outside := by
    rintro task location here rfl
    exact here
  refine ⟨?_, ?_, placed.nodup, ?_⟩
  · intro task added
    have inside : place task ≠ .outside := by
      intro outside
      have count := counted task
      rw [if_pos outside] at count
      omega
    refine ⟨place task, (has task _ inside).mpr rfl, ?_⟩
    intro other here
    exact ((has task other (notOutside here)).mp here).symm
  · intro task notAdded
    have count := counted task
    have outside : place task = .outside := by
      by_contra inside
      rw [if_neg inside] at count
      exact notAdded count
    rw [if_pos outside] at count
    refine ⟨count, ?_⟩
    intro location here
    have same := (has task location (notOutside here)).mp here
    exact notOutside here (same.symm.trans outside)
  · intro slot used
    have uses : system.Uses slot := by
      rcases used with full | storing
      · exact Or.inr (Or.inr full)
      · exact Or.inr (Or.inl storing)
    obtain ⟨id, polls, -⟩ := inv.owned.owned slot uses
    exact ⟨id, polls⟩

/-- No run in which no waiting call leaves too early drops or duplicates a
task. -/
theorem keepsTasks_of_run {system : System}
    (run : Run step Permitted {} system) : system.KeepsTasks :=
  keepsTasks_of_inv <|
    run.invariant Inv.initial fun _ _ _ inv permitted taken =>
      inv.step permitted taken

/-- A task is handed over through the polling slot. -/
theorem keepsTasks_handed_over :
    ∃ system, Run step Permitted {} system ∧ system.returns 7 = 1 ∧
      system.KeepsTasks := by
  obtain ⟨system, run, returned⟩ :=
    exists_run_of_executeAllowed
      ([.getReadyTask 0 true, .perform 0,
        .addReadyTask 7 none .unblockedTask none false, .perform 1, .perform 1,
        .perform 0, .perform 0, .perform 1, .perform 0, .perform 0, .perform 0,
        .perform 0] : List Action)
      ({} : System) (fun system => system.returns 7 == 1)
      (by decide +kernel : (executeAllowed step Permitted ({} : System)
        _).any _ = true)
  exact ⟨system, run, by simpa using returned, keepsTasks_of_run run⟩

/-! ## A lost task -/

/-- A step of a call changes no other call. -/
theorem calls_perform {system next : System} {id : CallId} {call : Call}
    (performed : perform system id call = some next) :
    (∃ new, next.call = Function.update system.call id new) ∧
      next.nextCall = system.nextCall := by
  have chosen : ∀ {cpu : CPU} {result : System × Option TaskId},
      system.chooseTask cpu = some result →
      result.1.call = system.call ∧ result.1.nextCall = system.nextCall := by
    intro cpu result isChosen
    obtain ⟨calls, nextCall, -⟩ :=
      frame_of_chooses (chooses_of_chooseTask isChosen)
    exact ⟨calls, nextCall⟩
  have locked : ∀ {computePlace : Option CPU} {task : TaskId} {key : Int}
      {front doGetIdle : Bool},
      system.locksClass id computePlace task key front doGetIdle =
        some next →
      (∃ new, next.call = Function.update system.call id new) ∧
        next.nextCall = system.nextCall := by
    intro computePlace task key front doGetIdle isLocked
    unfold System.locksClass at isLocked
    split at isLocked
    · cases isLocked
    · cases isLocked
      exact ⟨⟨_, rfl⟩, rfl⟩
  cases call with
  | getReadyTask cpu =>
      simp only [perform] at performed
      split at performed
      · cases performed
      obtain ⟨result, isChosen, rfl⟩ := Option.map_eq_some_iff.mp performed
      obtain ⟨calls, nextCall⟩ := chosen isChosen
      split
      · exact ⟨⟨_, by rw [← calls]; rfl⟩, nextCall⟩
      · exact ⟨⟨_, by rw [← calls]; rfl⟩, nextCall⟩
  | requestPolling cpu =>
      simp only [perform] at performed
      split at performed
      · cases performed
      obtain ⟨result, isChosen, rfl⟩ := Option.map_eq_some_iff.mp performed
      obtain ⟨calls, nextCall⟩ := chosen isChosen
      split
      · exact ⟨⟨_, by rw [← calls]; rfl⟩, nextCall⟩
      · split
        · exact ⟨⟨_, by rw [← calls]; rfl⟩, nextCall⟩
        · exact ⟨⟨_, by rw [← calls]; rfl⟩, nextCall⟩
  | lockGlobal add =>
      simp only [perform] at performed
      split at performed
      · cases performed
      · split at performed
        · cases performed
          exact ⟨⟨_, rfl⟩, rfl⟩
        · exact locked performed
  | queueDisabled cpu task =>
      simp only [perform] at performed
      split at performed
      · cases performed
      · exact locked performed
  | lastGetTask cpu slot task =>
      cases performed
      unfold System.returnsTask
      split
      · exact ⟨⟨_, rfl⟩, rfl⟩
      · exact ⟨⟨_, rfl⟩, rfl⟩
  | checkAcceptsWork cpu slot task =>
      simp only [perform] at performed
      split at performed
      · cases performed
        cases task with
        | none => exact ⟨⟨_, rfl⟩, rfl⟩
        | some task => exact ⟨⟨_, rfl⟩, rfl⟩
      · cases performed
        exact ⟨⟨_, rfl⟩, rfl⟩
  | storeTask add slot locked =>
      simp only [perform] at performed
      split at performed
      · cases performed
        exact ⟨⟨_, rfl⟩, rfl⟩
      · cases performed
        exact ⟨⟨_, rfl⟩, rfl⟩
  | addReadyTask add =>
      simp only [perform] at performed
      split at performed
      · cases performed
        exact ⟨⟨_, rfl⟩, rfl⟩
      · split at performed
        · cases performed
          exact ⟨⟨_, rfl⟩, rfl⟩
        · cases performed
          exact ⟨⟨_, rfl⟩, rfl⟩
  | testTask cpu slot task =>
      cases performed
      exact ⟨⟨_, rfl⟩, rfl⟩
  | testAcceptsWork cpu slot =>
      cases performed
      exact ⟨⟨_, rfl⟩, rfl⟩
  | getTask cpu slot =>
      cases performed
      exact ⟨⟨_, rfl⟩, rfl⟩
  | testMustExit cpu slot task =>
      cases performed
      exact ⟨⟨_, rfl⟩, rfl⟩
  | cpuBecomesIdle cpu slot task exiting =>
      cases performed
      exact ⟨⟨_, rfl⟩, rfl⟩
  | takePollingSlot add =>
      simp only [perform] at performed
      split at performed <;> cases performed <;> exact ⟨⟨_, rfl⟩, rfl⟩
  | pushTask computePlace task key front doGetIdle =>
      simp only [perform] at performed
      split at performed <;> cases performed <;> exact ⟨⟨_, rfl⟩, rfl⟩
  | getIdleCPU computePlace task =>
      simp only [perform] at performed
      split at performed <;> cases performed <;> exact ⟨⟨_, rfl⟩, rfl⟩
  | releasePolling cpu slot task exiting =>
      simp only [perform] at performed
      split at performed <;> cases performed <;> exact ⟨⟨_, rfl⟩, rfl⟩
  | disableComputePlace cpu =>
      simp only [perform] at performed
      split at performed <;> cases performed <;> exact ⟨⟨_, rfl⟩, rfl⟩

/-- Only the calls that have started are in progress. -/
def System.IsFresh (system : System) : Prop :=
  ∀ id, system.nextCall ≤ id → system.call id = none

theorem fresh_of_run {allowed : System → Action → Prop} {system : System}
    (run : Run step allowed {} system) {id : CallId}
    (above : system.nextCall ≤ id) : system.call id = none := by
  have kept : system.IsFresh := by
    have initial : System.IsFresh {} := fun _ _ => rfl
    refine run.invariant initial ?_
    intro state action next fresh _ taken
    have started : ∀ {same : System} {call : Call},
        same.starts call = some next → same.call = state.call →
        same.nextCall = state.nextCall → next.IsFresh := by
      intro same call isStarted calls nextCall id above
      unfold System.starts at isStarted
      split at isStarted
      · cases isStarted
      · cases isStarted
        have beyond : same.nextCall < id := above
        show Function.update same.call same.nextCall (some call) id = none
        rw [Function.update_of_ne (Nat.ne_of_gt beyond), calls]
        exact fresh id (nextCall ▸ Nat.le_of_lt beyond)
    cases action with
    | addReadyTask task computePlace hint priority doGetIdle =>
        simp only [step] at taken
        split at taken
        · exact started taken rfl rfl
        · cases taken
    | getReadyTask cpu doWait => exact started taken rfl rfl
    | disableComputePlace cpu => exact started taken rfl rfl
    | getIdleComputePlace force =>
        simp only [step] at taken
        split at taken
        · cases taken
        · split at taken <;> cases taken <;> exact fresh
    | setAcceptsWork cpu value =>
        cases taken
        exact fresh
    | shutdown =>
        cases taken
        exact fresh
    | perform performer =>
        obtain ⟨call, found, performed⟩ := Option.bind_eq_some_iff.mp taken
        obtain ⟨⟨new, calls⟩, nextCall⟩ := calls_perform performed
        intro id above
        rw [nextCall] at above
        have differ : id ≠ performer := by
          rintro rfl
          rw [fresh id above] at found
          cases found
        rw [calls, Function.update_of_ne differ]
        exact fresh id above
  exact kept id above

/-- The CPU is disabled between the two steps in which another thread takes the
slot and stores the task: the waiting call looks at the slot for the last time
before the task is there. -/
theorem keepsTasks_fails :
    ¬ ∀ system, Run step (fun _ _ => True) {} system →
      system.KeepsTasks := by
  intro always
  obtain ⟨system, run, lost⟩ :=
    exists_run_of_executeAllowed
      ([.getReadyTask 0 true, .perform 0,
        .addReadyTask 7 none .unblockedTask none false, .perform 1, .perform 1,
        .setAcceptsWork 0 false, .perform 0, .perform 0, .perform 0,
        .perform 0, .perform 0, .perform 0, .perform 1] : List Action)
      ({} : System)
      (fun system =>
        system.slot 0 == some 7 &&
          (List.range system.nextCall).all fun id =>
            system.polls id != some 0)
      (by decide +kernel : (executeAllowed step (fun _ _ => True)
        ({} : System) _).any _ = true)
  simp only [Bool.and_eq_true, beq_iff_eq, List.all_eq_true,
    List.mem_range, bne_iff_ne] at lost
  have full : system.slot 0 ≠ none := by
    rw [lost.1]
    simp
  obtain ⟨id, polls⟩ := (always system run).polled 0 (Or.inl full)
  by_cases below : id < system.nextCall
  · exact lost.2 id below polls
  · have gone := fresh_of_run run (Nat.not_lt.mp below)
    simp [System.polls, gone] at polls

end Nanos6.Scheduling
