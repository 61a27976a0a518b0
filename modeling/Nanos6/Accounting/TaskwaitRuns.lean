import Nanos6.Accounting.Taskwaits

/-!
# Taskwaits over whole runs

The balance of the counters is kept by every step of a run in which no
countdown becomes too small.
-/

namespace Nanos6

open Foundation

/-- A taskwait is created inside of a taskwait or of a wait clause. -/
theorem Task.status_of_creating {task : Task}
    (fits : WorkFits task.status task.work)
    (creating : task.isCreating = true) :
    task.status = .inTaskwait ∨ task.status = .inWaitClause := by
  by_contra outside
  have idle := Task.isCreating_of_fits fits (by
    revert outside
    cases task.status <;> simp [TaskStatus.allows])
  rw [creating] at idle
  cases idle

/-- The task after a taskwait fragment or a sink has been put at the bottom of
an entry. -/
theorem task_createTaskwaitFragment (system : System) (task : TaskId)
    {objectType : DataAccessObjectType} (notAccess : objectType ≠ .access)
    (entry : Piece BottomMapEntry) :
    (createTaskwaitFragment system task objectType entry).task task =
      { system.task task with
        objects :=
          Function.update (system.task task).objects .taskwaitFragments
            (((system.task task).objects .taskwaitFragments).insert
              entry.interval
              (taskwaitFragment task objectType entry.value.accessType))
        subaccessBottomMap :=
          (system.task task).subaccessBottomMap.replace entry entry.interval
            (some ⟨⟨task, objectType⟩, entry.value.accessType⟩)
        counters := (system.task task).counters.countObject objectType } := by
  have new :=
    isNewObject_taskwaitFragment system.parent task notAccess
      entry.value.accessType
  unfold createTaskwaitFragment
  dsimp only
  rw [System.task_modifyTask, if_pos rfl, System.task_createObject,
    if_pos rfl]
  dsimp only
  rw [new.counters,
    (new.dependencyData system.parent entry.interval task
      (system.task task).counters).1]
  simp [taskwaitFragment, createAccess]

theorem pendingDisposals_createTaskwaitFragment (system : System)
    (task : TaskId) {objectType : DataAccessObjectType}
    (notAccess : objectType ≠ .access) (entry : Piece BottomMapEntry) :
    (createTaskwaitFragment system task objectType entry).pendingDisposals =
      system.pendingDisposals := by
  have new :=
    isNewObject_taskwaitFragment system.parent task notAccess
      entry.value.accessType
  have created :=
    System.pendingDisposals_createObject system task task .taskwaitFragments
      entry.interval
      (.of system.parent (createAccess task objectType
        entry.value.accessType false none))
      (taskwaitFragment task objectType entry.value.accessType)
  rw [(new.dependencyData system.parent entry.interval task
    (system.task task).counters).2, List.append_nil] at created
  exact created

namespace Balanced

variable {system next : System} {task : TaskId}

/-! ## Creating taskwait fragments and sinks -/

/-- There is room for the taskwait fragment of the next entry. -/
theorem fits_createTaskwait {undisposed : Nat} {current : Task}
    (balance : TaskBalance undisposed current) {low : Nat} {rest : List Work}
    (working : current.work = .createTaskwait low :: rest)
    {entry : Piece BottomMapEntry}
    (found : current.subaccessBottomMap.nextFrom low = some entry) :
    (current.objects .taskwaitFragments).Fits entry.interval := by
  obtain ⟨member, above, -⟩ := IntervalMap.nextFrom_eq_some _ found
  have creates : .createTaskwait low ∈ current.work := by
    simp [working]
  have starts := balance.ahead low creates entry member above
  refine ⟨IntervalMap.nonempty _ entry member, ?_⟩
  intro other otherMember meets
  have bound := balance.created low creates other otherMember
  simp only [Interval.Meets, Interval.inter, Interval.Nonempty] at meets
  omega

/-- A taskwait fragment more, between two entries of `createTaskwait`. -/
theorem balance_createTaskwait {undisposed : Nat} {current : Task}
    (balance : TaskBalance undisposed current)
    (positive : 0 ≤ current.counters.removalBlockers) {low : Nat}
    {rest : List Work}
    (working : current.work = .createTaskwait low :: rest)
    (going : current.status ≠ .leavingTaskwait ∧
      current.status ≠ .disposed)
    {entry : Piece BottomMapEntry}
    (found : current.subaccessBottomMap.nextFrom low = some entry)
    (id : TaskId) {previous : DataAccessLink} {region : DataAccessRegion} :
    TaskBalance undisposed
      { current with
        objects :=
          Function.update current.objects .taskwaitFragments
            ((current.objects .taskwaitFragments).insert entry.interval
              (taskwaitFragment id .taskwait entry.value.accessType))
        subaccessBottomMap :=
          current.subaccessBottomMap.replace entry entry.interval
            (some ⟨⟨id, .taskwait⟩, entry.value.accessType⟩)
        counters := current.counters.countObject .taskwait
        work :=
          .linkToTaskwait previous region ::
            .createTaskwait entry.interval.stop :: rest } := by
  obtain ⟨member, above, -⟩ := IntervalMap.nextFrom_eq_some _ found
  have creates : .createTaskwait low ∈ current.work := by
    simp [working]
  have starts := balance.ahead low creates entry member above
  have nonempty := IntervalMap.nonempty _ entry member
  have fits := fits_createTaskwait balance working found
  have followed := current.counters.follow_countObject .taskwait
  rw [if_pos rfl] at followed
  have blockers := followed.removalBlockers
  have ledger := followed.ledger positive (by omega)
  have once := balance.once
  have restIdle : ∀ other, .createTaskwait other ∉ rest := by
    intro other inRest
    have kept : .createTaskwait other ∈ rest.filter Work.creates :=
      List.mem_filter.mpr ⟨inRest, rfl⟩
    have found := List.length_pos_of_mem kept
    rw [working] at once
    simp only [List.filter_cons, Work.creates, if_true,
      List.length_cons] at once
    omega
  have only : ∀ other,
      .createTaskwait other ∈ Work.linkToTaskwait previous region ::
        Work.createTaskwait entry.interval.stop :: rest →
      other = entry.interval.stop := by
    intro other inWork
    simp only [List.mem_cons, Work.createTaskwait.injEq, reduceCtorEq,
      false_or] at inWork
    exact inWork.resolve_right (restIdle other)
  refine
    { ledger := ?_
      live := ?_
      blocks := ?_
      once := ?_
      created := ?_
      ahead := ?_
      below := ?_
      leaving := fun leaves => absurd leaves going.1
      disposed := fun isDisposed => absurd isDisposed going.2 }
  · have accesses :
        Task.hasAccesses
          { current with
            objects :=
              Function.update current.objects .taskwaitFragments
                ((current.objects .taskwaitFragments).insert entry.interval
                  (taskwaitFragment id .taskwait entry.value.accessType)) } =
          current.hasAccesses := by
      simp only [Task.hasAccesses]
      rw [Function.update_of_ne (by simp)]
    change (current.counters.countObject .taskwait).ledger = _
    rw [ledger, balance.ledger, ← accesses]
    rfl
  · have updated :=
      countObjects_update current.objects .taskwaitFragments
        ((current.objects .taskwaitFragments).insert entry.interval
          (taskwaitFragment id .taskwait entry.value.accessType))
        DataAccess.isLiveTaskwait
    rw [IntervalMap.countPieces_insert _ fits] at updated
    have live : (taskwaitFragment id .taskwait
        entry.value.accessType).isLiveTaskwait = true := by
      simp [taskwaitFragment, createAccess, DataAccess.isLiveTaskwait,
        DataAccess.isCounted, DataAccess.isRemovable]
    rw [live, Bool.toNat_true] at updated
    dsimp only
    rw [followed.liveTaskwaitFragmentCount, balance.live]
    omega
  · have before : current.awaitsFragments = true := by
      simp [Task.awaitsFragments, Task.isCreating, working, Work.creates]
    have blocks := balance.blocks
    rw [before] at blocks
    simp only [Task.awaitsFragments, Task.isCreating, List.any_cons,
      Work.creates, Bool.true_or, Bool.or_true, if_true]
    rw [followed.taskwaitBlocks, followed.taskwaitUnblocks]
    simpa using blocks
  · rw [working] at once
    simpa [List.filter_cons, Work.creates] using once
  · intro other inWork piece pieceMember
    rw [only other inWork]
    dsimp only at pieceMember
    rw [Function.update_self] at pieceMember
    rcases IntervalMap.mem_insert _ pieceMember with rfl | old
    · exact Nat.le_refl _
    · have bound := balance.created low creates piece old
      simp only [Interval.Nonempty] at nonempty
      omega
  · intro other inWork part partMember beyond
    rw [only other inWork] at beyond ⊢
    dsimp only at partMember
    have inside : ∃ old ∈ current.subaccessBottomMap.pieces,
        old.interval.start ≤ part.interval.start ∧
          part.interval.stop ≤ old.interval.stop :=
      IntervalMap.inside_rewritePieces _ _ partMember
    obtain ⟨old, oldMember, oldStarts, oldStops⟩ := inside
    rcases IntervalMap.Ordered.apart current.subaccessBottomMap.ordered oldMember
      member with rfl | before | after
    · omega
    · simp only [Interval.Nonempty] at nonempty
      omega
    · omega
  · intro inWork
    have zero := only 0 inWork
    simp only [Interval.Nonempty] at nonempty
    omega

/-- The end of `createTaskwait`: a live fragment is left. -/
theorem balance_createsNoMore {undisposed : Nat} {current : Task}
    (balance : TaskBalance undisposed current) {low : Nat}
    {rest : List Work}
    (working : current.work = .createTaskwait low :: rest)
    (positive : 0 < current.counters.liveTaskwaitFragmentCount) :
    TaskBalance undisposed { current with work := rest } := by
  have none : rest.filter Work.creates = [] := by
    have once := balance.once
    rw [working] at once
    simp only [List.filter_cons, Work.creates, if_true,
      List.length_cons] at once
    exact List.eq_nil_of_length_eq_zero (by omega)
  have idle : ∀ other, .createTaskwait other ∉ rest := by
    intro other inRest
    have kept : .createTaskwait other ∈ rest.filter Work.creates :=
      List.mem_filter.mpr ⟨inRest, rfl⟩
    rw [none] at kept
    cases kept
  refine
    { ledger := balance.ledger
      live := balance.live
      blocks := ?_
      once := ?_
      created := fun other inRest => absurd inRest (idle other)
      ahead := fun other inRest => absurd inRest (idle other)
      below := fun inRest => absurd inRest (idle 0)
      leaving := balance.leaving
      disposed := balance.disposed }
  · have before : current.awaitsFragments = true := by
      simp [Task.awaitsFragments, Task.isCreating, working, Work.creates]
    have after : Task.awaitsFragments { current with work := rest } = true := by
      have notZero : current.counters.liveTaskwaitFragmentCount ≠ 0 := by
        omega
      simp [Task.awaitsFragments, notZero]
    have blocks := balance.blocks
    rw [before] at blocks
    rw [after]
    exact blocks
  · dsimp only
    rw [none]
    exact Nat.zero_le 1

theorem createTaskwait (balanced : Balanced system)
    (accounting : TaskAccounting (system.task task))
    (sound : (system.task task).IsSound)
    (fits : WorkFits (system.task task).status (system.task task).work)
    {low : Nat} {rest : List Work}
    (working : (system.task task).work = .createTaskwait low :: rest) :
    Balanced (Nanos6.createTaskwait system task low rest) := by
  have balance := balanced.tasks task
  have creating : (system.task task).isCreating = true := by
    simp [Task.isCreating, working, Work.creates]
  have going : (system.task task).status ≠ .leavingTaskwait ∧
      (system.task task).status ≠ .disposed := by
    rcases Task.status_of_creating fits creating with status | status <;>
      simp [status]
  have notPending : task ∉ system.pendingDisposals := by
    intro pending
    have parked := (balanced.pending task pending).1
    rcases Task.status_of_creating fits creating with status | status <;>
      simp [status, TaskStatus.isParked] at parked
  have positive : 0 ≤ (system.task task).counters.removalBlockers :=
    Int.le_trans (Int.natCast_nonneg _) accounting.blockers
  unfold Nanos6.createTaskwait
  split
  · rename_i absent
    have live : 0 < (system.task task).counters.liveTaskwaitFragmentCount := by
      have creates : .createTaskwait low ∈ (system.task task).work := by
        simp [working]
      by_cases first : low = 0
      · -- The loop has been entered with entries in the bottom map.
        subst first
        obtain ⟨entry, member⟩ :=
          List.exists_mem_of_ne_nil _ (balance.below creates)
        have positive := IntervalMap.nonempty _ entry member
        have missing := IntervalMap.nextFrom_eq_none _ absent
          (Nat.zero_le entry.interval.start)
        rw [IntervalMap.lookup_of_mem _ member
          ⟨Nat.le_refl _, positive⟩] at missing
        cases missing
      · exact sound.live low creates first
    have changed : (system.setWork task rest).task task =
        { system.task task with work := rest } := by
      rw [System.setWork, System.task_modifyTask, if_pos rfl]
    refine balanced.update task ?_ ?_ ?_ ?_ (List.append_nil _).symm
      (Or.inl rfl) (fun pending => absurd pending notPending)
    · intro other differ
      rw [System.setWork, System.task_modifyTask, if_neg differ]
    · rw [changed]
    · rw [changed]
    · rw [changed]
      exact balance_createsNoMore balance working live
  · rename_i entry found
    have changed :
        ((createTaskwaitFragment system task .taskwait entry).setWork task
          (.linkToTaskwait entry.value.link entry.interval ::
            .createTaskwait entry.interval.stop :: rest)).task task =
          { (createTaskwaitFragment system task .taskwait entry).task
              task with
            work :=
              .linkToTaskwait entry.value.link entry.interval ::
                .createTaskwait entry.interval.stop :: rest } := by
      rw [System.setWork, System.task_modifyTask, if_pos rfl]
    rw [task_createTaskwaitFragment system task (by simp) entry] at changed
    have pushed :
        ((createTaskwaitFragment system task .taskwait entry).setWork task
          (.linkToTaskwait entry.value.link entry.interval ::
            .createTaskwait entry.interval.stop :: rest)).pendingDisposals =
          system.pendingDisposals ++ [] :=
      (pendingDisposals_createTaskwaitFragment system task (by simp)
        entry).trans (List.append_nil _).symm
    refine balanced.update task ?_ ?_ ?_ ?_ pushed (Or.inl rfl)
      (fun pending => absurd pending notPending)
    · intro other differ
      rw [System.setWork, System.task_modifyTask, if_neg differ,
        createTaskwaitFragment, System.task_modifyTask, if_neg differ,
        System.task_createObject, if_neg differ]
    · rw [changed]
    · rw [changed]
    · rw [changed]
      exact balance_createTaskwait balance positive working going found task

theorem createTopLevelSink (balanced : Balanced system)
    (accounting : TaskAccounting (system.task task))
    (fits : WorkFits (system.task task).status (system.task task).work)
    {low : Nat} {rest : List Work}
    (working : (system.task task).work = .createTopLevelSink low :: rest)
    (releasing : (system.task task).status = .releasing) :
    Balanced (Nanos6.createTopLevelSink system task low rest) := by
  have idle : (system.task task).isCreating = false :=
    Task.isCreating_of_fits fits (by rw [releasing]; rfl)
  have restIdle : rest.filter Work.creates = [] := by
    have none := Task.filter_creates idle
    rw [working] at none
    simpa [List.filter_cons, Work.creates] using none
  unfold Nanos6.createTopLevelSink
  split
  · exact balanced.setWork (by simp [working, Work.creates])
  · rename_i entry found
    split
    · exact balanced.setWork (by simp [working, Work.creates])
    · have new :=
        isNewObject_taskwaitFragment system.parent task
          (by simp : DataAccessObjectType.topLevelSink ≠ .access)
          entry.value.accessType
      have created : Balanced
          (system.createObject task task .taskwaitFragments entry.interval
            (.of system.parent (createAccess task .topLevelSink
              entry.value.accessType false none))
            (taskwaitFragment task .topLevelSink entry.value.accessType)) :=
        balanced.createObject accounting entry.interval new
          (by simp [taskwaitFragment, createAccess])
          (by simp) idle
          (by rw [releasing]; rfl) (by simp [releasing])
      have work : ((createTaskwaitFragment system task .topLevelSink
          entry).task task).work = (system.task task).work := by
        rw [task_createTaskwaitFragment system task (by simp) entry]
      refine Balanced.setWork ?_ ?_
      · unfold createTaskwaitFragment
        refine created.modifyTask rfl rfl rfl ?_ rfl rfl rfl rfl
        intro other creates
        have before : .createTaskwait other ∈ (system.task task).work := by
          dsimp only at creates
          rw [System.task_createObject, if_pos rfl] at creates
          exact creates
        rw [Task.isCreating_iff.mpr ⟨other, before⟩] at idle
        cases idle
      · rw [work]
        simp [working, Work.creates, restIdle]

/-! ## Entering a taskwait -/

theorem not_pending (balanced : Balanced system)
    (notParked : (system.task task).status.isParked = false) :
    task ∉ system.pendingDisposals := by
  intro isPending
  have parked := (balanced.pending task isPending).1
  rw [notParked] at parked
  cases parked

/-- A step of a task by which no call of `disposeOrUnblockTask` comes or
goes. -/
theorem changes (balanced : Balanced system) (task : TaskId)
    (notPending : task ∉ system.pendingDisposals)
    (others : ∀ other, other ≠ task → next.task other = system.task other)
    (children : (next.task task).children = (system.task task).children)
    (disposed : (next.task task).status = .disposed ↔
      (system.task task).status = .disposed)
    (balance : TaskBalance (system.undisposed task) (next.task task))
    (pending : next.pendingDisposals = system.pendingDisposals) :
    Balanced next := by
  refine balanced.update task others children disposed balance
    (pending.trans (List.append_nil _).symm) (Or.inl rfl) ?_
  exact fun isPending => absurd isPending notPending

theorem balance_enterTaskwait {undisposed : Nat} {current : Task}
    (balance : TaskBalance undisposed current)
    (accounting : TaskAccounting current) {rest : List Work}
    (entering : current.status = .enteringTaskwait ∨
      current.status = .finishing)
    (work : current.work.filter Work.creates = [])
    (restIdle : rest.filter Work.creates = [])
    (asserted : current.subaccessBottomMap.pieces.isEmpty = true ∨
      (current.objects .taskwaitFragments).pieces.isEmpty = true) :
    TaskBalance undisposed (current.enterTaskwait rest) := by
  have notCreating : current.isCreating = false := by
    by_contra creating
    obtain ⟨low, member⟩ :=
      Task.isCreating_iff.mp (Bool.eq_true_of_not_eq_false creating)
    have kept : .createTaskwait low ∈ current.work.filter Work.creates :=
      List.mem_filter.mpr ⟨member, rfl⟩
    rw [work] at kept
    cases kept
  have ledger := balance.ledger
  have blocks := balance.blocks
  have holdsBody : current.status.holdsBody = true := by
    rcases entering with status | status <;> rw [status] <;> rfl
  have waits : current.status.waits = false := by
    rcases entering with status | status <;> rw [status] <;> rfl
  rw [holdsBody, waits] at ledger
  simp only [Task.awaitsFragments, notCreating, Bool.false_or] at blocks
  have notRest : ∀ low, .createTaskwait low ∉ rest := by
    intro low inRest
    have kept : .createTaskwait low ∈ rest.filter Work.creates :=
      List.mem_filter.mpr ⟨inRest, rfl⟩
    rw [restIdle] at kept
    cases kept
  have statusAfter :
      (current.enterTaskwait rest).status.holdsBody = true ∧
        (current.enterTaskwait rest).status.waits = true ∧
        (current.enterTaskwait rest).status ≠ .leavingTaskwait ∧
        (current.enterTaskwait rest).status ≠ .disposed := by
    rcases entering with status | status <;>
      simp [Task.enterTaskwait, status, TaskStatus.holdsBody, TaskStatus.waits]
  have restAny : rest.any Work.creates = false := by
    rw [Bool.eq_false_iff]
    intro some
    obtain ⟨loop, member, creates⟩ := List.any_eq_true.mp some
    have kept := List.mem_filter.mpr ⟨member, creates⟩
    rw [restIdle] at kept
    cases kept
  have ledgerAfter :
      (current.enterTaskwait rest).counters.ledger =
        1 + undisposed - (if current.hasAccesses then 1 else 0) := by
    simp only [Bool.false_and, if_true, if_false, Bool.false_eq_true]
      at ledger
    unfold Counters.ledger at ledger ⊢
    cases accesses : current.hasAccesses <;>
      cases nothingBelow : current.subaccessBottomMap.pieces.isEmpty <;>
      simp [Task.enterTaskwait, accesses, nothingBelow,
        Counters.increaseRemovalBlockingCount,
        Counters.decreaseRemovalBlockingCount] at ledger ⊢ <;>
      omega
  have liveAfter :
      (current.enterTaskwait rest).counters.liveTaskwaitFragmentCount =
        current.counters.liveTaskwaitFragmentCount := by
    cases accesses : current.hasAccesses <;>
      cases nothingBelow : current.subaccessBottomMap.pieces.isEmpty <;>
      simp [Task.enterTaskwait, accesses, nothingBelow,
        Counters.increaseRemovalBlockingCount,
        Counters.decreaseRemovalBlockingCount]
  cases nothingBelow : current.subaccessBottomMap.pieces.isEmpty with
  | true =>
      have workAfter : (current.enterTaskwait rest).work =
          .finalizeFragments 0 :: rest := by
        simp [Task.enterTaskwait, nothingBelow]
      have idle : ∀ low,
          .createTaskwait low ∉ (current.enterTaskwait rest).work := by
        intro low member
        rw [workAfter] at member
        simp only [List.mem_cons, reduceCtorEq, false_or] at member
        exact notRest low member
      refine
        { ledger := ?_
          live := ?_
          blocks := ?_
          once := ?_
          created := fun low creates => absurd creates (idle low)
          ahead := fun low creates => absurd creates (idle low)
          below := fun creates => absurd creates (idle 0)
          leaving := fun leaves => absurd leaves statusAfter.2.2.1
          disposed := fun gone => absurd gone statusAfter.2.2.2 }
      · rw [ledgerAfter, statusAfter.1, statusAfter.2.1]
        simp [Task.hasAccesses, Task.enterTaskwait]
      · rw [liveAfter]
        exact balance.live
      · have after : (current.enterTaskwait rest).awaitsFragments =
            (current.counters.liveTaskwaitFragmentCount != 0) := by
          simp [Task.awaitsFragments, Task.isCreating, workAfter,
            Work.creates, restAny, liveAfter]
        rw [after]
        cases accesses : current.hasAccesses <;>
          simpa [Task.enterTaskwait, accesses, nothingBelow,
            Counters.decreaseRemovalBlockingCount] using blocks
      · rw [workAfter]
        simp [Work.creates, restIdle]
  | false =>
      have workAfter : (current.enterTaskwait rest).work =
          .createTaskwait 0 :: .finalizeFragments 0 :: rest := by
        simp [Task.enterTaskwait, nothingBelow]
      have only : ∀ low,
          .createTaskwait low ∈ (current.enterTaskwait rest).work →
            low = 0 := by
        intro low member
        rw [workAfter] at member
        simp only [List.mem_cons, Work.createTaskwait.injEq, reduceCtorEq,
          false_or] at member
        exact member.resolve_right (notRest low)
      have noFragments : (current.objects .taskwaitFragments).pieces = [] := by
        rw [nothingBelow] at asserted
        simpa using asserted
      -- So no taskwait fragment is live.
      have noneLive : current.counters.liveTaskwaitFragmentCount = 0 := by
        rw [balance.live]
        have none : ∀ map, (current.objects map).countPieces
            DataAccess.isLiveTaskwait = 0 := by
          intro map
          refine List.countP_eq_zero.mpr fun piece member live => ?_
          simp only [DataAccess.isLiveTaskwait, Bool.and_eq_true,
            beq_iff_eq] at live
          have typed := accounting.typed map piece member
          rw [live.2] at typed
          subst typed
          rw [show DataAccessObjectType.taskwait.map = .taskwaitFragments
            from rfl, noFragments] at member
          cases member
        simp [countObjects, none]
      refine
        { ledger := ?_
          live := ?_
          blocks := ?_
          once := ?_
          created := ?_
          ahead := ?_
          below := ?_
          leaving := fun leaves => absurd leaves statusAfter.2.2.1
          disposed := fun gone => absurd gone statusAfter.2.2.2 }
      · rw [ledgerAfter, statusAfter.1, statusAfter.2.1]
        simp [Task.hasAccesses, Task.enterTaskwait]
      · rw [liveAfter]
        exact balance.live
      · have after : (current.enterTaskwait rest).awaitsFragments = true := by
          simp [Task.awaitsFragments, Task.isCreating, workAfter,
            Work.creates]
        rw [noneLive] at blocks
        rw [after]
        cases accesses : current.hasAccesses <;>
          simpa [Task.enterTaskwait, accesses, nothingBelow,
            Counters.increaseRemovalBlockingCount,
            Counters.decreaseRemovalBlockingCount] using blocks
      · rw [workAfter, List.filter_cons_of_pos rfl,
          List.filter_cons_of_neg (by simp [Work.creates]), restIdle]
        exact Nat.le_refl 1
      · intro low _ piece member
        have here : piece ∈ (current.objects .taskwaitFragments).pieces :=
          member
        rw [noFragments] at here
        cases here
      · intro low creates entry _ _
        rw [only low creates]
        exact Nat.zero_le _
      · intro _ empty
        have none : current.subaccessBottomMap.pieces = [] := empty
        simp [none] at nothingBelow

theorem handleEnterTaskwait (balanced : Balanced system)
    (accounting : TaskAccounting (system.task task)) (phased : Phased system)
    {rest : List Work}
    (working : (system.task task).work = .enterTaskwait :: rest)
    (clean : (Nanos6.handleEnterTaskwait system task rest).assertionFailed =
      false) :
    Balanced (Nanos6.handleEnterTaskwait system task rest) := by
  have found := phased.atEnterTaskwait working
  have entering : (system.task task).status = .enteringTaskwait ∨
      (system.task task).status = .finishing :=
    found.imp And.left And.left
  have restIdle : rest.filter Work.creates = [] := by
    rcases found with ⟨-, rfl⟩ | ⟨-, rfl⟩ <;> rfl
  have asserted : (system.assertionFailed ||
      (!(system.task task).subaccessBottomMap.pieces.isEmpty &&
        !((system.task task).objects .taskwaitFragments).pieces.isEmpty)) =
      false :=
    clean
  simp only [Bool.or_eq_false_iff, Bool.and_eq_false_iff,
    Bool.not_eq_false'] at asserted
  have changed : (Nanos6.handleEnterTaskwait system task rest).task task =
      (system.task task).enterTaskwait rest := by
    unfold Nanos6.handleEnterTaskwait
    dsimp only
    rw [System.task_modifyTask, if_pos rfl]
  refine balanced.changes task ?_ ?_ ?_ ?_ ?_ rfl
  · refine balanced.not_pending ?_
    rcases entering with status | status <;> rw [status] <;> rfl
  · intro other differ
    unfold Nanos6.handleEnterTaskwait
    dsimp only
    rw [System.task_modifyTask, if_neg differ]
  · rw [changed]
    rfl
  · rw [changed]
    rcases entering with status | status <;>
      simp [Task.enterTaskwait, status]
  · rw [changed]
    refine balance_enterTaskwait (balanced.tasks task) accounting entering ?_
      restIdle asserted.2
    rw [working]
    simpa [Work.creates] using restIdle

/-! ## Leaving a taskwait -/

/-- A sound task that is held, and whose countdown shows no more than its body,
has nothing left to wait for. -/
theorem balance_over {undisposed : Nat} {current : Task}
    (balance : TaskBalance undisposed current) (sound : current.IsSound)
    (held : current.status.isHeld = true)
    (low : current.counters.countdownToBeWokenUp ≤
      if current.status.holdsBody then 1 else 0) :
    undisposed = 0 ∧ current.awaitsFragments = false := by
  have countdown := balance.countdown
  have blocked := sound.blocked held
  have waits : current.status.waits = true := by
    revert held
    cases current.status <;> simp [TaskStatus.isHeld, TaskStatus.waits]
  rw [waits, Bool.true_and] at countdown
  cases accesses : current.hasAccesses with
  | false =>
      simp only [accesses, Bool.false_eq_true, if_false] at countdown
      cases awaits : current.awaitsFragments with
      | false =>
          simp only [awaits, Bool.false_eq_true, if_false] at countdown
          split at countdown <;> split at countdown <;>
            refine ⟨?_, rfl⟩ <;> simp_all <;> omega
      | true =>
          simp only [awaits, if_true] at countdown
          split at countdown <;> split at countdown <;> simp_all <;> omega
  | true =>
      have positive := blocked accesses
      simp only [accesses, if_true,
        if_neg (by omega : ¬ current.counters.removalBlockers = 0)]
        at countdown
      cases awaits : current.awaitsFragments with
      | false =>
          simp only [awaits, Bool.false_eq_true, if_false] at countdown
          split at countdown <;>
            refine ⟨?_, rfl⟩ <;> simp_all <;> omega
      | true =>
          simp only [awaits, if_true] at countdown
          split at countdown <;> simp_all <;> omega

/-- The taskwait fragments of a task that waits for nothing are all dead. -/
theorem noneLive_of_over {current : Task}
    (isOver : current.awaitsFragments = false) :
    current.isCreating = false ∧
      current.counters.liveTaskwaitFragmentCount = 0 := by
  simpa [Task.awaitsFragments] using isOver

theorem markAsBlocked (balanced : Balanced system) (phased : Phased system)
    (sound : (system.task task).IsSound) {rest : List Work}
    (working : (system.task task).work = .markAsBlocked :: rest) :
    Balanced (Nanos6.markAsBlocked system task rest) := by
  obtain ⟨status, rfl⟩ := phased.atMarkAsBlocked working
  have balance := balanced.tasks task
  have countdown := balance.countdown
  have idle : (system.task task).isCreating = false := by
    simp [Task.isCreating, working, Work.creates]
  obtain ⟨after, afterIs⟩ : ∃ after, after =
      (Nanos6.markAsBlocked system task []).task task :=
    ⟨_, rfl⟩
  have changed := afterIs
  unfold Nanos6.markAsBlocked at changed
  rw [System.task_modifyTask, if_pos rfl] at changed
  simp only [Counters.decreaseRemovalBlockingCount, beq_iff_eq] at changed
  refine balanced.changes task (balanced.not_pending ?_) ?_ ?_ ?_ ?_ rfl
  · rw [status]
    rfl
  · intro other differ
    unfold Nanos6.markAsBlocked
    rw [System.task_modifyTask, if_neg differ]
  · rw [← afterIs, changed]
  · rw [← afterIs, changed, status]
    simp only [reduceCtorEq, iff_false]
    split <;> simp
  · rw [← afterIs]
    have waits : after.status.waits = true := by
      rw [changed]
      dsimp only
      split <;> rfl
    have body : after.status.holdsBody = false := by
      rw [changed]
      dsimp only
      split <;> rfl
    have noLoop : after.isCreating = false := by
      rw [changed]
      simp only [Task.isCreating]
      split <;> rfl
    have notCreating : ∀ low, .createTaskwait low ∉ after.work := by
      intro low creates
      rw [Task.isCreating_iff.mpr ⟨low, creates⟩] at noLoop
      cases noLoop
    refine
      { ledger := ?_
        live := ?_
        blocks := ?_
        once := ?_
        created := fun low creates => absurd creates (notCreating low)
        ahead := fun low creates => absurd creates (notCreating low)
        below := fun creates => absurd creates (notCreating 0)
        leaving := ?_
        disposed := ?_ }
    · have ledger := balance.ledger
      have accesses : after.hasAccesses = (system.task task).hasAccesses := by
        rw [changed]
        rfl
      rw [status] at ledger
      rw [waits, body, accesses]
      rw [changed]
      simp only [Counters.ledger, TaskStatus.holdsBody, TaskStatus.waits,
        Bool.false_eq_true, if_true, if_false] at ledger ⊢
      cases hasAccesses : (system.task task).hasAccesses <;>
        simp only [hasAccesses, Bool.and_true, Bool.and_false,
          Bool.false_eq_true, if_false, if_true] at ledger ⊢ <;>
        omega
    · rw [changed]
      exact balance.live
    · have awaits : after.awaitsFragments =
          (system.task task).awaitsFragments := by
        simp only [Task.awaitsFragments, noLoop, idle]
        rw [changed]
      rw [awaits, changed]
      exact balance.blocks
    · rw [Task.filter_creates noLoop]
      exact Nat.zero_le 1
    · intro leaves
      have done : (system.task task).counters.countdownToBeWokenUp - 1 = 0 := by
        by_contra waiting
        rw [changed, if_neg waiting] at leaves
        cases leaves
      obtain ⟨none, isOver⟩ := balance_over balance sound (by rw [status]; rfl)
        (by
          rw [status]
          simp only [TaskStatus.holdsBody, if_true]
          omega)
      refine ⟨none, ?_, ?_⟩
      · rw [changed]
        exact (noneLive_of_over isOver).2
      · rw [changed]
        dsimp only
        omega
    · intro isDisposed
      rw [isDisposed] at waits
      cases waits

/-- The task goes on after a taskwait or its wait clause. -/
theorem balance_exited {undisposed : Nat} {current other : Task}
    (balance : TaskBalance undisposed current)
    (waits : current.status.waits = true)
    (body : current.status.holdsBody = false)
    (isOver : current.awaitsFragments = false)
    (status : other.status = .running ∨ other.status = .finished)
    (counters : other.counters =
      { current.counters with
        countdownToBeWokenUp :=
          current.counters.countdownToBeWokenUp + 1 +
            if current.hasAccesses then 1 else 0 })
    (live : countObjects other.objects DataAccess.isLiveTaskwait ≤
      countObjects current.objects DataAccess.isLiveTaskwait)
    (work : other.work = []) : TaskBalance undisposed other := by
  obtain ⟨-, none⟩ := noneLive_of_over isOver
  have idle : ∀ low, .createTaskwait low ∉ other.work := by
    rw [work]
    exact fun _ => List.not_mem_nil
  have waitsAfter : other.status.waits = false := by
    rcases status with status | status <;> rw [status] <;> rfl
  have bodyAfter : other.status.holdsBody = true := by
    rcases status with status | status <;> rw [status] <;> rfl
  refine
    { ledger := ?_
      live := ?_
      blocks := ?_
      once := ?_
      created := fun low creates => absurd creates (idle low)
      ahead := fun low creates => absurd creates (idle low)
      below := fun creates => absurd creates (idle 0)
      leaving := ?_
      disposed := ?_ }
  · have ledger := balance.ledger
    rw [waits, body] at ledger
    rw [waitsAfter, bodyAfter, counters]
    simp only [Counters.ledger, Bool.true_and, Bool.false_and,
      Bool.false_eq_true, if_false, if_true] at ledger ⊢
    cases hasAccesses : current.hasAccesses <;>
      simp only [hasAccesses, Bool.false_eq_true, if_false, if_true]
        at ledger ⊢ <;>
      omega
  · have before := balance.live
    rw [none] at before
    rw [counters]
    dsimp only
    omega
  · have after : other.awaitsFragments = false := by
      simp [Task.awaitsFragments, Task.isCreating, work, counters, none]
    have blocks := balance.blocks
    rw [isOver] at blocks
    rw [after, counters]
    exact blocks
  · rw [work]
    exact Nat.zero_le 1
  · intro leaves
    rcases status with status | status <;> rw [status] at leaves <;>
      cases leaves
  · intro isDisposed
    rcases status with status | status <;> rw [status] at isDisposed <;>
      cases isDisposed

/-- What `handleExitTaskwait` does to the counters and the objects. -/
theorem task_handleExitTaskwait (system : System) (task : TaskId) :
    let before := system.task task
    let after := (Nanos6.handleExitTaskwait system task).task task
    after.control = before.control ∧
      after.counters =
        { before.counters with
          countdownToBeWokenUp :=
            before.counters.countdownToBeWokenUp +
              if before.hasAccesses then 1 else 0 } ∧
      countObjects after.objects DataAccess.isLiveTaskwait ≤
        countObjects before.objects DataAccess.isLiveTaskwait := by
  intro before after
  have control : after.control = before.control :=
    congrFun (control_handleExitTaskwait system task) task
  refine ⟨control, ?_⟩
  cases accesses : before.hasAccesses with
  | false =>
      have same : after =
          { before with subaccessBottomMap := .empty } := by
        change (Nanos6.handleExitTaskwait system task).task task = _
        unfold Nanos6.handleExitTaskwait
        dsimp only
        rw [if_neg (by rw [accesses]; simp), System.task_modifyTask,
          if_pos rfl]
      rw [same]
      exact ⟨by simp, Nat.le_refl _⟩
  | true =>
      obtain ⟨exited, ofAccesses, ofFragments, exits⟩ :=
        handleExitTaskwait_of_hasAccesses system task accesses
      have same : after =
          { before with
            counters := before.counters.increaseRemovalBlockingCount
            objects := exited before
            subaccessBottomMap := .empty } := by
        change (Nanos6.handleExitTaskwait system task).task task = _
        rw [exits, System.task_modifyTask]
        exact if_pos rfl
      rw [same]
      refine ⟨by simp [Counters.increaseRemovalBlockingCount], ?_⟩
      · have kept :
            (exited before .accesses).countPieces
                DataAccess.isLiveTaskwait =
              (before.objects .accesses).countPieces
                DataAccess.isLiveTaskwait := by
          rw [ofAccesses]
          exact IntervalMap.countPieces_mapValues _ _ fun _ => rfl
        simp only [countObjects, kept, ofFragments before .accessFragments
          (by simp), ofFragments before .taskwaitFragments (by simp),
          IntervalMap.countPieces_empty]
        omega

theorem task_handleExitTaskwait_of_ne (system : System) {other : TaskId}
    (differ : other ≠ task) :
    (Nanos6.handleExitTaskwait system task).task other =
      system.task other := by
  unfold Nanos6.handleExitTaskwait
  dsimp only
  split <;> rw [System.task_modifyTask, if_neg differ]

theorem pendingDisposals_handleExitTaskwait (system : System)
    (task : TaskId) :
    (Nanos6.handleExitTaskwait system task).pendingDisposals =
      system.pendingDisposals := by
  unfold Nanos6.handleExitTaskwait
  dsimp only
  split <;> rfl

theorem exitTaskwait (balanced : Balanced system) (phased : Phased system)
    {rest : List Work}
    (working : (system.task task).work = .exitTaskwait :: rest) :
    Balanced (Nanos6.exitTaskwait system task rest) := by
  obtain ⟨status, rfl⟩ := phased.atExitTaskwait working
  have balance := balanced.tasks task
  obtain ⟨-, none, -⟩ := balance.leaving status
  have isOver : (system.task task).awaitsFragments = false := by
    simp [Task.awaitsFragments, Task.isCreating, working, Work.creates, none]
  obtain ⟨unblocked, unblockedIs⟩ : ∃ unblocked, unblocked =
      system.modifyTask task fun current =>
        { current with
          counters := current.counters.increaseRemovalBlockingCount
          status := .running
          work := [] } :=
    ⟨_, rfl⟩
  have changed : unblocked.task task =
      { system.task task with
        counters := (system.task task).counters.increaseRemovalBlockingCount
        status := .running
        work := [] } := by
    rw [unblockedIs, System.task_modifyTask, if_pos rfl]
  obtain ⟨control, counters, live⟩ :=
    task_handleExitTaskwait unblocked task
  rw [changed] at control counters live
  have result : Nanos6.exitTaskwait system task [] =
      Nanos6.handleExitTaskwait unblocked task := by
    rw [unblockedIs]
    rfl
  rw [result]
  refine balanced.changes task (balanced.not_pending ?_) ?_ ?_ ?_ ?_ ?_
  · rw [status]
    rfl
  · intro other differ
    rw [task_handleExitTaskwait_of_ne unblocked differ, unblockedIs,
      System.task_modifyTask, if_neg differ]
  · exact congrArg Control.children control
  · have running : ((Nanos6.handleExitTaskwait unblocked task).task
        task).status = .running :=
      congrArg Control.status control
    rw [running, status]
    simp
  · refine balance_exited balance (by rw [status]; rfl) (by rw [status]; rfl)
      isOver (Or.inl (congrArg Control.status control)) ?_ live
      (congrArg Control.work control)
    rw [counters]
    rfl
  · rw [pendingDisposals_handleExitTaskwait, unblockedIs]
    rfl

theorem completeDelayedRelease (balanced : Balanced system)
    (status : (system.task task).status = .waitClausePending)
    (work : (system.task task).work = [])
    (isOver : (system.task task).awaitsFragments = false)
    (notPending : task ∉ system.pendingDisposals) :
    Balanced (Nanos6.completeDelayedRelease system task) := by
  have balance := balanced.tasks task
  obtain ⟨start, startIs⟩ : ∃ start, start =
      system.modifyTask task fun current =>
        { current with mustDelayRelease := false } :=
    ⟨_, rfl⟩
  have changed : start.task task =
      { system.task task with mustDelayRelease := false } := by
    rw [startIs, System.task_modifyTask, if_pos rfl]
  obtain ⟨control, counters, live⟩ := task_handleExitTaskwait start task
  rw [changed] at control counters live
  have result : (Nanos6.completeDelayedRelease system task).task task =
      { (Nanos6.handleExitTaskwait start task).task task with
        counters :=
          ((Nanos6.handleExitTaskwait start task).task
            task).counters.increaseRemovalBlockingCount
        status := .finished } := by
    unfold Nanos6.completeDelayedRelease
    dsimp only
    rw [System.task_modifyTask, if_pos rfl, startIs]
  refine balanced.changes task notPending ?_ ?_ ?_ ?_ ?_
  · intro other differ
    unfold Nanos6.completeDelayedRelease
    dsimp only
    rw [System.task_modifyTask, if_neg differ,
      task_handleExitTaskwait_of_ne _ differ, System.task_modifyTask,
      if_neg differ]
  · rw [result]
    exact congrArg Control.children control
  · rw [result, status]
    simp
  · rw [result]
    refine balance_exited balance (by rw [status]; rfl) (by rw [status]; rfl)
      isOver (Or.inr rfl) ?_ live ?_
    · dsimp only
      rw [counters]
      simp only [Counters.increaseRemovalBlockingCount, Counters.mk.injEq,
        and_true, true_and]
      have sameAccesses : Task.hasAccesses
          { system.task task with mustDelayRelease := false } =
          (system.task task).hasAccesses :=
        rfl
      rw [sameAccesses]
      omega
    · rw [← work]
      exact congrArg Control.work control
  · unfold Nanos6.completeDelayedRelease
    change (Nanos6.handleExitTaskwait _ task).pendingDisposals = _
    rw [pendingDisposals_handleExitTaskwait]
    rfl

theorem completeWaitClause (balanced : Balanced system)
    (phased : Phased system) (sound : (system.task task).IsSound)
    {rest : List Work}
    (working : (system.task task).work = .completeWaitClause :: rest) :
    Balanced (Nanos6.completeWaitClause system task rest) := by
  obtain ⟨status, rfl⟩ := phased.atCompleteWaitClause working
  have balance := balanced.tasks task
  have notPending : task ∉ system.pendingDisposals :=
    balanced.not_pending (by rw [status]; rfl)
  obtain ⟨decreased, decreasedIs⟩ : ∃ decreased, decreased =
      system.modifyTask task fun current =>
        { current with
          counters :=
            (system.task task).counters.decreaseRemovalBlockingCount.1
          status := .waitClausePending
          work := [] } :=
    ⟨_, rfl⟩
  have changed : decreased.task task =
      { system.task task with
        counters := (system.task task).counters.decreaseRemovalBlockingCount.1
        status := .waitClausePending
        work := [] } := by
    rw [decreasedIs, System.task_modifyTask, if_pos rfl]
  have idle : (system.task task).isCreating = false := by
    simp [Task.isCreating, working, Work.creates]
  have awaits : (decreased.task task).awaitsFragments =
      (system.task task).awaitsFragments := by
    simp only [Task.awaitsFragments, idle]
    rw [changed]
    rfl
  have balancedDecreased : Balanced decreased := by
    refine balanced.changes task notPending ?_ ?_ ?_ ?_ ?_
    · intro other differ
      rw [decreasedIs, System.task_modifyTask, if_neg differ]
    · rw [changed]
    · rw [changed, status]
      simp
    · refine
        { ledger := ?_
          live := ?_
          blocks := ?_
          once := ?_
          created := ?_
          ahead := ?_
          below := ?_
          leaving := ?_
          disposed := ?_ }
      · have ledger := balance.ledger
        rw [status] at ledger
        have accesses : (decreased.task task).hasAccesses =
            (system.task task).hasAccesses := by
          rw [changed]
          rfl
        rw [accesses, changed]
        simp only [Counters.ledger, Counters.decreaseRemovalBlockingCount,
          TaskStatus.holdsBody, TaskStatus.waits, Bool.true_and,
          Bool.false_eq_true, if_true, if_false] at ledger ⊢
        cases hasAccesses : (system.task task).hasAccesses <;>
          simp only [hasAccesses, Bool.false_eq_true, if_false, if_true]
            at ledger ⊢ <;>
          omega
      · rw [changed]
        exact balance.live
      · rw [awaits, changed]
        exact balance.blocks
      all_goals
        rw [changed]
        simp
    · rw [decreasedIs]
      rfl
  have result : Nanos6.completeWaitClause system task [] =
      if (system.task task).counters.countdownToBeWokenUp - 1 == 0 then
        Nanos6.completeDelayedRelease decreased task
      else decreased := by
    rw [decreasedIs]
    rfl
  rw [result]
  split
  · rename_i done
    rw [beq_iff_eq] at done
    obtain ⟨-, isOver⟩ := balance_over balance sound (by rw [status]; rfl)
      (by
        rw [status]
        simp only [TaskStatus.holdsBody, if_true]
        omega)
    refine balancedDecreased.completeDelayedRelease ?_ ?_ ?_ ?_
    · rw [changed]
    · rw [changed]
    · rw [awaits]
      exact isOver
    · rw [decreasedIs]
      exact notPending
  · exact balancedDecreased

/-! ## The end of a task -/

theorem markAsReleased (balanced : Balanced system) (phased : Phased system)
    {rest : List Work}
    (working : (system.task task).work = .markAsReleased :: rest) :
    Balanced (Nanos6.markAsReleased system task rest) := by
  obtain ⟨status, rfl⟩ := phased.atMarkAsReleased working
  have balance := balanced.tasks task
  have changed : (Nanos6.markAsReleased system task []).task task =
      { system.task task with
        counters := (system.task task).counters.decreaseRemovalBlockingCount.1
        status := .released
        work := [] } := by
    unfold Nanos6.markAsReleased
    dsimp only
    rw [System.task_modifyTask, if_pos rfl]
  have idle : (system.task task).isCreating = false := by
    simp [Task.isCreating, working, Work.creates]
  have pushed : (Nanos6.markAsReleased system task []).pendingDisposals =
      system.pendingDisposals ++
        if (system.task task).counters.countdownToBeWokenUp - 1 == 0 then
          [task]
        else [] :=
    rfl
  refine balanced.update task ?_ ?_ ?_ ?_ pushed ?_ ?_
  · intro other differ
    unfold Nanos6.markAsReleased
    dsimp only
    rw [System.task_modifyTask, if_neg differ]
  · rw [changed]
  · rw [changed, status]
    simp
  · refine
      { ledger := ?_
        live := ?_
        blocks := ?_
        once := ?_
        created := ?_
        ahead := ?_
        below := ?_
        leaving := ?_
        disposed := ?_ }
    · have ledger := balance.ledger
      rw [status] at ledger
      rw [changed]
      simp only [Counters.ledger, Counters.decreaseRemovalBlockingCount,
        TaskStatus.holdsBody, TaskStatus.waits, Bool.false_and,
        Bool.false_eq_true, if_true, if_false] at ledger ⊢
      omega
    · rw [changed]
      exact balance.live
    · have awaits :
          ((Nanos6.markAsReleased system task []).task
            task).awaitsFragments =
          (system.task task).awaitsFragments := by
        simp only [Task.awaitsFragments, idle]
        rw [changed]
        rfl
      rw [awaits, changed]
      exact balance.blocks
    all_goals
      rw [changed]
      simp
  · split
    · rename_i done
      rw [beq_iff_eq] at done
      refine Or.inr ⟨rfl, by omega, ?_, ?_⟩
      · rw [changed]
        simp only [Counters.decreaseRemovalBlockingCount]
        omega
      · rw [changed]
        rfl
    · exact Or.inl rfl
  · intro pending
    exact absurd pending (balanced.not_pending (by rw [status]; rfl))

/-- A pending call of `disposeOrUnblockTask` is made. -/
theorem called (balanced : Balanced system) {index : Nat}
    (found : system.pendingDisposals[index]? = some task) :
    Balanced
        { system with
          pendingDisposals := system.pendingDisposals.eraseIdx index } ∧
      task ∉ system.pendingDisposals.eraseIdx index := by
  constructor
  · refine ⟨balanced.tasks, ?_, ?_⟩
    · exact balanced.nodup.sublist (List.eraseIdx_sublist _ _)
    · intro other member
      exact balanced.pending other (List.mem_of_mem_eraseIdx member)
  · intro again
    obtain ⟨other, differ, foundAgain⟩ :=
      List.mem_eraseIdx_iff_getElem?.mp again
    obtain ⟨bound, -⟩ := List.getElem?_eq_some_iff.mp foundAgain
    exact differ
      ((List.getElem?_inj bound balanced.nodup).mp (foundAgain.trans found.symm))

theorem undisposed_disposeTask (lineage : Lineage system) {parent : TaskId}
    (parentIs : (system.task task).parent = some parent)
    (released : (system.task task).status ≠ .disposed)
    (children : (next.task parent).children = (system.task parent).children)
    (gone : (next.task task).status = .disposed)
    (others : ∀ other, other ≠ task →
      (next.task other).status = (system.task other).status) :
    system.undisposed parent = next.undisposed parent + 1 := by
  have member : task ∈ (system.task parent).children :=
    (lineage.mem_children task parent).mpr parentIs
  have nodup : (system.task parent).children.Nodup := lineage.nodup parent
  obtain ⟨before, after, split⟩ := List.append_of_mem member
  rw [split] at nodup
  have absent : ∀ other, other ∈ before ∨ other ∈ after → other ≠ task := by
    intro other inside same
    subst same
    rcases inside with inBefore | inAfter
    · exact (List.nodup_append.mp nodup).2.2 other inBefore other (by simp) rfl
    · exact (List.nodup_cons.mp (List.nodup_append.mp nodup).2.1).1 inAfter
  have same : ∀ part : List TaskId,
      (∀ other ∈ part, other ≠ task) →
      (part.countP fun child => (next.task child).status != .disposed) =
        part.countP fun child => (system.task child).status != .disposed := by
    intro part differ
    refine List.countP_congr fun child inPart => ?_
    rw [others child (differ child inPart)]
  unfold System.undisposed
  rw [children, split, List.countP_append, List.countP_append,
    List.countP_cons, List.countP_cons,
    same before fun other inside => absent other (Or.inl inside),
    same after fun other inside => absent other (Or.inr inside)]
  simp only [gone, bne_self_eq_false, Bool.false_eq_true, if_false,
    bne_iff_ne, ne_eq, released, not_false_eq_true, if_true]
  omega

/-- A released task whose countdown is over is deleted. -/
theorem balance_deleted {undisposed : Nat} {current other : Task}
    (balance : TaskBalance undisposed current)
    (released : current.status = .released)
    (low : current.counters.countdownToBeWokenUp ≤ 0)
    (status : other.status = .disposed) (work : other.work = [])
    (objects : ∀ map, (other.objects map).pieces = [])
    (counters : other.counters = current.counters) :
    TaskBalance undisposed other := by
  have countdown := balance.countdown
  rw [released] at countdown
  simp only [TaskStatus.holdsBody, TaskStatus.waits, Bool.false_and,
    Bool.false_eq_true, if_false] at countdown
  have isOver : current.awaitsFragments = false := by
    by_contra awaits
    rw [Bool.eq_true_of_not_eq_false awaits] at countdown
    split at countdown <;> simp only [if_true] at countdown <;> omega
  obtain ⟨-, none⟩ := noneLive_of_over isOver
  have idle : ∀ low, .createTaskwait low ∉ other.work := by
    rw [work]
    exact fun _ => List.not_mem_nil
  refine
    { ledger := ?_
      live := ?_
      blocks := ?_
      once := ?_
      created := fun low creates => absurd creates (idle low)
      ahead := fun low creates => absurd creates (idle low)
      below := fun creates => absurd creates (idle 0)
      leaving := ?_
      disposed := ?_ }
  · have ledger := balance.ledger
    rw [released] at ledger
    rw [counters, status]
    simpa [TaskStatus.holdsBody, TaskStatus.waits] using ledger
  · rw [counters, none]
    simp [countObjects, IntervalMap.countPieces, objects]
  · have after : other.awaitsFragments = false := by
      simp [Task.awaitsFragments, Task.isCreating, work, counters, none]
    have blocks := balance.blocks
    rw [isOver] at blocks
    rw [after, counters]
    exact blocks
  · rw [work]
    exact Nat.zero_le 1
  · intro leaves
    rw [status] at leaves
    cases leaves
  · intro _
    rw [counters]
    exact low

/-- A task loses a child. -/
theorem balance_removeChild {undisposed : Nat} {current : Task}
    (balance : TaskBalance (undisposed + 1) current) :
    TaskBalance undisposed
      { current with
        counters := current.counters.decreaseRemovalBlockingCount.1 } := by
  refine
    { ledger := ?_
      live := balance.live
      blocks := balance.blocks
      once := balance.once
      created := balance.created
      ahead := balance.ahead
      below := balance.below
      leaving := ?_
      disposed := ?_ }
  · have ledger := balance.ledger
    have accesses : Task.hasAccesses
        { current with
          counters := current.counters.decreaseRemovalBlockingCount.1 } =
        current.hasAccesses :=
      rfl
    rw [accesses]
    simp only [Counters.ledger,
      Counters.decreaseRemovalBlockingCount] at ledger ⊢
    push_cast at ledger
    omega
  · intro leaves
    obtain ⟨none, -⟩ := balance.leaving leaves
    cases none
  · intro isDisposed
    have low := balance.disposed isDisposed
    simp only [Counters.decreaseRemovalBlockingCount]
    omega

theorem disposeTask (balanced : Balanced system) (lineage : Lineage system)
    (released : (system.task task).status = .released)
    (work : (system.task task).work = [])
    (low : (system.task task).counters.countdownToBeWokenUp ≤ 0)
    (notPending : task ∉ system.pendingDisposals)
    (sound : ∀ parent, (system.task task).parent = some parent →
      ((Nanos6.disposeTask system task).task parent).IsSound) :
    Balanced (Nanos6.disposeTask system task) := by
  have control := control_disposeTask system task
  have children : ∀ other,
      ((Nanos6.disposeTask system task).task other).children =
        (system.task other).children := by
    intro other
    have same := congrArg Control.children (congrFun control other)
    by_cases here : other = task
    · subst here
      rw [Function.update_self] at same
      exact same
    · rw [Function.update_of_ne here] at same
      exact same
  have gone : ((Nanos6.disposeTask system task).task task).status =
      .disposed := by
    have same := congrArg Control.status (congrFun control task)
    rw [Function.update_self] at same
    exact same
  have statuses : ∀ other, other ≠ task →
      ((Nanos6.disposeTask system task).task other).status =
        (system.task other).status := by
    intro other differ
    have same := congrArg Control.status (congrFun control other)
    rw [Function.update_of_ne differ] at same
    exact same
  have sameUndisposed : ∀ other, (system.task task).parent ≠ some other →
      (Nanos6.disposeTask system task).undisposed other =
        system.undisposed other := by
    intro other notParent
    unfold System.undisposed
    rw [children]
    refine List.countP_congr fun child inside => ?_
    have differ : child ≠ task := by
      intro same
      subst same
      exact notParent ((lineage.mem_children child other).mp inside)
    rw [statuses child differ]
  have balanceTask : ∀ other : Task,
      other.status = .disposed → other.work = [] →
      (∀ map, (other.objects map).pieces = []) →
      other.counters = (system.task task).counters →
      TaskBalance (system.undisposed task) other :=
    fun other => balance_deleted (balanced.tasks task) released low
  have notOwn : (system.task task).parent ≠ some task :=
    lineage.parent_ne task
  cases parentIs : (system.task task).parent with
  | none =>
      obtain ⟨pending, taskIs, othersAre⟩ :
          (Nanos6.disposeTask system task).pendingDisposals =
              system.pendingDisposals ∧
            (Nanos6.disposeTask system task).task task =
              { system.task task with
                status := .disposed
                objects := fun _ => .empty
                subaccessBottomMap := .empty
                deletedAccesses := (system.task task).objects .accesses } ∧
            ∀ other, other ≠ task →
              (Nanos6.disposeTask system task).task other =
                system.task other := by
        unfold Nanos6.disposeTask
        simp only [parentIs]
        refine ⟨rfl, ?_, ?_⟩
        · rw [System.task_modifyTask, if_pos rfl, parentIs]
        · intro other differ
          rw [System.task_modifyTask, if_neg differ]
      refine ⟨?_, ?_, ?_⟩
      · intro other
        rw [sameUndisposed other (by rw [parentIs]; simp)]
        by_cases here : other = task
        · subst here
          refine balanceTask _ gone ?_ ?_ ?_ <;> rw [taskIs]
          · exact work
          · exact fun _ => rfl
        · rw [othersAre other here]
          exact balanced.tasks other
      · rw [pending]
        exact balanced.nodup
      · rw [pending]
        intro other member
        have differ : other ≠ task := fun same => notPending (same ▸ member)
        rw [othersAre other differ]
        exact balanced.pending other member
  | some parent =>
      have differ : parent ≠ task := by
        intro same
        rw [same] at parentIs
        exact notOwn parentIs
      have unlinked :=
        undisposed_disposeTask lineage parentIs (by rw [released]; simp)
          (children parent) gone statuses
      obtain ⟨pending, taskIs, parentTaskIs, othersAre⟩ :
          (Nanos6.disposeTask system task).pendingDisposals =
              system.pendingDisposals ++
                (if (system.task parent).counters.countdownToBeWokenUp - 1 ==
                  0 then [parent] else []) ∧
            (Nanos6.disposeTask system task).task task =
              { system.task task with
                status := .disposed
                objects := fun _ => .empty
                subaccessBottomMap := .empty
                deletedAccesses := (system.task task).objects .accesses } ∧
            (Nanos6.disposeTask system task).task parent =
              { system.task parent with
                counters :=
                  (system.task
                    parent).counters.decreaseRemovalBlockingCount.1 } ∧
            ∀ other, other ≠ task → other ≠ parent →
              (Nanos6.disposeTask system task).task other =
                system.task other := by
        unfold Nanos6.disposeTask
        simp only [parentIs]
        have sameParent : ∀ change,
            (system.modifyTask task change).task parent =
              system.task parent := by
          intro change
          rw [System.task_modifyTask, if_neg differ]
        refine ⟨?_, ?_, ?_, ?_⟩
        · rw [sameParent]
          rfl
        · rw [System.task_modifyTask, if_neg differ.symm,
            System.task_modifyTask, if_pos rfl, parentIs]
        · rw [System.task_modifyTask, if_pos rfl, sameParent]
        · intro other notTask notParent
          rw [System.task_modifyTask, if_neg notParent,
            System.task_modifyTask, if_neg notTask]
      have parentBalance :
          TaskBalance ((Nanos6.disposeTask system task).undisposed parent)
            ((Nanos6.disposeTask system task).task parent) := by
        have before := balanced.tasks parent
        rw [unlinked] at before
        rw [parentTaskIs]
        exact balance_removeChild before
      have counters :
          ((Nanos6.disposeTask system task).task
              parent).counters.countdownToBeWokenUp =
            (system.task parent).counters.countdownToBeWokenUp - 1 := by
        rw [parentTaskIs]
        rfl
      have reached :
          (system.task parent).counters.countdownToBeWokenUp - 1 = 0 →
          ((Nanos6.disposeTask system task).task
            parent).status.isParked = true := by
        intro done
        rcases parentBalance.parked (sound parent parentIs)
            (by rw [counters]; omega) with parked | leaves | isDisposed
        · exact parked
        · rw [statuses parent differ] at leaves
          have none := ((balanced.tasks parent).leaving leaves).1
          omega
        · rw [statuses parent differ] at isDisposed
          have isOver := (balanced.tasks parent).disposed isDisposed
          omega
      refine ⟨?_, ?_, ?_⟩
      · intro other
        by_cases isParent : other = parent
        · subst isParent
          exact parentBalance
        · rw [sameUndisposed other (by
            rw [parentIs]
            exact fun same => isParent (Option.some.inj same).symm)]
          by_cases here : other = task
          · subst here
            refine balanceTask _ gone ?_ ?_ ?_ <;> rw [taskIs]
            · exact work
            · exact fun _ => rfl
          · rw [othersAre other here isParent]
            exact balanced.tasks other
      · rw [pending]
        split
        · rename_i done
          rw [beq_iff_eq] at done
          refine List.Nodup.append balanced.nodup
            (List.nodup_singleton parent) ?_
          intro other member again
          rw [List.mem_singleton] at again
          subst again
          have isOver := (balanced.pending other member).2
          omega
        · rw [List.append_nil]
          exact balanced.nodup
      · intro other member
        rw [pending] at member
        rcases List.mem_append.mp member with before | new
        · have notTask : other ≠ task := fun same => notPending (same ▸ before)
          obtain ⟨parked, isOver⟩ := balanced.pending other before
          rw [statuses other notTask]
          refine ⟨parked, ?_⟩
          by_cases isParent : other = parent
          · subst isParent
            rw [counters]
            omega
          · rw [othersAre other notTask isParent]
            exact isOver
        · split at new
          · rename_i done
            rw [beq_iff_eq] at done
            rw [List.mem_singleton] at new
            subst new
            exact ⟨reached done, by rw [counters]; omega⟩
          · cases new

/-- The task of a pending call has nothing else to do, and its status says what
the call does. -/
theorem disposals (balanced : Balanced system) (orderly : Orderly system)
    {index : Nat}
    (disposed : Nanos6.disposeOrUnblockTask system index = some next) :
    ∃ removed, system.pendingDisposals[index]? = some removed ∧
      (system.task removed).work = [] ∧
      system.updatesBottomMap removed = false ∧
      (((system.task removed).status = .waitClausePending ∧
          next = Nanos6.completeDelayedRelease
            { system with
              pendingDisposals := system.pendingDisposals.eraseIdx index }
            removed) ∨
        ((system.task removed).status = .released ∧
          next = Nanos6.disposeTask
            { system with
              pendingDisposals := system.pendingDisposals.eraseIdx index }
            removed) ∨
        ((system.task removed).status = .blocked ∧
          next = System.modifyTask
            { system with
              pendingDisposals := system.pendingDisposals.eraseIdx index }
            removed fun current =>
              { current with
                status := .leavingTaskwait
                work := [.exitTaskwait] })) := by
  unfold Nanos6.disposeOrUnblockTask at disposed
  split at disposed
  · cases disposed
  · rename_i removed found
    obtain ⟨parked, -⟩ := balanced.pending removed (List.mem_of_getElem? found)
    have work : (system.task removed).work = [] := by
      obtain ⟨loops, work, allowed⟩ := orderly.phased removed
      change (system.task removed).work = _ at work
      change ∀ loop ∈ loops, (system.task removed).status.allows loop = true
        at allowed
      have last : (system.control removed).status.last = [] := by
        change (system.task removed).status.last = []
        revert parked
        cases (system.task removed).status <;>
          simp [TaskStatus.isParked, TaskStatus.last]
      rw [work, last, List.append_nil, List.eq_nil_iff_forall_not_mem]
      intro loop member
      have permitted := allowed loop member
      revert permitted parked
      cases (system.task removed).status <;>
        simp [TaskStatus.isParked, TaskStatus.allows]
    have expected := orderly.delays removed
    change ∀ expected, (system.task removed).status.delays = some expected →
      (system.task removed).mustDelayRelease = expected at expected
    dsimp only at disposed
    split at disposed
    · cases disposed
    · rename_i free
      refine ⟨removed, found, work, Bool.eq_false_iff.mpr free, ?_⟩
      split at disposed
      · rename_i finished
        split at disposed
        · rename_i delays
          cases disposed
          refine Or.inl ⟨?_, rfl⟩
          rw [delays] at expected
          revert parked finished expected
          cases (system.task removed).status <;>
            simp [TaskStatus.isParked, TaskStatus.hasFinished,
              TaskStatus.delays]
        · rename_i delays
          cases disposed
          refine Or.inr (Or.inl ⟨?_, rfl⟩)
          revert parked finished expected
          cases (system.task removed).status <;>
            simp [TaskStatus.isParked, TaskStatus.hasFinished,
              TaskStatus.delays, delays]
      · split at disposed
        · rename_i blocked
          cases disposed
          exact Or.inr (Or.inr ⟨blocked, rfl⟩)
        · cases disposed

theorem disposeOrUnblockTask (balanced : Balanced system)
    (lineage : Lineage system) (orderly : Orderly system)
    (sound : system.IsSound) {index : Nat}
    (disposed : Nanos6.disposeOrUnblockTask system index = some next)
    (soundAfter : next.IsSound) : Balanced next := by
  obtain ⟨removed, found, work, -, called⟩ :=
    balanced.disposals orderly disposed
  obtain ⟨calledBalanced, notPending⟩ := balanced.called found
  have low := (balanced.pending removed (List.mem_of_getElem? found)).2
  have balance := balanced.tasks removed
  rcases called with ⟨status, rfl⟩ | ⟨status, rfl⟩ | ⟨blocked, rfl⟩
  · obtain ⟨-, isOver⟩ :=
      balance_over balance (sound.tasks removed) (by rw [status]; rfl)
        (by rw [status]; exact low)
    exact calledBalanced.completeDelayedRelease status work isOver notPending
  · refine calledBalanced.disposeTask ?_ status work low notPending
      fun parent _ => soundAfter.tasks parent
    exact
      { parent_ne := lineage.parent_ne
        parent_born := lineage.parent_born
        mem_children := lineage.mem_children
        nodup := lineage.nodup
        unborn := lineage.unborn }
  · obtain ⟨none, isOver⟩ :=
      balance_over balance (sound.tasks removed) (by rw [blocked]; rfl)
        (by rw [blocked]; exact low)
    obtain ⟨idle, noneLive⟩ := noneLive_of_over isOver
    have ledger := balance.ledger
    rw [blocked] at ledger
    refine calledBalanced.changes removed notPending ?_ ?_ ?_ ?_ rfl
    · intro other differ
      rw [System.task_modifyTask, if_neg differ]
    · rw [System.task_modifyTask, if_pos rfl]
    · rw [System.task_modifyTask, if_pos rfl]
      dsimp only
      rw [blocked]
      simp
    · rw [System.task_modifyTask, if_pos rfl]
      refine
        { ledger := ledger
          live := balance.live
          blocks := ?_
          once := Nat.zero_le 1
          created := by simp
          ahead := by simp
          below := by simp
          leaving := fun _ => ⟨none, noneLive, low⟩
          disposed := by simp }
      have blocks := balance.blocks
      have after : Task.awaitsFragments
          { system.task removed with
            status := .leavingTaskwait
            work := [.exitTaskwait] } = false := by
        simp [Task.awaitsFragments, Task.isCreating, Work.creates, noneLive]
      rw [isOver] at blocks
      rw [after]
      exact blocks

/-! ## The start of a task -/

theorem decreasePredecessors (balanced : Balanced system)
    (phased : Phased system) {rest : List Work}
    (working : (system.task task).work = .decreasePredecessors :: rest) :
    Balanced (Nanos6.decreasePredecessors system task rest) := by
  obtain ⟨status, rfl⟩ := phased.atDecreasePredecessors working
  have registered : Balanced
      (system.modifyTask task fun current =>
        { current with
          counters := (current.counters.decreasePredecessors 2).1
          status := .registered
          work := []
          readyReports :=
            current.readyReports ++
              if (current.counters.decreasePredecessors 2).2 then
                [.registrationReturn]
              else [] }) := by
    refine balanced.restatus rfl rfl rfl ?_ ?_ ?_ ?_ ?_ ?_ rfl
    · rw [status]
      rfl
    · rw [status]
      simp
    · rw [status]
      rfl
    · rw [status]
      rfl
    · exact ⟨by simp, by simp⟩
    · simp [Task.isCreating, working, Work.creates]
  unfold Nanos6.decreasePredecessors
  dsimp only
  split
  · exact registered
  · exact registered.modifyTask rfl rfl rfl (fun _ _ => rfl) rfl rfl rfl rfl

/-- A new task has only accesses, none of which counts yet. -/
theorem balance_newTask {child : TaskId} (parent : TaskId)
    {accesses : IntervalMap DataAccess} (mustDelayRelease : Bool)
    (declared : ∀ piece ∈ accesses.pieces, piece.value.IsDeclared child) :
    TaskBalance 0 (newTask parent accesses mustDelayRelease) := by
  have none : countObjects (newTask parent accesses mustDelayRelease).objects
      DataAccess.isLiveTaskwait = 0 := by
    have counted : accesses.countPieces DataAccess.isLiveTaskwait = 0 := by
      refine List.countP_eq_zero.mpr fun piece member => ?_
      obtain ⟨type, weak, index, symbols, cpus, value⟩ := declared piece member
      rw [value]
      simp [DataAccess.isLiveTaskwait]
    simp [countObjects, newTask, counted]
  cases empty : accesses.pieces.isEmpty <;>
    constructor <;>
    simp_all [newTask, Counters.ledger, Counters.increasePredecessors,
      TaskStatus.holdsBody, TaskStatus.waits, Task.awaitsFragments,
      Task.isCreating, Work.creates]

theorem submitTask (balanced : Balanced system) (lineage : Lineage system)
    {parent child : TaskId} {declarations : List AccessDeclaration}
    {mustDelayRelease : Bool}
    (submitted :
      Nanos6.submitTask system parent child declarations mustDelayRelease =
        some next) : Balanced next := by
  obtain ⟨can, unborn, differ, accesses, declared, rfl⟩ :=
    submitTask_eq_some submitted
  simp only [Task.canCall, Bool.and_eq_true, beq_iff_eq, List.isEmpty_iff,
    Option.isNone_iff_eq_none] at can
  obtain ⟨⟨running, idle⟩, -⟩ := can
  obtain ⟨orphan, childless⟩ := lineage.unborn child unborn
  obtain ⟨next, nextIs⟩ : ∃ next, next =
      (system.modifyTask parent
        (Task.addChild child accesses)).modifyTask child
          fun _ => newTask parent accesses mustDelayRelease :=
    ⟨_, rfl⟩
  rw [← nextIs]
  have childIs : next.task child =
      newTask parent accesses mustDelayRelease := by
    rw [nextIs, System.task_modifyTask, if_pos rfl]
  have parentIs : next.task parent =
      (system.task parent).addChild child accesses := by
    rw [nextIs, System.task_modifyTask, if_neg differ.symm,
      System.task_modifyTask, if_pos rfl]
  have othersAre : ∀ other, other ≠ child → other ≠ parent →
      next.task other = system.task other := by
    intro other notChild notParent
    rw [nextIs, System.task_modifyTask, if_neg notChild,
      System.task_modifyTask, if_neg notParent]
  have childStatus : (next.task child).status ≠ .disposed := by
    rw [childIs]
    simp only [newTask]
    split <;> simp
  have disposed : ∀ other, (next.task other).status = .disposed ↔
      (system.task other).status = .disposed := by
    intro other
    by_cases isChild : other = child
    · subst isChild
      rw [unborn]
      simp [childStatus]
    · by_cases isParent : other = parent
      · subst isParent
        rw [parentIs]
        rfl
      · rw [othersAre other isChild isParent]
  have notPending : ∀ other, other = child ∨ other = parent →
      other ∉ system.pendingDisposals := by
    rintro other (rfl | rfl)
    · exact balanced.not_pending (by rw [unborn]; rfl)
    · exact balanced.not_pending (by rw [running]; rfl)
  have pending : next.pendingDisposals = system.pendingDisposals := by
    rw [nextIs]
    rfl
  refine ⟨?_, ?_, ?_⟩
  · intro other
    by_cases isChild : other = child
    · subst isChild
      have none : next.undisposed other = 0 := by
        unfold System.undisposed
        rw [childIs]
        rfl
      rw [none, childIs]
      exact balance_newTask parent mustDelayRelease
        (isDeclared_registerDepinfo declared)
    · by_cases isParent : other = parent
      · subst isParent
        have more : next.undisposed other = system.undisposed other + 1 := by
          unfold System.undisposed
          rw [parentIs]
          simp only [Task.addChild, List.countP_append, List.countP_singleton,
            bne_iff_ne, ne_eq, childStatus, not_false_eq_true, if_true]
          congr 1
          refine List.countP_congr fun sibling _ => ?_
          simp [disposed sibling]
        have before := balanced.tasks other
        have ledger := before.ledger
        rw [more, parentIs]
        have notCreating : ∀ low,
            .createTaskwait low ∉ (system.task other).work := by
          rw [idle]
          exact fun _ => List.not_mem_nil
        exact
          { ledger := by
              rw [running] at ledger
              simp only [Task.addChild, running, Counters.ledger,
                Counters.increaseRemovalBlockingCount, TaskStatus.holdsBody,
                TaskStatus.waits, Bool.false_and, Bool.false_eq_true,
                if_true, if_false] at ledger ⊢
              push_cast
              omega
            live := before.live
            blocks := before.blocks
            once := before.once
            created := before.created
            ahead := before.ahead
            below := before.below
            leaving := by
              intro leaves
              have still : (system.task other).status = .leavingTaskwait :=
                leaves
              rw [running] at still
              cases still
            disposed := by
              intro gone
              have still : (system.task other).status = .disposed := gone
              rw [running] at still
              cases still }
      · rw [othersAre other isChild isParent,
          System.undisposed_congr (by rw [othersAre other isChild isParent])
            disposed]
        exact balanced.tasks other
  · rw [pending]
    exact balanced.nodup
  · rw [pending]
    intro other member
    rw [othersAre other
      (fun same => notPending other (Or.inl same) member)
      (fun same => notPending other (Or.inr same) member)]
    exact balanced.pending other member

/-! ## Steps and runs -/

theorem advance (balanced : Balanced system) (accounted : Accounted system)
    (enrolled : Enrolled system) (lineage : Lineage system)
    (orderly : Orderly system) (sound : system.IsSound)
    (advanced : Nanos6.advance system task = some next)
    (soundAfter : next.IsSound) : Balanced next := by
  obtain ⟨head, rest, working, -, -, advances⟩ := advances_of_advance advanced
  have started : TaskStatus.registering.allows head = false →
      head ≠ .decreasePredecessors →
      (system.task task).status.hasStarted = true :=
    enrolled.hasStarted working
  have registering : head.registers = true →
      (system.task task).status = .registering :=
    fun registers => (enrolled.isRegistering working registers).1
  have fits : WorkFits (system.task task).status (system.task task).work :=
    orderly.phased task
  have accounting := accounted sound.asserted task
  cases advances with
  | linkTaskAccesses low =>
      exact balanced.linkTaskAccesses accounted orderly working
        (registering rfl) soundAfter
  | replaceMatching parentIs matched =>
      refine balanced.replaceMatching accounted orderly working
        (registering rfl) parentIs ?_ matched soundAfter
      intro same
      subst same
      exact lineage.parent_ne _ parentIs
  | decreasePredecessors =>
      exact balanced.decreasePredecessors orderly.phased working
  | enterTaskwait =>
      exact balanced.handleEnterTaskwait accounting orderly.phased working
        soundAfter.asserted
  | createTaskwait low =>
      exact balanced.createTaskwait accounting (sound.tasks task) fits working
  | createTopLevelSink low =>
      refine balanced.createTopLevelSink accounting fits working ?_
      obtain ⟨allowed, -⟩ := orderly.phased.loop working (by
        intro status last
        cases status <;> cases last)
      change (system.task task).status.allows _ = true at allowed
      revert allowed
      cases (system.task task).status <;> simp [TaskStatus.allows]
  | linkToTaskwait linked =>
      exact balanced.linkToTaskwait accounted working linked soundAfter
  | finalizeFragments low =>
      exact balanced.finalizeFragments accounted working
        (started rfl (by simp)) soundAfter
  | finalizeAccesses region =>
      exact balanced.finalizeAccess accounted working (started rfl (by simp))
        soundAfter
  | finalizeFragmentsOf region =>
      exact balanced.finalizeFragmentsOf accounted working
        (started rfl (by simp)) soundAfter
  | processDelayedOperations =>
      exact balanced.setWork (by simp [working, Work.creates])
  | markAsBlocked =>
      exact balanced.markAsBlocked orderly.phased (sound.tasks task) working
  | exitTaskwait => exact balanced.exitTaskwait orderly.phased working
  | completeWaitClause =>
      exact balanced.completeWaitClause orderly.phased (sound.tasks task)
        working
  | markAsReleased => exact balanced.markAsReleased orderly.phased working

/-- A task begins another operation, or another part of its life. -/
theorem begins (balanced : Balanced system) (phased : Phased system)
    {status : TaskStatus} {work : List Work}
    (before : (system.task task).status = .registered ∨
      (system.task task).status = .running ∨
      (system.task task).status = .finished)
    (after : status.holdsBody = true ∧ status.waits = false)
    (idle : work.any Work.creates = false) :
    Balanced
      (system.modifyTask task fun current =>
        { current with status := status, work := work }) := by
  have fits : WorkFits (system.task task).status (system.task task).work :=
    phased task
  obtain ⟨body, free⟩ := after
  refine balanced.restatus rfl rfl rfl ?_ ?_ ?_ ?_ ?_ ?_ idle
  · rcases before with before | before | before <;> rw [before] <;> rfl
  · rcases before with before | before | before <;> rw [before] <;> simp
  · dsimp only
    rw [body]
    rcases before with before | before | before <;> rw [before] <;> rfl
  · dsimp only
    rw [free]
    rcases before with before | before | before <;> rw [before] <;> rfl
  · constructor <;> intro same <;> dsimp only at same <;> rw [same] at body <;>
      cases body
  · refine Task.isCreating_of_fits fits ?_
    rcases before with before | before | before <;> rw [before] <;> rfl

/-- Every step between sound states keeps the counters exact. -/
theorem step (balanced : Balanced system) (wellFormed : WellFormed system)
    (orderly : Orderly system) (sound : system.IsSound) {action : Action}
    (taken : Nanos6.step system action = some next)
    (soundAfter : next.IsSound) : Balanced next := by
  obtain ⟨enrolled, lineage, accounted⟩ := wellFormed
  have canCall : ∀ task : TaskId, (system.task task).canCall = true →
      (system.task task).status = .running ∧
        (system.task task).work = [] := by
    intro task can
    simp only [Task.canCall, Bool.and_eq_true, beq_iff_eq,
      List.isEmpty_iff] at can
    exact can.1
  cases action with
  | submit parent child declarations mustDelayRelease =>
      exact balanced.submitTask lineage taken
  | start task =>
      simp only [Nanos6.step] at taken
      split at taken
      · rename_i ready
        simp only [Bool.and_eq_true, beq_iff_eq] at ready
        cases taken
        have fits : WorkFits (system.task task).status
            (system.task task).work :=
          orderly.phased task
        have idle := Task.isCreating_of_fits fits (by rw [ready.1]; rfl)
        have begun :=
          balanced.begins orderly.phased (Or.inl ready.1)
            (⟨rfl, rfl⟩ : TaskStatus.running.holdsBody = true ∧
              TaskStatus.running.waits = false) idle
        exact begun
      · cases taken
  | taskwait task =>
      simp only [Nanos6.step, enterTaskwait] at taken
      split at taken
      · cases taken
      · rename_i can
        simp only [Bool.not_eq_true', Bool.not_eq_false] at can
        split at taken
        · split at taken
          · cases taken
          · cases taken
            exact balanced
        · cases taken
          exact balanced.begins orderly.phased
            (Or.inr (Or.inl (canCall task can).1)) ⟨rfl, rfl⟩ rfl
  | release task region =>
      simp only [Nanos6.step, releaseAccessRegion] at taken
      split at taken
      · rename_i can
        cases taken
        refine balanced.setWork ?_
        rw [(canCall task can).2]
        rfl
      · cases taken
  | finish task =>
      simp only [Nanos6.step, markAsFinished] at taken
      split at taken
      · cases taken
      · rename_i can
        simp only [Bool.not_eq_true', Bool.not_eq_false] at can
        obtain ⟨running, idle⟩ := canCall task can
        split at taken
        · cases taken
          exact balanced.begins orderly.phased (Or.inr (Or.inl running))
            ⟨rfl, rfl⟩ rfl
        · cases taken
          have begun :=
            balanced.begins orderly.phased (Or.inr (Or.inl running))
              (⟨rfl, rfl⟩ : TaskStatus.finished.holdsBody = true ∧
                TaskStatus.finished.waits = false)
              (by rw [idle]; rfl : (system.task task).work.any
                Work.creates = false)
          exact begun
  | unregister task =>
      simp only [Nanos6.step, unregisterTaskDataAccesses] at taken
      split at taken
      · rename_i finished
        rw [beq_iff_eq] at finished
        cases taken
        exact balanced.begins orderly.phased (Or.inr (Or.inr finished))
          ⟨rfl, rfl⟩ rfl
      · cases taken
  | advance task =>
      exact balanced.advance accounted enrolled lineage orderly sound taken
        soundAfter
  | bottomMapUpdate index =>
      exact balanced.processBottomMapUpdate accounted taken soundAfter
  | delayedOperation index =>
      exact balanced.processUpdateOperation accounted taken soundAfter
  | disposeOrUnblock index =>
      exact balanced.disposeOrUnblockTask lineage orderly sound taken
        soundAfter

theorem initial (main : TaskId) : Balanced (initialSystem main) := by
  refine ⟨?_, List.nodup_nil, fun _ member => absurd member List.not_mem_nil⟩
  intro task
  have childless : (initialSystem main).undisposed task = 0 := by
    simp only [System.undisposed, initialSystem]
    split <;> rfl
  rw [childless]
  simp only [initialSystem]
  split <;> constructor <;>
    simp [Counters.ledger, TaskStatus.holdsBody, TaskStatus.waits,
      Task.awaitsFragments, Task.isCreating, countObjects]

end Balanced

/-- The invariants of a run through sound states. -/
structure SoundState (system : System) : Prop where
  wellFormed : WellFormed system
  orderly : Orderly system
  balanced : Balanced system
  sound : system.IsSound

namespace SoundState

variable {system next : System}

theorem orderly_step (state : SoundState system) {action : Action}
    (taken : step system action = some next) : Orderly next :=
  state.orderly.step state.wellFormed.lineage
    (fun task pending => (state.balanced.pending task pending).1) taken

theorem step (state : SoundState system) {action : Action}
    (taken : Nanos6.step system action = some next)
    (sound : next.IsSound) : SoundState next where
  wellFormed :=
    ⟨state.wellFormed.enrolled.step taken,
      state.wellFormed.lineage.step state.wellFormed.enrolled taken,
      state.wellFormed.accounted.step state.wellFormed.enrolled
        state.wellFormed.lineage taken⟩
  orderly := state.orderly_step taken
  balanced :=
    state.balanced.step state.wellFormed state.orderly state.sound taken sound
  sound := sound

theorem initial (main : TaskId) : SoundState (initialSystem main) where
  wellFormed :=
    ⟨Enrolled.initial main, Lineage.initial main, Accounted.initial main⟩
  orderly := Orderly.initial main
  balanced := Balanced.initial main
  sound := by
    refine ⟨rfl, fun task => ?_⟩
    simp only [initialSystem]
    split <;> exact Task.isSound_of_idle rfl rfl

theorem of_reaches {main : TaskId}
    (reached : Reaches (Leads Nanos6.step System.IsSound) main system) :
    SoundState system :=
  Run.invariant reached (initial main) fun _ _ next state leads taken =>
    state.step taken (leads next taken)

end SoundState

/-! ## Executing sound runs -/

instance (task : Task) : Decidable task.IsSound :=
  decidable_of_iff
    ((∀ loop ∈ task.work, loop.creates = true → loop ≠ .createTaskwait 0 →
        0 < task.counters.liveTaskwaitFragmentCount) ∧
      (task.status.isHeld = true → task.hasAccesses = true →
        0 < task.counters.removalBlockers))
    ⟨fun both =>
      { live := fun low creates later =>
          both.1 _ creates rfl fun same => later (Work.createTaskwait.inj same)
        blocked := both.2 },
      fun sound =>
        ⟨fun loop member creates later => by
          cases loop <;> simp only [Work.creates, Bool.false_eq_true] at creates
          exact sound.live _ member fun same => later (by rw [same]),
          sound.blocked⟩⟩

/-- The tasks below `bound` are sound. -/
def System.IsSoundBelow (bound : Nat) (system : System) : Prop :=
  system.Asserted ∧ ∀ task < bound, (system.task task).IsSound

instance (bound : Nat) : DecidablePred (System.IsSoundBelow bound) :=
  fun system => inferInstanceAs (Decidable (system.Asserted ∧ _))

/-- The action creates no task from `bound` on. -/
def Action.createsBelow (bound : Nat) : Action → Bool
  | .submit _ child _ _ => decide (child < bound)
  | _ => true

/-- Tasks that are never created are sound. -/
theorem SoundState.step_below {system next : System} {bound : Nat}
    (state : SoundState system)
    (unborn : ∀ task, bound ≤ task → (system.task task).status = .unborn)
    {action : Action} (below : action.createsBelow bound = true)
    (taken : Nanos6.step system action = some next)
    (sound : next.IsSoundBelow bound) :
    SoundState next ∧
      ∀ task, bound ≤ task → (next.task task).status = .unborn := by
  have stillUnborn : ∀ task, bound ≤ task →
      (next.task task).status = .unborn := by
    intro task above
    by_cases submits : ∃ parent child declarations mustDelayRelease,
        action = .submit parent child declarations mustDelayRelease
    · obtain ⟨parent, child, declarations, mustDelayRelease, rfl⟩ := submits
      obtain ⟨can, -, differ, accesses, -, rfl⟩ := submitTask_eq_some taken
      have notChild : task ≠ child := by
        simp only [Action.createsBelow, decide_eq_true_eq] at below
        exact Nat.ne_of_gt (Nat.lt_of_lt_of_le below above)
      have notParent : task ≠ parent := by
        intro same
        have status := unborn task above
        simp only [Task.canCall, Bool.and_eq_true, beq_iff_eq] at can
        rw [same, can.1.1] at status
        cases status
      rw [System.task_modifyTask, if_neg notChild, System.task_modifyTask,
        if_neg notParent]
      exact unborn task above
    · have kept :=
        KeepsLineage.step state.wellFormed.enrolled
          (fun parent child declarations mustDelayRelease same =>
            submits ⟨parent, child, declarations, mustDelayRelease, same⟩)
          taken task
      exact kept.2.2.mpr (unborn task above)
  refine ⟨state.step taken ⟨sound.1, ?_⟩, stillUnborn⟩
  intro task
  by_cases above : bound ≤ task
  · have fits : WorkFits (next.task task).status (next.task task).work :=
      (state.orderly_step taken).phased task
    refine Task.isSound_of_idle (Task.isCreating_of_fits fits ?_) ?_ <;>
      rw [stillUnborn task above] <;> rfl
  · exact sound.2 task (by omega)

/-- An executed list of actions is a run through sound states when it is so for
the tasks that it creates. -/
theorem reaches_of_executeThrough (bound : Nat) (main : TaskId)
    (actions : List Action) (permits : System → Action → Prop)
    [∀ system action, Decidable (permits system action)]
    (holds : System → Prop) [DecidablePred holds] (mainBelow : main < bound)
    (below : (actions.all fun action => action.createsBelow bound) = true)
    (executed :
      (executeThrough step permits (System.IsSoundBelow bound)
        (initialSystem main) actions).any
          (fun system => decide (holds system)) = true) :
    ∃ system,
      Reaches (fun system action => Leads step System.IsSound system action ∧
        permits system action) main system ∧ holds system := by
  obtain ⟨allowed, allowedIs⟩ : ∃ allowed : System → Action → Prop,
      allowed = fun system action =>
        Leads step System.IsSound system action ∧ permits system action :=
    ⟨_, rfl⟩
  have runs : ∀ (actions : List Action) (middle target : System),
      (actions.all fun action => action.createsBelow bound) = true →
      Reaches allowed main middle → SoundState middle →
      (∀ task, bound ≤ task → (middle.task task).status = .unborn) →
      executeThrough step permits (System.IsSoundBelow bound) middle
        actions = some target →
      Reaches allowed main target := by
    intro actions
    induction actions with
    | nil =>
        intro middle target _ reached _ _ done
        cases done
        exact reached
    | cons action rest inductionHypothesis =>
        intro middle target allBelow reached state unborn done
        unfold executeThrough at done
        split at done
        · rename_i permitted
          obtain ⟨next, taken, continued⟩ := Option.bind_eq_some_iff.mp done
          rw [List.all_cons, Bool.and_eq_true] at allBelow
          split at continued
          · rename_i sound
            obtain ⟨stateAfter, unbornAfter⟩ :=
              state.step_below unborn allBelow.1 taken sound
            have leads : allowed middle action := by
              rw [allowedIs]
              refine ⟨?_, permitted⟩
              intro other also
              rw [taken] at also
              cases also
              exact stateAfter.sound
            exact inductionHypothesis next target allBelow.2
              (reached.tail leads taken) stateAfter unbornAfter continued
          · cases continued
        · cases done
  obtain ⟨system, done, satisfied⟩ := (Option.any_eq_true _ _).mp executed
  rw [← allowedIs]
  refine ⟨system, runs actions _ _ below (.refl _) (SoundState.initial main)
    ?_ done, of_decide_eq_true satisfied⟩
  intro task above
  have differ : task ≠ main :=
    Nat.ne_of_gt (Nat.lt_of_lt_of_le mainBelow above)
  simp [initialSystem, differ]

theorem reaches_sound_of_execute (bound : Nat) (main : TaskId)
    (actions : List Action) (holds : System → Prop) [DecidablePred holds]
    (mainBelow : main < bound)
    (below : (actions.all fun action => action.createsBelow bound) = true)
    (executed :
      (execute step (System.IsSoundBelow bound) (initialSystem main)
        actions).any (fun system => decide (holds system)) = true) :
    ∃ system, Reaches (Leads step System.IsSound) main system ∧
      holds system := by
  rw [← executeThrough_of_execute] at executed
  obtain ⟨system, reached, satisfied⟩ :=
    reaches_of_executeThrough bound main actions (fun _ _ => True) holds
      mainBelow below executed
  exact ⟨system, reached.mono fun _ _ allowed => allowed.1, satisfied⟩

/-! ## The blocking count of a taskwait -/

/-- Every `createTaskwait` of the task has been taken back once by its last
live fragment, except for the one whose fragments are still being created or
waited for. -/
def System.TaskwaitsBalance (system : System) (task : TaskId) : Prop :=
  (system.task task).counters.taskwaitBlocks =
    (system.task task).counters.taskwaitUnblocks +
      if (system.task task).isCreating = true ∨
          0 < countObjects (system.task task).objects
            DataAccess.isLiveTaskwait then 1
      else 0

instance (system : System) (task : TaskId) :
    Decidable (system.TaskwaitsBalance task) :=
  inferInstanceAs (Decidable (_ = _))

/-- In a run through sound states the blocking of a taskwait is taken back
exactly once, and only when all its fragments have been created and are
removable. -/
theorem taskwaitsBalance_of_sound {main : TaskId} {system : System}
    (reached : Reaches (Leads step System.IsSound) main system)
    (task : TaskId) : system.TaskwaitsBalance task := by
  have balance := (SoundState.of_reaches reached).balanced.tasks task
  unfold System.TaskwaitsBalance
  rw [balance.blocks]
  congr 1
  have same : (system.task task).awaitsFragments = true ↔
      (system.task task).isCreating = true ∨
        0 < countObjects (system.task task).objects
          DataAccess.isLiveTaskwait := by
    simp [Task.awaitsFragments, balance.live, Nat.pos_iff_ne_zero]
  simp only [same]

/-- A task over `[0, 1)` waits for a child over the same region, which ends. -/
def waitForOneChild : List Action :=
  List.flatten
    [[.submit 0 1 [.strong .readwrite 0 1] false],
      List.replicate 6 (.advance 1),
      [.start 1, .submit 1 2 [.strong .readwrite 0 1] false],
      List.replicate 4 (.advance 2),
      List.replicate 2 (.delayedOperation 0),
      List.replicate 2 (.advance 2),
      [.start 2, .taskwait 1],
      List.replicate 7 (.advance 1),
      List.replicate 2 (.delayedOperation 0),
      List.replicate 2 (.advance 1),
      [.finish 2, .unregister 2],
      List.replicate 3 (.advance 2),
      List.replicate 2 (.delayedOperation 0),
      List.replicate 2 (.advance 2)]

/-- A task over `[0, 1)` waits for a child over the same region: its taskwait
has blocked it once and has been taken back once when the child is gone. -/
theorem taskwaitsBalance_one_child :
    ∃ system, Reaches (Leads step System.IsSound) 0 system ∧
      (system.task 1).counters.taskwaitBlocks = 1 ∧
      (system.task 1).counters.taskwaitUnblocks = 1 ∧
      system.TaskwaitsBalance 1 := by
  obtain ⟨system, reached, blocks, unblocks⟩ :=
    reaches_sound_of_execute 3 0 waitForOneChild
      (fun system =>
        (system.task 1).counters.taskwaitBlocks = 1 ∧
          (system.task 1).counters.taskwaitUnblocks = 1)
      (by decide) (by decide) (by decide +kernel)
  exact ⟨system, reached, blocks, unblocks,
    taskwaitsBalance_of_sound reached 1⟩

/-- The main task waits for children over `[0, 1)` and `[4, 5)`.  The first one
ends after it has been linked and before the fragment of the second one has
been created, so the one blocking of the taskwait is taken back twice. -/
theorem taskwaitsBalance_fails :
    ∃ system, Reaches (Leads step System.Asserted) 0 system ∧
      (system.task 0).counters.taskwaitBlocks = 1 ∧
      (system.task 0).counters.taskwaitUnblocks = 2 ∧
      ¬ system.TaskwaitsBalance 0 := by
  obtain ⟨system, reached, found⟩ :=
    reaches_of_execute System.Asserted 0
      (List.flatten
        [[.submit 0 1 [.strong .readwrite 0 1] false],
          List.replicate 6 (.advance 1),
          [.submit 0 2 [.strong .readwrite 4 5] false],
          List.replicate 6 (.advance 2),
          [.start 1, .start 2, .taskwait 0],
          List.replicate 3 (.advance 0),
          [.finish 1, .unregister 1],
          List.replicate 3 (.advance 1),
          List.replicate 2 (.delayedOperation 0),
          List.replicate 2 (.advance 1),
          List.replicate 8 (.advance 0),
          [.finish 2, .unregister 2],
          List.replicate 3 (.advance 2),
          List.replicate 2 (.delayedOperation 0)])
      (fun system =>
        (system.task 0).counters.taskwaitBlocks = 1 ∧
          (system.task 0).counters.taskwaitUnblocks = 2 ∧
          ¬ system.TaskwaitsBalance 0)
      (by decide +kernel)
  exact ⟨system, reached, found⟩

/-! ## Returning from a taskwait -/

/-- The task is about to return from `nanos6_taskwait`: nothing was left to
wait for, it has been woken up, or the fast check succeeds. -/
def System.ReturnsFromTaskwait (system : System) (task : TaskId) : Prop :=
  (system.task task).status = .leavingTaskwait ∨
    ∃ next, step system (.taskwait task) = some next ∧
      (next.task task).status = .running

/-- In a run through sound states a task returns from a taskwait only when its
children have been disposed of. -/
theorem disposed_of_returnsFromTaskwait {main : TaskId} {system : System}
    (reached : Reaches (Leads step System.IsSound) main system)
    {task : TaskId} (returns : system.ReturnsFromTaskwait task) :
    ∀ child ∈ (system.task task).children,
      (system.task child).status = .disposed := by
  have balance := (SoundState.of_reaches reached).balanced.tasks task
  have none : system.undisposed task = 0 := by
    rcases returns with leaves | ⟨next, taken, running⟩
    · exact (balance.leaving leaves).1
    · simp only [step, enterTaskwait] at taken
      split at taken
      · cases taken
      · rename_i can
        simp only [Bool.not_eq_true', Bool.not_eq_false, Task.canCall,
          Bool.and_eq_true, beq_iff_eq] at can
        split at taken
        · rename_i low
          rw [beq_iff_eq] at low
          have countdown := balance.countdown
          rw [low, can.1.1] at countdown
          simp only [TaskStatus.holdsBody, TaskStatus.waits, Bool.false_and,
            Bool.false_eq_true, if_true, if_false] at countdown
          split at countdown <;> split at countdown <;> omega
        · cases taken
          rw [System.task_modifyTask, if_pos rfl] at running
          cases running
  intro child member
  unfold System.undisposed at none
  have gone := List.countP_eq_zero.mp none child member
  simpa using gone

/-- A task over `[0, 1)` waits for a child over the same region, and leaves the
taskwait after the child has been disposed of. -/
theorem disposed_one_child :
    ∃ system, Reaches (Leads step System.IsSound) 0 system ∧
      system.ReturnsFromTaskwait 1 ∧ (system.task 1).children = [2] ∧
      (system.task 2).status = .disposed := by
  obtain ⟨system, reached, leaves, children⟩ :=
    reaches_sound_of_execute 3 0
      (waitForOneChild ++ List.replicate 2 (.disposeOrUnblock 0))
      (fun system =>
        (system.task 1).status = .leavingTaskwait ∧
          (system.task 1).children = [2])
      (by decide) (by decide) (by decide +kernel)
  exact ⟨system, reached, Or.inl leaves, children,
    disposed_of_returnsFromTaskwait reached (Or.inl leaves) 2
      (by rw [children]; simp)⟩

/-- A task releases its only access and waits for a child.  A sibling over the
same region follows, so the released access goes, and with it the contribution
that the taskwait has already taken back: the task is woken up while the child
is still there. -/
theorem returnsFromTaskwait_early :
    ∃ system, Reaches (Leads step System.Asserted) 0 system ∧
      system.ReturnsFromTaskwait 1 ∧ 2 ∈ (system.task 1).children ∧
      (system.task 2).status ≠ .disposed := by
  obtain ⟨system, reached, leaves, children, waits⟩ :=
    reaches_of_execute System.Asserted 0
      (List.flatten
        [[.submit 0 1 [.strong .readwrite 0 1] false],
          List.replicate 6 (.advance 1),
          [.start 1, .release 1 ⟨0, 1⟩],
          List.replicate 3 (.advance 1),
          [.submit 1 2 [] false, .taskwait 1],
          List.replicate 4 (.advance 1),
          [.submit 0 3 [.strong .readwrite 0 1] false],
          List.replicate 4 (.advance 3),
          List.replicate 2 (.delayedOperation 0),
          List.replicate 2 (.advance 3),
          [.disposeOrUnblock 0]])
      (fun system =>
        (system.task 1).status = .leavingTaskwait ∧
          2 ∈ (system.task 1).children ∧
          (system.task 2).status ≠ .disposed)
      (by decide +kernel)
  exact ⟨system, reached, Or.inl leaves, children, waits⟩

end Nanos6
