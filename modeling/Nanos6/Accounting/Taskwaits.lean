import Nanos6.Accounting.Predecessors
import Nanos6.Dependencies.Orderly

/-!
# Taskwait accounting

One countdown of a task mixes its body, its undisposed children, its objects
and its taskwait fragments.  Two things can make it too small.  The last live
taskwait fragment can go while `createTaskwait` has entries left, which costs
one decrement for each time this happens; and the objects of a task can all go
while the task is in a taskwait, which takes their contribution back a second
time.  In runs without these two the countdown is exact, the blocking count of
every taskwait is balanced, and a task leaves a taskwait only when its children
have been disposed of.
-/

namespace Nanos6

open Foundation

/-- The body of the task still counts in its countdown. -/
def TaskStatus.holdsBody : TaskStatus → Bool
  | .blocked => false
  | .leavingTaskwait => false
  | .waitClausePending => false
  | .released => false
  | .disposed => false
  | _ => true

/-- The task is in a taskwait or in its wait clause, so the contribution of its
accesses has been taken back. -/
def TaskStatus.waits : TaskStatus → Bool
  | .inTaskwait => true
  | .blocked => true
  | .leavingTaskwait => true
  | .inWaitClause => true
  | .waitClausePending => true
  | _ => false

/-- The task waits and has not been woken up yet. -/
def TaskStatus.isHeld : TaskStatus → Bool
  | .leavingTaskwait => false
  | status => status.waits

/-- The loop of `createTaskwait`. -/
def Work.creates : Work → Bool
  | .createTaskwait _ => true
  | _ => false

theorem Work.mem_of_filter {work other : List Work}
    (same : other.filter Work.creates = work.filter Work.creates) (low : Nat) :
    .createTaskwait low ∈ other ↔ .createTaskwait low ∈ work := by
  have kept : ∀ loops : List Work,
      .createTaskwait low ∈ loops.filter Work.creates ↔
        .createTaskwait low ∈ loops := by
    intro loops
    simp [Work.creates]
  rw [← kept other, same, kept]

namespace Task

/-- `createTaskwait` has not come to its end. -/
def isCreating (task : Task) : Bool :=
  task.work.any Work.creates

theorem isCreating_iff {task : Task} :
    task.isCreating = true ↔ ∃ low, .createTaskwait low ∈ task.work := by
  unfold isCreating
  rw [List.any_eq_true]
  constructor
  · rintro ⟨loop, member, creates⟩
    cases loop <;> simp [Work.creates] at creates
    exact ⟨_, member⟩
  · rintro ⟨low, member⟩
    exact ⟨_, member, rfl⟩

theorem filter_creates {task : Task} (idle : task.isCreating = false) :
    task.work.filter Work.creates = [] := by
  rw [List.filter_eq_nil_iff]
  intro loop member creates
  have creating : task.isCreating = true :=
    List.any_eq_true.mpr ⟨loop, member, creates⟩
  rw [idle] at creating
  cases creating

/-- The taskwait still has fragments to create or to wait for. -/
def awaitsFragments (task : Task) : Bool :=
  task.isCreating || task.counters.liveTaskwaitFragmentCount != 0

/-- The countdown of the task cannot become too small: between the entries of
`createTaskwait` a live taskwait fragment is left, and while the task is held
in a taskwait its objects go on blocking its removal. -/
structure IsSound (task : Task) : Prop where
  live : ∀ low, .createTaskwait low ∈ task.work → low ≠ 0 →
    0 < task.counters.liveTaskwaitFragmentCount
  blocked : task.status.isHeld = true → task.hasAccesses = true →
    0 < task.counters.removalBlockers

theorem IsSound.congr {task other : Task} (sound : task.IsSound)
    (work : ∀ low, .createTaskwait low ∈ other.work →
      .createTaskwait low ∈ task.work)
    (live : other.counters.liveTaskwaitFragmentCount =
      task.counters.liveTaskwaitFragmentCount)
    (blockers :
      other.counters.removalBlockers = task.counters.removalBlockers)
    (status : other.status = task.status)
    (accesses : other.hasAccesses = task.hasAccesses) : other.IsSound where
  live := by
    rw [live]
    exact fun low creates => sound.live low (work low creates)
  blocked := by
    rw [status, accesses, blockers]
    exact sound.blocked

/-- A task that neither creates a taskwait nor waits in one is sound. -/
theorem isSound_of_idle {task : Task} (idle : task.isCreating = false)
    (free : task.status.isHeld = false) : task.IsSound where
  live := by
    intro low creates
    rw [isCreating_iff.mpr ⟨low, creates⟩] at idle
    cases idle
  blocked := by
    intro held
    rw [free] at held
    cases held

/-- Only the work of a taskwait creates one. -/
theorem isCreating_of_fits {task : Task}
    (fits : WorkFits task.status task.work)
    (outside : task.status.allows (.createTaskwait 0) = false) :
    task.isCreating = false := by
  by_contra creating
  obtain ⟨low, member⟩ :=
    isCreating_iff.mp (Bool.eq_true_of_not_eq_false creating)
  obtain ⟨loops, work, allowed⟩ := fits
  rw [work] at member
  rcases List.mem_append.mp member with inLoops | inLast
  · have permitted := allowed _ inLoops
    revert outside permitted
    cases task.status <;> simp [TaskStatus.allows]
  · revert inLast
    cases task.status <;> simp [TaskStatus.last]

end Task

/-- No assertion has failed and no countdown can have become too small. -/
structure System.IsSound (system : System) : Prop where
  asserted : system.Asserted
  tasks : ∀ task, (system.task task).IsSound

/-- The children of a task that have not been disposed of. -/
def System.undisposed (system : System) (task : TaskId) : Nat :=
  (system.task task).children.countP fun child =>
    (system.task child).status != .disposed

/-- The counters of a task with `undisposed` children are exact. -/
structure TaskBalance (undisposed : Nat) (task : Task) : Prop where
  ledger :
    task.counters.ledger =
      (if task.status.holdsBody then 1 else 0) + undisposed -
        (if task.status.waits && task.hasAccesses then 1 else 0)
  live :
    task.counters.liveTaskwaitFragmentCount =
      countObjects task.objects DataAccess.isLiveTaskwait
  blocks :
    task.counters.taskwaitBlocks =
      task.counters.taskwaitUnblocks +
        (if task.awaitsFragments then 1 else 0)
  once : (task.work.filter Work.creates).length ≤ 1
  created : ∀ low, .createTaskwait low ∈ task.work →
    ∀ piece ∈ (task.objects .taskwaitFragments).pieces,
      piece.interval.stop ≤ low
  ahead : ∀ low, .createTaskwait low ∈ task.work →
    ∀ entry ∈ task.subaccessBottomMap.pieces,
      low < entry.interval.stop → low ≤ entry.interval.start
  below : .createTaskwait 0 ∈ task.work →
    task.subaccessBottomMap.pieces ≠ []
  leaving : task.status = .leavingTaskwait →
    undisposed = 0 ∧ task.counters.liveTaskwaitFragmentCount = 0 ∧
      task.counters.countdownToBeWokenUp ≤ 0
  disposed : task.status = .disposed →
    task.counters.countdownToBeWokenUp ≤ 0

namespace TaskBalance

variable {undisposed : Nat} {task other : Task}

/-- The countdown in terms of what it counts. -/
theorem countdown (balance : TaskBalance undisposed task) :
    task.counters.countdownToBeWokenUp =
      (if task.status.holdsBody then 1 else 0) + undisposed -
        (if task.status.waits && task.hasAccesses then 1 else 0) +
        (if task.counters.removalBlockers = 0 then 0 else 1) +
        (if task.awaitsFragments then 1 else 0) := by
  have blocks :
      (task.counters.taskwaitBlocks : Int) - task.counters.taskwaitUnblocks =
        if task.awaitsFragments then 1 else 0 := by
    rw [balance.blocks]
    cases task.awaitsFragments <;> simp <;> omega
  rw [Counters.countdown_eq, balance.ledger, blocks]

/-- What the balance of a task looks at. -/
theorem congr (balance : TaskBalance undisposed task)
    (live : countObjects other.objects DataAccess.isLiveTaskwait =
      countObjects task.objects DataAccess.isLiveTaskwait)
    (fragments :
      other.objects .taskwaitFragments = task.objects .taskwaitFragments)
    (accesses : other.hasAccesses = task.hasAccesses)
    (bottomMap : ∀ low, .createTaskwait low ∈ other.work →
      other.subaccessBottomMap = task.subaccessBottomMap)
    (counters : other.counters = task.counters)
    (status : other.status = task.status)
    (work : other.work.filter Work.creates =
      task.work.filter Work.creates) :
    TaskBalance undisposed other := by
  have creating : other.isCreating = task.isCreating := by
    rw [Bool.eq_iff_iff, Task.isCreating_iff, Task.isCreating_iff]
    simp only [Work.mem_of_filter work]
  have awaits : other.awaitsFragments = task.awaitsFragments := by
    simp only [Task.awaitsFragments, creating, counters]
  refine
    { ledger := ?_
      live := ?_
      blocks := ?_
      once := ?_
      created := ?_
      ahead := ?_
      below := ?_
      leaving := ?_
      disposed := ?_ }
  · rw [counters, status, accesses]
    exact balance.ledger
  · rw [counters, live]
    exact balance.live
  · rw [counters, awaits]
    exact balance.blocks
  · rw [work]
    exact balance.once
  · intro low member
    rw [fragments]
    exact balance.created low ((Work.mem_of_filter work low).mp member)
  · intro low member
    rw [bottomMap low member]
    exact balance.ahead low ((Work.mem_of_filter work low).mp member)
  · intro member
    rw [bottomMap 0 member]
    exact balance.below ((Work.mem_of_filter work 0).mp member)
  · rw [status, counters]
    exact balance.leaving
  · rw [status, counters]
    exact balance.disposed

/-- A change of one object of the task.  The object does not become a live
taskwait fragment by the change. -/
theorem changed (balance : TaskBalance undisposed task)
    (accounting : TaskAccounting task) (accountingAfter : TaskAccounting other)
    (sound : other.IsSound) {parent : TaskId → Option TaskId} {id : TaskId}
    {map : AccessMap} {piece : Piece DataAccess}
    (member : piece ∈ (task.objects map).pieces) {region : DataAccessRegion}
    (meets : piece.interval.Meets region) {setter : Setter}
    (change : SoundChange piece.value (setter.apply piece.value))
    (registered : piece.sides region ≠ 0 → piece.value.registered = true)
    (stillLive : (setter.apply piece.value).isLiveTaskwait = true →
      piece.value.isLiveTaskwait = true)
    (handled : HandledChanges)
    (handledIs : handled =
      handleChange parent id piece region setter task.counters)
    (objects : other.objects =
      changedObjects task.objects map piece region handled)
    (bottomMap : other.subaccessBottomMap =
      if handled.access.isSome then task.subaccessBottomMap
      else
        task.subaccessBottomMap.eraseInterval (piece.interval.inter region))
    (counters : other.counters = handled.counters)
    (status : other.status = task.status) (work : other.work = task.work)
    (countdown : task.counters.countdownToBeWokenUp ≤ 0 →
      handled.counters.countdownToBeWokenUp ≤ 0) :
    TaskBalance undisposed other := by
  have anchored := change.anchored (accounting.anchored map piece member)
  have followed :=
    follow_handleChange parent id member meets change.toRegularChange anchored
      registered task.counters
  have liveCount :=
    countObjects_handleChange parent id member meets change.toRegularChange
      task.counters isStatusTest_isLiveTaskwait
      (fun _ _ removable => by
        simp [DataAccess.isLiveTaskwait, DataAccess.isCounted, removable])
  dsimp only at followed liveCount
  rw [← handledIs] at followed liveCount
  rw [← objects, ← counters] at followed
  rw [← objects] at liveCount
  have typed := accounting.typed map piece member
  have liveHere : piece.value.isLiveTaskwait = true →
      map = .taskwaitFragments := by
    intro live
    simp only [DataAccess.isLiveTaskwait, Bool.and_eq_true, beq_iff_eq] at live
    rw [← typed, live.2]
    rfl
  -- Only taskwait fragments and sinks are ever deleted.
  have deleted : handled.access.isSome = false →
      map = .taskwaitFragments := by
    intro gone
    obtain ⟨cpus, outcome⟩ :=
      access_handleDataAccessStatusChanges (.of parent piece.value)
        (.of parent (setter.apply piece.value)) (setter.apply piece.value)
        (piece.interval.inter region) id
        ((setUpNewFragment parent piece.value
          piece.interval)^[piece.sides region] task.counters)
    rw [handledIs] at gone
    unfold handleChange at gone
    rw [outcome] at gone
    split at gone
    · rename_i removed
      simp only [DataAccessStatusEffects.of, Bool.and_eq_true, bne_iff_ne,
        Bool.not_eq_true'] at removed
      have removable :=
        change.toRegularChange.removable_of_ne removed.1.1 removed.1.2
      have kind :=
        anchored.objectType_of_unlinked removed.1.1 removable removed.2
      rw [change.objectType] at kind
      rw [← typed]
      rcases kind with kind | kind <;> rw [kind] <;> rfl
    · cases gone
  have entering : .createTaskwait 0 ∈ task.work →
      map ≠ .taskwaitFragments := by
    intro enters here
    subst here
    have bound := balance.created 0 enters piece member
    have positive :=
      (task.objects .taskwaitFragments).nonempty piece member
    simp only [Interval.Nonempty] at positive
    omega
  have accesses : other.hasAccesses = task.hasAccesses := by
    simp only [Task.hasAccesses, objects]
    congr 1
    rw [Bool.eq_iff_iff, List.isEmpty_iff, List.isEmpty_iff]
    constructor
    · intro empty
      by_contra nonempty
      refine changedObjects_ne_nil member meets ?_ nonempty empty
      intro here
      by_contra gone
      have tw := deleted (Bool.eq_false_iff.mpr gone)
      rw [tw] at here
      cases here
    · intro empty
      rw [List.eq_nil_iff_forall_not_mem]
      intro part partMember
      obtain ⟨old, oldMember, -⟩ := inside_changedObjects partMember
      rw [empty] at oldMember
      cases oldMember
  have creating : other.isCreating = task.isCreating := by
    simp only [Task.isCreating, work]
  have unchanged : piece.value.isLiveTaskwait = false →
      other.counters.liveTaskwaitFragmentCount =
        task.counters.liveTaskwaitFragmentCount := by
    intro notLive
    have notLater : (setter.apply piece.value).isLiveTaskwait = false := by
      by_contra later
      rw [stillLive (Bool.eq_true_of_not_eq_false later)] at notLive
      cases notLive
    rw [notLive, notLater] at liveCount
    simp only [Bool.toNat_false] at liveCount
    rw [followed.liveTaskwaitFragmentCount]
    omega
  refine
    { ledger := ?_
      live := ?_
      blocks := ?_
      once := ?_
      created := ?_
      ahead := ?_
      below := ?_
      leaving := ?_
      disposed := ?_ }
  · have positive : 0 ≤ task.counters.removalBlockers :=
      Int.le_trans (Int.natCast_nonneg _) accounting.blockers
    have positiveAfter : 0 ≤ other.counters.removalBlockers :=
      Int.le_trans (Int.natCast_nonneg _) accountingAfter.blockers
    rw [followed.ledger positive positiveAfter, status, accesses]
    exact balance.ledger
  · rw [followed.liveTaskwaitFragmentCount, balance.live]
    omega
  · rw [followed.taskwaitBlocks, followed.taskwaitUnblocks, balance.blocks]
    cases creates : task.isCreating with
    | true =>
        -- The last live fragment is not allowed to go now.
        have unblocked : ¬ (piece.value.isLiveTaskwait = true ∧
            (setter.apply piece.value).isLiveTaskwait = false ∧
            other.counters.liveTaskwaitFragmentCount = 0) := by
          rintro ⟨live, -, noneLive⟩
          obtain ⟨low, inWork⟩ := Task.isCreating_iff.mp creates
          by_cases first : low = 0
          · subst first
            exact entering inWork (liveHere live)
          · rw [← work] at inWork
            have positive := sound.live low inWork first
            omega
        have before : task.awaitsFragments = true := by
          simp [Task.awaitsFragments, creates]
        have after : other.awaitsFragments = true := by
          simp [Task.awaitsFragments, creating, creates]
        rw [if_neg unblocked, before, after]
        rfl
    | false =>
        have before : task.awaitsFragments =
            (task.counters.liveTaskwaitFragmentCount != 0) := by
          simp [Task.awaitsFragments, creates]
        have after : other.awaitsFragments =
            (other.counters.liveTaskwaitFragmentCount != 0) := by
          simp [Task.awaitsFragments, creating, creates]
        rw [before, after]
        cases live : piece.value.isLiveTaskwait with
        | false =>
            rw [unchanged live]
            simp
        | true =>
            have positive := countObjects_pos member live
            have notZero : task.counters.liveTaskwaitFragmentCount ≠ 0 := by
              rw [balance.live]
              omega
            cases stays : (setter.apply piece.value).isLiveTaskwait with
            | false =>
                by_cases zero :
                    other.counters.liveTaskwaitFragmentCount = 0 <;>
                  simp [zero, notZero]
            | true =>
                have stillNotZero :
                    other.counters.liveTaskwaitFragmentCount ≠ 0 := by
                  rw [followed.liveTaskwaitFragmentCount, balance.live]
                  rw [live, stays] at liveCount
                  simp only [Bool.toNat_true] at liveCount
                  omega
                simp [stillNotZero, notZero]
  · rw [work]
    exact balance.once
  · intro low creates part partMember
    rw [work] at creates
    rw [objects] at partMember
    obtain ⟨old, oldMember, -, inside⟩ := inside_changedObjects partMember
    exact Nat.le_trans inside (balance.created low creates old oldMember)
  · intro low creates entry entryMember above
    rw [work] at creates
    have inside : ∃ old ∈ task.subaccessBottomMap.pieces,
        old.interval.start ≤ entry.interval.start ∧
          entry.interval.stop ≤ old.interval.stop := by
      rw [bottomMap] at entryMember
      split at entryMember
      · exact ⟨entry, entryMember, Nat.le_refl _, Nat.le_refl _⟩
      · exact IntervalMap.inside_rewritePieces _ _ entryMember
    obtain ⟨old, oldMember, starts, stops⟩ := inside
    exact Nat.le_trans
      (balance.ahead low creates old oldMember (Nat.lt_of_lt_of_le above stops))
      starts
  · intro enters
    rw [work] at enters
    have kept : handled.access.isSome = true := by
      by_contra gone
      exact entering enters (deleted (Bool.eq_false_iff.mpr gone))
    rw [bottomMap, if_pos kept]
    exact balance.below enters
  · intro leaves
    rw [status] at leaves
    obtain ⟨none, noneLive, low⟩ := balance.leaving leaves
    refine ⟨none, ?_, ?_⟩
    · rw [unchanged ?_]
      · exact noneLive
      · by_contra live
        have positive :=
          countObjects_pos member (Bool.eq_true_of_not_eq_false live)
        rw [balance.live] at noneLive
        omega
    · rw [counters]
      exact countdown low
  · intro isDisposed
    rw [status] at isDisposed
    rw [counters]
    exact countdown (balance.disposed isDisposed)

/-- A sound task whose countdown is over has nothing to do but to wait for
`disposeOrUnblockTask`, or has left that behind. -/
theorem parked (balance : TaskBalance undisposed task)
    (sound : task.IsSound)
    (low : task.counters.countdownToBeWokenUp ≤ 0) :
    task.status.isParked = true ∨ task.status = .leavingTaskwait ∨
      task.status = .disposed := by
  have countdown := balance.countdown
  have blocked := sound.blocked
  cases status : task.status <;>
    cases accesses : task.hasAccesses <;>
    simp [status, accesses, TaskStatus.holdsBody, TaskStatus.waits,
      TaskStatus.isHeld, TaskStatus.isParked] at countdown blocked ⊢ <;>
    split at countdown <;> split at countdown <;> omega

end TaskBalance

/-! ## All tasks -/

/-- The counters of all tasks are exact, and the pending calls of
`disposeOrUnblockTask` are for tasks whose countdown is over. -/
structure Balanced (system : System) : Prop where
  tasks : ∀ task, TaskBalance (system.undisposed task) (system.task task)
  nodup : system.pendingDisposals.Nodup
  pending : ∀ task ∈ system.pendingDisposals,
    (system.task task).status.isParked = true ∧
      (system.task task).counters.countdownToBeWokenUp ≤ 0

theorem System.undisposed_congr {system next : System} {task : TaskId}
    (children : (next.task task).children = (system.task task).children)
    (disposed : ∀ child, (next.task child).status = .disposed ↔
      (system.task child).status = .disposed) :
    next.undisposed task = system.undisposed task := by
  unfold System.undisposed
  rw [children]
  refine List.countP_congr fun child _ => ?_
  simp [disposed child]

namespace Balanced

variable {system next : System} {task : TaskId}

theorem congr (balanced : Balanced system)
    (tasks : next.task = system.task)
    (pending : next.pendingDisposals = system.pendingDisposals) :
    Balanced next := by
  have same : ∀ task, next.undisposed task = system.undisposed task := by
    intro task
    simp only [System.undisposed, tasks]
  refine ⟨?_, ?_, ?_⟩
  · intro task
    rw [same, tasks]
    exact balanced.tasks task
  · rw [pending]
    exact balanced.nodup
  · rw [pending, tasks]
    exact balanced.pending

/-- Only one task changes, and it is pushed only when its countdown reaches
zero. -/
theorem update (balanced : Balanced system) (task : TaskId)
    (others : ∀ other, other ≠ task → next.task other = system.task other)
    (children : (next.task task).children = (system.task task).children)
    (disposed : (next.task task).status = .disposed ↔
      (system.task task).status = .disposed)
    (balance : TaskBalance (system.undisposed task) (next.task task))
    {added : List TaskId}
    (pushed : next.pendingDisposals = system.pendingDisposals ++ added)
    (reached : added = [] ∨
      added = [task] ∧
        0 < (system.task task).counters.countdownToBeWokenUp ∧
        (next.task task).counters.countdownToBeWokenUp ≤ 0 ∧
        (next.task task).status.isParked = true)
    (stillParked : task ∈ system.pendingDisposals →
      (next.task task).status.isParked = true ∧
        (next.task task).counters.countdownToBeWokenUp ≤ 0) :
    Balanced next := by
  have allChildren : ∀ other,
      (next.task other).children = (system.task other).children := by
    intro other
    by_cases same : other = task
    · subst same
      exact children
    · rw [others other same]
  have allDisposed : ∀ other, (next.task other).status = .disposed ↔
      (system.task other).status = .disposed := by
    intro other
    by_cases same : other = task
    · subst same
      exact disposed
    · rw [others other same]
  refine ⟨?_, ?_, ?_⟩
  · intro other
    rw [System.undisposed_congr (allChildren other) allDisposed]
    by_cases same : other = task
    · subst same
      exact balance
    · rw [others other same]
      exact balanced.tasks other
  · rw [pushed]
    rcases reached with rfl | ⟨rfl, before, -, -⟩
    · rw [List.append_nil]
      exact balanced.nodup
    · refine List.Nodup.append balanced.nodup (List.nodup_singleton task) ?_
      intro other member again
      rw [List.mem_singleton] at again
      subst again
      have low := (balanced.pending other member).2
      omega
  · intro other member
    rw [pushed] at member
    by_cases same : other = task
    · subst same
      rcases List.mem_append.mp member with before | new
      · exact stillParked before
      · rcases reached with rfl | ⟨-, -, low, parked⟩
        · cases new
        · exact ⟨parked, low⟩
    · rw [others other same]
      refine balanced.pending other ?_
      rcases List.mem_append.mp member with before | new
      · exact before
      · rcases reached with rfl | ⟨rfl, -⟩
        · cases new
        · exact absurd (List.mem_singleton.mp new) same

theorem changeObject (balanced : Balanced system)
    (accounting : TaskAccounting (system.task task)) {owner : TaskId}
    {map : AccessMap} {piece : Piece DataAccess}
    (member : piece ∈ ((system.task task).objects map).pieces)
    {region : DataAccessRegion} (meets : piece.interval.Meets region)
    {setter : Setter}
    (change : SoundChange piece.value (setter.apply piece.value))
    (registered : piece.sides region ≠ 0 → piece.value.registered = true)
    (old : (setter.apply piece.value).registered = true →
      piece.value.registered = true ∨
        (piece.value.objectType = .access ∧
          (system.task task).status = .registering))
    (accountingAfter :
      TaskAccounting ((system.changeObject owner task map piece region
        setter).task task))
    (sound : ((system.changeObject owner task map piece region
      setter).task task).IsSound) :
    Balanced (system.changeObject owner task map piece region setter) := by
  have balance := balanced.tasks task
  have anchored := change.anchored (accounting.anchored map piece member)
  have positive : 0 ≤ (system.task task).counters.removalBlockers :=
    Int.le_trans (Int.natCast_nonneg _) accounting.blockers
  have blocked : piece.value.isCounted = true →
      0 < (system.task task).counters.removalBlockers := by
    intro counted
    have found := countObjects_pos member counted
    have bound := accounting.blockers
    omega
  have pushes :=
    removableTasks_handleChange system.parent task change.toRegularChange
      registered positive blocked
  have stillLive : (setter.apply piece.value).isLiveTaskwait = true →
      piece.value.isLiveTaskwait = true := by
    intro live
    simp only [DataAccess.isLiveTaskwait, DataAccess.isCounted,
      Bool.and_eq_true, Bool.not_eq_true', beq_iff_eq] at live ⊢
    rw [change.objectType] at live
    rcases old live.1.1 with before | ⟨kind, -⟩
    · refine ⟨⟨before, ?_⟩, live.2⟩
      by_contra removable
      have after := change.removable before
        (Bool.eq_true_of_not_eq_false removable)
      rw [live.1.2] at after
      cases after
    · rw [kind] at live
      cases live.2
  have countdown : (system.task task).counters.countdownToBeWokenUp ≤ 0 →
      (handleChange system.parent task piece region setter
        (system.task task).counters).counters.countdownToBeWokenUp ≤ 0 := by
    intro low
    by_cases fresh : (setter.apply piece.value).registered = true →
        piece.value.registered = true
    · have falls :=
        countdown_handleChange_le system.parent task member meets
          change.toRegularChange anchored registered fresh
          accounting.blockers
      exact Int.le_trans falls low
    · -- A task that is being registered has its body left.
      have registering : (system.task task).status = .registering := by
        by_contra notRegistering
        refine fresh fun now => ?_
        rcases old now with before | ⟨-, registering⟩
        · exact before
        · exact absurd registering notRegistering
      have full := balance.countdown
      rw [registering] at full
      simp only [TaskStatus.holdsBody, TaskStatus.waits, Bool.false_and,
        Bool.false_eq_true, if_true, if_false] at full
      split at full <;> split at full <;> omega
  have after :=
    balance.changed accounting accountingAfter sound member meets change
      registered stillLive
      (handleChange system.parent task piece region setter
        (system.task task).counters) rfl
      (by rw [System.task_changeObject, if_pos rfl])
      (by rw [System.task_changeObject, if_pos rfl])
      (by rw [System.task_changeObject, if_pos rfl])
      (by rw [System.task_changeObject, if_pos rfl])
      (by rw [System.task_changeObject, if_pos rfl]) countdown
  have counters :
      ((system.changeObject owner task map piece region setter).task
          task).counters =
        (handleChange system.parent task piece region setter
          (system.task task).counters).counters := by
    rw [System.task_changeObject, if_pos rfl]
  have status :
      ((system.changeObject owner task map piece region setter).task
        task).status = (system.task task).status := by
    rw [System.task_changeObject, if_pos rfl]
  refine balanced.update task ?_ ?_ ?_ after
    ((System.pendingDisposals_changeObject system owner task map piece region
      setter).trans (congrArg _ pushes)) ?_ ?_
  · intro other differ
    rw [System.task_changeObject, if_neg differ]
  · rw [System.task_changeObject, if_pos rfl]
  · rw [status]
  · split
    case isFalse => exact Or.inl rfl
    case isTrue crossing =>
    obtain ⟨before, low⟩ := crossing
    rw [← counters] at low
    refine Or.inr ⟨rfl, before, low, ?_⟩
    rcases after.parked sound low with parked | leaves | isDisposed
    · exact parked
    · rw [status] at leaves
      have isOver := (balance.leaving leaves).2.2
      omega
    · rw [status] at isDisposed
      have isOver := balance.disposed isDisposed
      omega
  · intro pending
    obtain ⟨parked, low⟩ := balanced.pending task pending
    rw [status, counters]
    exact ⟨parked, countdown low⟩

/-- A change of an object that only adds to its status. -/
theorem addsStatus (balanced : Balanced system) (accounted : Accounted system)
    {owner : TaskId} {map : AccessMap} {piece : Piece DataAccess}
    (member : piece ∈ ((system.task task).objects map).pieces)
    {region : DataAccessRegion} (meets : piece.interval.Meets region)
    {setter : Setter} (adds : setter.Adds)
    (accountedAfter :
      Accounted (system.changeObject owner task map piece region setter))
    (clean :
      (system.changeObject owner task map piece region
        setter).assertionFailed = false)
    (sound : ((system.changeObject owner task map piece region
      setter).task task).IsSound) :
    Balanced (system.changeObject owner task map piece region setter) := by
  have asserted :
      (system.assertionFailed || !setter.assertion piece.value ||
        (piece.sides region != 0 && !piece.value.registered)) = false :=
    clean
  simp only [Bool.or_eq_false_iff, Bool.not_eq_false', Bool.and_eq_false_iff,
    bne_eq_false_iff_eq] at asserted
  obtain ⟨⟨cleanBefore, holds⟩, whole⟩ := asserted
  refine balanced.changeObject (accounted cleanBefore task) member meets
    (adds piece.value holds).sound (fun sides => whole.resolve_left sides) ?_
    (accountedAfter clean task) sound
  intro registered
  rw [(adds piece.value holds).registered] at registered
  exact Or.inl registered

/-- A change of a task that its balance does not see. -/
theorem modifyTask (balanced : Balanced system) {change : Task → Task}
    (live : countObjects (change (system.task task)).objects
        DataAccess.isLiveTaskwait =
      countObjects (system.task task).objects DataAccess.isLiveTaskwait)
    (fragments : (change (system.task task)).objects .taskwaitFragments =
      (system.task task).objects .taskwaitFragments)
    (accesses : (change (system.task task)).hasAccesses =
      (system.task task).hasAccesses)
    (bottomMap : ∀ low,
      .createTaskwait low ∈ (change (system.task task)).work →
      (change (system.task task)).subaccessBottomMap =
        (system.task task).subaccessBottomMap)
    (counters :
      (change (system.task task)).counters = (system.task task).counters)
    (status : (change (system.task task)).status = (system.task task).status)
    (children :
      (change (system.task task)).children = (system.task task).children)
    (work : (change (system.task task)).work.filter Work.creates =
      (system.task task).work.filter Work.creates) :
    Balanced (system.modifyTask task change) := by
  have changed : (system.modifyTask task change).task task =
      change (system.task task) := by
    rw [System.task_modifyTask, if_pos rfl]
  refine balanced.update task ?_ ?_ ?_ ?_ (List.append_nil _).symm
    (Or.inl rfl) ?_
  · intro other differ
    rw [System.task_modifyTask, if_neg differ]
  · rw [changed, children]
  · rw [changed, status]
  · rw [changed]
    exact (balanced.tasks task).congr live fragments accesses bottomMap
      counters status work
  · rw [changed, counters, status]
    exact balanced.pending task

theorem setWork (balanced : Balanced system) {work : List Work}
    (creates : work.filter Work.creates =
      (system.task task).work.filter Work.creates) :
    Balanced (system.setWork task work) :=
  balanced.modifyTask rfl rfl rfl (fun _ _ => rfl) rfl rfl rfl creates

/-- A task that is not parked changes its status and its work, but not what
counts in its countdown. -/
theorem restatus (balanced : Balanced system) {change : Task → Task}
    (objects :
      (change (system.task task)).objects = (system.task task).objects)
    (counters : (change (system.task task)).counters =
      { (system.task task).counters with
        predecessorCount :=
          (change (system.task task)).counters.predecessorCount })
    (children :
      (change (system.task task)).children = (system.task task).children)
    (notParked : (system.task task).status.isParked = false)
    (notDisposed : (system.task task).status ≠ .disposed)
    (holdsBody : (change (system.task task)).status.holdsBody =
      (system.task task).status.holdsBody)
    (waits : (change (system.task task)).status.waits =
      (system.task task).status.waits)
    (going : (change (system.task task)).status ≠ .leavingTaskwait ∧
      (change (system.task task)).status ≠ .disposed)
    (work : (system.task task).isCreating = false)
    (workAfter : (change (system.task task)).isCreating = false) :
    Balanced (system.modifyTask task change) := by
  have changed : (system.modifyTask task change).task task =
      change (system.task task) := by
    rw [System.task_modifyTask, if_pos rfl]
  have balance := balanced.tasks task
  have accesses : (change (system.task task)).hasAccesses =
      (system.task task).hasAccesses := by
    simp only [Task.hasAccesses, objects]
  have notCreating : ∀ low,
      .createTaskwait low ∉ (change (system.task task)).work := by
    intro low creates
    have holds := Task.isCreating_iff.mpr ⟨low, creates⟩
    rw [workAfter] at holds
    cases holds
  refine balanced.update task ?_ ?_ ?_ ?_ (List.append_nil _).symm
    (Or.inl rfl) ?_
  · intro other differ
    rw [System.task_modifyTask, if_neg differ]
  · rw [changed, children]
  · rw [changed]
    exact iff_of_false going.2 notDisposed
  · rw [changed]
    refine
      { ledger := ?_
        live := ?_
        blocks := ?_
        once := ?_
        created := fun low creates => absurd creates (notCreating low)
        ahead := fun low creates => absurd creates (notCreating low)
        below := fun creates => absurd creates (notCreating 0)
        leaving := fun leaves => absurd leaves going.1
        disposed := fun isDisposed => absurd isDisposed going.2 }
    · rw [counters, holdsBody, waits, accesses]
      exact balance.ledger
    · rw [counters, objects]
      exact balance.live
    · have same : (change (system.task task)).awaitsFragments =
          (system.task task).awaitsFragments := by
        simp only [Task.awaitsFragments, work, workAfter]
        rw [counters]
      rw [counters, same]
      exact balance.blocks
    · rw [Task.filter_creates workAfter]
      exact Nat.zero_le 1
  · intro pending
    have parked := (balanced.pending task pending).1
    rw [notParked] at parked
    cases parked

/-- A new object that is no taskwait fragment, for a task that neither creates
a taskwait nor is parked. -/
theorem createObject (balanced : Balanced system)
    (accounting : TaskAccounting (system.task task)) {owner : TaskId}
    {map : AccessMap} (region : DataAccessRegion)
    {initial : DataAccessStatusEffects} {access : DataAccess}
    (new : IsNewObject initial access)
    (notTaskwait : access.objectType ≠ .taskwait)
    (notAccess : map ≠ .accesses)
    (idle : (system.task task).isCreating = false)
    (notParked : (system.task task).status.isParked = false)
    (going : (system.task task).status ≠ .leavingTaskwait ∧
      (system.task task).status ≠ .disposed) :
    Balanced (system.createObject owner task map region initial access) := by
  have balance := balanced.tasks task
  have changed :
      (system.createObject owner task map region initial access).task task =
        { system.task task with
          objects :=
            Function.update (system.task task).objects map
              (((system.task task).objects map).insert region access)
          counters :=
            (system.task task).counters.countObject access.objectType } := by
    rw [System.task_createObject, if_pos rfl]
    dsimp only
    rw [new.counters,
      (new.dependencyData system.parent region task
        (system.task task).counters).1]
    simp
  have followed :=
    (system.task task).counters.follow_countObject access.objectType
  rw [if_neg notTaskwait] at followed
  have positive : 0 ≤ (system.task task).counters.removalBlockers :=
    Int.le_trans (Int.natCast_nonneg _) accounting.blockers
  have grows := followed.removalBlockers
  have ledger := followed.ledger positive (by omega)
  have liveSame := followed.liveTaskwaitFragmentCount
  rw [Int.add_zero] at liveSame
  have rises : (system.task task).counters.countdownToBeWokenUp ≤
      ((system.task task).counters.countObject
        access.objectType).countdownToBeWokenUp := by
    rw [Counters.countdown_eq, Counters.countdown_eq (Counters.countObject _ _),
      ledger, followed.taskwaitBlocks, followed.taskwaitUnblocks,
      if_neg (by omega : ¬ ((system.task task).counters.countObject
        access.objectType).removalBlockers = 0)]
    split <;> omega
  have notCreating : ∀ low,
      .createTaskwait low ∉ (system.task task).work := by
    intro low creates
    rw [Task.isCreating_iff.mpr ⟨low, creates⟩] at idle
    cases idle
  refine balanced.update task ?_ ?_ ?_ ?_
    ((System.pendingDisposals_createObject system owner task map region initial
      access).trans (congrArg _ (new.dependencyData system.parent region task
        (system.task task).counters).2)) (Or.inl rfl) ?_
  · intro other differ
    rw [System.task_createObject, if_neg differ]
  · rw [changed]
  · rw [changed]
  · rw [changed]
    refine
      { ledger := ?_
        live := ?_
        blocks := ?_
        once := ?_
        created := fun low creates => absurd creates (notCreating low)
        ahead := fun low creates => absurd creates (notCreating low)
        below := fun creates => absurd creates (notCreating 0)
        leaving := fun leaves => absurd leaves going.1
        disposed := fun isDisposed => absurd isDisposed going.2 }
    · have accesses :
          Task.hasAccesses
            { system.task task with
              objects :=
                Function.update (system.task task).objects map
                  (((system.task task).objects map).insert region access)
              counters :=
                (system.task task).counters.countObject
                  access.objectType } =
            (system.task task).hasAccesses := by
        simp only [Task.hasAccesses]
        rw [Function.update_of_ne notAccess.symm]
      rw [accesses]
      dsimp only
      rw [ledger]
      exact balance.ledger
    · have updated :=
        countObjects_update (system.task task).objects map
          (((system.task task).objects map).insert region access)
          DataAccess.isLiveTaskwait
      have notLive : access.isLiveTaskwait = false := by
        simp [DataAccess.isLiveTaskwait, notTaskwait]
      have same :=
        IntervalMap.countPieces_insert_of_false
          ((system.task task).objects map) region notLive
      dsimp only
      rw [liveSame, balance.live]
      omega
    · have same :
          Task.awaitsFragments
            { system.task task with
              objects :=
                Function.update (system.task task).objects map
                  (((system.task task).objects map).insert region access)
              counters :=
                (system.task task).counters.countObject
                  access.objectType } =
            (system.task task).awaitsFragments := by
        simp only [Task.awaitsFragments, Task.isCreating, liveSame]
      rw [same]
      dsimp only
      rw [followed.taskwaitBlocks, followed.taskwaitUnblocks]
      exact balance.blocks
    · exact balance.once
  · intro pending
    have parked := (balanced.pending task pending).1
    rw [notParked] at parked
    cases parked

/-! ## Registration -/

section Registration

variable {parent : TaskId}

/-- A task that is being registered is sound, whatever happens to its
objects. -/
theorem isSound_of_registering (orderly : Orderly system)
    (same : next.control = system.control)
    (registering : (system.task task).status = .registering) :
    (next.task task).IsSound := by
  have control := congrFun same task
  have status : (next.task task).status = .registering := by
    rw [← registering]
    exact congrArg Control.status control
  have fits := (orderly.phased.of_control same) task
  refine Task.isSound_of_idle (Task.isCreating_of_fits fits ?_) ?_
  · rw [status]
    rfl
  · rw [status]
    rfl

theorem allocateReductionInfo (balanced : Balanced system)
    (accounted : Accounted system) (orderly : Orderly system)
    (registering : (system.task task).status = .registering)
    (progress : LinkProgress)
    (clean : (Nanos6.allocateReductionInfo system task
      progress).assertionFailed = false) :
    Balanced (Nanos6.allocateReductionInfo system task progress) := by
  have accountedAfter := accounted.allocateReductionInfo task progress
  have control := control_allocateReductionInfo system task progress
  have sound := isSound_of_registering orderly control registering
  unfold Nanos6.allocateReductionInfo at clean accountedAfter sound ⊢
  dsimp only at clean accountedAfter sound ⊢
  split
  · exact balanced
  · rename_i piece found
    obtain ⟨member, -, -⟩ := IntervalMap.firstIn_eq_some _ found
    have whole := Interval.meets_self (IntervalMap.nonempty _ piece member)
    simp only [found] at clean accountedAfter sound
    exact (balanced.addsStatus accounted member whole (Setter.adds_allocate _)
      accountedAfter clean sound).congr rfl rfl

theorem allocateForPrevious (balanced : Balanced system)
    (accounted : Accounted system) (orderly : Orderly system)
    (registering : (system.task task).status = .registering)
    (progress : LinkProgress) (previous : DataAccess)
    (clean : (Nanos6.allocateForPrevious system task progress
      previous).1.assertionFailed = false) :
    Balanced
      (Nanos6.allocateForPrevious system task progress previous).1 := by
  unfold Nanos6.allocateForPrevious at clean ⊢
  split at clean
  · split at clean
    · simp only [*, if_true]
      exact balanced.allocateReductionInfo accounted orderly registering
        progress clean
    · split at clean
      · simp only [*, if_true]
        exact balanced
      · split at clean
        · simp only [*, if_true]
          exact balanced.allocateReductionInfo accounted orderly registering
            progress clean
        · simp only [*, if_true]
          exact balanced
  · simp only [*]
    exact balanced

/-- The parent of the task that is being registered does nothing else. -/
theorem idle_of_registering (orderly : Orderly system)
    (same : next.control = system.control)
    (registering : (system.task task).status = .registering)
    (parentIs : (system.task task).parent = some parent) :
    (next.task parent).work = [] ∧
      (next.task parent).status = .running := by
  obtain ⟨registrar, registrarIs, childIs⟩ :=
    orderly.registers task registering
  have found : (system.task task).parent = some registrar := registrarIs
  rw [parentIs] at found
  obtain rfl := Option.some.inj found
  obtain ⟨running, idle⟩ := orderly.running parent task childIs
  have control := congrFun same parent
  constructor
  · rw [← idle]
    exact congrArg Control.work control
  · rw [← running]
    exact congrArg Control.status control

/-- The work of a registration creates no taskwait. -/
theorem creates_of_registering (orderly : Orderly system)
    (same : next.control = system.control) {head : Work} {rest : List Work}
    (working : (system.task task).work = head :: rest)
    (registering : (system.task task).status = .registering)
    (loops : List Work)
    (allowed : ∀ loop ∈ loops, TaskStatus.registering.allows loop = true) :
    (loops ++ rest).filter Work.creates =
      (next.task task).work.filter Work.creates := by
  have fits : WorkFits .registering (head :: rest) := by
    have here := orderly.phased task
    change WorkFits (system.task task).status (system.task task).work at here
    rwa [registering, working] at here
  have outside : ∀ loop, TaskStatus.registering.allows loop = true →
      ¬ loop.creates = true := by
    intro loop permitted
    cases loop <;> simp [TaskStatus.allows, Work.creates] at permitted ⊢
  have none : ∀ loop ∈ head :: rest, ¬ loop.creates = true := by
    obtain ⟨others, work, permitted⟩ := fits
    rw [work]
    intro loop member
    rcases List.mem_append.mp member with inLoops | inLast
    · exact outside loop (permitted loop inLoops)
    · simp only [TaskStatus.last, List.mem_singleton] at inLast
      simp [inLast, Work.creates]
  have work : (next.task task).work = head :: rest := by
    rw [← working]
    exact congrArg Control.work (congrFun same task)
  rw [work, List.filter_eq_nil_iff.mpr none, List.filter_eq_nil_iff]
  intro loop member
  rcases List.mem_append.mp member with inLoops | inRest
  · exact outside loop (allowed loop inLoops)
  · exact none loop (List.mem_cons_of_mem head inRest)

theorem linkPrevious (balanced : Balanced system)
    (accounted : Accounted system) (orderly : Orderly system)
    {head : Work} {rest : List Work}
    (working : (system.task task).work = head :: rest)
    (registering : (system.task task).status = .registering)
    (parentIs : (system.task task).parent = some parent)
    (parentDiffers : parent ≠ task) {previousTask : TaskId}
    (progress : LinkProgress) {map : AccessMap} {piece : Piece DataAccess}
    (differ : previousTask ≠ task)
    (member : system.assertionFailed = false →
      piece ∈ ((system.task previousTask).objects map).pieces)
    {region : DataAccessRegion} (meets : piece.interval.Meets region)
    (parentAccessType : DataAccessType)
    (sound : (Nanos6.linkPrevious system task parent progress map previousTask
      piece region parentAccessType rest).IsSound) :
    Balanced
      (Nanos6.linkPrevious system task parent progress map previousTask piece
        region parentAccessType rest) := by
  have accountedStart :=
    accounted.allocateForPrevious task progress piece.value
  have balancedStart :=
    balanced.allocateForPrevious accounted orderly registering progress
      piece.value
  have untouched :=
    task_allocateForPrevious_of_ne system progress piece.value differ
  have monotone :
      (Nanos6.allocateForPrevious system task progress
        piece.value).1.assertionFailed = false →
      system.assertionFailed = false :=
    assertionFailed_allocateForPrevious system progress piece.value
  have control := control_allocateForPrevious system task progress piece.value
  unfold Nanos6.linkPrevious at sound ⊢
  generalize Nanos6.allocateForPrevious system task progress piece.value =
    outcome at *
  obtain ⟨start, decided⟩ := outcome
  dsimp only at *
  have clean := sound.asserted
  have asserted : (start.assertionFailed || _ || _) = false := clean
  simp only [Bool.or_eq_false_iff] at asserted
  have cleanStart := asserted.1.1
  have startMember :
      piece ∈ ((start.task previousTask).objects map).pieces := by
    rw [untouched]
    exact member (monotone cleanStart)
  have linkedControl :
      (start.changeObject task previousTask map piece region
        (.linkTo ⟨task, .access⟩)).control = system.control := by
    rw [System.control_changeObject, control]
  have idle := idle_of_registering orderly linkedControl registering parentIs
  have linked : Balanced
      (start.changeObject task previousTask map piece region
        (.linkTo ⟨task, .access⟩)) := by
    refine (balancedStart cleanStart).addsStatus accountedStart startMember
      meets (Setter.adds_linkTo _)
      (accountedStart.addsStatus task previousTask startMember meets
        (Setter.adds_linkTo _) (Setter.keepsComplete_linkTo _)) clean ?_
    have final := sound.tasks previousTask
    rw [System.setWork, System.task_modifyTask, if_neg differ,
      System.task_modifyTask] at final
    by_cases same : previousTask = parent
    · rw [if_pos same] at final
      subst same
      exact final.congr (fun _ creates => creates) rfl rfl rfl rfl
    · rw [if_neg same] at final
      exact final
  refine Balanced.setWork (Balanced.modifyTask linked rfl rfl rfl ?_ rfl rfl
    rfl rfl) ?_
  · intro low creates
    dsimp only at creates
    rw [idle.1] at creates
    cases creates
  · rw [System.task_modifyTask, if_neg parentDiffers.symm]
    exact creates_of_registering orderly linkedControl working
      registering [.replaceMatching _] (by simp [TaskStatus.allows])

theorem matchEntry (balanced : Balanced system)
    (accounted : Accounted system) (orderly : Orderly system)
    {progress : LinkProgress} {rest : List Work}
    (working : (system.task task).work = .replaceMatching progress :: rest)
    (registering : (system.task task).status = .registering)
    (parentIs : (system.task task).parent = some parent)
    (parentDiffers : parent ≠ task) {entry : Piece BottomMapEntry}
    (matched : Nanos6.matchEntry system task parent progress entry rest =
      some next)
    (sound : next.IsSound) : Balanced next := by
  unfold Nanos6.matchEntry at matched
  dsimp only at matched
  split at matched
  · cases matched
  · rename_i free
    split at matched
    · cases matched
      refine Balanced.setWork (Balanced.modifyTask balanced rfl rfl rfl ?_
        rfl rfl rfl rfl) ?_
      · intro low creates
        dsimp only at creates
        rw [(idle_of_registering orderly rfl registering parentIs).1]
          at creates
        cases creates
      · rw [System.task_modifyTask, if_neg parentDiffers.symm]
        exact creates_of_registering orderly rfl working registering
          [.replaceMatching _] (by simp [TaskStatus.allows])
    · rename_i piece found
      cases matched
      obtain ⟨member, meets, _⟩ := IntervalMap.firstIn_eq_some _ found
      refine balanced.linkPrevious accounted orderly working registering
        parentIs parentDiffers progress ?_ (fun _ => member) meets _ sound
      -- The task itself is locked by its own registration.
      intro same
      refine free ⟨?_, ?_⟩
      · rw [same]
        exact parentDiffers.symm
      · rw [same]
        simp [System.locked, Task.isLinking, working]

theorem createInitialFragment (balanced : Balanced system)
    (accounted : Accounted system) (orderly : Orderly system)
    (registering : (system.task task).status = .registering)
    (parentIs : (system.task task).parent = some parent)
    {superaccess : Piece DataAccess}
    (member : superaccess ∈ ((system.task parent).objects .accesses).pieces)
    (subregion : DataAccessRegion)
    (clean : system.assertionFailed = false) :
    Balanced
      (Nanos6.createInitialFragment system task parent superaccess
        subregion) := by
  obtain ⟨idle, running⟩ :=
    idle_of_registering orderly rfl registering parentIs
  have created : Balanced
      (system.createObject task parent .accessFragments superaccess.interval
        {} (initialFragment superaccess.value)) := by
    refine balanced.createObject (accounted clean parent) superaccess.interval
      (isNewObject_initialFragment superaccess.value) (by
        simp [initialFragment, createAccess]) (by simp) ?_ ?_ ?_
    · simp [Task.isCreating, idle]
    · rw [running]
      rfl
    · rw [running]
      simp
  have accesses : ((system.createObject task parent .accessFragments
      superaccess.interval {} (initialFragment superaccess.value)).task
        parent).objects .accesses = (system.task parent).objects .accesses := by
    rw [System.task_createObject, if_pos rfl]
    dsimp only
    rw [Function.update_of_ne (by simp)]
  have work : ((system.createObject task parent .accessFragments
      superaccess.interval {} (initialFragment superaccess.value)).task
        parent).work = [] := by
    rw [System.task_createObject, if_pos rfl]
    exact idle
  rw [← accesses] at member
  obtain ⟨start, startIs⟩ : ∃ start, start =
      system.createObject task parent .accessFragments superaccess.interval {}
        (initialFragment superaccess.value) :=
    ⟨_, rfl⟩
  rw [← startIs] at created member work
  have modified : Balanced
      (start.modifyTask parent fun current =>
        { current with
          objects :=
            Function.update current.objects .accesses
              ((current.objects .accesses).replace superaccess
                superaccess.interval
                (some { superaccess.value with hasSubaccesses := true }))
          subaccessBottomMap :=
            insertExcludedEntries current.subaccessBottomMap
              superaccess.interval subregion
              ⟨⟨parent, .fragment⟩, superaccess.value.type⟩ }) := by
    refine created.modifyTask ?_ ?_ ?_ ?_ rfl rfl rfl rfl
    · exact countObjects_update_same _
        (IntervalMap.countPieces_replace_same _ member rfl)
    · dsimp only
      rw [Function.update_of_ne (by simp)]
    · have stillNonempty :=
        IntervalMap.replace_ne_nil _ member
          (Interval.meets_self (IntervalMap.nonempty _ superaccess member))
          { superaccess.value with hasSubaccesses := true }
      simp only [Task.hasAccesses, Function.update_self]
      rw [List.isEmpty_eq_false_iff.mpr (List.ne_nil_of_mem member),
        List.isEmpty_eq_false_iff.mpr stillNonempty]
    · intro low creates
      dsimp only at creates
      rw [work] at creates
      cases creates
  subst startIs
  exact modified.congr rfl rfl

theorem matchSuperaccess (balanced : Balanced system)
    (accounted : Accounted system) (orderly : Orderly system)
    {progress : LinkProgress} {rest : List Work}
    (working : (system.task task).work = .replaceMatching progress :: rest)
    (registering : (system.task task).status = .registering)
    (parentIs : (system.task task).parent = some parent)
    (parentDiffers : parent ≠ task) {superaccess : Piece DataAccess}
    (member : superaccess ∈ ((system.task parent).objects .accesses).pieces)
    {missing : DataAccessRegion}
    (meets : superaccess.interval.Meets missing)
    (sound : (Nanos6.matchSuperaccess system task parent progress superaccess
      missing rest).IsSound) :
    Balanced
      (Nanos6.matchSuperaccess system task parent progress superaccess missing
        rest) := by
  have control :=
    control_createInitialFragment system task parent superaccess missing
  have same := congrFun control task
  have cleanCreated := assertionFailed_linkPrevious sound.asserted
  have clean := assertionFailed_createInitialFragment cleanCreated
  exact (balanced.createInitialFragment accounted orderly registering
    parentIs member missing clean).linkPrevious
      (accounted.createInitialFragment task parent member missing)
      (orderly.of_control control)
      ((congrArg Control.work same).trans working)
      ((congrArg Control.status same).trans registering)
      ((congrArg Control.parent same).trans parentIs) parentDiffers progress
      parentDiffers Accounted.mem_createInitialFragment meets
      superaccess.value.type sound

theorem matchUncovered (balanced : Balanced system)
    (accounted : Accounted system) (orderly : Orderly system)
    {progress : LinkProgress} {rest : List Work}
    (working : (system.task task).work = .replaceMatching progress :: rest)
    (registering : (system.task task).status = .registering)
    (uncovered : DataAccessRegion)
    (sound : (Nanos6.matchUncovered system task progress uncovered
      rest).IsSound) :
    Balanced (Nanos6.matchUncovered system task progress uncovered rest) := by
  unfold Nanos6.matchUncovered at sound ⊢
  dsimp only at sound ⊢
  obtain ⟨start, startIs⟩ : ∃ start, start =
      if (progress.isReduction && !progress.hasAllocatedReductionInfo) = true
      then Nanos6.allocateReductionInfo system task progress else system :=
    ⟨_, rfl⟩
  rw [← startIs] at sound ⊢
  have control : start.control = system.control := by
    rw [startIs]
    split
    · exact control_allocateReductionInfo system task progress
    · rfl
  have accountedStart : Accounted start := by
    rw [startIs]
    split
    · exact accounted.allocateReductionInfo task progress
    · exact accounted
  have balancedStart : start.assertionFailed = false → Balanced start := by
    rw [startIs]
    split
    · exact balanced.allocateReductionInfo accounted orderly registering
        progress
    · exact fun _ => balanced
  split
  · rename_i none
    simp only [none] at sound
    refine (balancedStart sound.asserted).setWork ?_
    exact creates_of_registering orderly control working registering
      [.replaceMatching _] (by simp [TaskStatus.allows])
  · rename_i piece found
    simp only [found] at sound
    obtain ⟨member, meets, _⟩ := IntervalMap.firstIn_eq_some _ found
    have clean := sound.asserted
    have asserted : (start.assertionFailed || _ || _) = false := clean
    simp only [Bool.or_eq_false_iff] at asserted
    have satisfiedControl :
        (start.changeObject task task .accesses piece uncovered
          .satisfyLocally).control = system.control := by
      rw [System.control_changeObject, control]
    refine ((balancedStart asserted.1.1).addsStatus accountedStart member meets
      Setter.adds_satisfyLocally
      (accountedStart.addsStatus task task member meets
        Setter.adds_satisfyLocally Setter.keepsComplete_satisfyLocally) clean
      (isSound_of_registering orderly satisfiedControl registering)).setWork
      ?_
    exact creates_of_registering orderly satisfiedControl working
      registering [.replaceMatching _] (by simp [TaskStatus.allows])

theorem matchMissing (balanced : Balanced system)
    (accounted : Accounted system) (orderly : Orderly system)
    {progress : LinkProgress} {rest : List Work}
    (working : (system.task task).work = .replaceMatching progress :: rest)
    (registering : (system.task task).status = .registering)
    (parentIs : (system.task task).parent = some parent)
    (parentDiffers : parent ≠ task) (missing : DataAccessRegion)
    (sound : (Nanos6.matchMissing system task parent progress missing
      rest).IsSound) :
    Balanced
      (Nanos6.matchMissing system task parent progress missing rest) := by
  unfold Nanos6.matchMissing at sound ⊢
  split
  · rename_i none
    simp only [none] at sound
    exact balanced.matchUncovered accounted orderly working registering
      missing sound
  · rename_i superaccess found
    simp only [found] at sound
    obtain ⟨member, meets, _⟩ := IntervalMap.firstIn_eq_some _ found
    split
    · rename_i covered
      rw [if_pos covered] at sound
      exact balanced.matchSuperaccess accounted orderly working registering
        parentIs parentDiffers member meets sound
    · rename_i uncovered
      rw [if_neg uncovered] at sound
      exact balanced.matchUncovered accounted orderly working registering _
        sound

theorem replaceMatching (balanced : Balanced system)
    (accounted : Accounted system) (orderly : Orderly system)
    {progress : LinkProgress} {rest : List Work}
    (working : (system.task task).work = .replaceMatching progress :: rest)
    (registering : (system.task task).status = .registering)
    (parentIs : (system.task task).parent = some parent)
    (parentDiffers : parent ≠ task)
    (matched :
      replaceMatchingInBottomMapLinkAndPropagate system task parent progress
        rest = some next)
    (sound : next.IsSound) : Balanced next := by
  unfold replaceMatchingInBottomMapLinkAndPropagate at matched
  dsimp only at matched
  split at matched
  · cases matched
    refine Balanced.setWork (Balanced.modifyTask balanced rfl rfl rfl ?_ rfl
      rfl rfl rfl) ?_
    · intro low creates
      dsimp only at creates
      rw [(idle_of_registering orderly rfl registering parentIs).1] at creates
      cases creates
    · rw [System.task_modifyTask, if_neg parentDiffers.symm]
      exact creates_of_registering orderly rfl working registering []
        (by simp)
  · split at matched
    · cases matched
      exact balanced.matchMissing accounted orderly working registering
        parentIs parentDiffers _ sound
    · split at matched
      · exact balanced.matchEntry accounted orderly working registering
          parentIs parentDiffers matched sound
      · cases matched
        exact balanced.matchMissing accounted orderly working registering
          parentIs parentDiffers _ sound

theorem linkTaskAccesses (balanced : Balanced system)
    (accounted : Accounted system) (orderly : Orderly system) {low : Nat}
    {rest : List Work}
    (working : (system.task task).work = .linkTaskAccesses low :: rest)
    (registering : (system.task task).status = .registering)
    (sound : (Nanos6.linkTaskAccesses system task low rest).IsSound) :
    Balanced (Nanos6.linkTaskAccesses system task low rest) := by
  have accountedAfter := accounted.linkTaskAccesses registering low rest
  unfold Nanos6.linkTaskAccesses at sound accountedAfter ⊢
  split
  · refine balanced.setWork ?_
    exact creates_of_registering orderly rfl working registering []
      (by simp)
  · rename_i piece found
    simp only [found] at sound accountedAfter
    obtain ⟨member, _⟩ := IntervalMap.nextFrom_eq_some _ found
    have meets :=
      Interval.meets_self
        (((system.task task).objects .accesses).nonempty piece member)
    have clean := sound.asserted
    have asserted : (system.assertionFailed || _ || _) = false := clean
    simp only [Bool.or_eq_false_iff, Bool.and_eq_false_iff,
      bne_eq_false_iff_eq] at asserted
    have accounting := accounted asserted.1.1 task
    have control :
        (system.changeObject task task .accesses piece piece.interval
          (Setter.setInBottomMap.andThen .setRegistered)).control =
          system.control :=
      System.control_changeObject system task task _ _ _ _
    have typed := accounting.typed .accesses piece member
    have kind : piece.value.objectType = .access := by
      revert typed
      cases piece.value.objectType <;> simp [DataAccessObjectType.map]
    refine Balanced.setWork (balanced.changeObject accounting member meets
      (Setter.sound_register (accounting.anchored .accesses piece member)
        fun _ => accounting.incomplete registering piece member) ?_
      (fun _ => Or.inr ⟨kind, registering⟩) ?_
      (isSound_of_registering orderly control registering)) ?_
    · intro sides
      simp [Piece.sides] at sides
    · have after := accountedAfter clean task
      rw [System.setWork, System.task_modifyTask, if_pos rfl] at after
      exact after.congr rfl rfl rfl rfl rfl
    · exact creates_of_registering orderly control working registering
        [.replaceMatching _, .linkTaskAccesses _]
        (by simp [TaskStatus.allows])

end Registration

/-! ## Updates -/

theorem processUpdateOperation (balanced : Balanced system)
    (accounted : Accounted system) {index : Nat}
    (processed : Nanos6.processUpdateOperation system index = some next)
    (sound : next.IsSound) : Balanced next := by
  unfold Nanos6.processUpdateOperation at processed
  split at processed
  · cases processed
  · rename_i owner operation _
    dsimp only at processed
    split at processed
    · cases processed
    · split at processed
      · cases processed
        exact balanced.congr rfl rfl
      · rename_i piece found
        cases processed
        obtain ⟨member, meets, _⟩ := IntervalMap.firstIn_eq_some _ found
        exact (balanced.addsStatus accounted member meets
          (Setter.adds_applyUpdateOperation operation)
          (accounted.addsStatus owner operation.target.task member meets
            (Setter.adds_applyUpdateOperation operation)
            (Setter.keepsComplete_applyUpdateOperation operation))
          sound.asserted (sound.tasks operation.target.task)).congr rfl rfl

theorem processBottomMapUpdate (balanced : Balanced system)
    (accounted : Accounted system) {index : Nat}
    (processed : Nanos6.processBottomMapUpdate system index = some next)
    (sound : next.IsSound) : Balanced next := by
  unfold Nanos6.processBottomMapUpdate at processed
  split at processed
  · cases processed
  · rename_i owner task operation _
    dsimp only at processed
    split at processed
    · cases processed
    · split at processed
      · cases processed
        exact balanced.congr rfl rfl
      · rename_i entry _
        split at processed
        · cases processed
        · split at processed
          · cases processed
            exact balanced.congr rfl rfl
          · rename_i piece found
            cases processed
            obtain ⟨member, meets, _⟩ := IntervalMap.firstIn_eq_some _ found
            obtain ⟨start, startIs⟩ : ∃ start : System, start =
                { system with
                  bottomMapUpdates :=
                    system.bottomMapUpdates.take index ++
                      (owner, task,
                        { operation with
                          region :=
                            ⟨(piece.interval.inter
                              (entry.interval.inter operation.region)).stop,
                              operation.region.stop⟩ }) ::
                      system.bottomMapUpdates.drop (index + 1) } :=
              ⟨_, rfl⟩
            have balancedStart : Balanced start :=
              balanced.congr (by rw [startIs]) (by rw [startIs])
            have accountedStart : Accounted start := by
              rw [startIs]
              exact accounted
            have startMember : piece ∈
                ((start.task entry.value.link.task).objects
                  entry.value.link.objectType.map).pieces := by
              rw [startIs]
              exact member
            rw [← startIs] at sound ⊢
            exact balancedStart.addsStatus accountedStart startMember meets
              (Setter.adds_followParent operation)
              (accountedStart.addsStatus owner entry.value.link.task
                startMember meets (Setter.adds_followParent operation)
                (Setter.keepsComplete_followParent operation))
              sound.asserted (sound.tasks entry.value.link.task)

/-! ## Completing accesses -/

/-- A change of an object by the operation in progress of a task, which goes
on with other loops. -/
theorem addsStatus_setWork (balanced : Balanced system)
    (accounted : Accounted system) {owner target : TaskId} {map : AccessMap}
    {piece : Piece DataAccess}
    (member : piece ∈ ((system.task target).objects map).pieces)
    {region : DataAccessRegion} (meets : piece.interval.Meets region)
    {setter : Setter} (adds : setter.Adds)
    (accountedAfter :
      Accounted (system.changeObject owner target map piece region setter))
    {work : List Work}
    (creates : work.filter Work.creates =
      (system.task task).work.filter Work.creates)
    (sound : ((system.changeObject owner target map piece region
      setter).setWork task work).IsSound) :
    Balanced ((system.changeObject owner target map piece region
      setter).setWork task work) := by
  have sameWork :
      ((system.changeObject owner target map piece region setter).task
        task).work = (system.task task).work :=
    congrArg Control.work (congrFun
      (System.control_changeObject system owner target map piece region
        setter) task)
  have changed : Balanced
      (system.changeObject owner target map piece region setter) := by
    refine balanced.addsStatus accounted member meets adds accountedAfter
      sound.asserted ?_
    have final := sound.tasks target
    rw [System.setWork, System.task_modifyTask] at final
    split at final
    · rename_i same
      subst same
      refine final.congr ?_ rfl rfl rfl rfl
      intro low inWork
      rw [sameWork] at inWork
      exact (Work.mem_of_filter creates low).mpr inWork
    · exact final
  refine changed.setWork ?_
  rw [sameWork]
  exact creates

theorem finalizeFragments (balanced : Balanced system)
    (accounted : Accounted system) {low : Nat} {rest : List Work}
    (working : (system.task task).work = .finalizeFragments low :: rest)
    (started : (system.task task).status.hasStarted = true)
    (sound : (Nanos6.finalizeFragments system task low rest).IsSound) :
    Balanced (Nanos6.finalizeFragments system task low rest) := by
  unfold Nanos6.finalizeFragments at sound ⊢
  split
  · exact balanced.setWork (by simp [working, Work.creates])
  · rename_i piece found
    simp only [found] at sound
    obtain ⟨member, _⟩ := IntervalMap.nextFrom_eq_some _ found
    dsimp only at sound ⊢
    split
    · exact balanced.setWork (by simp [working, Work.creates])
    · rename_i incomplete
      rw [if_neg incomplete] at sound
      have meets :=
        Interval.meets_self
          (((system.task task).objects .accessFragments).nonempty piece member)
      exact balanced.addsStatus_setWork accounted member meets
        Setter.adds_setComplete
        (accounted.setComplete task task member meets started)
        (by simp [working, Work.creates]) sound

theorem finalizeFragmentsOf (balanced : Balanced system)
    (accounted : Accounted system) {region : DataAccessRegion}
    {rest : List Work}
    (working : (system.task task).work = .finalizeFragmentsOf region :: rest)
    (started : (system.task task).status.hasStarted = true)
    (sound : (Nanos6.finalizeFragmentsOf system task region rest).IsSound) :
    Balanced (Nanos6.finalizeFragmentsOf system task region rest) := by
  unfold Nanos6.finalizeFragmentsOf at sound ⊢
  split
  · exact balanced.setWork (by simp [working, Work.creates])
  · rename_i piece found
    simp only [found] at sound
    obtain ⟨member, meets, _⟩ := IntervalMap.firstIn_eq_some _ found
    exact balanced.addsStatus_setWork accounted member meets
      Setter.adds_setComplete
      (accounted.setComplete task task member meets started)
      (by simp [working, Work.creates]) sound

theorem finalizeAccess (balanced : Balanced system)
    (accounted : Accounted system) {region : DataAccessRegion}
    {rest : List Work}
    (working : (system.task task).work = .finalizeAccesses region :: rest)
    (started : (system.task task).status.hasStarted = true)
    (sound : (Nanos6.finalizeAccess system task region rest).IsSound) :
    Balanced (Nanos6.finalizeAccess system task region rest) := by
  unfold Nanos6.finalizeAccess at sound ⊢
  split
  · exact balanced.setWork (by simp [working, Work.creates])
  · rename_i piece found
    simp only [found] at sound
    obtain ⟨member, meets, _⟩ := IntervalMap.firstIn_eq_some _ found
    split
    · exact balanced.setWork (by simp [working, Work.creates])
    · rename_i incomplete
      rw [if_neg incomplete] at sound
      refine balanced.addsStatus_setWork accounted member meets
        Setter.adds_setComplete
        (accounted.setComplete task task member meets started) ?_ sound
      split <;> simp [working, Work.creates]

theorem linkToTaskwait (balanced : Balanced system)
    (accounted : Accounted system) {previous : DataAccessLink}
    {region : DataAccessRegion} {rest : List Work}
    (working : (system.task task).work =
      .linkToTaskwait previous region :: rest)
    (linked : Nanos6.linkToTaskwait system task previous region rest =
      some next)
    (sound : next.IsSound) : Balanced next := by
  unfold Nanos6.linkToTaskwait at linked
  split at linked
  · cases linked
  · split at linked
    · cases linked
      exact balanced.setWork (by simp [working, Work.creates])
    · rename_i piece found
      cases linked
      obtain ⟨member, meets, _⟩ := IntervalMap.firstIn_eq_some _ found
      exact balanced.addsStatus_setWork accounted member meets
        (Setter.adds_linkTo _)
        (accounted.addsStatus task previous.task member meets
          (Setter.adds_linkTo _) (Setter.keepsComplete_linkTo _))
        (by simp [working, Work.creates]) sound

end Balanced

end Nanos6
