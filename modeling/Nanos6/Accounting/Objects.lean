import Nanos6.Dependencies.System

/-!
# Counting the objects of a task

The dependency system counts objects in three counters of a task and changes
the counters from differences of status effects.  Here the counters are
compared with the numbers of objects in the maps of the task: a change of an
object keeps the difference between each counter and its number.
-/

namespace Nanos6

open Foundation

namespace DataAccess

/-- An object that holds its task in memory. -/
def isCounted (access : DataAccess) : Bool :=
  access.registered && !access.isRemovable

/-- An object that holds the body of its task back. -/
def isEnforcing (access : DataAccess) : Bool :=
  access.registered && access.enforcesDependency

/-- An object that holds its task in a taskwait. -/
def isLiveTaskwait (access : DataAccess) : Bool :=
  access.isCounted && access.objectType == .taskwait

/-- A registered access or fragment is at the bottom or has a next object. -/
def IsAnchored (access : DataAccess) : Prop :=
  access.registered = true →
    access.objectType = .access ∨ access.objectType = .fragment →
      access.inBottomMap = true ∨ access.hasNext = true

end DataAccess

/-- The number of objects of a task that satisfy `test`. -/
def countObjects (objects : AccessMap → IntervalMap DataAccess)
    (test : DataAccess → Bool) : Nat :=
  (objects .accesses).countPieces test +
    (objects .accessFragments).countPieces test +
    (objects .taskwaitFragments).countPieces test

theorem countObjects_update (objects : AccessMap → IntervalMap DataAccess)
    (map : AccessMap) (replacement : IntervalMap DataAccess)
    (test : DataAccess → Bool) :
    countObjects (Function.update objects map replacement) test +
        (objects map).countPieces test =
      countObjects objects test + replacement.countPieces test := by
  cases map <;> simp [countObjects] <;> omega

theorem countObjects_update_same
    (objects : AccessMap → IntervalMap DataAccess) {map : AccessMap}
    {replacement : IntervalMap DataAccess} {test : DataAccess → Bool}
    (same : replacement.countPieces test = (objects map).countPieces test) :
    countObjects (Function.update objects map replacement) test =
      countObjects objects test := by
  have updated := countObjects_update objects map replacement test
  omega

theorem countPieces_le_countObjects
    (objects : AccessMap → IntervalMap DataAccess) (map : AccessMap)
    (test : DataAccess → Bool) :
    (objects map).countPieces test ≤ countObjects objects test := by
  cases map <;> simp only [countObjects] <;> omega

theorem countObjects_pos {objects : AccessMap → IntervalMap DataAccess}
    {map : AccessMap} {piece : Piece DataAccess}
    (member : piece ∈ (objects map).pieces) {test : DataAccess → Bool}
    (holds : test piece.value = true) :
    0 < countObjects objects test :=
  Nat.lt_of_lt_of_le ((objects map).countPieces_pos member holds)
    (countPieces_le_countObjects objects map test)

namespace Counters

/-- What the countdown holds apart from the contributions of the objects and of
the taskwait fragments. -/
def ledger (counters : Counters) : Int :=
  counters.countdownToBeWokenUp -
      (if counters.removalBlockers = 0 then 0 else 1) -
    (counters.taskwaitBlocks - counters.taskwaitUnblocks)

/-- The counters follow objects that come and go: `counted`, `live` and
`enforcing` are the differences in the numbers of objects, and `unblocked` tells
how often the last live taskwait fragment has gone.  The contribution to the
countdown follows by itself while the number of blockers makes sense. -/
structure Follow (before after : Counters) (counted live enforcing : Int)
    (unblocked : Nat) : Prop where
  removalBlockers :
    after.removalBlockers = before.removalBlockers + counted
  liveTaskwaitFragmentCount :
    after.liveTaskwaitFragmentCount = before.liveTaskwaitFragmentCount + live
  predecessorCount :
    after.predecessorCount = before.predecessorCount + enforcing
  taskwaitBlocks : after.taskwaitBlocks = before.taskwaitBlocks
  taskwaitUnblocks :
    after.taskwaitUnblocks = before.taskwaitUnblocks + unblocked
  ledger :
    0 ≤ before.removalBlockers → 0 ≤ after.removalBlockers →
      after.ledger = before.ledger

theorem Follow.refl (counters : Counters) :
    Follow counters counters 0 0 0 0 where
  removalBlockers := by omega
  liveTaskwaitFragmentCount := by omega
  predecessorCount := by omega
  taskwaitBlocks := rfl
  taskwaitUnblocks := rfl
  ledger := fun _ _ => rfl

/-- Objects that come, followed by objects that come or go. -/
theorem Follow.trans {before middle after : Counters}
    {firstCounted firstLive firstEnforcing counted live enforcing : Int}
    {firstUnblocked unblocked : Nat}
    (first :
      Follow before middle firstCounted firstLive firstEnforcing
        firstUnblocked)
    (second : Follow middle after counted live enforcing unblocked)
    (positive : 0 ≤ firstCounted) :
    Follow before after (firstCounted + counted) (firstLive + live)
      (firstEnforcing + enforcing) (firstUnblocked + unblocked) where
  removalBlockers := by
    rw [second.removalBlockers, first.removalBlockers]
    omega
  liveTaskwaitFragmentCount := by
    rw [second.liveTaskwaitFragmentCount, first.liveTaskwaitFragmentCount]
    omega
  predecessorCount := by
    rw [second.predecessorCount, first.predecessorCount]
    omega
  taskwaitBlocks := second.taskwaitBlocks.trans first.taskwaitBlocks
  taskwaitUnblocks := by
    rw [second.taskwaitUnblocks, first.taskwaitUnblocks]
    omega
  ledger := by
    intro beforePositive afterPositive
    have middlePositive : 0 ≤ middle.removalBlockers := by
      rw [first.removalBlockers]
      omega
    rw [second.ledger middlePositive afterPositive,
      first.ledger beforePositive middlePositive]

theorem follow_countObject (counters : Counters)
    (objectType : DataAccessObjectType) :
    Follow counters (counters.countObject objectType) 1
      (if objectType = .taskwait then 1 else 0) 0 0 := by
  by_cases zero : counters.removalBlockers = 0
  · constructor <;> cases objectType <;>
      simp [countObject, zero, increaseRemovalBlockingCount, ledger]
  · constructor <;> cases objectType <;>
      simp [countObject, zero, ledger] <;> omega

theorem follow_increasePredecessors (counters : Counters) (amount : Int) :
    Follow counters (counters.increasePredecessors amount) 0 0 amount 0 := by
  constructor <;> simp [increasePredecessors, ledger]
  exact fun _ => rfl

theorem follow_decreasePredecessors (counters : Counters) (amount : Int) :
    Follow counters (counters.decreasePredecessors amount).1
      0 0 (-amount) 0 := by
  constructor <;> simp [decreasePredecessors, ledger, Int.sub_eq_add_neg]
  exact fun _ => rfl

end Counters

/-- An integer that counts one thing. -/
def indicator (condition : Bool) : Int :=
  if condition then 1 else 0

theorem follow_handleRemoval (initial updated : DataAccessStatusEffects)
    (access : DataAccess) (task : TaskId) (counters : Counters)
    (monotone : initial.isRemovable = true → updated.isRemovable = true) :
    let removed := !initial.isRemovable && updated.isRemovable
    let taskwait := removed && access.objectType == .taskwait
    let after := (handleRemoval initial updated access task counters).1
    Counters.Follow counters after
      (-(indicator removed)) (-(indicator taskwait)) 0
      (if taskwait = true ∧ after.liveTaskwaitFragmentCount = 0 then 1
        else 0) := by
  intro removed taskwait after
  cases before : initial.isRemovable with
  | true =>
      have still := monotone before
      have unchanged : after = counters := by
        simp [after, handleRemoval, before, still]
      rw [unchanged]
      have none : removed = false := by simp [removed, before]
      simpa [taskwait, none, indicator] using Counters.Follow.refl counters
  | false =>
      cases now : updated.isRemovable with
      | false =>
          have unchanged : after = counters := by
            simp [after, handleRemoval, before, now]
          rw [unchanged]
          have none : removed = false := by simp [removed, now]
          simpa [taskwait, none, indicator] using Counters.Follow.refl counters
      | true =>
          have gone : removed = true := by simp [removed, before, now]
          by_cases isTaskwait : access.objectType = .taskwait
          · by_cases lastLive : counters.liveTaskwaitFragmentCount - 1 = 0 <;>
              by_cases lastBlocker : counters.removalBlockers - 1 = 0 <;>
              constructor <;>
              simp [after, taskwait, gone, isTaskwait, handleRemoval, before,
                now, lastLive, lastBlocker, indicator, Counters.ledger,
                Counters.decreaseRemovalBlockingCount] <;>
              omega
          · by_cases lastBlocker : counters.removalBlockers - 1 = 0 <;>
              constructor <;>
              simp [after, taskwait, gone, isTaskwait, handleRemoval, before,
                now, lastBlocker, indicator, Counters.ledger,
                Counters.decreaseRemovalBlockingCount] <;>
              omega

/-! ## Changing one object -/

/-- What the accounting needs to know about a change of an object: a
registered object stays registered and removable, and it does not begin to
enforce a dependency. -/
structure RegularChange (before after : DataAccess) : Prop where
  objectType : after.objectType = before.objectType
  registered : before.registered = true → after.registered = true
  removable : before.registered = true →
    before.isRemovable = true → after.isRemovable = true
  enforces : before.registered = true →
    after.enforcesDependency = true → before.enforcesDependency = true
  fresh : before.registered = false → after.registered = true →
    before.isRemovable = false ∧ after.isRemovable = false ∧
      after.enforcesDependency = before.enforcesDependency

theorem handleRemoval_congr {initial updated : DataAccessStatusEffects}
    {first second : DataAccess} (same : first.objectType = second.objectType)
    (task : TaskId) (counters : Counters) :
    handleRemoval initial updated first task counters =
      handleRemoval initial updated second task counters := by
  unfold handleRemoval
  rw [same]

theorem counters_handleDataAccessStatusChanges
    (initial updated : DataAccessStatusEffects) (access : DataAccess)
    (region : DataAccessRegion) (task : TaskId) (counters : Counters) :
    (handleDataAccessStatusChanges initial updated access region task
        counters).counters =
      if updated.isRegistered then
        (handleRemoval initial updated access task
          (handleDependency initial updated
            (handleRegistration initial updated access counters)).1).1
      else
        handleRegistration initial updated access counters := by
  unfold handleDataAccessStatusChanges
  cases registered : updated.isRegistered with
  | false => simp
  | true =>
      simp only [Bool.not_true, Bool.false_eq_true, if_false, if_true]
      rw [handleRemoval_congr]
      obtain ⟨cpus, joined⟩ :=
        joined_propagate initial updated access region task
      rw [joined]

theorem follow_handleDependency (initial updated : DataAccessStatusEffects)
    (counters : Counters)
    (monotone :
      updated.enforcesDependency = true → initial.enforcesDependency = true) :
    Counters.Follow counters (handleDependency initial updated counters).1 0 0
      (indicator updated.enforcesDependency -
        indicator initial.enforcesDependency) 0 := by
  cases now : updated.enforcesDependency with
  | true =>
      simpa [handleDependency, now, monotone now, indicator] using
        Counters.Follow.refl counters
  | false =>
      cases before : initial.enforcesDependency with
      | false =>
          simpa [handleDependency, now, before, indicator] using
            Counters.Follow.refl counters
      | true =>
          simpa [handleDependency, now, before, indicator] using
            Counters.follow_decreasePredecessors counters 1

/-- A registered object changes. -/
private theorem follow_registered (parent : TaskId → Option TaskId)
    {before after : DataAccess} (regular : RegularChange before after)
    (registered : before.registered = true) (region : DataAccessRegion)
    (task : TaskId) (counters : Counters) :
    let handled :=
      (handleDataAccessStatusChanges (.of parent before) (.of parent after)
        after region task counters).counters
    Counters.Follow counters handled
      (indicator after.isCounted - indicator before.isCounted)
      (indicator after.isLiveTaskwait - indicator before.isLiveTaskwait)
      (indicator after.isEnforcing - indicator before.isEnforcing)
      (if before.isLiveTaskwait = true ∧ after.isLiveTaskwait = false ∧
          handled.liveTaskwaitFragmentCount = 0 then 1 else 0) := by
  intro handled
  have still := regular.registered registered
  have unfolded : handled =
      (handleRemoval (.of parent before) (.of parent after) after task
        (handleDependency (.of parent before) (.of parent after)
          counters).1).1 := by
    simp only [handled, counters_handleDataAccessStatusChanges,
      DataAccessStatusEffects.of, still, if_true, handleRegistration,
      registered, bne_self_eq_false, Bool.false_eq_true, if_false]
  have dependency :=
    follow_handleDependency (.of parent before) (.of parent after) counters
      (regular.enforces registered)
  have removal :=
    follow_handleRemoval (.of parent before) (.of parent after) after task
      (handleDependency (.of parent before) (.of parent after) counters).1
      (regular.removable registered)
  have together := dependency.trans removal (Int.le_refl 0)
  rw [← unfolded] at together
  have enforcing : ∀ access : DataAccess, access.registered = true →
      access.isEnforcing = access.enforcesDependency := by
    intro access isRegistered
    simp [DataAccess.isEnforcing, isRegistered]
  have monotone := regular.removable registered
  have sameType := regular.objectType
  cases removableBefore : before.isRemovable <;>
    cases removableAfter : after.isRemovable <;>
    by_cases isTaskwait : before.objectType = .taskwait <;>
    simp_all [DataAccessStatusEffects.of, indicator, DataAccess.isCounted,
      DataAccess.isLiveTaskwait]

/-- An object becomes registered. -/
private theorem follow_fresh (parent : TaskId → Option TaskId)
    {before after : DataAccess} (regular : RegularChange before after)
    (fresh : before.registered = false) (now : after.registered = true)
    (region : DataAccessRegion) (task : TaskId) (counters : Counters) :
    let handled :=
      (handleDataAccessStatusChanges (.of parent before) (.of parent after)
        after region task counters).counters
    Counters.Follow counters handled
      (indicator after.isCounted - indicator before.isCounted)
      (indicator after.isLiveTaskwait - indicator before.isLiveTaskwait)
      (indicator after.isEnforcing - indicator before.isEnforcing)
      (if before.isLiveTaskwait = true ∧ after.isLiveTaskwait = false ∧
          handled.liveTaskwaitFragmentCount = 0 then 1 else 0) := by
  intro handled
  obtain ⟨beforeKept, afterKept, sameEnforcement⟩ := regular.fresh fresh now
  have unfolded : handled =
      (if after.enforcesDependency then
        (counters.countObject after.objectType).increasePredecessors 1
      else counters.countObject after.objectType) := by
    simp [handled, counters_handleDataAccessStatusChanges,
      DataAccessStatusEffects.of, now, fresh, handleRegistration, beforeKept,
      afterKept, sameEnforcement, handleDependency, handleRemoval]
  have counted := counters.follow_countObject after.objectType
  rw [unfolded]
  cases enforces : after.enforcesDependency with
  | true =>
      have both := counted.trans
        (Counters.follow_increasePredecessors _ 1) (by decide)
      by_cases isTaskwait : after.objectType = .taskwait <;>
        simpa [indicator, DataAccess.isCounted, DataAccess.isLiveTaskwait,
          DataAccess.isEnforcing, fresh, now, afterKept, enforces,
          isTaskwait] using both
  | false =>
      by_cases isTaskwait : after.objectType = .taskwait <;>
        simpa [indicator, DataAccess.isCounted, DataAccess.isLiveTaskwait,
          DataAccess.isEnforcing, fresh, now, afterKept, enforces,
          isTaskwait] using counted

/-- The counters follow a regular change of one object. -/
theorem follow_handleDataAccessStatusChanges
    (parent : TaskId → Option TaskId) {before after : DataAccess}
    (regular : RegularChange before after) (region : DataAccessRegion)
    (task : TaskId) (counters : Counters) :
    let handled :=
      (handleDataAccessStatusChanges (.of parent before) (.of parent after)
        after region task counters).counters
    Counters.Follow counters handled
      (indicator after.isCounted - indicator before.isCounted)
      (indicator after.isLiveTaskwait - indicator before.isLiveTaskwait)
      (indicator after.isEnforcing - indicator before.isEnforcing)
      (if before.isLiveTaskwait = true ∧ after.isLiveTaskwait = false ∧
          handled.liveTaskwaitFragmentCount = 0 then 1 else 0) := by
  intro handled
  cases registered : before.registered with
  | true => exact follow_registered parent regular registered region task counters
  | false =>
      cases now : after.registered with
      | true => exact follow_fresh parent regular registered now region task counters
      | false =>
          have unchanged : handled = counters := by
            simp [handled, counters_handleDataAccessStatusChanges,
              DataAccessStatusEffects.of, handleRegistration, registered, now]
          rw [unchanged]
          simpa [indicator, DataAccess.isCounted, DataAccess.isLiveTaskwait,
            DataAccess.isEnforcing, registered, now] using
            Counters.Follow.refl counters

/-- A part that fragmentation cuts off is counted like the object itself. -/
theorem follow_setUpNewFragment (parent : TaskId → Option TaskId)
    {access : DataAccess} (registered : access.registered = true)
    (region : DataAccessRegion) (counters : Counters) :
    Counters.Follow counters (setUpNewFragment parent access region counters)
      (indicator access.isCounted) (indicator access.isLiveTaskwait)
      (indicator access.isEnforcing) 0 := by
  let duplicated := { access with registered := false }
  have sameAccess : { access with registered := true } = access := by
    cases access
    simp_all
  have sameRemovable : duplicated.isRemovable = access.isRemovable := rfl
  have sameEnforcement :
      duplicated.enforcesDependency = access.enforcesDependency := rfl
  unfold setUpNewFragment
  rw [sameAccess]
  cases removable : access.isRemovable with
  | false =>
      have regular : RegularChange duplicated access :=
        { objectType := rfl
          registered := by simp [duplicated]
          removable := by simp [duplicated]
          enforces := by simp [duplicated]
          fresh := fun _ _ => ⟨removable, removable, rfl⟩ }
      have followed :=
        follow_handleDataAccessStatusChanges parent regular region
          access.originator counters
      simpa [duplicated, indicator, DataAccess.isCounted,
        DataAccess.isLiveTaskwait, DataAccess.isEnforcing] using followed
  | true =>
      have handled :
          (handleDataAccessStatusChanges (.of parent duplicated)
            (.of parent access) access region access.originator
            counters).counters =
          if access.enforcesDependency then counters.increasePredecessors 1
          else counters := by
        simp [counters_handleDataAccessStatusChanges, handleRegistration,
          handleDependency, handleRemoval, DataAccessStatusEffects.of,
          registered, duplicated, removable, sameRemovable, sameEnforcement]
      change Counters.Follow counters
        (handleDataAccessStatusChanges (.of parent duplicated)
          (.of parent access) access region access.originator
          counters).counters _ _ _ 0
      rw [handled]
      cases enforces : access.enforcesDependency with
      | true =>
          simpa [indicator, DataAccess.isCounted, DataAccess.isLiveTaskwait,
            DataAccess.isEnforcing, removable, registered, enforces] using
            counters.follow_increasePredecessors 1
      | false =>
          simpa [indicator, DataAccess.isCounted, DataAccess.isLiveTaskwait,
            DataAccess.isEnforcing, removable, registered, enforces] using
            Counters.Follow.refl counters

theorem follow_iterate_setUpNewFragment (parent : TaskId → Option TaskId)
    {access : DataAccess} (region : DataAccessRegion) (counters : Counters)
    (parts : Nat) (registered : parts ≠ 0 → access.registered = true) :
    Counters.Follow counters
      ((setUpNewFragment parent access region)^[parts] counters)
      (parts * indicator access.isCounted)
      (parts * indicator access.isLiveTaskwait)
      (parts * indicator access.isEnforcing) 0 := by
  induction parts generalizing counters with
  | zero => simpa using Counters.Follow.refl counters
  | succ parts inductionHypothesis =>
      have isRegistered := registered (Nat.succ_ne_zero parts)
      have first := follow_setUpNewFragment parent isRegistered region counters
      have others := inductionHypothesis
        (setUpNewFragment parent access region counters)
        (fun _ => isRegistered)
      have positive : 0 ≤ indicator access.isCounted := by
        unfold indicator
        split <;> decide
      have both := first.trans others positive
      have grow : ∀ amount : Int,
          amount + parts * amount = (parts + 1 : Nat) * amount := by
        intro amount
        rw [Int.natCast_add, Int.add_mul]
        simp [Int.add_comm]
      rw [grow, grow, grow] at both
      exact both

/-! ## The objects after a change -/

/-- A test that looks neither at the set of CPUs nor at the discount mark. -/
def IsStatusTest (test : DataAccess → Bool) : Prop :=
  ∀ access cpus discounted,
    test
        { access with
          reductionCpuSet := cpus
          hasBeenDiscounted := discounted } =
      test access

theorem isStatusTest_isCounted : IsStatusTest DataAccess.isCounted :=
  fun _ _ _ => rfl

theorem isStatusTest_isLiveTaskwait : IsStatusTest DataAccess.isLiveTaskwait :=
  fun _ _ _ => rfl

theorem isStatusTest_isEnforcing : IsStatusTest DataAccess.isEnforcing :=
  fun _ _ _ => rfl

theorem countObjects_changedObjects
    {objects : AccessMap → IntervalMap DataAccess} {map : AccessMap}
    {piece : Piece DataAccess} (member : piece ∈ (objects map).pieces)
    {region : DataAccessRegion} (meets : piece.interval.Meets region)
    (handled : HandledChanges) {test : DataAccess → Bool}
    (statusTest : IsStatusTest test) :
    countObjects (changedObjects objects map piece region handled) test +
        (test piece.value).toNat =
      countObjects objects test +
        piece.sides region * (test piece.value).toNat +
        (handled.access.elim 0 fun found => (test found).toNat) := by
  have replaced :=
    (objects map).countPieces_replace member meets handled.access test
  have updated :=
    countObjects_update objects map
      ((objects map).replace piece region handled.access) test
  have collected : ∀ replacement : AccessMap → IntervalMap DataAccess,
      countObjects
        (Function.update replacement .accesses
          ((replacement .accesses).mapMeeting (piece.interval.inter region)
            fun access =>
              { access with
                reductionCpuSet :=
                  access.reductionCpuSet.union
                    handled.collectedReductionCpuSet })) test =
        countObjects replacement test := by
    intro replacement
    have moved := countObjects_update replacement .accesses
      ((replacement .accesses).mapMeeting (piece.interval.inter region)
        fun access =>
          { access with
            reductionCpuSet :=
              access.reductionCpuSet.union
                handled.collectedReductionCpuSet }) test
    rw [IntervalMap.countPieces_mapMeeting _ _ _
      (fun access => statusTest access _ access.hasBeenDiscounted)] at moved
    omega
  unfold changedObjects
  dsimp only
  split
  · rw [collected]
    omega
  · omega

/-- The objects after a change are old ones or the changed one, up to the set
of CPUs. -/
theorem mem_changedObjects {objects : AccessMap → IntervalMap DataAccess}
    {map : AccessMap} {piece : Piece DataAccess}
    (member : piece ∈ (objects map).pieces) {region : DataAccessRegion}
    {handled : HandledChanges} {other : AccessMap} {part : Piece DataAccess}
    (partMember :
      part ∈ (changedObjects objects map piece region handled other).pieces) :
    ∃ access cpus, part.value = { access with reductionCpuSet := cpus } ∧
      ((∃ old ∈ (objects other).pieces, access = old.value) ∨
        (other = map ∧ handled.access = some access)) := by
  have replaced : ∀ found ∈
      (Function.update objects map
        ((objects map).replace piece region handled.access) other).pieces,
      (∃ old ∈ (objects other).pieces, found.value = old.value) ∨
        (other = map ∧ handled.access = some found.value) := by
    intro found foundMember
    by_cases same : other = map
    · subst same
      rw [Function.update_self] at foundMember
      rcases (objects other).value_replace member foundMember with old | new
      · exact Or.inl old
      · exact Or.inr ⟨rfl, new⟩
    · rw [Function.update_of_ne same] at foundMember
      exact Or.inl ⟨found, foundMember, rfl⟩
  unfold changedObjects at partMember
  split at partMember
  · by_cases accesses : other = .accesses
    · subst accesses
      rw [Function.update_self, IntervalMap.mem_mapMeeting] at partMember
      obtain ⟨found, foundMember, rfl⟩ := partMember
      refine ⟨found.value, ?_⟩
      dsimp only
      split
      · exact ⟨_, rfl, replaced found foundMember⟩
      · exact ⟨found.value.reductionCpuSet, rfl, replaced found foundMember⟩
    · rw [Function.update_of_ne accesses] at partMember
      exact ⟨part.value, part.value.reductionCpuSet, rfl,
        replaced part partMember⟩
  · exact ⟨part.value, part.value.reductionCpuSet, rfl,
      replaced part partMember⟩

/-- The objects after a change lie inside the objects before it. -/
theorem inside_changedObjects {objects : AccessMap → IntervalMap DataAccess}
    {map : AccessMap} {piece : Piece DataAccess} {region : DataAccessRegion}
    {handled : HandledChanges} {other : AccessMap} {part : Piece DataAccess}
    (member :
      part ∈ (changedObjects objects map piece region handled other).pieces) :
    ∃ old ∈ (objects other).pieces,
      old.interval.start ≤ part.interval.start ∧
        part.interval.stop ≤ old.interval.stop := by
  have replaced : ∀ found ∈
      (Function.update objects map
        ((objects map).replace piece region handled.access) other).pieces,
      ∃ old ∈ (objects other).pieces,
        old.interval.start ≤ found.interval.start ∧
          found.interval.stop ≤ old.interval.stop := by
    intro found foundMember
    by_cases same : other = map
    · subst same
      rw [Function.update_self] at foundMember
      exact IntervalMap.inside_rewritePieces _ _ foundMember
    · rw [Function.update_of_ne same] at foundMember
      exact ⟨found, foundMember, Nat.le_refl _, Nat.le_refl _⟩
  unfold changedObjects at member
  split at member
  · by_cases accesses : other = .accesses
    · subst accesses
      rw [Function.update_self, IntervalMap.mem_mapMeeting] at member
      obtain ⟨found, foundMember, rfl⟩ := member
      exact replaced found foundMember
    · rw [Function.update_of_ne accesses] at member
      exact replaced part member
  · exact replaced part member

/-- Unless the changed object has been deleted, no map becomes empty. -/
theorem changedObjects_ne_nil {objects : AccessMap → IntervalMap DataAccess}
    {map : AccessMap} {piece : Piece DataAccess}
    (member : piece ∈ (objects map).pieces) {region : DataAccessRegion}
    (meets : piece.interval.Meets region) {handled : HandledChanges}
    {other : AccessMap} (kept : other = map → handled.access.isSome = true)
    (before : (objects other).pieces ≠ []) :
    (changedObjects objects map piece region handled other).pieces ≠ [] := by
  have replaced :
      (Function.update objects map
        ((objects map).replace piece region handled.access)
        other).pieces ≠ [] := by
    by_cases same : other = map
    · subst same
      obtain ⟨access, found⟩ := Option.isSome_iff_exists.mp (kept rfl)
      rw [Function.update_self, found]
      exact (objects other).replace_ne_nil member meets access
    · rw [Function.update_of_ne same]
      exact before
  unfold changedObjects
  split
  · by_cases accesses : other = .accesses
    · subst accesses
      rw [Function.update_self]
      obtain ⟨found, foundMember⟩ := List.exists_mem_of_ne_nil _ replaced
      exact List.ne_nil_of_mem
        ((IntervalMap.mem_mapMeeting _).mpr ⟨found, foundMember, rfl⟩)
    · rw [Function.update_of_ne accesses]
      exact replaced
  · exact replaced

/-- Where the object of a change ends up. -/
theorem access_handleChange (parent : TaskId → Option TaskId)
    (task : TaskId) (piece : Piece DataAccess) (region : DataAccessRegion)
    (setter : Setter) (counters : Counters) {test : DataAccess → Bool}
    (statusTest : IsStatusTest test)
    (gone : (setter.apply piece.value).registered = true →
      (setter.apply piece.value).hasNext = false →
      piece.value.isRemovable ≠ (setter.apply piece.value).isRemovable →
      test (setter.apply piece.value) = false) :
    ((handleChange parent task piece region setter counters).access.elim 0
        fun found => (test found).toNat) =
      (test (setter.apply piece.value)).toNat := by
  obtain ⟨cpus, outcome⟩ :=
    access_handleDataAccessStatusChanges (.of parent piece.value)
      (.of parent (setter.apply piece.value)) (setter.apply piece.value)
      (piece.interval.inter region) task
      ((setUpNewFragment parent piece.value
        piece.interval)^[piece.sides region] counters)
  unfold handleChange
  rw [outcome]
  split
  · rename_i deleted
    simp only [DataAccessStatusEffects.of, Bool.and_eq_true, bne_iff_ne,
      Bool.not_eq_true'] at deleted
    rw [gone deleted.1.1 deleted.2 deleted.1.2]
    rfl
  · simp only [Option.elim_some]
    rw [statusTest]

/-- Only taskwait fragments and sinks become removable without a next
object. -/
theorem DataAccess.IsAnchored.objectType_of_unlinked {access : DataAccess}
    (anchored : access.IsAnchored) (registered : access.registered = true)
    (removable : access.isRemovable = true)
    (unlinked : access.hasNext = false) :
    access.objectType = .taskwait ∨ access.objectType = .topLevelSink := by
  have bottom := anchored registered
  cases kind : access.objectType <;>
    simp_all [DataAccess.isRemovable]

theorem RegularChange.removable_of_ne {before after : DataAccess}
    (regular : RegularChange before after) (now : after.registered = true)
    (differs : before.isRemovable ≠ after.isRemovable) :
    after.isRemovable = true := by
  cases registered : before.registered with
  | true =>
      have monotone := regular.removable registered
      cases new : after.isRemovable with
      | true => rfl
      | false =>
          cases old : before.isRemovable with
          | true => exact absurd (monotone old) (by simp [new])
          | false => exact absurd (old.trans new.symm) differs
  | false =>
      obtain ⟨old, new, _⟩ := regular.fresh registered now
      exact absurd (old.trans new.symm) differs

/-- How the number of objects that satisfy a test changes; the test has to fail
on the objects that a change deletes. -/
theorem countObjects_handleChange (parent : TaskId → Option TaskId)
    (task : TaskId) {objects : AccessMap → IntervalMap DataAccess}
    {map : AccessMap} {piece : Piece DataAccess}
    (member : piece ∈ (objects map).pieces)
    {region : DataAccessRegion} (meets : piece.interval.Meets region)
    {setter : Setter}
    (regular : RegularChange piece.value (setter.apply piece.value))
    (counters : Counters) {test : DataAccess → Bool}
    (statusTest : IsStatusTest test)
    (gone : (setter.apply piece.value).registered = true →
      (setter.apply piece.value).hasNext = false →
      (setter.apply piece.value).isRemovable = true →
      test (setter.apply piece.value) = false) :
    let handled := handleChange parent task piece region setter counters
    countObjects (changedObjects objects map piece region handled) test +
        (test piece.value).toNat =
      countObjects objects test +
        piece.sides region * (test piece.value).toNat +
        (test (setter.apply piece.value)).toNat := by
  intro handled
  have counted :=
    countObjects_changedObjects member meets handled statusTest
  rw [access_handleChange parent task piece region setter counters statusTest
    (fun now unlinked differs =>
      gone now unlinked (regular.removable_of_ne now differs))] at counted
  exact counted

/-- An access is not deleted while it still enforces a dependency. -/
theorem DataAccess.IsAnchored.isEnforcing_of_unlinked {access : DataAccess}
    (anchored : access.IsAnchored) (registered : access.registered = true)
    (unlinked : access.hasNext = false)
    (removable : access.isRemovable = true) :
    access.isEnforcing = false := by
  rcases anchored.objectType_of_unlinked registered removable unlinked with
    kind | kind <;>
    simp [DataAccess.isEnforcing, DataAccess.enforcesDependency, kind]

/-- The counters and the objects of a task change together. -/
theorem follow_handleChange (parent : TaskId → Option TaskId) (task : TaskId)
    {objects : AccessMap → IntervalMap DataAccess} {map : AccessMap}
    {piece : Piece DataAccess} (member : piece ∈ (objects map).pieces)
    {region : DataAccessRegion} (meets : piece.interval.Meets region)
    {setter : Setter}
    (regular : RegularChange piece.value (setter.apply piece.value))
    (anchored : (setter.apply piece.value).IsAnchored)
    (registered : piece.sides region ≠ 0 → piece.value.registered = true)
    (counters : Counters) :
    let handled := handleChange parent task piece region setter counters
    let changed := changedObjects objects map piece region handled
    Counters.Follow counters handled.counters
      (countObjects changed DataAccess.isCounted -
        countObjects objects DataAccess.isCounted)
      (countObjects changed DataAccess.isLiveTaskwait -
        countObjects objects DataAccess.isLiveTaskwait)
      (countObjects changed DataAccess.isEnforcing -
        countObjects objects DataAccess.isEnforcing)
      (if piece.value.isLiveTaskwait = true ∧
          (setter.apply piece.value).isLiveTaskwait = false ∧
          handled.counters.liveTaskwaitFragmentCount = 0 then 1 else 0) := by
  intro handled changed
  have balance : ∀ {test : DataAccess → Bool}, IsStatusTest test →
      ((setter.apply piece.value).registered = true →
        (setter.apply piece.value).hasNext = false →
        (setter.apply piece.value).isRemovable = true →
        test (setter.apply piece.value) = false) →
      (countObjects changed test : Int) - countObjects objects test =
        piece.sides region * indicator (test piece.value) +
          (indicator (test (setter.apply piece.value)) -
            indicator (test piece.value)) := by
    intro test statusTest gone
    have counted :
        countObjects changed test + (test piece.value).toNat = _ :=
      countObjects_handleChange parent task member meets regular counters
        statusTest gone
    have indicatorOf : ∀ outcome : Bool,
        indicator outcome = (outcome.toNat : Int) := by
      intro outcome
      cases outcome <;> rfl
    rw [indicatorOf, indicatorOf]
    have casted := congrArg (fun number : Nat => (number : Int)) counted
    simp only [Int.natCast_add, Int.natCast_mul] at casted
    omega
  have parts :=
    follow_iterate_setUpNewFragment parent piece.interval counters
      (piece.sides region) registered
  have change :=
    follow_handleDataAccessStatusChanges parent regular
      (piece.interval.inter region) task
      ((setUpNewFragment parent piece.value
        piece.interval)^[piece.sides region] counters)
  have positive :
      0 ≤ (piece.sides region : Int) * indicator piece.value.isCounted := by
    apply Int.mul_nonneg (Int.natCast_nonneg _)
    unfold indicator
    split <;> decide
  have together := parts.trans change positive
  rw [balance isStatusTest_isCounted, balance isStatusTest_isLiveTaskwait,
    balance isStatusTest_isEnforcing]
  · rw [Nat.zero_add] at together
    exact together
  · exact anchored.isEnforcing_of_unlinked
  · intro _ _ removable
    simp [DataAccess.isLiveTaskwait, DataAccess.isCounted, removable]
  · intro _ _ removable
    simp [DataAccess.isCounted, removable]

/-- The object that a change leaves behind. -/
theorem access_of_handleChange {parent : TaskId → Option TaskId}
    {task : TaskId} {piece : Piece DataAccess} {region : DataAccessRegion}
    {setter : Setter} {counters : Counters} {access : DataAccess}
    (left : (handleChange parent task piece region setter counters).access =
      some access) :
    ∃ cpus discounted,
      access =
        { setter.apply piece.value with
          reductionCpuSet := cpus
          hasBeenDiscounted := discounted } := by
  obtain ⟨cpus, outcome⟩ :=
    access_handleDataAccessStatusChanges (.of parent piece.value)
      (.of parent (setter.apply piece.value)) (setter.apply piece.value)
      (piece.interval.inter region) task
      ((setUpNewFragment parent piece.value
        piece.interval)^[piece.sides region] counters)
  unfold handleChange at left
  rw [outcome] at left
  split at left
  · cases left
  · injection left with same
    exact ⟨cpus, _, same.symm⟩

/-- The task becomes ready exactly when its last enforced dependency goes. -/
theorem satisfiedOriginators_handleChange (parent : TaskId → Option TaskId)
    (task : TaskId) {piece : Piece DataAccess} {region : DataAccessRegion}
    {setter : Setter}
    (regular : RegularChange piece.value (setter.apply piece.value))
    (counters : Counters) :
    let handled := handleChange parent task piece region setter counters
    handled.dependencyData.satisfiedOriginators =
      if piece.value.isEnforcing = true ∧
          (setter.apply piece.value).isEnforcing = false ∧
          handled.counters.predecessorCount = 0 then [task] else [] := by
  intro handled
  generalize before : piece.value = access at *
  generalize after : setter.apply access = changed at *
  let parts :=
    (setUpNewFragment parent access piece.interval)^[piece.sides region]
      counters
  have unfolded : handled =
      handleDataAccessStatusChanges (.of parent access) (.of parent changed)
        changed (piece.interval.inter region) task parts := by
    simp only [handled, handleChange, before, after, parts]
  have originators : handled.dependencyData.satisfiedOriginators =
      if changed.registered = true ∧
          (handleDependency (.of parent access) (.of parent changed)
            (handleRegistration (.of parent access) (.of parent changed)
              changed parts)).2 = true then [task] else [] := by
    rw [unfolded]
    unfold handleDataAccessStatusChanges
    cases now : changed.registered with
    | false => simp [DataAccessStatusEffects.of, now]
    | true => simp [DataAccessStatusEffects.of, now]
  rw [originators]
  cases old : access.registered with
  | false =>
      -- A new object is not satisfied by its registration.
      have kept : changed.registered = true →
          (handleDependency (.of parent access) (.of parent changed)
            (handleRegistration (.of parent access) (.of parent changed)
              changed parts)).2 = false := by
        intro now
        obtain ⟨_, _, same⟩ := regular.fresh old now
        simp [handleDependency, DataAccessStatusEffects.of, same]
      simp only [DataAccess.isEnforcing, old, Bool.false_and]
      simp only [Bool.false_eq_true, false_and, if_false]
      rw [if_neg]
      rintro ⟨now, ready⟩
      rw [kept now] at ready
      cases ready
  | true =>
      have now := regular.registered old
      have count : handled.counters.predecessorCount =
          (handleDependency (.of parent access) (.of parent changed)
            parts).1.predecessorCount := by
        rw [unfolded, counters_handleDataAccessStatusChanges]
        have removal :=
          (follow_handleRemoval (.of parent access) (.of parent changed)
            changed task
            (handleDependency (.of parent access) (.of parent changed)
              parts).1 (regular.removable old)).predecessorCount
        simpa [DataAccessStatusEffects.of, now, handleRegistration, old] using
          removal
      rw [count]
      have monotone := regular.enforces old
      cases enforcesNow : changed.enforcesDependency <;>
        cases enforced : access.enforcesDependency <;>
        simp_all [DataAccess.isEnforcing, handleDependency,
          DataAccessStatusEffects.of, handleRegistration,
          Counters.decreasePredecessors]

/-! ## Disposals -/

/-- A task is to be disposed of or unblocked when its countdown reaches
zero. -/
theorem removableTasks_handleRemoval
    (initial updated : DataAccessStatusEffects) (access : DataAccess)
    (task : TaskId) (counters : Counters) :
    (handleRemoval initial updated access task counters).2 =
      if 0 < counters.countdownToBeWokenUp ∧
          (handleRemoval initial updated access task
            counters).1.countdownToBeWokenUp ≤ 0 then [task] else [] := by
  by_cases removed : initial.isRemovable = updated.isRemovable
  · simp only [handleRemoval, removed, bne_self_eq_false, Bool.false_eq_true,
      if_false]
    rw [if_neg (by omega)]
  · by_cases isTaskwait : access.objectType = .taskwait
    · by_cases lastLive : counters.liveTaskwaitFragmentCount - 1 = 0 <;>
        by_cases lastBlocker : counters.removalBlockers - 1 = 0 <;>
        by_cases zero : counters.countdownToBeWokenUp - 1 = 0 <;>
        by_cases again : counters.countdownToBeWokenUp - 1 - 1 = 0 <;>
        simp [handleRemoval, removed, isTaskwait, lastLive, lastBlocker, zero,
          again, Counters.decreaseRemovalBlockingCount] <;>
        omega
    · by_cases lastBlocker : counters.removalBlockers - 1 = 0 <;>
        by_cases zero : counters.countdownToBeWokenUp - 1 = 0 <;>
        simp [handleRemoval, removed, isTaskwait, lastBlocker, zero,
          Counters.decreaseRemovalBlockingCount] <;>
        omega

/-- While the blockers of a task stay blockers, its countdown moves only with
the ledger and the taskwait. -/
theorem Counters.countdown_eq (counters : Counters) :
    counters.countdownToBeWokenUp =
      counters.ledger + (if counters.removalBlockers = 0 then 0 else 1) +
        (counters.taskwaitBlocks - counters.taskwaitUnblocks) := by
  unfold Counters.ledger
  omega

theorem countdown_iterate_setUpNewFragment
    (parent : TaskId → Option TaskId) {access : DataAccess}
    (region : DataAccessRegion) {counters : Counters} {parts : Nat}
    (registered : parts ≠ 0 → access.registered = true)
    (positive : 0 ≤ counters.removalBlockers)
    (blocked : access.isCounted = true → 0 < counters.removalBlockers) :
    ((setUpNewFragment parent access region)^[parts]
        counters).countdownToBeWokenUp =
      counters.countdownToBeWokenUp := by
  have followed :=
    follow_iterate_setUpNewFragment parent region counters parts registered
  have more := followed.removalBlockers
  have same := followed.ledger positive
  rw [Counters.countdown_eq, Counters.countdown_eq counters,
    followed.taskwaitBlocks, followed.taskwaitUnblocks]
  cases counted : access.isCounted with
  | false =>
      simp only [counted, indicator, Bool.false_eq_true, if_false,
        Int.mul_zero, Int.add_zero] at more
      rw [same (by omega), more]
      simp
  | true =>
      have before := blocked counted
      simp only [counted, indicator, if_true, Int.mul_one] at more
      rw [same (by omega), if_neg (by omega), if_neg (by omega)]
      simp

/-- The same for a whole change of an object. -/
theorem removableTasks_handleChange (parent : TaskId → Option TaskId)
    (task : TaskId) {piece : Piece DataAccess} {region : DataAccessRegion}
    {setter : Setter}
    (regular : RegularChange piece.value (setter.apply piece.value))
    (registered : piece.sides region ≠ 0 → piece.value.registered = true)
    {counters : Counters} (positive : 0 ≤ counters.removalBlockers)
    (blocked : piece.value.isCounted = true → 0 < counters.removalBlockers) :
    let handled := handleChange parent task piece region setter counters
    handled.dependencyData.removableTasks =
      if 0 < counters.countdownToBeWokenUp ∧
          handled.counters.countdownToBeWokenUp ≤ 0 then [task] else [] := by
  intro handled
  have same :=
    countdown_iterate_setUpNewFragment parent piece.interval registered
      positive blocked
  generalize partsIs :
    (setUpNewFragment parent piece.value
      piece.interval)^[piece.sides region] counters = parts at same
  have unfolded : handled =
      handleDataAccessStatusChanges (.of parent piece.value)
        (.of parent (setter.apply piece.value)) (setter.apply piece.value)
        (piece.interval.inter region) task parts := by
    rw [← partsIs]
    rfl
  have counted := counters_handleDataAccessStatusChanges
    (.of parent piece.value) (.of parent (setter.apply piece.value))
    (setter.apply piece.value) (piece.interval.inter region) task parts
  rw [← unfolded] at counted
  cases now : (setter.apply piece.value).registered with
  | false =>
      have before : piece.value.registered = false := by
        by_contra isRegistered
        have after :=
          regular.registered (Bool.eq_true_of_not_eq_false isRegistered)
        rw [now] at after
        cases after
      have kept : handled.counters = parts := by
        rw [counted]
        simp [DataAccessStatusEffects.of, now, before, handleRegistration]
      have none : handled.dependencyData.removableTasks = [] := by
        rw [unfolded]
        simp [handleDataAccessStatusChanges, DataAccessStatusEffects.of, now]
      rw [none, kept, same, if_neg (by omega)]
  | true =>
      have updatedRegistered :
          (DataAccessStatusEffects.of parent
            (setter.apply piece.value)).isRegistered = true := now
      obtain ⟨cpus, joined⟩ :=
        joined_propagate (.of parent piece.value)
          (.of parent (setter.apply piece.value)) (setter.apply piece.value)
          (piece.interval.inter region) task
      have pushed : handled.dependencyData.removableTasks =
          (handleRemoval (.of parent piece.value)
            (.of parent (setter.apply piece.value)) (setter.apply piece.value)
            task
            (handleDependency (.of parent piece.value)
              (.of parent (setter.apply piece.value))
              (handleRegistration (.of parent piece.value)
                (.of parent (setter.apply piece.value))
                (setter.apply piece.value) parts)).1).2 := by
        rw [unfolded]
        simp only [handleDataAccessStatusChanges, updatedRegistered,
          Bool.not_true, Bool.false_eq_true, if_false]
        rw [handleRemoval_congr]
        rw [joined]
      rw [if_pos updatedRegistered] at counted
      rw [pushed, removableTasks_handleRemoval, ← counted]
      have dependency : ∀ start : Counters,
          (handleDependency (.of parent piece.value)
            (.of parent (setter.apply piece.value))
            start).1.countdownToBeWokenUp = start.countdownToBeWokenUp := by
        intro start
        unfold handleDependency
        split <;> rfl
      rw [dependency]
      cases old : piece.value.registered with
      | true =>
          have unchanged :
              handleRegistration (.of parent piece.value)
                (.of parent (setter.apply piece.value))
                (setter.apply piece.value) parts = parts := by
            simp [handleRegistration, DataAccessStatusEffects.of, old, now]
          rw [unchanged, same]
      | false =>
          -- A new object can only add to the countdown.
          obtain ⟨beforeKept, afterKept, -⟩ := regular.fresh old now
          have unremoved : ∀ start : Counters,
              handleRemoval (.of parent piece.value)
                (.of parent (setter.apply piece.value))
                (setter.apply piece.value) task start = (start, []) := by
            intro start
            simp [handleRemoval, DataAccessStatusEffects.of, beforeKept,
              afterKept]
          have unmoved : handled.counters.countdownToBeWokenUp =
              (handleRegistration (.of parent piece.value)
                (.of parent (setter.apply piece.value))
                (setter.apply piece.value) parts).countdownToBeWokenUp := by
            rw [counted, unremoved]
            exact dependency _
          have counts : parts.countdownToBeWokenUp ≤
              (parts.countObject
                (setter.apply piece.value).objectType).countdownToBeWokenUp := by
            by_cases zero : parts.removalBlockers = 0
            · simp only [Counters.countObject, zero, beq_self_eq_true,
                if_true, Counters.increaseRemovalBlockingCount]
              omega
            · simp [Counters.countObject, zero]
          have grows : parts.countdownToBeWokenUp ≤
              handled.counters.countdownToBeWokenUp := by
            rw [unmoved]
            simp only [handleRegistration, DataAccessStatusEffects.of, old,
              now, beforeKept]
            by_cases enforces :
                (setter.apply piece.value).enforcesDependency = true <;>
              simpa [enforces, Counters.increasePredecessors] using counts
          rw [← unmoved, if_neg (by omega), if_neg (by omega)]

/-- A change of an object that was registered before does not raise the
countdown. -/
theorem countdown_handleChange_le (parent : TaskId → Option TaskId)
    (task : TaskId) {objects : AccessMap → IntervalMap DataAccess}
    {map : AccessMap} {piece : Piece DataAccess}
    (member : piece ∈ (objects map).pieces)
    {region : DataAccessRegion} (meets : piece.interval.Meets region)
    {setter : Setter}
    (regular : RegularChange piece.value (setter.apply piece.value))
    (anchored : (setter.apply piece.value).IsAnchored)
    (registered : piece.sides region ≠ 0 → piece.value.registered = true)
    (old : (setter.apply piece.value).registered = true →
      piece.value.registered = true)
    {counters : Counters}
    (blockers :
      (countObjects objects DataAccess.isCounted : Int) ≤
        counters.removalBlockers) :
    let handled := handleChange parent task piece region setter counters
    handled.counters.countdownToBeWokenUp ≤ counters.countdownToBeWokenUp := by
  intro handled
  have followed :=
    follow_handleChange parent task member meets regular anchored registered
      counters
  have counted :=
    countObjects_handleChange parent task member meets regular counters
      isStatusTest_isCounted
      (fun _ _ removable => by simp [DataAccess.isCounted, removable])
  dsimp only at followed counted
  change Counters.Follow counters handled.counters _ _ _ _ at followed
  have moved := followed.removalBlockers
  have same := followed.ledger
  rw [Counters.countdown_eq, Counters.countdown_eq counters,
    followed.taskwaitBlocks, followed.taskwaitUnblocks]
  have monotone : (setter.apply piece.value).isCounted = true →
      piece.value.isCounted = true := by
    intro stillCounted
    simp only [DataAccess.isCounted, Bool.and_eq_true,
      Bool.not_eq_true'] at stillCounted ⊢
    have before := old stillCounted.1
    refine ⟨before, ?_⟩
    by_contra removable
    have after :=
      regular.removable before (Bool.eq_true_of_not_eq_false removable)
    rw [stillCounted.2] at after
    cases after
  have isCounted : piece.value.isCounted = true →
      0 < countObjects objects DataAccess.isCounted :=
    fun holds => countObjects_pos member holds
  have nonnegative : 0 ≤ handled.counters.removalBlockers := by
    have fewer : countObjects objects DataAccess.isCounted ≤
        countObjects (changedObjects objects map piece region
          (handleChange parent task piece region setter counters))
          DataAccess.isCounted + 1 := by
      have one : piece.value.isCounted.toNat ≤ 1 := Bool.toNat_le _
      omega
    cases before : piece.value.isCounted with
    | false =>
        simp only [before, Bool.toNat_false] at counted
        omega
    | true =>
        have positive := isCounted before
        omega
  rw [same (by omega) nonnegative]
  by_cases zero : counters.removalBlockers = 0
  · have before : piece.value.isCounted = false := by
      by_contra holds
      have positive := isCounted (Bool.eq_true_of_not_eq_false holds)
      omega
    have after : (setter.apply piece.value).isCounted = false := by
      by_contra holds
      rw [monotone (Bool.eq_true_of_not_eq_false holds)] at before
      cases before
    simp only [before, after, Bool.toNat_false] at counted
    rw [if_pos zero, if_pos (by omega)]
    omega
  · rw [if_neg zero]
    split <;> omega

/-! ## New objects -/

/-- A new object of a kind that holds no body back, as it is registered. -/
structure IsNewObject (initial : DataAccessStatusEffects)
    (access : DataAccess) : Prop where
  unregistered : initial.isRegistered = false
  wasCounted : initial.isRemovable = false
  wasInert : initial.enforcesDependency = false
  registered : access.registered = true
  counted : access.isRemovable = false
  inert : access.enforcesDependency = false

theorem IsNewObject.counters {initial : DataAccessStatusEffects}
    {access : DataAccess} (new : IsNewObject initial access)
    (parent : TaskId → Option TaskId) (region : DataAccessRegion)
    (task : TaskId) (counters : Counters) :
    (handleDataAccessStatusChanges initial (.of parent access) access region
        task counters).counters =
      counters.countObject access.objectType := by
  rw [counters_handleDataAccessStatusChanges]
  simp [DataAccessStatusEffects.of, new.registered, new.counted, new.inert,
    new.unregistered, new.wasCounted, new.wasInert, handleRemoval,
    handleDependency, handleRegistration]

/-- Nothing becomes ready and nothing is removed by a new object. -/
theorem IsNewObject.dependencyData {initial : DataAccessStatusEffects}
    {access : DataAccess} (new : IsNewObject initial access)
    (parent : TaskId → Option TaskId) (region : DataAccessRegion)
    (task : TaskId) (counters : Counters) :
    let handled :=
      handleDataAccessStatusChanges initial (.of parent access) access region
        task counters
    handled.dependencyData.satisfiedOriginators = [] ∧
      handled.dependencyData.removableTasks = [] := by
  simp [handleDataAccessStatusChanges, DataAccessStatusEffects.of,
    new.registered, new.counted, new.inert, new.wasCounted, new.wasInert,
    handleRemoval, handleDependency]

end Nanos6
