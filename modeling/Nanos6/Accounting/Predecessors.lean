import Nanos6.Accounting.Setters
import Nanos6.Dependencies.Lineage

/-!
# Predecessor accounting

The predecessor count of a task is the number of its registered accesses that
enforce a dependency, plus two while the task is being registered.  The count
is compared with the objects of the task in every reachable state: fragments,
updates, reductions, taskwaits and disposals included.
-/

namespace Nanos6

open Foundation

/-- The counters of a task agree with its objects. -/
structure TaskAccounting (task : Task) : Prop where
  anchored : ∀ map, ∀ piece ∈ (task.objects map).pieces,
    piece.value.IsAnchored
  typed : ∀ map, ∀ piece ∈ (task.objects map).pieces,
    piece.value.objectType.map = map
  predecessors :
    task.counters.predecessorCount =
      countObjects task.objects DataAccess.isEnforcing +
        if task.status = .registering then 2 else 0
  blockers :
    (countObjects task.objects DataAccess.isCounted : Int) ≤
      task.counters.removalBlockers
  incomplete : task.status = .registering →
    ∀ piece ∈ (task.objects .accesses).pieces, piece.value.complete = false
  unborn : task.status = .unborn → ∀ map, (task.objects map).pieces = []
  reports :
    task.readyReports.length =
      if task.counters.predecessorCount = 0 ∧ task.status ≠ .unborn then 1
      else 0
  started : task.status.hasStarted = true →
    task.counters.predecessorCount = 0

namespace TaskAccounting

variable {task : Task}

/-- The accounting looks at three fields of a task and at two counters. -/
theorem congr (accounting : TaskAccounting task) {other : Task}
    (objects : other.objects = task.objects)
    (predecessors :
      other.counters.predecessorCount = task.counters.predecessorCount)
    (blockers :
      other.counters.removalBlockers = task.counters.removalBlockers)
    (status : other.status = task.status)
    (reports : other.readyReports = task.readyReports) :
    TaskAccounting other where
  anchored := by
    rw [objects]
    exact accounting.anchored
  typed := by
    rw [objects]
    exact accounting.typed
  predecessors := by
    rw [objects, predecessors, status]
    exact accounting.predecessors
  blockers := by
    rw [objects, blockers]
    exact accounting.blockers
  incomplete := by
    rw [objects, status]
    exact accounting.incomplete
  unborn := by
    rw [objects, status]
    exact accounting.unborn
  reports := by
    rw [reports, predecessors, status]
    exact accounting.reports
  started := by
    rw [predecessors, status]
    exact accounting.started

/-- A started task may change its status and all counters but the predecessor
count and the number of blockers. -/
theorem restatus (accounting : TaskAccounting task) {other : Task}
    (objects : other.objects = task.objects)
    (predecessors :
      other.counters.predecessorCount = task.counters.predecessorCount)
    (blockers :
      other.counters.removalBlockers = task.counters.removalBlockers)
    (reports : other.readyReports = task.readyReports)
    (started : task.status.hasStarted = true)
    (stillStarted : other.status.hasStarted = true) :
    TaskAccounting other := by
  have notRegistering : ∀ status : TaskStatus, status.hasStarted = true →
      status ≠ .registering ∧ status ≠ .unborn := by
    intro status
    cases status <;> simp [TaskStatus.hasStarted]
  obtain ⟨oldRegistering, oldUnborn⟩ := notRegistering _ started
  obtain ⟨newRegistering, newUnborn⟩ := notRegistering _ stillStarted
  refine
    { anchored := by
        rw [objects]
        exact accounting.anchored
      typed := by
        rw [objects]
        exact accounting.typed
      predecessors := ?_
      blockers := by
        rw [objects, blockers]
        exact accounting.blockers
      incomplete := fun registering => absurd registering newRegistering
      unborn := fun unborn => absurd unborn newUnborn
      reports := ?_
      started := ?_ }
  · have before := accounting.predecessors
    rw [if_neg oldRegistering] at before
    rw [objects, predecessors, if_neg newRegistering, before]
  · have before := accounting.reports
    rw [reports, before, predecessors]
    simp [oldUnborn, newUnborn]
  · intro _
    rw [predecessors]
    exact accounting.started started

/-- An access has subaccesses from now on. -/
theorem withSubaccesses (accounting : TaskAccounting task) {other : Task}
    {piece : Piece DataAccess}
    (member : piece ∈ (task.objects .accesses).pieces)
    (objects : other.objects =
      Function.update task.objects .accesses
        ((task.objects .accesses).replace piece piece.interval
          (some { piece.value with hasSubaccesses := true })))
    (counters : other.counters = task.counters)
    (status : other.status = task.status)
    (reports : other.readyReports = task.readyReports) :
    TaskAccounting other := by
  have same : ∀ {test : DataAccess → Bool},
      test { piece.value with hasSubaccesses := true } = test piece.value →
      countObjects other.objects test = countObjects task.objects test := by
    intro test unchanged
    rw [objects]
    exact countObjects_update_same task.objects
      ((task.objects .accesses).countPieces_replace_same member unchanged)
  have pieces : ∀ map, ∀ part ∈ (other.objects map).pieces,
      ∃ old ∈ (task.objects map).pieces,
        part.value = old.value ∨
          (map = .accesses ∧
            part.value = { old.value with hasSubaccesses := true }) := by
    intro map part partMember
    rw [objects] at partMember
    by_cases here : map = .accesses
    · subst here
      rw [Function.update_self] at partMember
      rcases (task.objects .accesses).value_replace member partMember with
        ⟨old, oldMember, value⟩ | new
      · exact ⟨old, oldMember, Or.inl value⟩
      · injection new with value
        exact ⟨piece, member, Or.inr ⟨rfl, value.symm⟩⟩
    · rw [Function.update_of_ne here] at partMember
      exact ⟨part, partMember, Or.inl rfl⟩
  refine
    { anchored := ?_
      typed := ?_
      predecessors := ?_
      blockers := ?_
      incomplete := ?_
      unborn := ?_
      reports := ?_
      started := ?_ }
  · intro map part partMember
    obtain ⟨old, oldMember, value | ⟨-, value⟩⟩ := pieces map part partMember
    · rw [value]
      exact accounting.anchored map old oldMember
    · rw [value]
      exact accounting.anchored map old oldMember
  · intro map part partMember
    obtain ⟨old, oldMember, value | ⟨-, value⟩⟩ := pieces map part partMember
    · rw [value]
      exact accounting.typed map old oldMember
    · rw [value]
      exact accounting.typed map old oldMember
  · rw [same rfl, counters, status]
    exact accounting.predecessors
  · rw [same rfl, counters]
    exact accounting.blockers
  · intro registering part partMember
    rw [status] at registering
    obtain ⟨old, oldMember, value | ⟨-, value⟩⟩ :=
      pieces .accesses part partMember
    · rw [value]
      exact accounting.incomplete registering old oldMember
    · rw [value]
      exact accounting.incomplete registering old oldMember
  · intro unborn
    rw [status] at unborn
    rw [accounting.unborn unborn .accesses] at member
    cases member
  · rw [reports, counters, status]
    exact accounting.reports
  · rw [counters, status]
    exact accounting.started

/-- The objects inside of a started task go, and its accesses lose their
subaccesses. -/
theorem exited (accounting : TaskAccounting task) {other : Task}
    (accesses : other.objects .accesses =
      (task.objects .accesses).mapValues fun access =>
        { access with hasSubaccesses := false })
    (others : ∀ map, map ≠ .accesses → (other.objects map).pieces = [])
    (predecessors :
      other.counters.predecessorCount = task.counters.predecessorCount)
    (blockers :
      other.counters.removalBlockers = task.counters.removalBlockers)
    (status : other.status = task.status)
    (reports : other.readyReports = task.readyReports)
    (started : task.status.hasStarted = true) :
    TaskAccounting other := by
  have fewer : ∀ test : DataAccess → Bool,
      (∀ access : DataAccess,
        test { access with hasSubaccesses := false } = test access) →
      countObjects other.objects test ≤ countObjects task.objects test := by
    intro test unchanged
    have gone : ∀ map, map ≠ .accesses →
        (other.objects map).countPieces test = 0 := by
      intro map notAccesses
      simp [IntervalMap.countPieces, others map notAccesses]
    have kept : (other.objects .accesses).countPieces test =
        (task.objects .accesses).countPieces test := by
      rw [accesses]
      exact IntervalMap.countPieces_mapValues _ _ unchanged
    simp only [countObjects, gone .accessFragments (by simp),
      gone .taskwaitFragments (by simp), kept]
    omega
  have pieces : ∀ map, ∀ part ∈ (other.objects map).pieces,
      map = .accesses ∧ ∃ old ∈ (task.objects .accesses).pieces,
        part.value = { old.value with hasSubaccesses := false } := by
    intro map part member
    by_cases here : map = .accesses
    · subst here
      rw [accesses] at member
      obtain ⟨old, oldMember, rfl⟩ := (IntervalMap.mem_mapValues _).mp member
      exact ⟨rfl, old, oldMember, rfl⟩
    · rw [others map here] at member
      cases member
  have zero := accounting.started started
  have before := accounting.predecessors
  have notRegistering : task.status ≠ .registering := by
    intro registering
    rw [registering] at started
    cases started
  rw [if_neg notRegistering] at before
  refine
    { anchored := ?_
      typed := ?_
      predecessors := ?_
      blockers := ?_
      incomplete := ?_
      unborn := ?_
      reports := ?_
      started := ?_ }
  · intro map part member
    obtain ⟨-, old, oldMember, value⟩ := pieces map part member
    rw [value]
    exact accounting.anchored .accesses old oldMember
  · intro map part member
    obtain ⟨rfl, old, oldMember, value⟩ := pieces map part member
    rw [value]
    exact accounting.typed .accesses old oldMember
  · have enforcing := fewer DataAccess.isEnforcing fun _ => rfl
    rw [status, if_neg notRegistering, predecessors]
    omega
  · have counted := fewer DataAccess.isCounted fun _ => rfl
    have bound := accounting.blockers
    rw [blockers]
    omega
  · intro registering
    exact absurd (status ▸ registering) notRegistering
  · intro unborn
    rw [← status, unborn] at started
    cases started
  · rw [reports, predecessors, status]
    exact accounting.reports
  · intro _
    rw [predecessors]
    exact zero

/-- A started task loses all its objects when it is deleted. -/
theorem deleted (accounting : TaskAccounting task) {other : Task}
    (objects : ∀ map, (other.objects map).pieces = [])
    (counters : other.counters = task.counters)
    (reports : other.readyReports = task.readyReports)
    (started : task.status.hasStarted = true)
    (stillStarted : other.status.hasStarted = true) :
    TaskAccounting other := by
  have none : ∀ test, countObjects other.objects test = 0 := by
    intro test
    simp [countObjects, IntervalMap.countPieces, objects]
  have zero := accounting.started started
  have bound := accounting.blockers
  have notUnborn : task.status ≠ .unborn := by
    intro unborn
    rw [unborn] at started
    cases started
  refine
    { anchored := ?_
      typed := ?_
      predecessors := ?_
      blockers := ?_
      incomplete := ?_
      unborn := fun _ => objects
      reports := ?_
      started := ?_ }
  · intro map piece member
    rw [objects map] at member
    cases member
  · intro map piece member
    rw [objects map] at member
    cases member
  · rw [counters, none, zero, if_neg]
    · rfl
    · intro registering
      rw [registering] at stillStarted
      cases stillStarted
  · rw [counters, none]
    omega
  · intro _ piece member
    rw [objects .accesses] at member
    cases member
  · rw [reports, counters, accounting.reports]
    have stillBorn : other.status ≠ .unborn := by
      intro unborn
      rw [unborn] at stillStarted
      cases stillStarted
    simp [notUnborn, stillBorn]
  · intro _
    rw [counters]
    exact zero

/-- A new task: its accesses are not registered yet. -/
theorem created {child : TaskId} (parent : TaskId)
    {accesses : IntervalMap DataAccess} (mustDelayRelease : Bool)
    (declared : ∀ piece ∈ accesses.pieces, piece.value.IsDeclared child) :
    TaskAccounting (newTask parent accesses mustDelayRelease) := by
  have pieces : ∀ map, ∀ piece ∈
      ((newTask parent accesses mustDelayRelease).objects map).pieces,
      map = .accesses ∧ piece ∈ accesses.pieces := by
    intro map piece member
    simp only [newTask] at member
    by_cases here : map = .accesses
    · subst here
      rw [Function.update_self] at member
      exact ⟨rfl, member⟩
    · rw [Function.update_of_ne here] at member
      cases member
  have unregistered : ∀ {test : DataAccess → Bool},
      (∀ access : DataAccess, access.registered = false →
        test access = false) →
      countObjects (newTask parent accesses mustDelayRelease).objects test =
        0 := by
    intro test fails
    have none : ∀ map,
        ((newTask parent accesses mustDelayRelease).objects map).countPieces
          test = 0 := by
      intro map
      refine List.countP_eq_zero.mpr ?_
      intro piece member
      obtain ⟨-, inAccesses⟩ := pieces map piece member
      obtain ⟨_, _, _, _, _, value⟩ := declared piece inAccesses
      rw [Bool.not_eq_true]
      exact fails piece.value (by rw [value])
    simp [countObjects, none]
  refine
    { anchored := ?_
      typed := ?_
      predecessors := ?_
      blockers := ?_
      incomplete := ?_
      unborn := ?_
      reports := ?_
      started := ?_ }
  · intro map piece member registered
    obtain ⟨-, inAccesses⟩ := pieces map piece member
    obtain ⟨_, _, _, _, _, value⟩ := declared piece inAccesses
    rw [value] at registered
    cases registered
  · intro map piece member
    obtain ⟨rfl, inAccesses⟩ := pieces map piece member
    obtain ⟨_, _, _, _, _, value⟩ := declared piece inAccesses
    rw [value]
    rfl
  · rw [unregistered fun access notRegistered => by
      simp [DataAccess.isEnforcing, notRegistered]]
    by_cases empty : accesses.pieces.isEmpty = true <;>
      simp [newTask, empty, Counters.increasePredecessors]
  · rw [unregistered fun access notRegistered => by
      simp [DataAccess.isCounted, notRegistered]]
    by_cases empty : accesses.pieces.isEmpty = true <;>
      simp [newTask, empty, Counters.increasePredecessors]
  · intro _ piece member
    obtain ⟨-, inAccesses⟩ := pieces .accesses piece member
    obtain ⟨_, _, _, _, _, value⟩ := declared piece inAccesses
    rw [value]
  · intro unborn
    simp only [newTask] at unborn
    split at unborn <;> cases unborn
  · by_cases empty : accesses.pieces.isEmpty = true <;>
      simp [newTask, empty, Counters.increasePredecessors]
  · intro started
    simp only [newTask] at started
    split at started <;> cases started

end TaskAccounting

/-- Unless an assertion has failed, the counters of every task agree with its
objects. -/
def Accounted (system : System) : Prop :=
  system.assertionFailed = false → ∀ task, TaskAccounting (system.task task)

namespace Accounted

variable {system : System}

theorem modifyTask (accounted : Accounted system) (task : TaskId)
    (change : Task → Task)
    (changed : TaskAccounting (system.task task) →
      TaskAccounting (change (system.task task))) :
    Accounted (system.modifyTask task change) := by
  intro clean other
  rw [System.task_modifyTask]
  split
  · exact changed (accounted clean task)
  · exact accounted clean other

theorem setWork (accounted : Accounted system) (task : TaskId)
    (work : List Work) : Accounted (system.setWork task work) :=
  accounted.modifyTask task _ fun accounting =>
    accounting.congr rfl rfl rfl rfl rfl

/-- A change of one object, with the fragments that it leaves beside it.  Only
while the task is being registered may the object become registered. -/
theorem changeObject (accounted : Accounted system) (owner task : TaskId)
    {map : AccessMap} {piece : Piece DataAccess}
    (member : piece ∈ ((system.task task).objects map).pieces)
    {region : DataAccessRegion} (meets : piece.interval.Meets region)
    {setter : Setter}
    (sound : TaskAccounting (system.task task) →
      setter.assertion piece.value = true →
      SoundChange piece.value (setter.apply piece.value))
    (keeps : (system.task task).status = .registering → map = .accesses →
      (setter.apply piece.value).complete = piece.value.complete)
    (fresh : setter.assertion piece.value = true →
      (setter.apply piece.value).registered = true →
      piece.value.registered = true ∨
        (system.task task).status = .registering) :
    Accounted (system.changeObject owner task map piece region setter) := by
  intro clean
  have asserted :
      (system.assertionFailed || !setter.assertion piece.value ||
        (piece.sides region != 0 && !piece.value.registered)) = false :=
    clean
  simp only [Bool.or_eq_false_iff, Bool.not_eq_false', Bool.and_eq_false_iff,
    bne_eq_false_iff_eq] at asserted
  obtain ⟨⟨cleanBefore, holds⟩, whole⟩ := asserted
  have registered : piece.sides region ≠ 0 → piece.value.registered = true :=
    fun sides => whole.resolve_left sides
  have accounting := accounted cleanBefore task
  replace sound := sound accounting holds
  intro other
  rw [System.task_changeObject]
  split
  case isFalse => exact accounted cleanBefore other
  case isTrue same =>
  have anchored := sound.anchored (accounting.anchored map piece member)
  have followed :=
    follow_handleChange system.parent task member meets sound.toRegularChange
      anchored registered (system.task task).counters
  have originators :
      (handleChange system.parent task piece region setter
          (system.task task).counters).dependencyData.satisfiedOriginators =
        _ :=
    satisfiedOriginators_handleChange system.parent task
      sound.toRegularChange (system.task task).counters
  -- The enforced dependencies come and go with the changed object alone.
  have enforcing :=
    countObjects_handleChange system.parent task member meets
      sound.toRegularChange (system.task task).counters
      isStatusTest_isEnforcing anchored.isEnforcing_of_unlinked
  dsimp only at enforcing ⊢
  generalize handledIs :
    handleChange system.parent task piece region setter
      (system.task task).counters = handled
    at followed originators enforcing ⊢
  have status : (system.task task).status ≠ .unborn := by
    intro unborn
    have none := accounting.unborn unborn map
    rw [none] at member
    cases member
  have predecessors := accounting.predecessors
  have blockers := accounting.blockers
  have moved := followed.predecessorCount
  have enforcingBefore : piece.value.isEnforcing = true →
      0 < countObjects (system.task task).objects DataAccess.isEnforcing :=
    fun enforcing => countObjects_pos member enforcing
  have monotone : piece.value.registered = true →
      (setter.apply piece.value).isEnforcing = true →
      piece.value.isEnforcing = true := by
    intro old new
    simp only [DataAccess.isEnforcing, Bool.and_eq_true] at new ⊢
    exact ⟨old, sound.enforces old new.2⟩
  refine
    { anchored := ?_
      typed := ?_
      predecessors := ?_
      blockers := ?_
      incomplete := ?_
      unborn := fun unborn => absurd unborn status
      reports := ?_
      started := ?_ }
  · intro found part partMember
    obtain ⟨access, cpus, value, old | ⟨-, new⟩⟩ :=
      mem_changedObjects member partMember
    · obtain ⟨before, beforeMember, rfl⟩ := old
      rw [value]
      exact accounting.anchored found before beforeMember
    · rw [← handledIs] at new
      obtain ⟨_, _, rfl⟩ := access_of_handleChange new
      rw [value]
      exact anchored
  · intro found part partMember
    obtain ⟨access, cpus, value, old | ⟨rfl, new⟩⟩ :=
      mem_changedObjects member partMember
    · obtain ⟨before, beforeMember, rfl⟩ := old
      rw [value]
      exact accounting.typed found before beforeMember
    · rw [← handledIs] at new
      obtain ⟨_, _, rfl⟩ := access_of_handleChange new
      rw [value]
      dsimp only
      rw [sound.objectType]
      exact accounting.typed _ piece member
  · dsimp only
    omega
  · dsimp only
    have removal := followed.removalBlockers
    omega
  · intro registering part partMember
    obtain ⟨access, cpus, value, old | ⟨accesses, new⟩⟩ :=
      mem_changedObjects member partMember
    · obtain ⟨before, beforeMember, rfl⟩ := old
      rw [value]
      exact accounting.incomplete registering before beforeMember
    · rw [← handledIs] at new
      obtain ⟨_, _, rfl⟩ := access_of_handleChange new
      rw [value]
      dsimp only
      subst accesses
      rw [keeps registering rfl]
      exact accounting.incomplete registering piece member
  · have reports := accounting.reports
    dsimp only
    rw [List.length_append, List.length_map, reports, originators]
    simp only [ne_eq, status, not_false_eq_true, and_true]
    cases old : piece.value.isEnforcing with
    | false =>
        simp only [Bool.false_eq_true, false_and, if_false, List.length_nil,
          Nat.add_zero]
        cases new : (setter.apply piece.value).isEnforcing with
        | false =>
            simp only [old, new, Bool.toNat_false] at enforcing
            rw [show handled.counters.predecessorCount =
              (system.task task).counters.predecessorCount by omega]
        | true =>
            -- The access becomes registered, so the guard is still there.
            have registering : (system.task task).status = .registering := by
              have now : (setter.apply piece.value).registered = true := by
                simp only [DataAccess.isEnforcing, Bool.and_eq_true] at new
                exact new.1
              refine (fresh holds now).resolve_left fun before => ?_
              rw [monotone before new] at old
              cases old
            rw [if_pos registering] at predecessors
            rw [if_neg (by omega), if_neg (by omega)]
    | true =>
        have positive := enforcingBefore old
        have before : (system.task task).counters.predecessorCount ≠ 0 := by
          split at predecessors <;> omega
        rw [if_neg before]
        cases new : (setter.apply piece.value).isEnforcing with
        | false =>
            by_cases zero : handled.counters.predecessorCount = 0 <;>
              simp [zero]
        | true =>
            simp only [old, new, Bool.toNat_true] at enforcing
            have after : handled.counters.predecessorCount ≠ 0 := by omega
            simp [after]
  · intro started
    have zero := accounting.started started
    have notRegistering : (system.task task).status ≠ .registering := by
      intro registering
      change (system.task task).status.hasStarted = true at started
      rw [registering] at started
      cases started
    rw [if_neg notRegistering] at predecessors
    have old : piece.value.isEnforcing = false := by
      by_contra enforced
      have positive := enforcingBefore (Bool.eq_true_of_not_eq_false enforced)
      omega
    have new : (setter.apply piece.value).isEnforcing = false := by
      by_contra notFalse
      have enforced := Bool.eq_true_of_not_eq_false notFalse
      have now : (setter.apply piece.value).registered = true := by
        simp only [DataAccess.isEnforcing, Bool.and_eq_true] at enforced
        exact enforced.1
      have before :=
        monotone ((fresh holds now).resolve_right notRegistering) enforced
      rw [old] at before
      cases before
    simp only [old, new, Bool.toNat_false] at enforcing
    dsimp only
    omega

/-- A new fragment, taskwait fragment or sink. -/
theorem createObject (accounted : Accounted system) (owner task : TaskId)
    {map : AccessMap} (region : DataAccessRegion)
    {initial : DataAccessStatusEffects} {access : DataAccess}
    (new : IsNewObject initial access) (anchored : access.IsAnchored)
    (typed : access.objectType.map = map) (notAccess : map ≠ .accesses)
    (born : (system.task task).status ≠ .unborn) :
    Accounted (system.createObject owner task map region initial access) := by
  intro clean other
  rw [System.task_createObject]
  split
  case isFalse => exact accounted clean other
  case isTrue same =>
  have accounting := accounted clean task
  have counters := new.counters system.parent region task
    (system.task task).counters
  have quiet := (new.dependencyData system.parent region task
    (system.task task).counters).1
  dsimp only at quiet ⊢
  rw [counters, quiet]
  have followed :=
    (system.task task).counters.follow_countObject access.objectType
  have predecessors := followed.predecessorCount
  rw [Int.add_zero] at predecessors
  have enforcing :=
    countObjects_update (system.task task).objects map
      (((system.task task).objects map).insert region access)
      DataAccess.isEnforcing
  have counted :=
    countObjects_update (system.task task).objects map
      (((system.task task).objects map).insert region access)
      DataAccess.isCounted
  have pieces : ∀ found, ∀ part ∈
      (Function.update (system.task task).objects map
        (((system.task task).objects map).insert region access)
        found).pieces,
      (found = map ∧ part.value = access) ∨
        part ∈ ((system.task task).objects found).pieces := by
    intro found part member
    by_cases here : found = map
    · subst here
      rw [Function.update_self] at member
      rcases IntervalMap.mem_insert _ member with rfl | old
      · exact Or.inl ⟨rfl, rfl⟩
      · exact Or.inr old
    · rw [Function.update_of_ne here] at member
      exact Or.inr member
  refine
    { anchored := ?_
      typed := ?_
      predecessors := ?_
      blockers := ?_
      incomplete := ?_
      unborn := fun unborn => absurd unborn born
      reports := ?_
      started := ?_ }
  · intro found part member
    rcases pieces found part member with ⟨_, value⟩ | old
    · rw [value]
      exact anchored
    · exact accounting.anchored found part old
  · intro found part member
    rcases pieces found part member with ⟨here, value⟩ | old
    · rw [value, here]
      exact typed
    · exact accounting.typed found part old
  · have same : (((system.task task).objects map).insert region
        access).countPieces DataAccess.isEnforcing =
        ((system.task task).objects map).countPieces
          DataAccess.isEnforcing :=
      IntervalMap.countPieces_insert_of_false _ region
        (by simp [DataAccess.isEnforcing, new.inert])
    have before := accounting.predecessors
    dsimp only
    rw [predecessors, before]
    omega
  · have more :=
      ((system.task task).objects map).countPieces_insert_le region access
        DataAccess.isCounted
    have once : access.isCounted.toNat ≤ 1 := Bool.toNat_le _
    have blockers := followed.removalBlockers
    have before := accounting.blockers
    dsimp only
    rw [blockers]
    omega
  · intro registering part member
    rcases pieces .accesses part member with ⟨here, _⟩ | old
    · exact absurd here.symm notAccess
    · exact accounting.incomplete registering part old
  · dsimp only
    rw [predecessors]
    simpa using accounting.reports
  · intro started
    dsimp only
    rw [predecessors]
    exact accounting.started started

/-- A change that only adds to the status of an object. -/
theorem addsStatus (accounted : Accounted system) (owner task : TaskId)
    {map : AccessMap} {piece : Piece DataAccess}
    (member : piece ∈ ((system.task task).objects map).pieces)
    {region : DataAccessRegion} (meets : piece.interval.Meets region)
    {setter : Setter} (adds : setter.Adds) (keeps : setter.KeepsComplete) :
    Accounted (system.changeObject owner task map piece region setter) := by
  refine accounted.changeObject owner task member meets
    (fun _ holds => (adds piece.value holds).sound)
    (fun _ _ => keeps piece.value) fun holds registered => ?_
  rw [(adds piece.value holds).registered] at registered
  exact Or.inl registered

/-- The completion of an object of a started task or of a fragment. -/
theorem setComplete (accounted : Accounted system) (owner task : TaskId)
    {map : AccessMap} {piece : Piece DataAccess}
    (member : piece ∈ ((system.task task).objects map).pieces)
    {region : DataAccessRegion} (meets : piece.interval.Meets region)
    (started : (system.task task).status.hasStarted = true) :
    Accounted
      (system.changeObject owner task map piece region .setComplete) := by
  refine accounted.changeObject owner task member meets
    (fun _ holds => (Setter.adds_setComplete piece.value holds).sound)
    (fun registering _ => ?_) fun _ registered => Or.inl registered
  rw [registering] at started
  cases started

/-! ## Registration -/

theorem allocateReductionInfo (accounted : Accounted system) (task : TaskId)
    (progress : LinkProgress) :
    Accounted (Nanos6.allocateReductionInfo system task progress) := by
  unfold Nanos6.allocateReductionInfo
  dsimp only
  split
  · exact accounted
  · rename_i piece found
    obtain ⟨member, meets, _⟩ := IntervalMap.firstIn_eq_some _ found
    have whole := Interval.meets_self (IntervalMap.nonempty _ piece member)
    exact accounted.addsStatus task task member whole
      (Setter.adds_allocate _) (Setter.keepsComplete_allocate _)

theorem allocateForPrevious (accounted : Accounted system) (task : TaskId)
    (progress : LinkProgress) (previous : DataAccess) :
    Accounted
      (Nanos6.allocateForPrevious system task progress previous).1 := by
  unfold Nanos6.allocateForPrevious
  split
  · split
    · exact accounted.allocateReductionInfo task progress
    · split
      · exact accounted
      · split
        · exact accounted.allocateReductionInfo task progress
        · exact accounted
  · exact accounted

theorem createInitialFragment (accounted : Accounted system)
    (owner task : TaskId) {superaccess : Piece DataAccess}
    (member :
      superaccess ∈ ((system.task task).objects .accesses).pieces)
    (subregion : DataAccessRegion) :
    Accounted
      (Nanos6.createInitialFragment system owner task superaccess
        subregion) := by
  intro clean
  have asserted :
      (system.assertionFailed ||
        !decide (((system.task task).objects .accessFragments).Fits
          superaccess.interval) ||
        superaccess.value.hasSubaccesses) = false :=
    clean
  simp only [Bool.or_eq_false_iff] at asserted
  have cleanBefore := asserted.1.1
  have born : (system.task task).status ≠ .unborn := by
    intro unborn
    rw [(accounted cleanBefore task).unborn unborn .accesses] at member
    cases member
  have created : Accounted
      (system.createObject owner task .accessFragments superaccess.interval {}
        (initialFragment superaccess.value)) :=
    accounted.createObject owner task superaccess.interval
      (isNewObject_initialFragment superaccess.value)
      (fun _ _ => Or.inl rfl) rfl (by simp) born
  intro other
  rw [task_createInitialFragment]
  have fragmented := created cleanBefore task
  rw [System.task_createObject, if_pos rfl] at fragmented
  split
  · have still : superaccess ∈ (Function.update (system.task task).objects
        .accessFragments
        (((system.task task).objects .accessFragments).insert
          superaccess.interval (initialFragment superaccess.value))
        .accesses).pieces := by
      rw [Function.update_of_ne (by simp)]
      exact member
    refine fragmented.withSubaccesses still ?_ rfl rfl rfl
    dsimp only
    rw [Function.update_of_ne (by simp)]
  · exact accounted cleanBefore other

/-- The initial fragment can be found right after its creation, unless an
assertion has failed. -/
theorem mem_createInitialFragment {owner task : TaskId}
    {superaccess : Piece DataAccess} {subregion : DataAccessRegion}
    (clean :
      (Nanos6.createInitialFragment system owner task superaccess
        subregion).assertionFailed = false) :
    ⟨superaccess.interval, initialFragment superaccess.value⟩ ∈
      (((Nanos6.createInitialFragment system owner task superaccess
        subregion).task task).objects .accessFragments).pieces := by
  have asserted :
      (system.assertionFailed ||
        !decide (((system.task task).objects .accessFragments).Fits
          superaccess.interval) ||
        superaccess.value.hasSubaccesses) = false :=
    clean
  simp only [Bool.or_eq_false_iff, Bool.not_eq_false', decide_eq_true_eq]
    at asserted
  rw [task_createInitialFragment, if_pos rfl]
  dsimp only
  rw [Function.update_of_ne (by simp), Function.update_self]
  exact (IntervalMap.perm_insert _ asserted.1.2 _).mem_iff.mpr (by simp)

/-- Linking the object that the access follows.  The object is not one of the
task that is being registered. -/
theorem linkPrevious (accounted : Accounted system)
    {task parent previousTask : TaskId} (progress : LinkProgress)
    {map : AccessMap} {piece : Piece DataAccess}
    (differ : previousTask ≠ task)
    (member : system.assertionFailed = false →
      piece ∈ ((system.task previousTask).objects map).pieces)
    {region : DataAccessRegion} (meets : piece.interval.Meets region)
    (parentAccessType : DataAccessType) (rest : List Work) :
    Accounted
      (Nanos6.linkPrevious system task parent progress map previousTask piece
        region parentAccessType rest) := by
  have allocated := accounted.allocateForPrevious task progress piece.value
  have untouched :=
    task_allocateForPrevious_of_ne system progress piece.value differ
  have monotone :
      (Nanos6.allocateForPrevious system task progress
        piece.value).1.assertionFailed = false →
      system.assertionFailed = false :=
    assertionFailed_allocateForPrevious system progress piece.value
  unfold Nanos6.linkPrevious
  generalize Nanos6.allocateForPrevious system task progress piece.value =
    outcome at allocated untouched monotone
  obtain ⟨start, decided⟩ := outcome
  dsimp only at allocated untouched monotone ⊢
  refine Accounted.setWork (modifyTask ?_ parent _ ?_) task _
  · intro clean
    have cleanStart : start.assertionFailed = false := by
      have asserted :
          (start.assertionFailed || _ || _) = false := clean
      simp only [Bool.or_eq_false_iff] at asserted
      exact asserted.1.1
    have startMember :
        piece ∈ ((start.task previousTask).objects map).pieces := by
      rw [untouched]
      exact member (monotone cleanStart)
    exact allocated.addsStatus task previousTask startMember meets
      (Setter.adds_linkTo _) (Setter.keepsComplete_linkTo _) clean
  · exact fun accounting => accounting.congr rfl rfl rfl rfl rfl

theorem matchEntry (accounted : Accounted system) {task parent : TaskId}
    (linking : (system.task task).isLinking = true) (differ : parent ≠ task)
    {progress : LinkProgress} {entry : Piece BottomMapEntry}
    {rest : List Work} {next : System}
    (matched : Nanos6.matchEntry system task parent progress entry rest =
      some next) :
    Accounted next := by
  unfold Nanos6.matchEntry at matched
  dsimp only at matched
  split at matched
  · cases matched
  · rename_i free
    split at matched
    · cases matched
      exact (accounted.modifyTask parent _ fun accounting =>
        accounting.congr rfl rfl rfl rfl rfl).setWork task _
    · rename_i piece found
      cases matched
      obtain ⟨member, meets, _⟩ := IntervalMap.firstIn_eq_some _ found
      refine accounted.linkPrevious progress ?_ (fun _ => member) meets _ rest
      -- The task itself is locked by its own registration.
      intro same
      refine free ⟨?_, ?_⟩
      · rw [same]
        exact differ.symm
      · rw [same]
        simp [System.locked, linking]

theorem matchSuperaccess (accounted : Accounted system)
    {task parent : TaskId} (differ : parent ≠ task) (progress : LinkProgress)
    {superaccess : Piece DataAccess}
    (member : superaccess ∈ ((system.task parent).objects .accesses).pieces)
    {missing : DataAccessRegion}
    (meets : superaccess.interval.Meets missing) (rest : List Work) :
    Accounted
      (Nanos6.matchSuperaccess system task parent progress superaccess missing
        rest) :=
  (accounted.createInitialFragment task parent member missing).linkPrevious
    progress differ mem_createInitialFragment meets _ rest

theorem matchUncovered (accounted : Accounted system) {task : TaskId}
    (progress : LinkProgress) (uncovered : DataAccessRegion)
    (rest : List Work) :
    Accounted
      (Nanos6.matchUncovered system task progress uncovered rest) := by
  have allocated : ∀ allocates : Bool, Accounted
      (if allocates then Nanos6.allocateReductionInfo system task progress
        else system) := by
    intro allocates
    cases allocates with
    | false => exact accounted
    | true => exact accounted.allocateReductionInfo task progress
  unfold Nanos6.matchUncovered
  dsimp only
  split
  · exact (allocated _).setWork task _
  · rename_i piece found
    obtain ⟨member, meets, _⟩ := IntervalMap.firstIn_eq_some _ found
    exact ((allocated _).addsStatus task task member meets
      Setter.adds_satisfyLocally
      Setter.keepsComplete_satisfyLocally).setWork task _

theorem matchMissing (accounted : Accounted system) {task parent : TaskId}
    (differ : parent ≠ task) (progress : LinkProgress)
    (missing : DataAccessRegion) (rest : List Work) :
    Accounted
      (Nanos6.matchMissing system task parent progress missing rest) := by
  unfold Nanos6.matchMissing
  split
  · exact accounted.matchUncovered progress missing rest
  · rename_i superaccess found
    obtain ⟨member, meets, _⟩ := IntervalMap.firstIn_eq_some _ found
    split
    · exact accounted.matchSuperaccess differ progress member meets rest
    · exact accounted.matchUncovered progress _ rest

theorem replaceMatching (accounted : Accounted system)
    {task parent : TaskId} (linking : (system.task task).isLinking = true)
    (differ : parent ≠ task) {progress : LinkProgress} {rest : List Work}
    {next : System}
    (matched :
      replaceMatchingInBottomMapLinkAndPropagate system task parent progress
        rest = some next) :
    Accounted next := by
  unfold replaceMatchingInBottomMapLinkAndPropagate at matched
  dsimp only at matched
  split at matched
  · cases matched
    exact (accounted.modifyTask parent _ fun accounting =>
      accounting.congr rfl rfl rfl rfl rfl).setWork task _
  · split at matched
    · cases matched
      exact accounted.matchMissing differ progress _ rest
    · split at matched
      · exact accounted.matchEntry linking differ matched
      · cases matched
        exact accounted.matchMissing differ progress _ rest

theorem linkTaskAccesses (accounted : Accounted system) {task : TaskId}
    (registering : (system.task task).status = .registering) (low : Nat)
    (rest : List Work) :
    Accounted (Nanos6.linkTaskAccesses system task low rest) := by
  unfold Nanos6.linkTaskAccesses
  split
  · exact accounted.setWork task rest
  · rename_i piece found
    obtain ⟨member, _⟩ := IntervalMap.nextFrom_eq_some _ found
    have meets :=
      Interval.meets_self
        (((system.task task).objects .accesses).nonempty piece member)
    refine Accounted.setWork
      (accounted.changeObject task task member meets ?_ ?_ ?_) task _
    · exact fun accounting _ =>
        Setter.sound_register (accounting.anchored .accesses piece member)
          fun _ => accounting.incomplete registering piece member
    · exact fun _ _ => rfl
    · exact fun _ _ => Or.inr registering

/-! ## Updates -/

theorem processUpdateOperation (accounted : Accounted system) {index : Nat}
    {next : System}
    (processed : Nanos6.processUpdateOperation system index = some next) :
    Accounted next := by
  unfold Nanos6.processUpdateOperation at processed
  split at processed
  · cases processed
  · rename_i owner operation _
    dsimp only at processed
    split at processed
    · cases processed
    · split at processed
      · cases processed
        exact accounted
      · rename_i piece found
        cases processed
        obtain ⟨member, meets, _⟩ := IntervalMap.firstIn_eq_some _ found
        exact accounted.addsStatus owner operation.target.task member meets
          (Setter.adds_applyUpdateOperation operation)
          (Setter.keepsComplete_applyUpdateOperation operation)

theorem processBottomMapUpdate (accounted : Accounted system) {index : Nat}
    {next : System}
    (processed : Nanos6.processBottomMapUpdate system index = some next) :
    Accounted next := by
  unfold Nanos6.processBottomMapUpdate at processed
  split at processed
  · cases processed
  · rename_i owner task operation _
    dsimp only at processed
    split at processed
    · cases processed
    · split at processed
      · cases processed
        exact accounted
      · rename_i entry _
        split at processed
        · cases processed
        · split at processed
          · cases processed
            exact accounted
          · rename_i piece found
            cases processed
            obtain ⟨member, meets, _⟩ := IntervalMap.firstIn_eq_some _ found
            have continued : Accounted
                { system with
                  bottomMapUpdates :=
                    system.bottomMapUpdates.take index ++
                      (owner, task,
                        { operation with
                          region :=
                            ⟨(piece.interval.inter
                              (entry.interval.inter operation.region)).stop,
                              operation.region.stop⟩ }) ::
                      system.bottomMapUpdates.drop (index + 1) } :=
              accounted
            exact continued.addsStatus owner entry.value.link.task member meets
              (Setter.adds_followParent operation)
              (Setter.keepsComplete_followParent operation)

/-! ## Taskwaits and sinks -/

theorem createTaskwaitFragment (accounted : Accounted system)
    {task : TaskId} (born : (system.task task).status ≠ .unborn)
    {objectType : DataAccessObjectType}
    (kind : objectType = .taskwait ∨ objectType = .topLevelSink)
    (entry : Piece BottomMapEntry) :
    Accounted
      (Nanos6.createTaskwaitFragment system task objectType entry) := by
  have notAccess : objectType ≠ .access := by
    rcases kind with rfl | rfl <;> simp
  have kept : objectType.map = .taskwaitFragments := by
    rcases kind with rfl | rfl <;> rfl
  have created :=
    accounted.createObject task task entry.interval
      (isNewObject_taskwaitFragment system.parent task notAccess
        entry.value.accessType)
      (fun _ _ => Or.inl rfl) kept (by simp) born
  exact created.modifyTask task _ fun accounting =>
    accounting.congr rfl rfl rfl rfl rfl

theorem createTaskwait (accounted : Accounted system) {task : TaskId}
    (born : (system.task task).status ≠ .unborn) (low : Nat)
    (rest : List Work) :
    Accounted (Nanos6.createTaskwait system task low rest) := by
  unfold Nanos6.createTaskwait
  split
  · exact accounted.setWork task rest
  · exact (accounted.createTaskwaitFragment born (Or.inl rfl) _).setWork task _

theorem createTopLevelSink (accounted : Accounted system) {task : TaskId}
    (born : (system.task task).status ≠ .unborn) (low : Nat)
    (rest : List Work) :
    Accounted (Nanos6.createTopLevelSink system task low rest) := by
  unfold Nanos6.createTopLevelSink
  split
  · exact accounted.setWork task rest
  · split
    · exact accounted.setWork task _
    · exact (accounted.createTaskwaitFragment born (Or.inr rfl) _).setWork
        task _

theorem linkToTaskwait (accounted : Accounted system) {task : TaskId}
    {previous : DataAccessLink} {region : DataAccessRegion}
    {rest : List Work} {next : System}
    (linked : Nanos6.linkToTaskwait system task previous region rest =
      some next) :
    Accounted next := by
  unfold Nanos6.linkToTaskwait at linked
  split at linked
  · cases linked
  · split at linked
    · cases linked
      exact accounted.setWork task rest
    · rename_i piece found
      cases linked
      obtain ⟨member, meets, _⟩ := IntervalMap.firstIn_eq_some _ found
      exact (accounted.addsStatus task previous.task member meets
        (Setter.adds_linkTo _) (Setter.keepsComplete_linkTo _)).setWork task _

/-! ## Completing accesses -/

theorem finalizeFragments (accounted : Accounted system) {task : TaskId}
    (started : (system.task task).status.hasStarted = true) (low : Nat)
    (rest : List Work) :
    Accounted (Nanos6.finalizeFragments system task low rest) := by
  unfold Nanos6.finalizeFragments
  split
  · exact accounted.setWork task rest
  · rename_i piece found
    obtain ⟨member, _⟩ := IntervalMap.nextFrom_eq_some _ found
    dsimp only
    split
    · exact accounted.setWork task _
    · refine Accounted.setWork (accounted.setComplete task task member ?_
        started) task _
      exact Interval.meets_self
        (((system.task task).objects .accessFragments).nonempty piece member)

theorem finalizeFragmentsOf (accounted : Accounted system) {task : TaskId}
    (started : (system.task task).status.hasStarted = true)
    (region : DataAccessRegion) (rest : List Work) :
    Accounted (Nanos6.finalizeFragmentsOf system task region rest) := by
  unfold Nanos6.finalizeFragmentsOf
  split
  · exact accounted.setWork task rest
  · rename_i piece found
    obtain ⟨member, meets, _⟩ := IntervalMap.firstIn_eq_some _ found
    exact (accounted.setComplete task task member meets started).setWork task _

theorem finalizeAccess (accounted : Accounted system) {task : TaskId}
    (started : (system.task task).status.hasStarted = true)
    (region : DataAccessRegion) (rest : List Work) :
    Accounted (Nanos6.finalizeAccess system task region rest) := by
  unfold Nanos6.finalizeAccess
  split
  · exact accounted.setWork task rest
  · rename_i piece found
    obtain ⟨member, meets, _⟩ := IntervalMap.firstIn_eq_some _ found
    split
    · exact accounted.setWork task _
    · exact (accounted.setComplete task task member meets started).setWork
        task _

/-! ## The life of a task -/

theorem handleEnterTaskwait (accounted : Accounted system) {task : TaskId}
    (started : (system.task task).status.hasStarted = true)
    (rest : List Work) :
    Accounted (Nanos6.handleEnterTaskwait system task rest) := by
  have entered :=
    accounted.modifyTask task (Task.enterTaskwait rest) fun accounting => by
      refine accounting.restatus rfl ?_ ?_ rfl started ?_
      · simp only [Task.enterTaskwait]
        split <;> split <;> rfl
      · simp only [Task.enterTaskwait]
        split <;> split <;> rfl
      · simp only [Task.enterTaskwait]
        split <;> rfl
  intro clean
  have asserted : (system.assertionFailed || _) = false := clean
  rw [Bool.or_eq_false_iff] at asserted
  exact entered asserted.1

theorem handleExitTaskwait (accounted : Accounted system) {task : TaskId}
    (started : (system.task task).status.hasStarted = true) :
    Accounted (Nanos6.handleExitTaskwait system task) := by
  by_cases accesses : (system.task task).hasAccesses = true
  · obtain ⟨exited, ofAccesses, ofFragments, exits⟩ :=
      handleExitTaskwait_of_hasAccesses system task accesses
    rw [exits]
    exact accounted.modifyTask task
      (fun current =>
        { current with
          counters := current.counters.increaseRemovalBlockingCount
          objects := exited current
          subaccessBottomMap := .empty })
      fun accounting =>
        accounting.exited (ofAccesses _)
          (fun map fragments => by
            dsimp only
            rw [ofFragments _ map fragments]
            rfl)
          rfl rfl rfl rfl started
  · unfold Nanos6.handleExitTaskwait
    dsimp only
    rw [if_neg accesses]
    exact accounted.modifyTask task _ fun accounting =>
      accounting.congr rfl rfl rfl rfl rfl

theorem markAsBlocked (accounted : Accounted system) {task : TaskId}
    (started : (system.task task).status.hasStarted = true)
    (rest : List Work) :
    Accounted (Nanos6.markAsBlocked system task rest) := by
  refine accounted.modifyTask task _ fun accounting =>
    accounting.restatus rfl rfl rfl rfl started ?_
  dsimp only
  split <;> rfl

theorem exitTaskwait (accounted : Accounted system) {task : TaskId}
    (started : (system.task task).status.hasStarted = true)
    (rest : List Work) :
    Accounted (Nanos6.exitTaskwait system task rest) := by
  refine handleExitTaskwait (accounted.modifyTask task _ fun accounting =>
    accounting.restatus rfl rfl rfl rfl started rfl) ?_
  rw [System.task_modifyTask, if_pos rfl]
  rfl

theorem completeDelayedRelease (accounted : Accounted system)
    {task : TaskId}
    (started : (system.task task).status.hasStarted = true) :
    Accounted (Nanos6.completeDelayedRelease system task) := by
  have exited : Accounted
      (Nanos6.handleExitTaskwait
        (system.modifyTask task fun current =>
          { current with mustDelayRelease := false }) task) := by
    refine handleExitTaskwait (accounted.modifyTask task _ fun accounting =>
      accounting.congr rfl rfl rfl rfl rfl) ?_
    rw [System.task_modifyTask, if_pos rfl]
    exact started
  have same := congrFun
    (control_handleExitTaskwait
      (system.modifyTask task fun current =>
        { current with mustDelayRelease := false }) task) task
  refine exited.modifyTask task _ fun accounting =>
    accounting.restatus rfl rfl rfl rfl ?_ rfl
  change (System.control _ task).status.hasStarted = true
  rw [same]
  unfold System.control
  rw [System.task_modifyTask, if_pos rfl]
  exact started

theorem completeWaitClause (accounted : Accounted system) {task : TaskId}
    (started : (system.task task).status.hasStarted = true)
    (rest : List Work) :
    Accounted (Nanos6.completeWaitClause system task rest) := by
  unfold Nanos6.completeWaitClause
  dsimp only
  have decreased := accounted.modifyTask task
    (fun current =>
      { current with
        counters :=
          (system.task task).counters.decreaseRemovalBlockingCount.1
        status := .waitClausePending
        work := rest })
    fun accounting => accounting.restatus rfl rfl rfl rfl started rfl
  split
  · refine completeDelayedRelease decreased ?_
    rw [System.task_modifyTask, if_pos rfl]
    rfl
  · exact decreased

theorem markAsReleased (accounted : Accounted system) {task : TaskId}
    (started : (system.task task).status.hasStarted = true)
    (rest : List Work) :
    Accounted (Nanos6.markAsReleased system task rest) :=
  accounted.modifyTask task
    (fun current =>
      { current with
        counters :=
          (system.task task).counters.decreaseRemovalBlockingCount.1
        status := .released
        work := rest })
    fun accounting => accounting.restatus rfl rfl rfl rfl started rfl

theorem decreaseCountdown (accounted : Accounted system) (task : TaskId) :
    Accounted
      (system.modifyTask task fun current =>
        { current with
          counters :=
            (system.task task).counters.decreaseRemovalBlockingCount.1 }) :=
  accounted.modifyTask task _ fun accounting =>
    accounting.congr rfl rfl rfl rfl rfl

theorem disposeTask (accounted : Accounted system) {task : TaskId}
    (started : (system.task task).status.hasStarted = true) :
    Accounted (Nanos6.disposeTask system task) := by
  have deleted := accounted.modifyTask task
    (fun current =>
      { current with
        status := .disposed
        objects := fun _ => .empty
        subaccessBottomMap := .empty
        deletedAccesses := current.objects .accesses })
    fun accounting =>
      accounting.deleted (fun _ => rfl) rfl rfl started rfl
  unfold Nanos6.disposeTask
  dsimp only
  split
  · exact deleted
  · rename_i parent _
    exact deleted.decreaseCountdown parent

theorem disposeOrUnblockTask (accounted : Accounted system) {index : Nat}
    {next : System}
    (disposed : Nanos6.disposeOrUnblockTask system index = some next) :
    Accounted next := by
  unfold Nanos6.disposeOrUnblockTask at disposed
  split at disposed
  · cases disposed
  · rename_i task _
    have called : Accounted
        { system with
          pendingDisposals := system.pendingDisposals.eraseIdx index } :=
      accounted
    dsimp only at disposed
    split at disposed
    · cases disposed
    · split at disposed
      · rename_i finished
        have started : (system.task task).status.hasStarted = true := by
          revert finished
          cases (system.task task).status <;>
            simp [TaskStatus.hasFinished, TaskStatus.hasStarted]
        split at disposed
        · cases disposed
          exact called.completeDelayedRelease started
        · cases disposed
          exact called.disposeTask started
      · split at disposed
        · rename_i blocked
          cases disposed
          refine called.modifyTask task _ fun accounting =>
            accounting.restatus rfl rfl rfl rfl ?_ rfl
          change (system.task task).status.hasStarted = true
          rw [blocked]
          rfl
        · cases disposed

/-- The end of a registration gives the guard of two back. -/
theorem decreasePredecessors (accounted : Accounted system) {task : TaskId}
    (registering : (system.task task).status = .registering)
    (rest : List Work) :
    Accounted (Nanos6.decreasePredecessors system task rest) := by
  have ended := accounted.modifyTask task
    (fun current =>
      { current with
        counters := (current.counters.decreasePredecessors 2).1
        status := .registered
        work := rest
        readyReports :=
          current.readyReports ++
            if (current.counters.decreasePredecessors 2).2 then
              [.registrationReturn] else [] }) <| by
    intro accounting
    have predecessors := accounting.predecessors
    rw [if_pos registering] at predecessors
    have reports := accounting.reports
    rw [if_neg (by omega)] at reports
    refine
      { anchored := accounting.anchored
        typed := accounting.typed
        predecessors := ?_
        blockers := accounting.blockers
        incomplete := fun still => by cases still
        unborn := fun unborn => by cases unborn
        reports := ?_
        started := fun started => by cases started }
    · simp [Counters.decreasePredecessors, predecessors]
    · by_cases zero :
          (system.task task).counters.predecessorCount - 2 = 0 <;>
        simp [Counters.decreasePredecessors, zero, reports]
  unfold Nanos6.decreasePredecessors
  dsimp only
  split
  · exact ended
  · rename_i parent _
    exact ended.modifyTask parent _ fun accounting =>
      accounting.congr rfl rfl rfl rfl rfl

theorem submitTask (accounted : Accounted system) {parent child : TaskId}
    {declarations : List AccessDeclaration} {mustDelayRelease : Bool}
    {next : System}
    (submitted :
      Nanos6.submitTask system parent child declarations mustDelayRelease =
        some next) : Accounted next := by
  obtain ⟨-, -, -, accesses, declared, rfl⟩ := submitTask_eq_some submitted
  refine modifyTask (accounted.modifyTask parent _ fun accounting =>
    accounting.congr rfl rfl rfl rfl rfl) child _ fun _ => ?_
  exact TaskAccounting.created parent mustDelayRelease
    (isDeclared_registerDepinfo declared)

theorem advance (accounted : Accounted system) (enrolled : Enrolled system)
    (lineage : Lineage system) {task : TaskId} {next : System}
    (advanced : Nanos6.advance system task = some next) :
    Accounted next := by
  obtain ⟨head, rest, working, -, -, advances⟩ := advances_of_advance advanced
  have started : TaskStatus.registering.allows head = false →
      head ≠ .decreasePredecessors →
      (system.task task).status.hasStarted = true :=
    enrolled.hasStarted working
  have registering : head.registers = true →
      (system.task task).status = .registering :=
    fun registers => (enrolled.isRegistering working registers).1
  have born : (system.task task).status.hasStarted = true →
      (system.task task).status ≠ .unborn := by
    intro begun unborn
    rw [unborn] at begun
    cases begun
  -- The delayed operations may be left in every operation.
  cases advances with
  | linkTaskAccesses low =>
      exact accounted.linkTaskAccesses (registering rfl) low rest
  | replaceMatching parentIs matched =>
      refine accounted.replaceMatching ?_ ?_ matched
      · simp [Task.isLinking, working]
      · intro same
        subst same
        exact lineage.parent_ne _ parentIs
  | decreasePredecessors =>
      exact accounted.decreasePredecessors (registering rfl) rest
  | enterTaskwait =>
      exact accounted.handleEnterTaskwait (started rfl (by simp)) rest
  | createTaskwait low =>
      exact accounted.createTaskwait (born (started rfl (by simp))) low rest
  | createTopLevelSink low =>
      exact accounted.createTopLevelSink (born (started rfl (by simp))) low
        rest
  | linkToTaskwait linked => exact accounted.linkToTaskwait linked
  | finalizeFragments low =>
      exact accounted.finalizeFragments (started rfl (by simp)) low rest
  | finalizeAccesses region =>
      exact accounted.finalizeAccess (started rfl (by simp)) region rest
  | finalizeFragmentsOf region =>
      exact accounted.finalizeFragmentsOf (started rfl (by simp)) region rest
  | processDelayedOperations => exact accounted.setWork task rest
  | markAsBlocked =>
      exact accounted.markAsBlocked (started rfl (by simp)) rest
  | exitTaskwait =>
      exact accounted.exitTaskwait (started rfl (by simp)) rest
  | completeWaitClause =>
      exact accounted.completeWaitClause (started rfl (by simp)) rest
  | markAsReleased =>
      exact accounted.markAsReleased (started rfl (by simp)) rest

/-- A task starts only when it has been reported as ready, and then its
predecessor count is zero. -/
theorem start (accounted : Accounted system) {task : TaskId}
    (registered : (system.task task).status = .registered)
    (reported : (system.task task).readyReports ≠ []) :
    Accounted
      (system.modifyTask task fun current =>
        { current with status := .running }) := by
  refine accounted.modifyTask task _ fun accounting => ?_
  have reports := accounting.reports
  have zero : (system.task task).counters.predecessorCount = 0 := by
    by_contra positive
    rw [if_neg fun both => positive both.1] at reports
    exact reported (List.eq_nil_of_length_eq_zero reports)
  have predecessors := accounting.predecessors
  rw [if_neg (by simp [registered])] at predecessors
  rw [if_pos ⟨zero, by simp [registered]⟩] at reports
  exact
    { anchored := accounting.anchored
      typed := accounting.typed
      predecessors := predecessors
      blockers := accounting.blockers
      incomplete := fun still => by cases still
      unborn := fun unborn => by cases unborn
      reports := by simp [reports, zero]
      started := fun _ => zero }

/-- Every step keeps the counters in agreement with the objects. -/
theorem step (accounted : Accounted system) (enrolled : Enrolled system)
    (lineage : Lineage system) {action : Action} {next : System}
    (taken : Nanos6.step system action = some next) : Accounted next := by
  have canCall : ∀ task : TaskId, (system.task task).canCall = true →
      (system.task task).status.hasStarted = true := by
    intro task can
    simp only [Task.canCall, Bool.and_eq_true, beq_iff_eq] at can
    rw [can.1.1]
    rfl
  cases action with
  | submit parent child declarations mustDelayRelease =>
      exact accounted.submitTask taken
  | start task =>
      simp only [Nanos6.step] at taken
      split at taken
      · rename_i ready
        simp only [Bool.and_eq_true, beq_iff_eq, Bool.not_eq_true',
          List.isEmpty_eq_false_iff] at ready
        cases taken
        exact accounted.start ready.1 ready.2
      · cases taken
  | taskwait task =>
      simp only [Nanos6.step, enterTaskwait] at taken
      split at taken
      · cases taken
      · rename_i can
        split at taken
        · split at taken
          · cases taken
          · cases taken
            exact accounted
        · cases taken
          exact accounted.modifyTask task _ fun accounting =>
            accounting.restatus rfl rfl rfl rfl
              (canCall task (by simpa using can)) rfl
  | release task region =>
      simp only [Nanos6.step, releaseAccessRegion] at taken
      split at taken
      · cases taken
        exact accounted.setWork task _
      · cases taken
  | finish task =>
      simp only [Nanos6.step, markAsFinished] at taken
      split at taken
      · cases taken
      · rename_i can
        have started := canCall task (by simpa using can)
        split at taken
        · cases taken
          exact accounted.modifyTask task _ fun accounting =>
            accounting.restatus rfl rfl rfl rfl started rfl
        · cases taken
          exact accounted.modifyTask task _ fun accounting =>
            accounting.restatus rfl rfl rfl rfl started rfl
  | unregister task =>
      simp only [Nanos6.step, unregisterTaskDataAccesses] at taken
      split at taken
      · rename_i finished
        rw [beq_iff_eq] at finished
        cases taken
        refine accounted.modifyTask task _ fun accounting =>
          accounting.restatus rfl rfl rfl rfl ?_ rfl
        rw [finished]
        rfl
      · cases taken
  | advance task => exact accounted.advance enrolled lineage taken
  | bottomMapUpdate index => exact accounted.processBottomMapUpdate taken
  | delayedOperation index => exact accounted.processUpdateOperation taken
  | disposeOrUnblock index => exact accounted.disposeOrUnblockTask taken

theorem initial (main : TaskId) : Accounted (initialSystem main) := by
  intro _ task
  simp only [initialSystem]
  split
  · constructor <;> simp [countObjects]
  · constructor <;> simp [countObjects, TaskStatus.hasStarted]

end Accounted

/-! ## Every reachable state -/

/-- The invariants of every run. -/
structure WellFormed (system : System) : Prop where
  enrolled : Enrolled system
  lineage : Lineage system
  accounted : Accounted system

theorem wellFormed_of_reaches {allowed : System → Action → Prop}
    {main : TaskId} {system : System} (reached : Reaches allowed main system) :
    WellFormed system := by
  refine Run.invariant reached
    ⟨Enrolled.initial main, Lineage.initial main, Accounted.initial main⟩ ?_
  rintro state action next ⟨enrolled, lineage, accounted⟩ - taken
  exact ⟨enrolled.step taken, lineage.step enrolled taken,
    accounted.step enrolled lineage taken⟩

/-- The predecessor count of a task is the number of its registered accesses
that enforce a dependency, plus two while the task is being registered; it is
never negative. -/
theorem predecessorCount_eq {main : TaskId} {system : System}
    (reached : Reaches (Leads step System.Asserted) main system)
    (task : TaskId) :
    (system.task task).counters.predecessorCount =
        countObjects (system.task task).objects DataAccess.isEnforcing +
          (if (system.task task).status = .registering then 2 else 0) ∧
      0 ≤ (system.task task).counters.predecessorCount := by
  have asserted : system.Asserted := good_of_run reached rfl
  have predecessors :=
    ((wellFormed_of_reaches reached).accounted asserted task).predecessors
  refine ⟨predecessors, ?_⟩
  rw [predecessors]
  split <;> omega

/-- A writer over `[0, 4)` behind a writer over `[0, 2)`, in the middle of its
registration: its access has been fragmented, and one of the two parts still
waits. -/
theorem predecessorCount_second_writer :
    ∃ system, Reaches (Leads step System.Asserted) 0 system ∧
      ((system.task 2).objects .accesses).pieces.length = 2 ∧
      countObjects (system.task 2).objects DataAccess.isEnforcing = 1 ∧
      (system.task 2).counters.predecessorCount = 1 + 2 := by
  obtain ⟨system, reached, ⟨fragments, enforcing⟩, registering⟩ :=
    reaches_of_execute System.Asserted 0
      (List.flatten
        [[.submit 0 1 [.strong .readwrite 0 2] false],
          List.replicate 6 (.advance 1),
          [.submit 0 2 [.strong .readwrite 0 4] false],
          List.replicate 4 (.advance 2)])
      (fun system =>
        (((system.task 2).objects .accesses).pieces.length = 2 ∧
          countObjects (system.task 2).objects DataAccess.isEnforcing = 1) ∧
        (system.task 2).status = .registering)
      (by decide +kernel)
  refine ⟨system, reached, fragments, enforcing, ?_⟩
  rw [(predecessorCount_eq reached 2).1, enforcing, if_pos registering]
  rfl

end Nanos6
