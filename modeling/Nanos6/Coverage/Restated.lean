import Nanos6.Coverage.Footprint

/-!
# Changes of the status of objects

Most steps only change the status of objects and cut their regions into parts.
What such steps keep is proved once, for any number of changes one after
another.
-/

namespace Nanos6

open Foundation

/-- `system` comes from `start` by changes of the status of objects.  A
taskwait fragment or a sink gets a next object only in a task that `links`
allows. -/
inductive Restated (links : TaskId → Prop) (start : System) : System → Prop
  | refl : Restated links start start
  | change {system : System} {owner task : TaskId} {map : AccessMap}
      {piece : Piece DataAccess} {region : DataAccessRegion}
      {setter : Setter} :
      Restated links start system →
      piece ∈ ((system.task task).objects map).pieces →
      piece.interval.Meets region →
      SoundChange piece.value (setter.apply piece.value) →
      setter.KeepsShape →
      piece.value.IsAnchored →
      piece.value.objectType.map = map →
      (map = .taskwaitFragments →
        (setter.apply piece.value).registered = piece.value.registered ∧
          (piece.value.hasNext = true →
            (setter.apply piece.value).hasNext = true) ∧
          ((setter.apply piece.value).hasNext = true →
            piece.value.hasNext = true ∨ links task)) →
      Restated links start
        (system.changeObject owner task map piece region setter)
  | frame {system next : System} :
      Restated links start system →
      (∀ task, (next.task task).objects = (system.task task).objects) →
      (∀ task, (next.task task).subaccessBottomMap =
        (system.task task).subaccessBottomMap) →
      (∀ task, next.updatesBottomMap task = true →
        system.updatesBottomMap task = true) →
      Restated links start next

/-- The objects of all tasks are kept as they should be: a taskwait fragment
or a sink stays until it is removable, and only an access has subaccesses and
has the bottom map of its task updated. -/
structure Kept (system : System) : Prop where
  taskwaits : ∀ task,
    ∀ piece ∈ ((system.task task).objects .taskwaitFragments).pieces,
      piece.value.registered = true ∧
        (piece.value.isRemovable = true → piece.value.hasNext = true)
  subaccesses : ∀ task map, ∀ piece ∈ ((system.task task).objects map).pieces,
    piece.value.hasSubaccesses = true → map = .accesses
  updates : ∀ task, system.updatesBottomMap task = true →
    (system.task task).hasAccesses = true

/-- An object that becomes removable without a next object is deleted. -/
theorem hasNext_of_handleChange {parent : TaskId → Option TaskId}
    {task : TaskId} {piece : Piece DataAccess} {region : DataAccessRegion}
    {setter : Setter} {counters : Counters} {access : DataAccess}
    (left : (handleChange parent task piece region setter counters).access =
      some access)
    (registered : (setter.apply piece.value).registered = true)
    (before : piece.value.isRemovable = true →
      (setter.apply piece.value).hasNext = true)
    (removable : access.isRemovable = true) : access.hasNext = true := by
  obtain ⟨cpus, outcome⟩ :=
    access_handleDataAccessStatusChanges (.of parent piece.value)
      (.of parent (setter.apply piece.value)) (setter.apply piece.value)
      (piece.interval.inter region) task
      ((setUpNewFragment parent piece.value
        piece.interval)^[piece.sides region] counters)
  unfold handleChange at left
  rw [outcome] at left
  split at left
  · cases left
  · rename_i stays
    injection left with same
    subst same
    change (setter.apply piece.value).hasNext = true
    have now : (setter.apply piece.value).isRemovable = true := removable
    by_contra unlinked
    cases old : piece.value.isRemovable with
    | true => exact unlinked (before old)
    | false =>
        refine stays ?_
        simp [DataAccessStatusEffects.of, registered, old, now,
          Bool.eq_false_iff.mpr unlinked]

/-- Only an object with subaccesses has the bottom map updated. -/
theorem hasSubaccesses_of_bottomMapUpdate
    {initial updated : DataAccessStatusEffects} {access : DataAccess}
    {region : DataAccessRegion} {task : TaskId} {counters : Counters}
    {operation : BottomMapUpdateOperation}
    (updates : (handleDataAccessStatusChanges initial updated access region
      task counters).bottomMapUpdate = some operation) :
    access.hasSubaccesses = true := by
  obtain ⟨cpus, joined⟩ :=
    joined_propagate initial updated access region task
  unfold handleDataAccessStatusChanges at updates
  dsimp only at updates
  split at updates
  · cases updates
  · dsimp only at updates
    rw [joined] at updates
    unfold bottomMapUpdateOf at updates
    dsimp only at updates
    split at updates
    · cases updates
    · split at updates
      · rename_i condition
        rw [Bool.and_eq_true] at condition
        exact condition.1
      · cases updates

namespace Restated

variable {links : TaskId → Prop} {start system next : System}

theorem setWork (restated : Restated links start system) (task : TaskId)
    (work : List Work) : Restated links start (system.setWork task work) := by
  refine restated.frame ?_ ?_ fun _ updates => updates
  · intro other
    simp only [System.setWork, System.task_modifyTask]
    split
    · rename_i same
      rw [same]
    · rfl
  · intro other
    simp only [System.setWork, System.task_modifyTask]
    split
    · rename_i same
      rw [same]
    · rfl

theorem trans {middle : System} (before : Restated links start middle)
    (after : Restated links middle next) : Restated links start next := by
  induction after with
  | refl => exact before
  | change _ member meets sound keeps anchored typed taskwait ih =>
      exact ih.change member meets sound keeps anchored typed taskwait
  | frame _ objects bottomMap updates ih =>
      exact ih.frame objects bottomMap updates

theorem erodes (restated : Restated links start next) (task : TaskId)
    (address : Nat) :
    Footprint.Erodes ((start.task task).footprint address)
      ((next.task task).footprint address) := by
  induction restated with
  | refl => exact .refl _
  | change _ member _ sound keeps anchored typed _ ih =>
      exact ih.trans
        (System.footprint_changeObject member sound keeps anchored typed task
          address)
  | frame _ objects bottomMap _ ih =>
      have same : ∀ first second : Task, second.objects = first.objects →
          second.subaccessBottomMap = first.subaccessBottomMap →
          second.footprint address = first.footprint address := by
        intro first second sameObjects sameMap
        simp only [Task.footprint, sameObjects, sameMap]
      rw [same _ _ (objects task) (bottomMap task)]
      exact ih

/-- The pieces of every map lie inside pieces of the same map. -/
theorem inside (restated : Restated links start next) {task : TaskId}
    {map : AccessMap} {part : Piece DataAccess}
    (member : part ∈ ((next.task task).objects map).pieces) :
    ∃ old ∈ ((start.task task).objects map).pieces,
      old.interval.start ≤ part.interval.start ∧
        part.interval.stop ≤ old.interval.stop := by
  induction restated generalizing part with
  | refl => exact ⟨part, member, Nat.le_refl _, Nat.le_refl _⟩
  | change _ _ _ _ _ _ _ _ ih =>
      rw [System.task_changeObject] at member
      split at member
      · rename_i same
        subst same
        obtain ⟨middle, middleMember, below, above⟩ :=
          inside_changedObjects member
        obtain ⟨old, oldMember, oldBelow, oldAbove⟩ := ih middleMember
        exact ⟨old, oldMember, Nat.le_trans oldBelow below,
          Nat.le_trans above oldAbove⟩
      · exact ih member
  | frame _ objects _ _ ih =>
      rw [objects] at member
      exact ih member

/-- The objects of every map are of the types that the map had before. -/
theorem objectType (restated : Restated links start next) {task : TaskId}
    {map : AccessMap} {part : Piece DataAccess}
    (member : part ∈ ((next.task task).objects map).pieces) :
    ∃ old ∈ ((start.task task).objects map).pieces,
      part.value.objectType = old.value.objectType := by
  induction restated generalizing part with
  | refl => exact ⟨part, member, rfl⟩
  | change _ changed _ sound _ _ _ _ ih =>
      rw [System.task_changeObject] at member
      split at member
      · rename_i same
        subst same
        obtain ⟨access, cpus, value, origin⟩ :=
          mem_changedObjects changed member
        rw [value]
        rcases origin with ⟨old, oldMember, rfl⟩ | ⟨rfl, left⟩
        · exact ih oldMember
        · obtain ⟨_, _, rfl⟩ := access_of_handleChange left
          obtain ⟨old, oldMember, oldType⟩ := ih changed
          exact ⟨old, oldMember, sound.objectType.trans oldType⟩
      · exact ih member
  | frame _ objects _ _ ih =>
      rw [objects] at member
      exact ih member

/-- Which taskwait fragments and sinks have a next object. -/
theorem linked (restated : Restated links start next) {task : TaskId}
    {part : Piece DataAccess}
    (member : part ∈ ((next.task task).objects .taskwaitFragments).pieces)
    (hasNext : part.value.hasNext = true) :
    links task ∨
      ∃ old ∈ ((start.task task).objects .taskwaitFragments).pieces,
        old.value.hasNext = true := by
  induction restated generalizing part with
  | refl => exact Or.inr ⟨part, member, hasNext⟩
  | change _ changed _ sound _ _ _ taskwait ih =>
      rw [System.task_changeObject] at member
      split at member
      · rename_i same
        subst same
        obtain ⟨access, cpus, value, origin⟩ :=
          mem_changedObjects changed member
        rw [value] at hasNext
        rcases origin with ⟨old, oldMember, rfl⟩ | ⟨isTaskwait, left⟩
        · exact ih oldMember hasNext
        · subst isTaskwait
          obtain ⟨_, _, rfl⟩ := access_of_handleChange left
          rcases (taskwait rfl).2.2 hasNext with before | allowed
          · exact ih changed before
          · exact Or.inl allowed
      · exact ih member hasNext
  | frame _ objects _ _ ih =>
      rw [objects] at member
      exact ih member hasNext

theorem hasAccesses (restated : Restated links start next) (task : TaskId) :
    (next.task task).hasAccesses = (start.task task).hasAccesses := by
  induction restated with
  | refl => rfl
  | @change system owner changed map piece region setter before member meets
      sound _ anchored typed _ ih =>
      rw [← ih, System.task_changeObject]
      split
      case isFalse => rfl
      case isTrue same =>
      subst same
      dsimp only
      cases old : (system.task task).hasAccesses with
      | false =>
          simp only [Task.hasAccesses, Bool.not_eq_false',
            List.isEmpty_iff] at old ⊢
          rw [List.eq_nil_iff_forall_not_mem]
          intro part partMember
          obtain ⟨other, otherMember, _⟩ := inside_changedObjects partMember
          rw [old] at otherMember
          cases otherMember
      | true =>
          simp only [Task.hasAccesses, Bool.not_eq_true',
            List.isEmpty_eq_false_iff] at old ⊢
          refine changedObjects_ne_nil member meets ?_ old
          intro accesses
          subst accesses
          rw [Option.isSome_iff_ne_none]
          refine access_handleChange_ne_none sound anchored ?_
          rw [typed]
          simp
  | frame _ objects _ _ ih =>
      rw [← ih]
      simp only [Task.hasAccesses, objects]

theorem kept (restated : Restated links start next) (kept : Kept start) :
    Kept next := by
  induction restated with
  | refl => exact kept
  | @change system owner changed map piece region setter before member meets
      sound keeps anchored typed taskwait ih =>
      have stillAccesses : ∀ task,
          ((system.changeObject owner changed map piece region setter).task
            task).hasAccesses = (system.task task).hasAccesses :=
        (Restated.refl.change member meets sound keeps anchored typed
          taskwait).hasAccesses
      refine ⟨?_, ?_, ?_⟩
      · intro task part partMember
        rw [System.task_changeObject] at partMember
        split at partMember
        case isFalse => exact ih.taskwaits task part partMember
        case isTrue same =>
        subst same
        obtain ⟨access, cpus, value, origin⟩ :=
          mem_changedObjects member partMember
        rw [value]
        rcases origin with ⟨old, oldMember, rfl⟩ | ⟨isTaskwait, left⟩
        · exact ih.taskwaits task old oldMember
        · subst isTaskwait
          obtain ⟨registered, removable⟩ := ih.taskwaits task piece member
          obtain ⟨sameRegistered, keepsNext, -⟩ := taskwait rfl
          have nextOfRemovable := hasNext_of_handleChange left
            (sameRegistered.trans registered)
            fun old => keepsNext (removable old)
          obtain ⟨_, _, rfl⟩ := access_of_handleChange left
          exact ⟨sameRegistered.trans registered, nextOfRemovable⟩
      · intro task other part partMember hasSubaccesses
        rw [System.task_changeObject] at partMember
        split at partMember
        case isFalse =>
          exact ih.subaccesses task other part partMember hasSubaccesses
        case isTrue same =>
        subst same
        obtain ⟨access, cpus, value, origin⟩ :=
          mem_changedObjects member partMember
        rw [value] at hasSubaccesses
        rcases origin with ⟨old, oldMember, rfl⟩ | ⟨rfl, left⟩
        · exact ih.subaccesses task other old oldMember hasSubaccesses
        · obtain ⟨_, _, rfl⟩ := access_of_handleChange left
          refine ih.subaccesses task other piece member ?_
          rw [← (keeps piece.value).2]
          exact hasSubaccesses
      · intro task updates
        rw [stillAccesses]
        simp only [System.updatesBottomMap, System.changeObject,
          System.absorb, List.any_append, Bool.or_eq_true] at updates
        rcases updates with new | old
        · obtain ⟨update, added, same⟩ := List.any_eq_true.mp new
          simp only [Option.mem_toList, Option.map_eq_some_iff] at added
          obtain ⟨operation, found, rfl⟩ := added
          have hasSubaccesses := hasSubaccesses_of_bottomMapUpdate found
          rw [(keeps piece.value).2] at hasSubaccesses
          have accesses :=
            ih.subaccesses changed map piece member hasSubaccesses
          subst accesses
          rw [← beq_iff_eq.mp same]
          simp only [Task.hasAccesses, Bool.not_eq_true',
            List.isEmpty_eq_false_iff]
          exact List.ne_nil_of_mem member
        · exact ih.updates task old
  | @frame system next before objects bottomMap updates ih =>
      have stillAccesses : ∀ task,
          (next.task task).hasAccesses = (system.task task).hasAccesses := by
        intro task
        simp only [Task.hasAccesses, objects]
      refine ⟨?_, ?_, ?_⟩
      · intro task
        rw [objects]
        exact ih.taskwaits task
      · intro task
        rw [objects]
        exact ih.subaccesses task
      · intro task updating
        rw [stillAccesses]
        exact ih.updates task (updates task updating)

end Restated

/-- A new object without subaccesses.  Among the taskwait fragments and sinks
it is registered and not removable. -/
theorem Kept.createObject {system : System} (kept : Kept system)
    {owner task : TaskId} {map : AccessMap} {region : DataAccessRegion}
    {initial : DataAccessStatusEffects} {access : DataAccess}
    (plain : access.hasSubaccesses = false)
    (new : map = .taskwaitFragments → access.registered = true ∧
      access.isRemovable = false) :
    Kept (system.createObject owner task map region initial access) := by
  have member : ∀ other place part,
      part ∈ (((system.createObject owner task map region initial
        access).task other).objects place).pieces →
      part ∈ ((system.task other).objects place).pieces ∨
        (place = map ∧ part.value = access) := by
    intro other place part partMember
    rw [System.task_createObject] at partMember
    split at partMember
    · rename_i same
      subst same
      dsimp only at partMember
      by_cases samePlace : place = map
      · subst samePlace
        rw [Function.update_self] at partMember
        rcases IntervalMap.mem_insert _ partMember with rfl | old
        · exact Or.inr ⟨rfl, rfl⟩
        · exact Or.inl old
      · rw [Function.update_of_ne samePlace] at partMember
        exact Or.inl partMember
    · exact Or.inl partMember
  have stillAccesses : ∀ other, (system.task other).hasAccesses = true →
      ((system.createObject owner task map region initial access).task
        other).hasAccesses = true := by
    intro other before
    rw [System.task_createObject]
    split
    · rename_i same
      subst same
      by_cases samePlace : map = .accesses
      · subst samePlace
        simp only [Task.hasAccesses, Bool.not_eq_true',
          List.isEmpty_eq_false_iff, Function.update_self] at before ⊢
        intro absent
        by_cases fits :
            ((system.task other).objects .accesses).Fits region
        · have perm := IntervalMap.perm_insert _ fits access
          rw [absent] at perm
          exact absurd perm.symm.eq_nil (by simp)
        · rw [IntervalMap.insert, dif_neg fits] at absent
          exact before absent
      · simp only [Task.hasAccesses,
          Function.update_of_ne (Ne.symm samePlace)] at before ⊢
        exact before
    · exact before
  refine ⟨?_, ?_, ?_⟩
  · intro other part partMember
    rcases member other _ part partMember with old | ⟨isTaskwait, value⟩
    · exact kept.taskwaits other part old
    · obtain ⟨registered, removable⟩ := new isTaskwait.symm
      rw [value]
      refine ⟨registered, ?_⟩
      intro isRemovable
      rw [removable] at isRemovable
      cases isRemovable
  · intro other place part partMember hasSubaccesses
    rcases member other place part partMember with old | ⟨_, value⟩
    · exact kept.subaccesses other place part old hasSubaccesses
    · rw [value, plain] at hasSubaccesses
      cases hasSubaccesses
  · intro other updates
    refine stillAccesses other (kept.updates other ?_)
    simp only [System.updatesBottomMap, System.createObject, System.absorb,
      List.any_append, Bool.or_eq_true] at updates
    rcases updates with new | old
    · obtain ⟨update, added, _⟩ := List.any_eq_true.mp new
      simp only [Option.mem_toList, Option.map_eq_some_iff] at added
      obtain ⟨operation, found, _⟩ := added
      rw [hasSubaccesses_of_bottomMapUpdate found] at plain
      cases plain
    · exact old

/-- Nothing is asked of a task but its objects and whether it has accesses. -/
theorem Kept.congr {system next : System} (kept : Kept system)
    (taskwaits : ∀ task,
      ∀ piece ∈ ((next.task task).objects .taskwaitFragments).pieces,
        piece ∈ ((system.task task).objects .taskwaitFragments).pieces)
    (subaccesses : ∀ task map,
      ∀ piece ∈ ((next.task task).objects map).pieces,
        piece.value.hasSubaccesses = true → map = .accesses)
    (accesses : ∀ task, (system.task task).hasAccesses = true →
      next.updatesBottomMap task = true →
      (next.task task).hasAccesses = true)
    (updates : ∀ task, next.updatesBottomMap task = true →
      system.updatesBottomMap task = true) :
    Kept next where
  taskwaits := by
    intro task piece member
    exact kept.taskwaits task piece (taskwaits task piece member)
  subaccesses := subaccesses
  updates := fun task updating =>
    accesses task (kept.updates task (updates task updating)) updating

/-! ## The operations that only change the status of objects -/

/-- A change that only adds to the status of an object. -/
theorem Restated.adds {links : TaskId → Prop} {start system : System}
    (restated : Restated links start system) {owner task : TaskId}
    (accounting : TaskAccounting (system.task task)) {map : AccessMap}
    {piece : Piece DataAccess}
    (member : piece ∈ ((system.task task).objects map).pieces)
    {region : DataAccessRegion} (meets : piece.interval.Meets region)
    {setter : Setter} (adds : setter.Adds) (keeps : setter.KeepsShape)
    (clean : (system.changeObject owner task map piece region
      setter).assertionFailed = false)
    (taskwait : map = .taskwaitFragments →
      (setter.apply piece.value).hasNext = true →
        piece.value.hasNext = true ∨ links task) :
    Restated links start
      (system.changeObject owner task map piece region setter) := by
  simp only [System.changeObject, Bool.or_eq_false_iff,
    Bool.not_eq_false'] at clean
  have status := adds piece.value clean.1.2
  exact restated.change member meets status.sound keeps
    (accounting.anchored map piece member) (accounting.typed map piece member)
    fun isTaskwait =>
      ⟨status.registered, status.next, taskwait isTaskwait⟩

namespace Setter

/-- A setter that links no object. -/
def KeepsNext (setter : Setter) : Prop :=
  ∀ access, (setter.apply access).next = access.next

theorem KeepsNext.andThen {first second : Setter}
    (before : KeepsNext first) (after : KeepsNext second) :
    KeepsNext (first.andThen second) :=
  fun access => (after (first.apply access)).trans (before access)

theorem KeepsNext.onlyIf {setter : Setter} (keeps : KeepsNext setter)
    (condition : Bool) : KeepsNext (Setter.onlyIf condition setter) := by
  cases condition with
  | false => exact fun _ => rfl
  | true => exact keeps

theorem keepsNext_receiveReductionInfo (info : Option ReductionInfo) :
    KeepsNext (receiveReductionInfo info) := by
  intro access
  obtain ⟨own, applied, _⟩ := apply_receiveReductionInfo info access
  rw [applied]

theorem keepsNext_applyUpdateOperation (operation : UpdateOperation) :
    KeepsNext (applyUpdateOperation operation) := by
  have read : KeepsNext setReadSatisfied := fun _ => rfl
  have write : KeepsNext setWriteSatisfied := fun _ => rfl
  have concurrent : KeepsNext setConcurrentSatisfied := fun _ => rfl
  have cpuSet :
      KeepsNext ((setPreviousReductionCpuSet
        operation.reductionCpuSet).andThen setReceivedReductionCpuSet) :=
    fun _ => rfl
  have topmost : KeepsNext setTopmost := fun _ => rfl
  have topLevel : KeepsNext setTopLevel := fun _ => rfl
  exact (read.onlyIf _).andThen <|
    (write.onlyIf _).andThen <|
      (concurrent.onlyIf _).andThen <|
        ((keepsNext_receiveReductionInfo _).onlyIf _).andThen <|
          (cpuSet.onlyIf _).andThen <|
            (topmost.onlyIf _).andThen (topLevel.onlyIf _)

end Setter

section Operations

variable {links : TaskId → Prop} {system next : System}

theorem restated_allocateReductionInfo (accounted : Accounted system)
    {task : TaskId} {progress : LinkProgress}
    (clean : (allocateReductionInfo system task progress).assertionFailed =
      false) :
    Restated links system (allocateReductionInfo system task progress) := by
  have before := assertionFailed_allocateReductionInfo system progress clean
  unfold allocateReductionInfo at clean ⊢
  dsimp only at clean ⊢
  split at clean
  · exact .refl
  · rename_i piece found
    obtain ⟨member, _⟩ := IntervalMap.firstIn_eq_some _ found
    have meets := Interval.meets_self (IntervalMap.nonempty _ piece member)
    refine Restated.frame
      (Restated.refl.adds (accounted before task) member meets
        (Setter.adds_allocate _) (Setter.keepsShape_allocate _) clean
        fun isTaskwait => by cases isTaskwait)
      (fun _ => rfl) (fun _ => rfl) fun _ updates => updates

theorem restated_allocateForPrevious (accounted : Accounted system)
    {task : TaskId} {progress : LinkProgress} {previous : DataAccess}
    (clean : (allocateForPrevious system task progress
      previous).1.assertionFailed = false) :
    Restated links system
      (allocateForPrevious system task progress previous).1 := by
  revert clean
  unfold allocateForPrevious
  split
  · split
    · exact restated_allocateReductionInfo accounted
    · split
      · exact fun _ => .refl
      · split
        · exact restated_allocateReductionInfo accounted
        · exact fun _ => .refl
  · exact fun _ => .refl

/-- An access becomes registered. -/
theorem restated_register (accounted : Accounted system) {task : TaskId}
    (registering : (system.task task).status = .registering)
    {piece : Piece DataAccess}
    (member : piece ∈ ((system.task task).objects .accesses).pieces)
    (clean : system.assertionFailed = false) :
    Restated links system
      (system.changeObject task task .accesses piece piece.interval
        (Setter.setInBottomMap.andThen .setRegistered)) := by
  have accounting := accounted clean task
  refine Restated.refl.change member
    (Interval.meets_self (IntervalMap.nonempty _ piece member))
    (Setter.sound_register (accounting.anchored .accesses piece member)
      fun _ => accounting.incomplete registering piece member)
    Setter.keepsShape_register (accounting.anchored .accesses piece member)
    (accounting.typed .accesses piece member) ?_
  intro isTaskwait
  cases isTaskwait

theorem restated_processUpdateOperation (accounted : Accounted system)
    {index : Nat}
    (processed : processUpdateOperation system index = some next)
    (clean : next.assertionFailed = false) : Restated links system next := by
  unfold processUpdateOperation at processed
  split at processed
  · cases processed
  · rename_i owner operation _
    dsimp only at processed
    split at processed
    · cases processed
    · split at processed
      · cases processed
        exact Restated.refl.frame (fun _ => rfl) (fun _ => rfl)
          fun _ updates => updates
      · rename_i piece found
        cases processed
        obtain ⟨member, meets, _⟩ := IntervalMap.firstIn_eq_some _ found
        have asserted : (system.assertionFailed || _ || _) = false := clean
        simp only [Bool.or_eq_false_iff] at asserted
        refine Restated.frame
          (Restated.refl.adds (accounted asserted.1.1 _) member meets
            (Setter.adds_applyUpdateOperation operation)
            (Setter.keepsShape_applyUpdateOperation operation) clean ?_)
          (fun _ => rfl) (fun _ => rfl) fun _ updates => updates
        intro _ hasNext
        unfold DataAccess.hasNext at *
        rw [Setter.keepsNext_applyUpdateOperation] at hasNext
        exact Or.inl hasNext

/-- The bottom of a bottom-map update may be a taskwait fragment, of the task
whose bottom map is updated. -/
theorem restated_processBottomMapUpdate (accounted : Accounted system)
    (kept : Kept system)
    (allowed : ∀ task, (system.task task).hasAccesses = true → links task)
    (rooted : ∀ task address,
      ((system.task task).footprint address).Rooted task)
    {index : Nat}
    (processed : processBottomMapUpdate system index = some next)
    (clean : next.assertionFailed = false) : Restated links system next := by
  unfold processBottomMapUpdate at processed
  split at processed
  · cases processed
  · rename_i owner task operation listed
    dsimp only at processed
    have listedUpdate := List.mem_of_getElem? listed
    have updating : system.updatesBottomMap task = true :=
      List.any_eq_true.mpr ⟨_, listedUpdate, by simp⟩
    split at processed
    · cases processed
    · have fewer : ∀ other,
          ((system.bottomMapUpdates.take index ++
            system.bottomMapUpdates.drop (index + 1)).any fun update =>
              update.2.1 == other) = true →
            system.updatesBottomMap other = true := by
        intro other some
        obtain ⟨update, member, same⟩ := List.any_eq_true.mp some
        refine List.any_eq_true.mpr ⟨update, ?_, same⟩
        rcases List.mem_append.mp member with earlier | later
        · exact List.mem_of_mem_take earlier
        · exact List.mem_of_mem_drop later
      have continued : ∀ region, ∀ other,
          ((system.bottomMapUpdates.take index ++
            (owner, task, { operation with region := region }) ::
              system.bottomMapUpdates.drop (index + 1)).any fun update =>
                update.2.1 == other) = true →
            system.updatesBottomMap other = true := by
        intro region other some
        obtain ⟨update, member, same⟩ := List.any_eq_true.mp some
        rcases List.mem_append.mp member with earlier | later
        · exact fewer other (List.any_eq_true.mpr
            ⟨update, List.mem_append_left _ earlier, same⟩)
        · rcases List.mem_cons.mp later with rfl | after
          · rw [← beq_iff_eq.mp same]
            exact updating
          · exact fewer other (List.any_eq_true.mpr
              ⟨update, List.mem_append_right _ after, same⟩)
      split at processed
      · cases processed
        exact Restated.refl.frame (fun _ => rfl) (fun _ => rfl) fewer
      · rename_i entry entryFound
        split at processed
        · cases processed
        · split at processed
          · cases processed
            exact Restated.refl.frame (fun _ => rfl) (fun _ => rfl)
              (continued _)
          · rename_i piece found
            cases processed
            obtain ⟨member, meets, _⟩ := IntervalMap.firstIn_eq_some _ found
            obtain ⟨entryMember, entryMeets, _⟩ :=
              IntervalMap.firstIn_eq_some _ entryFound
            have asserted : (system.assertionFailed || _ || _) = false :=
              clean
            simp only [Bool.or_eq_false_iff] at asserted
            have moved : Restated links system
                { system with
                  bottomMapUpdates :=
                    system.bottomMapUpdates.take index ++
                      (owner, task,
                        { operation with
                          region :=
                            ⟨(piece.interval.inter
                              (entry.interval.inter operation.region)).stop,
                              operation.region.stop⟩ }) ::
                      system.bottomMapUpdates.drop (index + 1) } :=
              Restated.refl.frame (fun _ => rfl) (fun _ => rfl) (continued _)
            refine moved.adds (accounted asserted.1.1 _) member meets
              (Setter.adds_followParent operation)
              (Setter.keepsShape_followParent operation) clean ?_
            intro isTaskwait _
            have positive := IntervalMap.nonempty _ entry entryMember
            have own := (rooted task entry.interval.start entry.value
              (IntervalMap.lookup_of_mem _ entryMember
                ⟨Nat.le_refl _, positive⟩) isTaskwait).1
            refine Or.inr (allowed _ ?_)
            rw [own]
            exact kept.updates task updating

theorem restated_linkToTaskwait (accounted : Accounted system)
    {task : TaskId} {previous : DataAccessLink} {region : DataAccessRegion}
    {rest : List Work}
    (taskwait : previous.objectType.map = .taskwaitFragments →
      links previous.task)
    (linked : linkToTaskwait system task previous region rest = some next)
    (clean : next.assertionFailed = false) : Restated links system next := by
  unfold linkToTaskwait at linked
  split at linked
  · cases linked
  · split at linked
    · cases linked
      exact Restated.refl.setWork task rest
    · rename_i piece found
      cases linked
      obtain ⟨member, meets, _⟩ := IntervalMap.firstIn_eq_some _ found
      have asserted : (system.assertionFailed || _ || _) = false := clean
      simp only [Bool.or_eq_false_iff] at asserted
      exact (Restated.refl.adds (accounted asserted.1.1 _) member meets
        (Setter.adds_linkTo _) (Setter.keepsShape_linkTo _) clean
        fun isTaskwait _ => Or.inr (taskwait isTaskwait)).setWork task _

/-- The completion of an access or of a fragment. -/
private theorem Restated.completes (accounted : Accounted system)
    {task : TaskId} {map : AccessMap} {piece : Piece DataAccess}
    (member : piece ∈ ((system.task task).objects map).pieces)
    {region : DataAccessRegion} (meets : piece.interval.Meets region)
    (clean : (system.changeObject task task map piece region
      .setComplete).assertionFailed = false) :
    Restated links system
      (system.changeObject task task map piece region .setComplete) := by
  have asserted : (system.assertionFailed || _ || _) = false := clean
  simp only [Bool.or_eq_false_iff] at asserted
  exact Restated.refl.adds (accounted asserted.1.1 task) member meets
    Setter.adds_setComplete Setter.keepsShape_setComplete clean
    fun _ hasNext => Or.inl hasNext

theorem restated_finalizeFragments (accounted : Accounted system)
    {task : TaskId} {low : Nat} {rest : List Work}
    (clean : (finalizeFragments system task low rest).assertionFailed =
      false) :
    Restated links system (finalizeFragments system task low rest) := by
  revert clean
  unfold finalizeFragments
  split
  · exact fun _ => Restated.refl.setWork task rest
  · rename_i piece found
    obtain ⟨member, _⟩ := IntervalMap.nextFrom_eq_some _ found
    dsimp only
    split
    · exact fun _ => Restated.refl.setWork task _
    · intro clean
      exact (Restated.completes accounted member
        (Interval.meets_self (IntervalMap.nonempty _ piece member))
        clean).setWork task _

theorem restated_finalizeFragmentsOf (accounted : Accounted system)
    {task : TaskId} {region : DataAccessRegion} {rest : List Work}
    (clean : (finalizeFragmentsOf system task region rest).assertionFailed =
      false) :
    Restated links system (finalizeFragmentsOf system task region rest) := by
  revert clean
  unfold finalizeFragmentsOf
  split
  · exact fun _ => Restated.refl.setWork task rest
  · rename_i piece found
    intro clean
    obtain ⟨member, meets, _⟩ := IntervalMap.firstIn_eq_some _ found
    exact (Restated.completes accounted member meets clean).setWork task _

theorem restated_finalizeAccess (accounted : Accounted system)
    {task : TaskId} {region : DataAccessRegion} {rest : List Work}
    (clean : (finalizeAccess system task region rest).assertionFailed =
      false) :
    Restated links system (finalizeAccess system task region rest) := by
  revert clean
  unfold finalizeAccess
  split
  · exact fun _ => Restated.refl.setWork task rest
  · rename_i piece found
    obtain ⟨member, meets, _⟩ := IntervalMap.firstIn_eq_some _ found
    split
    · exact fun _ => Restated.refl.setWork task _
    · intro clean
      exact (Restated.completes accounted member meets clean).setWork task _

end Operations

end Nanos6
