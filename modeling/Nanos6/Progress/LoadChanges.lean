import Nanos6.Progress.Load

/-!
# The load across changes of objects

A change that takes no bit back adds nothing to the load of any task, whatever
it emits.
-/

namespace Nanos6

open Foundation

/-! ## Objects -/

/-- A weight that looks neither at the set of CPUs nor at the discount mark. -/
def IsStatusWeight (weight : DataAccess → Nat) : Prop :=
  ∀ access cpus discounted,
    weight
        { access with
          reductionCpuSet := cpus
          hasBeenDiscounted := discounted } =
      weight access

theorem isStatusWeight_incomplete : IsStatusWeight DataAccess.incomplete :=
  fun _ _ _ => rfl

theorem isStatusWeight_unlinked : IsStatusWeight DataAccess.unlinked :=
  fun _ _ _ => rfl

theorem isStatusWeight_unsetFlags : IsStatusWeight DataAccess.unsetFlags :=
  fun _ _ _ => rfl

theorem weighObjects_update (weight : DataAccess → Nat)
    (objects : AccessMap → IntervalMap DataAccess) (map : AccessMap)
    (replacement : IntervalMap DataAccess) :
    weighObjects weight (Function.update objects map replacement) +
        (objects map).weigh weight =
      weighObjects weight objects + replacement.weigh weight := by
  unfold weighObjects
  cases map <;> simp <;> omega

/-- The changed object weighs at most what the setter leaves of it. -/
theorem elim_handleChange_le {weight : DataAccess → Nat}
    (statusWeight : IsStatusWeight weight) (parent : TaskId → Option TaskId)
    (task : TaskId) (piece : Piece DataAccess) (region : DataAccessRegion)
    (setter : Setter) (counters : Counters) :
    (handleChange parent task piece region setter counters).access.elim 0
        weight ≤
      weight (setter.apply piece.value) := by
  obtain ⟨cpus, outcome⟩ :=
    access_handleDataAccessStatusChanges (.of parent piece.value)
      (.of parent (setter.apply piece.value)) (setter.apply piece.value)
      (piece.interval.inter region) task
      ((setUpNewFragment parent piece.value
        piece.interval)^[piece.sides region] counters)
  unfold handleChange
  rw [outcome]
  split
  · exact Nat.zero_le _
  · rw [Option.elim_some, statusWeight]

/-- The CPUs that a taskwait fragment leaves in the accesses weigh nothing. -/
theorem weighObjects_changedObjects_le_replace {weight : DataAccess → Nat}
    (statusWeight : IsStatusWeight weight)
    (objects : AccessMap → IntervalMap DataAccess) (map : AccessMap)
    (piece : Piece DataAccess) (region : DataAccessRegion)
    (handled : HandledChanges) :
    weighObjects weight (changedObjects objects map piece region handled) ≤
      weighObjects weight
        (Function.update objects map
          ((objects map).replace piece region handled.access)) := by
  unfold changedObjects
  dsimp only
  generalize Function.update objects map
    ((objects map).replace piece region handled.access) = replaced
  split
  · have collected :=
      (replaced .accesses).weighFrom_mapMeeting_le 0 weight
        (piece.interval.inter region)
        (fun access => (statusWeight access
          (access.reductionCpuSet.union handled.collectedReductionCpuSet)
          access.hasBeenDiscounted).le)
    have updated :=
      weighObjects_update weight replaced .accesses
        ((replaced .accesses).mapMeeting (piece.interval.inter region)
          fun access =>
            { access with
              reductionCpuSet :=
                access.reductionCpuSet.union
                  handled.collectedReductionCpuSet })
    unfold IntervalMap.weigh at updated
    omega
  · exact le_refl _

section Changed

variable {weight : DataAccess → Nat} (statusWeight : IsStatusWeight weight)
  {objects : AccessMap → IntervalMap DataAccess} {map : AccessMap}
  {piece : Piece DataAccess} (member : piece ∈ (objects map).pieces)
  {region : DataAccessRegion} (meets : piece.interval.Meets region)
  {handled : HandledChanges}

include statusWeight member meets

theorem weighObjects_changedObjects_le
    (lighter : handled.access.elim 0 weight ≤ weight piece.value) :
    weighObjects weight (changedObjects objects map piece region handled) ≤
      weighObjects weight objects := by
  have collected :=
    weighObjects_changedObjects_le_replace statusWeight objects map piece
      region handled
  have updated :=
    weighObjects_update weight objects map
      ((objects map).replace piece region handled.access)
  have replaced :=
    (objects map).weighFrom_replace_le 0 weight member meets lighter
  unfold IntervalMap.weigh at updated
  omega

theorem weighObjects_changedObjects_lt
    (lighter : handled.access.elim 0 weight < weight piece.value) :
    weighObjects weight (changedObjects objects map piece region handled) <
      weighObjects weight objects := by
  have collected :=
    weighObjects_changedObjects_le_replace statusWeight objects map piece
      region handled
  have updated :=
    weighObjects_update weight objects map
      ((objects map).replace piece region handled.access)
  have replaced :=
    (objects map).weigh_replace_lt weight member meets lighter
  omega

end Changed

/-! ## Tasks -/

namespace Task

variable {before after : Task}

theorem registrationLoad_eq (bound : Nat) (work : after.work = before.work) :
    after.registrationLoad bound = before.registrationLoad bound := by
  unfold registrationLoad
  rw [work]

theorem linkingLoad_eq (work : after.work = before.work) :
    after.linkingLoad = before.linkingLoad := by
  unfold linkingLoad
  rw [work]

/-- A loop does not come to more entries of a smaller bottom map. -/
theorem sum_creationLoad_le {first second : IntervalMap BottomMapEntry}
    (smaller : ∀ low, first.weighFrom low (fun _ => 1) ≤
      second.weighFrom low fun _ => 1) (work : List Work) :
    (work.map (Work.creationLoad first)).sum ≤
      (work.map (Work.creationLoad second)).sum := by
  refine List.sum_le_sum fun loop _ => ?_
  cases loop with
  | enterTaskwait => exact smaller 0
  | createTaskwait low => exact smaller low
  | createTopLevelSink low => exact smaller low
  | _ => exact Nat.le_refl 0

theorem creationLoad_le (work : after.work = before.work)
    (status : after.status = before.status)
    (smaller : ∀ low,
      after.subaccessBottomMap.weighFrom low (fun _ => 1) ≤
        before.subaccessBottomMap.weighFrom low fun _ => 1) :
    after.creationLoad ≤ before.creationLoad := by
  unfold creationLoad
  rw [work, status]
  refine Nat.add_le_add (sum_creationLoad_le smaller before.work) ?_
  split
  · exact smaller 0
  · exact Nat.le_refl 0

/-- A task that keeps its loops, its objects and its bottom map keeps its
load. -/
theorem lightens_of_same (bound : Nat) (work : after.work = before.work)
    (status : after.status = before.status)
    (objects : after.objects = before.objects)
    (bottomMap : after.subaccessBottomMap = before.subaccessBottomMap) :
    before.Lightens bound after where
  registration := (registrationLoad_eq bound work).le
  creation := creationLoad_le work status fun low => by rw [bottomMap]
  linking := (linkingLoad_eq work).le
  completion := by rw [objects]
  succession := by rw [objects]
  satisfaction := by rw [objects]

end Task

/-! ## Changes -/

namespace System

/-- A change of one of the given tasks. -/
theorem follows_modifyTask {tasks : Finset TaskId} {bound : Nat}
    (system : System) {task : TaskId} (inside : task ∈ tasks)
    {change : Task → Task}
    (bounded : (system.task task).Bounded bound →
      (change (system.task task)).Bounded bound) :
    Follows tasks bound system (system.modifyTask task change) where
  dormant := by
    intro other outside dormant
    have differ : other ≠ task := fun same => outside (same ▸ inside)
    rw [task_modifyTask, if_neg differ]
    exact dormant
  bounded := by
    intro other limited
    rw [task_modifyTask]
    split
    · rename_i same
      subst same
      exact bounded limited
    · exact limited

/-- A change of any task that leaves its status, its loops and its objects
alone. -/
theorem follows_modifyTask_of_same (tasks : Finset TaskId) (bound : Nat)
    (system : System) (task : TaskId) {change : Task → Task}
    (status : (change (system.task task)).status =
      (system.task task).status)
    (work : (change (system.task task)).work = (system.task task).work)
    (objects : (change (system.task task)).objects =
      (system.task task).objects) :
    Follows tasks bound system (system.modifyTask task change) where
  dormant := by
    intro other _ dormant
    rw [task_modifyTask]
    split
    · rename_i same
      subst same
      exact ⟨status.trans dormant.status, work.trans dormant.work,
        fun map => by rw [objects, dormant.objects]⟩
    · exact dormant
  bounded := by
    intro other limited
    rw [task_modifyTask]
    split
    · rename_i same
      subst same
      unfold Task.Bounded
      rw [objects]
      exact limited
    · exact limited

theorem follows_setWork {tasks : Finset TaskId} {bound : Nat}
    (system : System) {task : TaskId} (inside : task ∈ tasks)
    (work : List Work) :
    Follows tasks bound system (system.setWork task work) :=
  system.follows_modifyTask inside fun bounded => bounded

theorem follows_changeObject {tasks : Finset TaskId} {bound : Nat}
    (system : System) {task : TaskId} (inside : task ∈ tasks)
    (owner : TaskId) (map : AccessMap) (piece : Piece DataAccess)
    (region : DataAccessRegion) (setter : Setter) :
    Follows tasks bound system
      (system.changeObject owner task map piece region setter) where
  dormant := by
    intro other outside dormant
    have differ : other ≠ task := fun same => outside (same ▸ inside)
    rw [task_changeObject, if_neg differ]
    exact dormant
  bounded := by
    intro other limited
    rw [task_changeObject]
    split
    · rename_i same
      subst same
      intro part partMember
      obtain ⟨old, oldMember, _, below⟩ := inside_changedObjects partMember
      exact below.trans (limited old oldMember)
    · exact limited

section Change

variable {system : System} {task : TaskId} {map : AccessMap}
  {piece : Piece DataAccess}
  (member : piece ∈ ((system.task task).objects map).pieces)
  {region : DataAccessRegion} (bound : Nat) (owner other : TaskId)
  {setter : Setter}

include member in
theorem lightens_changeObject (meets : piece.interval.Meets region)
    (grows : piece.value.Grows (setter.apply piece.value)) :
    (system.task other).Lightens bound
      ((system.changeObject owner task map piece region setter).task
        other) := by
  rw [task_changeObject]
  split
  · rename_i same
    subst same
    have weighs : ∀ weight : DataAccess → Nat, IsStatusWeight weight →
        weight (setter.apply piece.value) ≤ weight piece.value →
        weighObjects weight
          (changedObjects (system.task other).objects map piece region
            (handleChange system.parent other piece region setter
              (system.task other).counters)) ≤
          weighObjects weight (system.task other).objects :=
      fun weight statusWeight lighter =>
        weighObjects_changedObjects_le statusWeight member meets
          ((elim_handleChange_le statusWeight _ _ _ _ _ _).trans lighter)
    refine ⟨le_refl _, Task.creationLoad_le rfl rfl fun low => ?_,
      le_refl _, weighs _ isStatusWeight_incomplete grows.incomplete,
      weighs _ isStatusWeight_unlinked grows.unlinked,
      weighs _ isStatusWeight_unsetFlags grows.unsetFlags⟩
    dsimp only
    split
    · exact le_refl _
    · exact IntervalMap.weighFrom_eraseInterval_le _ low _ _
  · exact Task.Lightens.refl bound _

include member in
theorem weighObjects_changeObject_lt {weight : DataAccess → Nat}
    (statusWeight : IsStatusWeight weight)
    (meets : piece.interval.Meets region)
    (lighter : weight (setter.apply piece.value) < weight piece.value) :
    weighObjects weight
        ((system.changeObject owner task map piece region setter).task
          task).objects <
      weighObjects weight (system.task task).objects := by
  rw [task_changeObject, if_pos rfl]
  exact weighObjects_changedObjects_lt statusWeight member meets
    (lt_of_le_of_lt (elim_handleChange_le statusWeight _ _ _ _ _ _) lighter)

end Change

end System

end Nanos6
