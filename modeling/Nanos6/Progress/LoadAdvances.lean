import Nanos6.Progress.LoadSteps
import Nanos6.Progress.Registrations

/-!
# The load across the operations in progress

The other loops of the operations in progress: taskwait fragments and sinks
are created once for each entry of a bottom map, the objects that were at the
bottom are linked to them, and objects are completed.  None of them adds to a
level before the one that it lowers, and where an object is complete already
nothing is emitted.
-/

namespace Nanos6

open Foundation

namespace Work

/-- A loop that counts on no level of the load. -/
def weightless : Work → Bool
  | .decreasePredecessors => true
  | .finalizeFragments _ => true
  | .finalizeAccesses _ => true
  | .finalizeFragmentsOf _ => true
  | .processDelayedOperations => true
  | .markAsBlocked => true
  | .exitTaskwait => true
  | .completeWaitClause => true
  | .markAsReleased => true
  | _ => false

theorem loads_of_weightless (bound : Nat)
    (bottomMap : IntervalMap BottomMapEntry) {loop : Work}
    (weightless : loop.weightless = true) :
    loop.registrationLoad bound = 0 ∧ loop.creationLoad bottomMap = 0 ∧
      loop.linkingLoad = 0 := by
  cases loop with
  | linkTaskAccesses low => cases weightless
  | replaceMatching progress => cases weightless
  | enterTaskwait => cases weightless
  | createTaskwait low => cases weightless
  | createTopLevelSink low => cases weightless
  | linkToTaskwait previous region => cases weightless
  | _ => exact ⟨rfl, rfl, rfl⟩

/-- Loops without weight add nothing. -/
theorem sum_of_weightless {load : Work → Nat} {loops : List Work}
    (weightless : ∀ loop ∈ loops, load loop = 0) (rest : List Work) :
    ((loops ++ rest).map load).sum = (rest.map load).sum := by
  rw [List.map_append, List.sum_append, List.sum_eq_zero, Nat.zero_add]
  intro amount isAmount
  obtain ⟨loop, member, rfl⟩ := List.mem_map.mp isAmount
  exact weightless loop member

end Work

namespace Task

variable {before after : Task} {loops rest : List Work}

/-- Other loops take the place of the present ones. -/
theorem lightens_of_work (bound : Nat)
    (status : after.status.isOpen = true → before.status.isOpen = true)
    (objects : after.objects = before.objects)
    (bottomMap : after.subaccessBottomMap = before.subaccessBottomMap)
    (registration : (after.work.map (Work.registrationLoad bound)).sum ≤
      (before.work.map (Work.registrationLoad bound)).sum)
    (creation :
      (after.work.map (Work.creationLoad before.subaccessBottomMap)).sum ≤
        (before.work.map (Work.creationLoad before.subaccessBottomMap)).sum)
    (linking : (after.work.map Work.linkingLoad).sum ≤
      (before.work.map Work.linkingLoad).sum) :
    before.Lightens bound after where
  registration := registration
  creation := by
    unfold creationLoad
    rw [bottomMap]
    refine Nat.add_le_add creation ?_
    split
    · rename_i isOpen
      rw [if_pos (status isOpen)]
    · exact Nat.zero_le _
  linking := linking
  completion := by rw [objects]
  succession := by rw [objects]
  satisfaction := by rw [objects]

/-- Loops without weight take the place of others. -/
theorem lightens_of_loops (bound : Nat)
    (weightless : ∀ loop ∈ loops, loop.weightless = true)
    {dropped : List Work} (working : before.work = dropped ++ rest)
    (goesOn : after.work = loops ++ rest)
    (status : after.status.isOpen = true → before.status.isOpen = true)
    (objects : after.objects = before.objects)
    (bottomMap : after.subaccessBottomMap = before.subaccessBottomMap) :
    before.Lightens bound after := by
  have lighter : ∀ load : Work → Nat, (∀ loop ∈ loops, load loop = 0) →
      (after.work.map load).sum ≤ (before.work.map load).sum := by
    intro load none
    rw [goesOn, working, Work.sum_of_weightless none, List.map_append,
      List.sum_append]
    exact Nat.le_add_left _ _
  have loads := fun loop member =>
    Work.loads_of_weightless bound before.subaccessBottomMap
      (weightless loop member)
  exact lightens_of_work bound status objects bottomMap
    (lighter _ fun loop member => (loads loop member).1)
    (lighter _ fun loop member => (loads loop member).2.1)
    (lighter _ fun loop member => (loads loop member).2.2)

/-- The loop at the head ends. -/
theorem lightens_of_ended (bound : Nat) {head : Work}
    (working : before.work = head :: rest) (ended : after.work = rest)
    (status : after.status.isOpen = true → before.status.isOpen = true)
    (objects : after.objects = before.objects)
    (bottomMap : after.subaccessBottomMap = before.subaccessBottomMap) :
    before.Lightens bound after := by
  have dropping : before.work = [head] ++ rest := working
  have continued : after.work = [] ++ rest := ended
  exact lightens_of_loops bound
    (fun _ member => absurd member List.not_mem_nil) dropping continued status
    objects bottomMap

end Task

namespace System

variable {tasks : Finset TaskId} {bound : Nat} {system next : System}
  {task : TaskId}

/-- No task beyond the given ones appears, and the load does not go up. -/
def Settles (tasks : Finset TaskId) (bound : Nat)
    (system next : System) : Prop :=
  Follows tasks bound system next ∧ Sinks tasks bound system next

theorem settles_of_lightens (follows : Follows tasks bound system next)
    (lightens : ∀ other,
      (system.task other).Lightens bound (next.task other))
    (updates : next.bottomMapUpdates = system.bottomMapUpdates)
    (operations : next.delayedOperations = system.delayedOperations) :
    Settles tasks bound system next :=
  ⟨follows, Or.inl (neverRaises_of_lightens lightens updates operations)⟩

/-- A change of one task adds nothing to the others. -/
theorem lightens_modifyTask (bound : Nat) (system : System) (task : TaskId)
    {change : Task → Task}
    (lightens : (system.task task).Lightens bound
      (change (system.task task))) (other : TaskId) :
    (system.task other).Lightens bound
      ((system.modifyTask task change).task other) := by
  rw [task_modifyTask]
  split
  · rename_i same
    subst same
    exact lightens
  · exact Task.Lightens.refl bound _

theorem settles_modifyTask (system : System) (inside : task ∈ tasks)
    {change : Task → Task}
    (bounded : (system.task task).Bounded bound →
      (change (system.task task)).Bounded bound)
    (lightens : (system.task task).Lightens bound
      (change (system.task task))) :
    Settles tasks bound system (system.modifyTask task change) :=
  settles_of_lightens (system.follows_modifyTask inside bounded)
    (system.lightens_modifyTask bound task lightens) rfl rfl

/-- The operation in progress of a task goes on with loops that have no
weight. -/
theorem lightens_setWork {loops dropped rest : List Work}
    (weightless : ∀ loop ∈ loops, loop.weightless = true)
    (working : (system.task task).work = dropped ++ rest) (other : TaskId) :
    (system.task other).Lightens bound
      ((system.setWork task (loops ++ rest)).task other) :=
  system.lightens_modifyTask bound task
    (Task.lightens_of_loops bound weightless working rfl id rfl rfl) other

theorem settles_setWork (within : Within tasks bound system)
    {head : Work} {loops rest : List Work}
    (weightless : ∀ loop ∈ loops, loop.weightless = true)
    (working : (system.task task).work = head :: rest) :
    Settles tasks bound system (system.setWork task (loops ++ rest)) := by
  have dropping : (system.task task).work = [head] ++ rest := working
  exact settles_of_lightens
    (system.follows_setWork (within.mem_of_work working) _)
    (lightens_setWork weightless dropping) rfl rfl

/-- The loop at the head of the operation in progress ends. -/
theorem settles_endLoop (within : Within tasks bound system) {head : Work}
    {rest : List Work}
    (working : (system.task task).work = head :: rest) :
    Settles tasks bound system (system.setWork task rest) := by
  have ended : Settles tasks bound system
      (system.setWork task ([] ++ rest)) :=
    settles_setWork within (fun _ member => absurd member List.not_mem_nil)
      working
  exact ended

/-! ## Completing objects -/

/-- An object is completed, and the operation in progress goes on with loops
that have no weight. -/
theorem settles_setComplete (within : Within tasks bound system)
    {map : AccessMap} {piece : Piece DataAccess}
    (member : piece ∈ ((system.task task).objects map).pieces)
    {region : DataAccessRegion} (meets : piece.interval.Meets region)
    {head : Work} {loops rest : List Work}
    (weightless : ∀ loop ∈ loops, loop.weightless = true)
    (working : (system.task task).work = head :: rest) :
    Settles tasks bound system
      ((system.changeObject task task map piece region .setComplete).setWork
        task (loops ++ rest)) := by
  have inside := within.mem_of_work working
  have stillWorking :
      ((system.changeObject task task map piece region .setComplete).task
        task).work = [head] ++ rest := by
    rw [task_changeObject, if_pos rfl]
    exact working
  have changed := fun other =>
    lightens_changeObject member bound task other meets
      (Setter.grows_setComplete piece.value)
  have lightens : ∀ other,
      (system.task other).Lightens bound
        (((system.changeObject task task map piece region
          .setComplete).setWork task (loops ++ rest)).task other) :=
    fun other =>
      (changed other).trans (lightens_setWork weightless stillWorking other)
  have follows : Follows tasks bound system
      ((system.changeObject task task map piece region .setComplete).setWork
        task (loops ++ rest)) :=
    (system.follows_changeObject inside task map piece region
      .setComplete).trans (follows_setWork _ inside (loops ++ rest))
  cases complete : piece.value.complete with
  | true =>
      obtain ⟨operations, updates⟩ :=
        setComplete_of_complete system.parent task piece region
          (system.task task).counters complete
      refine settles_of_lightens follows lightens ?_ ?_
      · change (Option.map _ _).toList ++ system.bottomMapUpdates =
          system.bottomMapUpdates
        rw [updates]
        rfl
      · change system.delayedOperations ++ List.map _ _ =
          system.delayedOperations
        rw [operations]
        exact List.append_nil _
  | false =>
      refine ⟨follows, Or.inr ⟨.completion,
        lowersAt_of_lightens lightens (by decide) ?_⟩⟩
      refine Finset.sum_lt_sum (fun other _ => (lightens other).completion)
        ⟨task, inside, ?_⟩
      have before : piece.value.incomplete = 1 := by
        simp [DataAccess.incomplete, complete]
      have lighter :
          (Setter.setComplete.apply piece.value).incomplete <
            piece.value.incomplete := by
        rw [before]
        exact Nat.one_pos
      rw [setWork, task_modifyTask, if_pos rfl]
      exact weighObjects_changeObject_lt member task
        isStatusWeight_incomplete meets lighter

theorem settles_finalizeFragments (within : Within tasks bound system)
    {low : Nat} {rest : List Work}
    (working : (system.task task).work = .finalizeFragments low :: rest) :
    Settles tasks bound system (finalizeFragments system task low rest) := by
  unfold finalizeFragments
  split
  · exact settles_endLoop within working
  · rename_i piece found
    obtain ⟨member, _, _⟩ := IntervalMap.nextFrom_eq_some _ found
    have meets : piece.interval.Meets piece.interval :=
      Interval.meets_self (IntervalMap.nonempty _ piece member)
    have weightless : ∀ loop ∈
        [Work.finalizeFragments piece.interval.stop],
        loop.weightless = true := by
      simp [Work.weightless]
    split
    · exact settles_setWork within weightless working
    · exact settles_setComplete within member meets weightless working

theorem settles_finalizeFragmentsOf (within : Within tasks bound system)
    {region : DataAccessRegion} {rest : List Work}
    (working : (system.task task).work =
      .finalizeFragmentsOf region :: rest) :
    Settles tasks bound system
      (finalizeFragmentsOf system task region rest) := by
  unfold finalizeFragmentsOf
  split
  · exact settles_endLoop within working
  · rename_i piece found
    obtain ⟨member, meets, _⟩ := IntervalMap.firstIn_eq_some _ found
    have weightless : ∀ loop ∈
        [Work.finalizeFragmentsOf
          ⟨(piece.interval.inter region).stop, region.stop⟩],
        loop.weightless = true := by
      simp [Work.weightless]
    exact settles_setComplete within member meets weightless working

theorem settles_finalizeAccess (within : Within tasks bound system)
    {region : DataAccessRegion} {rest : List Work}
    (working : (system.task task).work = .finalizeAccesses region :: rest) :
    Settles tasks bound system (finalizeAccess system task region rest) := by
  unfold finalizeAccess
  split
  · exact settles_endLoop within working
  · rename_i piece found
    obtain ⟨member, meets, _⟩ := IntervalMap.firstIn_eq_some _ found
    split
    · have weightless : ∀ loop ∈
          [Work.finalizeAccesses ⟨piece.interval.stop, region.stop⟩],
          loop.weightless = true := by
        simp [Work.weightless]
      exact settles_setWork within weightless working
    · dsimp only
      split
      · have weightless : ∀ loop ∈
            [Work.finalizeFragmentsOf (piece.interval.inter region),
              Work.finalizeAccesses
                ⟨(piece.interval.inter region).stop, region.stop⟩],
            loop.weightless = true := by
          simp [Work.weightless]
        exact settles_setComplete within member meets weightless working
      · have weightless : ∀ loop ∈
            [Work.finalizeAccesses
              ⟨(piece.interval.inter region).stop, region.stop⟩],
            loop.weightless = true := by
          simp [Work.weightless]
        exact settles_setComplete within member meets weightless working

/-! ## Linking objects to a taskwait -/

/-- The loop goes on with a smaller region. -/
theorem lightens_linkOn {previous : DataAccessLink}
    {region behind : DataAccessRegion} {rest : List Work}
    (working : (system.task task).work =
      .linkToTaskwait previous region :: rest)
    (smaller : regionLoad behind ≤ regionLoad region) (other : TaskId) :
    (system.task other).Lightens bound
      ((system.setWork task
        (.linkToTaskwait previous behind :: rest)).task other) := by
  refine system.lightens_modifyTask bound task ?_ other
  refine Task.lightens_of_work bound id rfl rfl ?_ ?_ ?_
  · rw [working]
    exact le_refl _
  · rw [working]
    exact le_refl _
  · rw [working]
    exact Nat.add_le_add_right smaller _

theorem settles_linkToTaskwait (within : Within tasks bound system)
    {previous : DataAccessLink} {region : DataAccessRegion}
    {rest : List Work}
    (working : (system.task task).work =
      .linkToTaskwait previous region :: rest)
    (linked : linkToTaskwait system task previous region rest = some next) :
    Settles tasks bound system next := by
  have inside := within.mem_of_work working
  unfold linkToTaskwait at linked
  split at linked
  · cases linked
  · split at linked
    · cases linked
      exact settles_endLoop within working
    · rename_i piece found
      cases linked
      obtain ⟨member, meets, _⟩ := IntervalMap.firstIn_eq_some _ found
      have stillWorking :
          ((system.changeObject task previous.task previous.objectType.map
            piece region (.linkTo ⟨task, .taskwait⟩)).task task).work =
            .linkToTaskwait previous region :: rest :=
        (congrArg Control.work (congrFun (control_changeObject system task
          previous.task previous.objectType.map piece region
          (.linkTo ⟨task, .taskwait⟩)) task)).trans working
      have shorter := regionLoad_behind_lt meets
      have lightens : ∀ other,
          (system.task other).Lightens bound
            (((system.changeObject task previous.task
              previous.objectType.map piece region
              (.linkTo ⟨task, .taskwait⟩)).setWork task
              (.linkToTaskwait previous
                ⟨(piece.interval.inter region).stop, region.stop⟩ ::
                rest)).task other) := fun other =>
        (lightens_changeObject member bound task other meets
          (Setter.grows_linkTo ⟨task, .taskwait⟩ piece.value)).trans
          (lightens_linkOn stillWorking shorter.le other)
      refine ⟨(system.follows_changeObject (within.mem_of_piece member) task _
          piece region _).trans (follows_setWork _ inside _),
        Or.inr ⟨.linking, lowersAt_of_lightens lightens (by decide) ?_⟩⟩
      refine Finset.sum_lt_sum (fun other _ => (lightens other).linking)
        ⟨task, inside, ?_⟩
      rw [setWork, task_modifyTask, if_pos rfl]
      unfold Task.linkingLoad
      rw [working]
      exact Nat.add_lt_add_right shorter _

/-! ## Creating taskwait fragments and sinks -/

theorem task_createTaskwaitFragment_of_ne (system : System)
    {task other : TaskId} (differ : other ≠ task)
    (objectType : DataAccessObjectType) (entry : Piece BottomMapEntry) :
    (createTaskwaitFragment system task objectType entry).task other =
      system.task other := by
  unfold createTaskwaitFragment
  dsimp only
  rw [task_modifyTask, if_neg differ, task_createObject, if_neg differ]

/-- What the creation of a taskwait fragment or a sink changes of its task. -/
theorem task_createTaskwaitFragment_self (system : System) (task : TaskId)
    (objectType : DataAccessObjectType) (entry : Piece BottomMapEntry) :
    ∃ fragments counters reports,
      (createTaskwaitFragment system task objectType entry).task task =
        { system.task task with
          objects :=
            Function.update (system.task task).objects .taskwaitFragments
              fragments
          subaccessBottomMap :=
            (system.task task).subaccessBottomMap.replace entry
              entry.interval
              (some ⟨⟨task, objectType⟩, entry.value.accessType⟩)
          counters := counters
          readyReports := reports } := by
  unfold createTaskwaitFragment
  dsimp only
  rw [task_modifyTask, if_pos rfl, task_createObject, if_pos rfl]
  exact ⟨_, _, _, rfl⟩

/-- A loop over a bottom map that creates taskwait fragments or sinks. -/
def IsCreation (loop : Nat → Work) : Prop :=
  loop = .createTaskwait ∨ loop = .createTopLevelSink

theorem IsCreation.loads {loop : Nat → Work} (creates : IsCreation loop)
    (bound low : Nat) (bottomMap : IntervalMap BottomMapEntry) :
    (loop low).registrationLoad bound = 0 ∧
      (loop low).creationLoad bottomMap =
        bottomMap.weighFrom low (fun _ => 1) ∧
      (loop low).linkingLoad = 0 := by
  rcases creates with rfl | rfl
  · exact ⟨rfl, rfl, rfl⟩
  · exact ⟨rfl, rfl, rfl⟩

/-- The loop has come behind the entry, and the bottom map has the same
entries as before. -/
theorem creationLoad_createTaskwaitFragment_lt {loop : Nat → Work}
    (creates : IsCreation loop) {before after : Task} {low : Nat}
    {rest : List Work} (working : before.work = loop low :: rest)
    {entry : Piece BottomMapEntry}
    (found : before.subaccessBottomMap.nextFrom low = some entry)
    (objectType : DataAccessObjectType)
    (goesOn : after.work =
      .linkToTaskwait entry.value.link entry.interval ::
        loop entry.interval.stop :: rest)
    (status : after.status = before.status)
    (replaced : after.subaccessBottomMap =
      before.subaccessBottomMap.replace entry entry.interval
        (some ⟨⟨task, objectType⟩, entry.value.accessType⟩)) :
    after.creationLoad < before.creationLoad := by
  obtain ⟨member, _, _⟩ := IntervalMap.nextFrom_eq_some _ found
  have smaller : ∀ address,
      after.subaccessBottomMap.weighFrom address (fun _ => 1) ≤
        before.subaccessBottomMap.weighFrom address fun _ => 1 := by
    intro address
    rw [replaced]
    exact IntervalMap.weighFrom_replace_le _ address _ member
      (Interval.meets_self (IntervalMap.nonempty _ entry member))
      (le_refl 1)
  have passed :=
    before.subaccessBottomMap.weighFrom_lt_of_nextFrom low (fun _ => 1)
      (fun _ => Nat.one_pos) found
  have behind := smaller entry.interval.stop
  have loops := Task.sum_creationLoad_le smaller rest
  have whole : (if after.status.isOpen then
        after.subaccessBottomMap.weigh fun _ => 1 else 0) ≤
      if before.status.isOpen then
        before.subaccessBottomMap.weigh fun _ => 1 else 0 := by
    rw [status]
    split
    · exact smaller 0
    · exact le_refl _
  have loads := fun address map => (creates.loads 0 address map).2.1
  unfold Task.creationLoad
  rw [goesOn, working]
  simp only [List.map_cons, List.sum_cons, loads]
  rw [Work.creationLoad_linkToTaskwait]
  omega

theorem settles_createTaskwaitFragment (within : Within tasks bound system)
    {loop : Nat → Work} (creates : IsCreation loop) {low : Nat}
    {rest : List Work} (working : (system.task task).work = loop low :: rest)
    {entry : Piece BottomMapEntry}
    (found : (system.task task).subaccessBottomMap.nextFrom low = some entry)
    (objectType : DataAccessObjectType) :
    Settles tasks bound system
      ((createTaskwaitFragment system task objectType entry).setWork task
        (.linkToTaskwait entry.value.link entry.interval ::
          loop entry.interval.stop :: rest)) := by
  have inside := within.mem_of_work working
  obtain ⟨member, _, _⟩ := IntervalMap.nextFrom_eq_some _ found
  obtain ⟨fragments, counters, reports, created⟩ :=
    task_createTaskwaitFragment_self system task objectType entry
  have others : ∀ other, other ≠ task →
      ((createTaskwaitFragment system task objectType entry).setWork task
        (.linkToTaskwait entry.value.link entry.interval ::
          loop entry.interval.stop :: rest)).task other =
        system.task other := by
    intro other differ
    rw [setWork, task_modifyTask, if_neg differ,
      task_createTaskwaitFragment_of_ne system differ]
  refine ⟨⟨?_, ?_⟩, Or.inr ⟨.creation, fun earlier isEarlier => ?_, ?_⟩⟩
  · intro other outside dormant
    rw [others other fun same => outside (same ▸ inside)]
    exact dormant
  · intro other limited
    by_cases same : other = task
    · subst same
      rw [setWork, task_modifyTask, if_pos rfl, created]
      unfold Task.Bounded
      dsimp only
      rw [Function.update_of_ne (by simp)]
      exact limited
    · rw [others other same]
      exact limited
  · have first : earlier = .registration := by
      revert isEarlier
      cases earlier <;> decide
    subst first
    refine Finset.sum_le_sum fun other _ => ?_
    by_cases same : other = task
    · subst same
      rw [setWork, task_modifyTask, if_pos rfl]
      have loads := fun address => (creates.loads bound address .empty).1
      unfold Task.registrationLoad
      rw [working]
      simp only [List.map_cons, List.sum_cons, loads]
      rw [Work.registrationLoad_linkToTaskwait, Nat.zero_add]
    · rw [others other same]
  · have strict :
        (((createTaskwaitFragment system task objectType entry).setWork task
          (.linkToTaskwait entry.value.link entry.interval ::
            loop entry.interval.stop :: rest)).task task).creationLoad <
          (system.task task).creationLoad := by
      rw [setWork, task_modifyTask, if_pos rfl, created]
      exact creationLoad_createTaskwaitFragment_lt creates working found
        objectType rfl rfl rfl
    refine Finset.sum_lt_sum (fun other _ => ?_) ⟨task, inside, strict⟩
    by_cases same : other = task
    · subst same
      exact strict.le
    · rw [others other same]

theorem settles_createTaskwait (within : Within tasks bound system)
    {low : Nat} {rest : List Work}
    (working : (system.task task).work = .createTaskwait low :: rest) :
    Settles tasks bound system (createTaskwait system task low rest) := by
  unfold createTaskwait
  split
  · exact settles_endLoop within working
  · rename_i entry found
    exact settles_createTaskwaitFragment within (Or.inl rfl) working found
      .taskwait

theorem settles_createTopLevelSink (within : Within tasks bound system)
    {low : Nat} {rest : List Work}
    (working : (system.task task).work = .createTopLevelSink low :: rest) :
    Settles tasks bound system
      (createTopLevelSink system task low rest) := by
  unfold createTopLevelSink
  split
  · exact settles_endLoop within working
  · rename_i entry found
    split
    · -- the entry of an access of the task is passed over
      refine settles_modifyTask system (within.mem_of_work working)
        (fun bounded => bounded) ?_
      have passed :=
        (system.task task).subaccessBottomMap.weighFrom_lt_of_nextFrom low
          (fun _ => 1) (fun _ => Nat.one_pos) found
      refine Task.lightens_of_work bound id rfl rfl ?_ ?_ ?_
      · rw [working]
        exact le_refl _
      · rw [working]
        exact Nat.add_le_add_right passed.le _
      · rw [working]
        exact le_refl _
    · exact settles_createTaskwaitFragment within (Or.inr rfl) working found
        .topLevelSink

end System

end Nanos6
